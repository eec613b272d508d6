import Mathlib.Data.List.Basic
import RadioModem.Escape

/-!
# What the detector has seen

The detector keeps a phase and one countdown. `Watched` ties both to the bytes and ticks since the
detector last started over, so a tick that fires ends a whole escape sequence.
-/
namespace RadioModem

/-- What reaches the detector from outside. -/
inductive Signal
  | byte (byte : UInt8)
  | tick
  deriving DecidableEq, Repr

namespace Signal

def plus : Signal := byte escapeByte

def silence (ticks : Nat) : List Signal := List.replicate ticks tick

lemma silence_succ (n : Nat) : silence (n + 1) = silence n ++ [tick] := List.replicate_succ'

end Signal

open Signal

/-- Three plus signs with a guard window of silence before the first and after the last, at the end
of what was seen. Ticks between the plus signs do not matter. -/
def EscapeSequence (guard : Nat) (seen : List Signal) : Prop :=
  ∃ earlier lead first second trail, guard ≤ lead ∧ guard ≤ trail ∧
    seen = earlier ++ silence lead ++ plus :: silence first ++ plus :: silence second ++
      plus :: silence trail

lemma EscapeSequence.of_suffix {guard : Nat} {recent seen : List Signal}
    (h : EscapeSequence guard recent) (hs : recent <:+ seen) : EscapeSequence guard seen := by
  obtain ⟨before, rfl⟩ := hs
  obtain ⟨earlier, lead, first, second, trail, hl, ht, rfl⟩ := h
  exact ⟨before ++ earlier, lead, first, second, trail, hl, ht, by simp⟩

/-- A guard window of silence, then so many plus signs with any silence after each. -/
def Opened (guard : Nat) : Nat → List Signal → Prop
  | 0, seen => ∃ earlier lead, guard ≤ lead ∧ seen = earlier ++ silence lead
  | n + 1, seen => ∃ before gap, Opened guard n before ∧ seen = before ++ plus :: silence gap

lemma Opened.tick {guard n : Nat} {seen : List Signal} (h : Opened guard n seen) :
    Opened guard n (seen ++ [.tick]) := by
  cases n with
  | zero =>
    obtain ⟨earlier, lead, hl, rfl⟩ := h
    exact ⟨earlier, lead + 1, by omega, by simp [silence_succ]⟩
  | succ n =>
    obtain ⟨before, gap, hb, rfl⟩ := h
    exact ⟨before, gap + 1, hb, by simp [silence_succ]⟩

lemma Opened.plus {guard n : Nat} {seen : List Signal} (h : Opened guard n seen) :
    Opened guard (n + 1) (seen ++ [Signal.plus]) := ⟨seen, 0, h, rfl⟩

lemma Opened.escapeSequence {guard trail : Nat} {before : List Signal}
    (h : Opened guard 2 before) (ht : guard ≤ trail) :
    EscapeSequence guard (before ++ Signal.plus :: silence trail) := by
  obtain ⟨_, second, ⟨_, first, ⟨earlier, lead, hl, rfl⟩, rfl⟩, rfl⟩ := h
  exact ⟨earlier, lead, first, second, trail, hl, ht, rfl⟩

namespace EscapeDetector

/-- What a phase says about the past. In the two phases that wait for silence, the ticks seen and
the ticks left make up a guard window at least. -/
def Progress (d : EscapeDetector) (seen : List Signal) : Prop :=
  match d.phase with
  | .idle => ∃ earlier quiet, d.guard ≤ quiet + d.countdown ∧ seen = earlier ++ silence quiet
  | .seen1 => Opened d.guard 0 seen
  | .seen2 => Opened d.guard 1 seen
  | .seen3 => Opened d.guard 2 seen
  | .armed => ∃ before trail, Opened d.guard 2 before ∧ d.guard ≤ trail + d.countdown ∧
      seen = before ++ plus :: silence trail

structure Watched (d : EscapeDetector) (seen : List Signal) : Prop where
  bounded : d.countdown ≤ d.guard
  progress : d.Progress seen

@[simp] lemma onByte_guard (d : EscapeDetector) (byte : UInt8) :
    (d.onByte byte).guard = d.guard := by
  unfold onByte onPlus idle
  split
  · cases d.phase <;> rfl
  · rfl

@[simp] lemma onTick_guard (d : EscapeDetector) : d.onTick.guard = d.guard := by
  unfold onTick idle
  split
  · cases d.phase <;> rfl
  · rfl

@[simp] lemma restartWindow_guard (d : EscapeDetector) : d.restartWindow.guard = d.guard := rfl

lemma elapses_iff (d : EscapeDetector) : d.elapses = true ↔ d.countdown = 1 := by simp [elapses]

lemma fires_iff (d : EscapeDetector) :
    d.fires = true ↔ d.countdown = 1 ∧ d.phase = .armed := by simp [fires, elapses]

lemma watched_idle (d : EscapeDetector) (seen : List Signal) : Watched d.idle seen :=
  ⟨Nat.le_refl _, seen, 0, by simp [idle], by simp [silence]⟩

lemma watched_ofGuard (guard : Nat) : Watched (ofGuard guard) [] :=
  ⟨Nat.le_refl _, [], 0, by simp [ofGuard], rfl⟩

lemma onTick_of_fires {d : EscapeDetector} (h : d.fires = true) : d.onTick = d.idle := by
  obtain ⟨hc, hp⟩ := (fires_iff d).mp h
  simp [onTick, elapses, hc, hp]

/-- A plus sign moves the sequence on where one was due. -/
lemma Watched.onPlus {d : EscapeDetector} {seen : List Signal} (h : Watched d seen) :
    Watched d.onPlus (seen ++ [plus]) := by
  have hp := h.progress
  unfold EscapeDetector.onPlus
  cases hd : d.phase with
  | idle | armed => exact watched_idle d _
  | seen1 | seen2 =>
    simp only [Progress, hd] at hp
    exact ⟨h.bounded, hp.plus⟩
  | seen3 =>
    simp only [Progress, hd] at hp
    exact ⟨Nat.le_refl _, seen, 0, hp, by simp, rfl⟩

theorem Watched.onByte {d : EscapeDetector} {seen : List Signal} (h : Watched d seen)
    (byte : UInt8) : Watched (d.onByte byte) (seen ++ [.byte byte]) := by
  unfold EscapeDetector.onByte
  split
  · next he =>
    subst he
    exact h.onPlus
  · exact watched_idle d _

lemma onTick_bounded {d : EscapeDetector} (h : d.countdown ≤ d.guard) :
    d.onTick.countdown ≤ d.onTick.guard := by
  rw [onTick_guard]
  unfold onTick
  split
  · cases d.phase <;> simp [idle]
  · exact Nat.le_trans (Nat.sub_le _ _) h

lemma onTick_of_not_elapses {d : EscapeDetector} (h : d.elapses = false) :
    d.onTick = { d with countdown := d.countdown - 1 } := by simp [onTick, h]

theorem Watched.onTick {d : EscapeDetector} {seen : List Signal} (h : Watched d seen)
    (hf : d.fires = false) : Watched d.onTick (seen ++ [.tick]) := by
  obtain ⟨hb, hp⟩ := h
  refine ⟨onTick_bounded hb, ?_⟩
  cases he : d.elapses with
  | true =>
    -- The window ends: only the idle phase moves on, since an armed detector would fire.
    have hc := (elapses_iff d).mp he
    cases hd : d.phase with
    | idle =>
      simp only [Progress, hd] at hp
      obtain ⟨earlier, quiet, hq, rfl⟩ := hp
      have ho : Opened d.guard 0 (earlier ++ silence quiet ++ [.tick]) :=
        ⟨earlier, quiet + 1, by omega, by simp [silence_succ]⟩
      simpa only [Progress, EscapeDetector.onTick, he, hd, if_true] using ho
    | armed => simp [EscapeDetector.fires, he, hd] at hf
    | seen1 | seen2 | seen3 =>
      simp only [Progress, hd] at hp
      simpa only [Progress, EscapeDetector.onTick, he, hd, if_true] using hp.tick
  | false =>
    rw [onTick_of_not_elapses he]
    cases hd : d.phase with
    | idle =>
      simp only [Progress, hd] at hp ⊢
      obtain ⟨earlier, quiet, hq, rfl⟩ := hp
      exact ⟨earlier, quiet + 1, by omega, by simp [silence_succ]⟩
    | armed =>
      simp only [Progress, hd] at hp ⊢
      obtain ⟨before, trail, ho, ht, rfl⟩ := hp
      exact ⟨before, trail + 1, ho, by omega, by simp [silence_succ]⟩
    | seen1 | seen2 | seen3 =>
      simp only [Progress, hd] at hp ⊢
      exact hp.tick

/-- A window started again is longer than it had to be. -/
theorem Watched.restartWindow {d : EscapeDetector} {seen : List Signal} (h : Watched d seen) :
    Watched d.restartWindow seen := by
  obtain ⟨-, hp⟩ := h
  refine ⟨Nat.le_refl _, ?_⟩
  cases hd : d.phase with
  | idle =>
    simp only [Progress, hd, EscapeDetector.restartWindow] at hp ⊢
    obtain ⟨earlier, quiet, -, rfl⟩ := hp
    exact ⟨earlier, quiet, by omega, rfl⟩
  | armed =>
    simp only [Progress, hd, EscapeDetector.restartWindow] at hp ⊢
    obtain ⟨before, trail, ho, -, rfl⟩ := hp
    exact ⟨before, trail, ho, by omega, rfl⟩
  | seen1 | seen2 | seen3 => simpa only [Progress, hd, EscapeDetector.restartWindow] using hp

/-- The tick that fires ends a whole sequence. -/
theorem Watched.escapeSequence {d : EscapeDetector} {seen : List Signal} (h : Watched d seen)
    (hf : d.fires = true) : 1 ≤ d.guard ∧ EscapeSequence d.guard (seen ++ [.tick]) := by
  obtain ⟨hb, hp⟩ := h
  obtain ⟨hc, hd⟩ := (fires_iff d).mp hf
  simp only [Progress, hd] at hp
  obtain ⟨before, trail, ho, ht, rfl⟩ := hp
  refine ⟨by omega, ?_⟩
  have hs : before ++ plus :: silence trail ++ [Signal.tick] =
      before ++ plus :: silence (trail + 1) := by simp [silence_succ]
  rw [hs]
  exact ho.escapeSequence (by omega)

end EscapeDetector

end RadioModem
