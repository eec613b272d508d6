import RadioModem.Proofs.Escape

/-!
# The countdown

A detector that waits for silence has a window running, so silence moves it on. From rest, a guard
window, three plus signs and a second guard window make it fire on the last tick and on no other.
-/
namespace RadioModem
open Signal

namespace Signal

def signs : List Signal := [plus, plus, plus]

/-- The escape sequence as it is sent, with this much silence around the signs. -/
def escape (lead trail : Nat) : List Signal := silence lead ++ signs ++ silence trail

lemma silence_cons (n : Nat) : silence (n + 1) = tick :: silence n := List.replicate_succ

lemma silence_add (m n : Nat) : silence (m + n) = silence m ++ silence n :=
  List.replicate_add m n _

lemma escape_succ (lead trail : Nat) : escape lead (trail + 1) = escape lead trail ++ [tick] := by
  simp [escape, silence_succ]

end Signal

namespace EscapeDetector

/-- No window is longer than the guard, and one that is waited for has a tick left. -/
structure Wound (d : EscapeDetector) : Prop where
  bounded : d.countdown ≤ d.guard
  running : 1 ≤ d.guard → d.phase = .idle ∨ d.phase = .armed → 1 ≤ d.countdown

variable {d : EscapeDetector}

lemma wound_ofGuard (guard : Nat) : (ofGuard guard).Wound := ⟨Nat.le_refl _, fun hg _ => hg⟩

lemma wound_idle (d : EscapeDetector) : d.idle.Wound := ⟨Nat.le_refl _, fun hg _ => hg⟩

lemma wound_restartWindow (d : EscapeDetector) : d.restartWindow.Wound :=
  ⟨Nat.le_refl _, fun hg _ => hg⟩

lemma Wound.onByte (h : d.Wound) (byte : UInt8) : (d.onByte byte).Wound := by
  unfold EscapeDetector.onByte EscapeDetector.onPlus
  split
  · cases hd : d.phase with
    | idle | armed => exact wound_idle d
    | seen1 | seen2 => exact ⟨h.bounded, by simp⟩
    | seen3 => exact ⟨Nat.le_refl _, fun hg _ => hg⟩
  · exact wound_idle d

lemma Wound.onTick (h : d.Wound) : d.onTick.Wound := by
  refine ⟨onTick_bounded h.bounded, fun hg hwait => ?_⟩
  rw [onTick_guard] at hg
  cases he : d.elapses with
  | true =>
    cases hd : d.phase with
    | idle | seen1 | seen2 | seen3 => simp [EscapeDetector.onTick, he, hd] at hwait
    | armed => simpa [EscapeDetector.onTick, he, hd, EscapeDetector.idle] using hg
  | false =>
    -- The window goes on: it had a tick left, and it was not the last one.
    rw [onTick_of_not_elapses he] at hwait ⊢
    have hleft := h.running hg hwait
    have hlast : d.countdown ≠ 1 := fun hc => by simp [(elapses_iff d).mpr hc] at he
    show 1 ≤ d.countdown - 1
    omega

/-! ### Runs of signals -/

def next (d : EscapeDetector) : Signal → EscapeDetector
  | .byte b => d.onByte b
  | .tick => d.onTick

def after (d : EscapeDetector) : List Signal → EscapeDetector
  | [] => d
  | s :: rest => (d.next s).after rest

def firesOn (d : EscapeDetector) : Signal → Bool
  | .byte _ => false
  | .tick => d.fires

/-- For each signal of a run, whether the detector fires on it. -/
def firings (d : EscapeDetector) : List Signal → List Bool
  | [] => []
  | s :: rest => d.firesOn s :: (d.next s).firings rest

lemma after_append (d : EscapeDetector) (xs ys : List Signal) :
    d.after (xs ++ ys) = (d.after xs).after ys := by
  induction xs generalizing d with
  | nil => rfl
  | cons s xs ih => exact ih _

lemma firings_append (d : EscapeDetector) (xs ys : List Signal) :
    d.firings (xs ++ ys) = d.firings xs ++ (d.after xs).firings ys := by
  induction xs generalizing d with
  | nil => rfl
  | cons s xs ih => exact congrArg _ (ih _)

@[simp] lemma next_guard (d : EscapeDetector) (s : Signal) : (d.next s).guard = d.guard := by
  cases s <;> simp [next]

@[simp] lemma after_guard (d : EscapeDetector) (ss : List Signal) :
    (d.after ss).guard = d.guard := by
  induction ss generalizing d with
  | nil => rfl
  | cons s ss ih => exact (ih _).trans (next_guard d s)

/-- Waiting for silence or for the first plus sign, with none of a sequence seen. -/
def Resting (d : EscapeDetector) : Prop := d.phase = .idle ∨ d.phase = .seen1

lemma Resting.not_armed (h : d.Resting) : d.phase ≠ .armed := by
  rcases h with h | h <;> simp [h]

lemma fires_of_not_armed (h : d.phase ≠ .armed) : d.fires = false := by simp [fires, h]

lemma Resting.onTick (h : d.Resting) : d.onTick.Resting := by
  cases he : d.elapses with
  | true => rcases h with h | h <;> simp [Resting, EscapeDetector.onTick, he, h]
  | false =>
    rw [onTick_of_not_elapses he]
    exact h

lemma resting_onByte {byte : UInt8} (h : byte ≠ escapeByte) : (d.onByte byte).Resting := by
  rw [EscapeDetector.onByte, if_neg h]
  exact .inl rfl

/-! ### Silence -/

lemma onTick_not_armed (h : d.phase ≠ .armed) : d.onTick.phase ≠ .armed := by
  unfold onTick
  split
  · cases hd : d.phase with
    | armed => exact absurd hd h
    | idle | seen1 | seen2 | seen3 => simp
  · exact h

lemma after_silence_not_armed (h : d.phase ≠ .armed) (n : Nat) :
    (d.after (silence n)).phase ≠ .armed := by
  induction n generalizing d with
  | zero => exact h
  | succ n ih => exact ih (onTick_not_armed h)

lemma firings_silence_eq (d : EscapeDetector) (n : Nat) :
    d.firings (silence n) = (List.range n).map fun k => (d.after (silence k)).fires := by
  induction n with
  | zero => rfl
  | succ n ih =>
    rw [silence_succ, firings_append, ih, List.range_succ, List.map_append]
    rfl

lemma mem_firings_silence {n : Nat} :
    true ∈ d.firings (silence n) ↔ ∃ k < n, (d.after (silence k)).fires = true := by
  simp only [firings_silence_eq, List.mem_map, List.mem_range]

/-- Only a detector that is armed fires in silence. -/
lemma firings_silence (h : d.phase ≠ .armed) (n : Nat) : true ∉ d.firings (silence n) := by
  rw [mem_firings_silence]
  rintro ⟨k, -, hfires⟩
  simp [fires_of_not_armed (after_silence_not_armed h k)] at hfires

lemma onTick_phase (hi : d.phase ≠ .idle) (ha : d.phase ≠ .armed) : d.onTick.phase = d.phase := by
  unfold onTick
  split
  · cases hd : d.phase with
    | idle => exact absurd hd hi
    | armed => exact absurd hd ha
    | seen1 | seen2 | seen3 => rfl
  · rfl

/-- Between plus signs silence does nothing. -/
lemma after_silence_seen (hi : d.phase ≠ .idle) (ha : d.phase ≠ .armed) (n : Nat) :
    (d.after (silence n)).phase = d.phase := by
  induction n generalizing d with
  | zero => rfl
  | succ n ih =>
    have hp := onTick_phase hi ha
    exact (ih (by rwa [next, hp]) (by rwa [next, hp])).trans hp

/-! ### The end of a window -/

/-- The tick that ends the running window. -/
def elapsed (d : EscapeDetector) : EscapeDetector := { d with countdown := 1 }.onTick

lemma elapsed_idle (h : d.phase = .idle) : d.elapsed.phase = .seen1 := by
  simp [elapsed, onTick, elapses, h]

lemma elapsed_armed (h : d.phase = .armed) : d.elapsed = d.idle := by
  simp [elapsed, onTick, elapses, idle, h]

/-- Until the last tick of its window a detector only counts. -/
lemma after_silence_running {n : Nat} (hn : n < d.countdown) :
    d.after (silence n) = { d with countdown := d.countdown - n } := by
  induction n with
  | zero => rfl
  | succ n ih =>
    have hleft : d.countdown - n ≠ 1 := by omega
    have hcounts : { d with countdown := d.countdown - n }.elapses = false := by
      simpa [elapses] using hleft
    rw [silence_succ, after_append, ih (by omega)]
    exact onTick_of_not_elapses hcounts

/-- Its window behind it, a detector has been through the last tick and the silence since. -/
lemma after_silence_elapsed {n : Nat} (hc : 1 ≤ d.countdown) (hn : d.countdown ≤ n) :
    d.after (silence n) = d.elapsed.after (silence (n - d.countdown)) := by
  have hbefore : d.after (silence (d.countdown - 1)) = { d with countdown := 1 } := by
    rw [after_silence_running (by omega), Nat.sub_sub_self hc]
  have hsplit : silence n = silence (d.countdown - 1) ++ tick :: silence (n - d.countdown) := by
    rw [← silence_cons, ← silence_add]
    congr 1
    omega
  rw [hsplit, after_append, hbefore]
  rfl

lemma after_silence_idle {n : Nat} (h : d.phase = .idle) (hc : 1 ≤ d.countdown)
    (hn : d.countdown ≤ n) : (d.after (silence n)).phase = .seen1 := by
  have hseen := elapsed_idle h
  rw [after_silence_elapsed hc hn, after_silence_seen (by simp [hseen]) (by simp [hseen]), hseen]

lemma after_silence_resting {n : Nat} (hw : d.Wound) (hg : 1 ≤ d.guard) (hr : d.Resting)
    (hn : d.guard ≤ n) : (d.after (silence n)).phase = .seen1 := by
  rcases hr with h | h
  · exact after_silence_idle h (hw.running hg (.inl h)) (Nat.le_trans hw.bounded hn)
  · exact (after_silence_seen (by simp [h]) (by simp [h]) n).trans h

/-- An armed detector fires on the last tick of its window, and on no other. -/
lemma fires_after_silence (h : d.phase = .armed) (hc : 1 ≤ d.countdown) (n : Nat) :
    (d.after (silence n)).fires = true ↔ n + 1 = d.countdown := by
  by_cases hn : n < d.countdown
  · rw [after_silence_running hn, fires_iff, and_iff_left (show _ = EscapePhase.armed from h)]
    show d.countdown - n = 1 ↔ n + 1 = d.countdown
    omega
  · have hidle : d.elapsed.phase ≠ .armed := by simp [elapsed_armed h, idle]
    rw [after_silence_elapsed hc (Nat.le_of_not_lt hn),
      fires_of_not_armed (after_silence_not_armed hidle _)]
    exact iff_of_false Bool.false_ne_true (by omega)

/-! ### The whole sequence -/

lemma firings_signs (d : EscapeDetector) : true ∉ d.firings signs := by
  simp [signs, firings, firesOn, plus]

lemma after_signs_seen1 (h : d.phase = .seen1) :
    (d.after signs).phase = .armed ∧ (d.after signs).countdown = d.guard := by
  simp [signs, after, next, plus, onByte, onPlus, h]

/-- The third sign is one too many for a detector that has seen one or two already. -/
lemma after_signs_seen (h : d.phase = .seen2 ∨ d.phase = .seen3) :
    (d.after signs).phase = .idle := by
  rcases h with h | h <;> simp [signs, after, next, plus, onByte, onPlus, idle, h]

/-- From rest the sequence fires on its last tick, and on no other. -/
theorem firings_escape {n : Nat} (hw : d.Wound) (hg : 1 ≤ d.guard) (hr : d.Resting)
    (hn : d.guard ≤ n) :
    true ∉ d.firings (escape n (d.guard - 1)) ∧ (d.after (escape n (d.guard - 1))).fires = true := by
  obtain ⟨harmed, hcount⟩ := after_signs_seen1 (after_silence_resting hw hg hr hn)
  rw [after_guard] at hcount
  have hfires := fires_after_silence harmed (by omega)
  simp only [escape, firings_append, after_append, List.mem_append, not_or]
  refine ⟨⟨⟨firings_silence hr.not_armed n, firings_signs _⟩, ?_⟩, (hfires _).mpr (by omega)⟩
  rw [mem_firings_silence]
  rintro ⟨k, hk, hearly⟩
  have hlast := (hfires k).mp hearly
  omega

/-- An armed detector fires in any silence that is as long as its guard window. -/
lemma fires_in_silence (hw : d.Wound) (hg : 1 ≤ d.guard) (ha : d.phase = .armed) :
    true ∈ d.firings (silence d.guard) := by
  have hleft := hw.running hg (.inr ha)
  have hbounded := hw.bounded
  exact mem_firings_silence.mpr ⟨d.countdown - 1, by omega,
    (fires_after_silence ha hleft _).mpr (by omega)⟩

/-- With a guard window on both sides the signs make the detector fire, unless one or two of an
earlier sequence still count. -/
theorem fires_in_escape_iff (hw : d.Wound) (hg : 1 ≤ d.guard) :
    true ∈ d.firings (escape d.guard d.guard) ↔ d.phase ≠ .seen2 ∧ d.phase ≠ .seen3 := by
  constructor
  · intro hfires
    by_contra hseen
    have hp : d.phase = .seen2 ∨ d.phase = .seen3 := by
      by_contra hnone
      exact hseen (not_or.mp hnone)
    have hquiet : (d.after (silence d.guard)).phase = d.phase :=
      after_silence_seen (by rcases hp with h | h <;> simp [h])
        (by rcases hp with h | h <;> simp [h]) d.guard
    have hidle := after_signs_seen (d := d.after (silence d.guard)) (by rwa [hquiet])
    rw [escape, firings_append, firings_append, after_append] at hfires
    simp only [List.mem_append] at hfires
    rcases hfires with (h | h) | h
    · exact firings_silence (by rcases hp with h | h <;> simp [h]) d.guard h
    · exact firings_signs _ h
    · exact firings_silence (by simp [hidle]) d.guard h
  · rintro ⟨h2, h3⟩
    by_cases ha : d.phase = .armed
    · rw [escape, firings_append, firings_append]
      exact List.mem_append_left _ (List.mem_append_left _ (fires_in_silence hw hg ha))
    · have hr : d.Resting := by
        cases hd : d.phase with
        | idle => exact .inl hd
        | seen1 => exact .inr hd
        | seen2 => exact absurd hd h2
        | seen3 => exact absurd hd h3
        | armed => exact absurd hd ha
      obtain ⟨-, hlast⟩ := firings_escape hw hg hr (Nat.le_refl _)
      have hsplit : escape d.guard d.guard = escape d.guard (d.guard - 1) ++ [.tick] := by
        rw [← escape_succ, Nat.sub_add_cancel hg]
      rw [hsplit, firings_append]
      exact List.mem_append_right _ (List.mem_singleton.mpr hlast.symm)

end EscapeDetector

end RadioModem
