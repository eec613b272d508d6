import Mathlib.Data.List.Nodup
import RadioModem.Proofs.Countdown

/-!
# The guard window

Bytes, ticks and restarts all leave a window running where silence is waited for. So silence moves
a detector on within a guard window, unless it stands between plus signs, where silence means
nothing and a window may run out unnoticed.
-/
namespace RadioModem.EscapeDetector
open Signal

/-- What bytes, ticks and restarts of its window can make of a fresh detector. -/
inductive Reachable (guard : Nat) : EscapeDetector → Prop
  | fresh : Reachable guard (ofGuard guard)
  | byte {d : EscapeDetector} (h : Reachable guard d) (byte : UInt8) :
      Reachable guard (d.onByte byte)
  | tick {d : EscapeDetector} (h : Reachable guard d) : Reachable guard d.onTick
  | restart {d : EscapeDetector} (h : Reachable guard d) : Reachable guard d.restartWindow

variable {guard : Nat} {d : EscapeDetector}

lemma Reachable.guard_eq (h : Reachable guard d) : d.guard = guard := by
  induction h with
  | fresh => rfl
  | byte _ byte ih => exact (onByte_guard _ byte).trans ih
  | tick _ ih => exact (onTick_guard _).trans ih
  | restart _ ih => exact ih

lemma Reachable.wound (h : Reachable guard d) : d.Wound := by
  induction h with
  | fresh => exact wound_ofGuard guard
  | byte _ byte ih => exact ih.onByte byte
  | tick _ ih => exact ih.onTick
  | restart _ _ => exact wound_restartWindow _

/-- Up to the last tick of its window a detector that waits for its first silence goes on waiting,
and from that tick on it watches for a plus sign. -/
lemma phase_silence_idle (h : d.phase = .idle) (hc : 1 ≤ d.countdown) (n : Nat) :
    (d.after (silence n)).phase = if n < d.countdown then .idle else .seen1 := by
  split
  · next hn => rw [after_silence_running hn, h]
  · next hn => exact after_silence_idle h hc (Nat.le_of_not_lt hn)

lemma count_firings_armed {n : Nat} (h : d.phase = .armed) (hc : 1 ≤ d.countdown)
    (hn : d.countdown ≤ n) : (d.firings (silence n)).count true = 1 := by
  have hlast : ∀ k ∈ List.range n, (d.after (silence k)).fires = true ↔
      (k == d.countdown - 1) = true := by
    intro k _
    rw [fires_after_silence h hc, beq_iff_eq]
    omega
  have hmem : d.countdown - 1 ∈ List.range n := List.mem_range.mpr (by omega)
  calc (d.firings (silence n)).count true
      = (List.range n).countP fun k => (d.after (silence k)).fires := by
        rw [firings_silence_eq, List.count_eq_countP, List.countP_map]
        exact List.countP_congr fun k _ => by simp
    _ = (List.range n).count (d.countdown - 1) := List.countP_congr hlast
    _ = 1 := List.count_eq_one_of_mem List.nodup_range hmem

/-- Where silence is waited for, a window runs that is no longer than the guard. With its last tick
the sequence opens or the detector fires, then and not again; between the signs silence changes
nothing, whatever is left of the window. -/
theorem silence_moves_on (h : Reachable guard d) (hg : 1 ≤ guard) :
    d.countdown ≤ guard ∧
    (d.phase = .idle ∨ d.phase = .armed → 1 ≤ d.countdown) ∧
    (∀ n < d.countdown, d.after (silence n) = { d with countdown := d.countdown - n }) ∧
    (d.phase = .idle → ∀ n,
      (d.after (silence n)).phase = if n < d.countdown then .idle else .seen1) ∧
    (d.phase = .armed →
      (∀ n, (d.after (silence n)).fires = true ↔ n + 1 = d.countdown) ∧
      ∀ n, d.countdown ≤ n → (d.firings (silence n)).count true = 1) ∧
    (d.phase ≠ .idle → d.phase ≠ .armed → ∀ left n,
      ({ d with countdown := left }.after (silence n)).phase = d.phase ∧
      true ∉ { d with countdown := left }.firings (silence n)) := by
  have hrunning := h.wound.running (h.guard_eq.symm ▸ hg)
  refine ⟨h.guard_eq ▸ h.wound.bounded, hrunning, fun n => after_silence_running, ?_, ?_, ?_⟩
  · intro hidle
    exact phase_silence_idle hidle (hrunning (.inl hidle))
  · intro harmed
    have hleft := hrunning (.inr harmed)
    exact ⟨fires_after_silence harmed hleft, fun n => count_firings_armed harmed hleft⟩
  · intro hidle harmed left n
    exact ⟨after_silence_seen (d := { d with countdown := left }) hidle harmed n,
      firings_silence (d := { d with countdown := left }) harmed n⟩

/-- A guard of two ticks, with the window restarted behind the signs and a tick gone by. -/
theorem silence_moves_on_armed :
    Reachable 2 ⟨2, .armed, 1⟩ ∧ 1 ≤ 2 ∧
      ((⟨2, .armed, 1⟩ : EscapeDetector).firings (silence 2)).count true = 1 := by
  have hseen : Reachable 2 ⟨2, .seen1, 0⟩ := .tick (.tick .fresh)
  have harmed : Reachable 2 ⟨2, .armed, 2⟩ :=
    ((hseen.byte escapeByte).byte escapeByte).byte escapeByte
  have hreach : Reachable 2 ⟨2, .armed, 1⟩ := harmed.tick.restart.tick
  have hguard : 1 ≤ 2 := by decide
  obtain ⟨-, -, -, -, hfires, -⟩ := silence_moves_on hreach hguard
  exact ⟨hreach, hguard, (hfires rfl).2 2 (by decide)⟩

end RadioModem.EscapeDetector
