import RadioModem.Proofs.Countdown
import RadioModem.Proofs.ModemInvariant

/-!
# Complete escapes

A guard window, three plus signs and a guard window leave any modem in command mode with the
attention line waiting. Signs before the first window are the one thing in the way: one or two of
them still count after any silence, and make the last of the three a sign too many.
-/
namespace RadioModem

def ModemEvent.ofSignal : Signal → ModemEvent
  | .byte b => .byte b
  | .tick => .tick

namespace Modem
variable {β : Type} [Board β] {m : Modem} {settings : ModemSettings}

/-- In command mode, with the attention line waiting to be run. -/
def Attending (m : Modem) : Prop :=
  m.commandMode = true ∧ m.ready = true ∧ m.text = attentionLine
  deriving Decidable

lemma kept_wound (settings : ModemSettings) : Kept settings (·.escape.Wound) where
  fresh := EscapeDetector.wound_ofGuard _
  byte byte _ hm := by
    rw [onByte_escape]
    exact hm.onByte byte
  tick b _ hm := by
    rw [onTick_escape]
    exact hm.onTick
  poll b _ hm := by
    rcases (poll_polled _ b).escape with hp | hp
    · rwa [hp]
    · rw [hp]
      exact EscapeDetector.wound_restartWindow _

lemma kept_guard (settings : ModemSettings) :
    Kept settings (·.escape.guard = settings.guardTicks) where
  fresh := rfl
  byte byte _ hm := by rwa [onByte_escape, EscapeDetector.onByte_guard]
  tick b _ hm := by rwa [onTick_escape, EscapeDetector.onTick_guard]
  poll b _ hm := by
    rcases (poll_polled _ b).escape with hp | hp
    · rwa [hp]
    · rwa [hp, EscapeDetector.restartWindow_guard]

lemma Reachable.wound (h : Reachable settings m) : m.escape.Wound := (kept_wound settings).holds h

lemma Reachable.guard (h : Reachable settings m) : m.escape.guard = settings.guardTicks :=
  (kept_guard settings).holds h

lemma byte_attending_iff {byte : UInt8} (hcr : byte ≠ 0x0D) :
    (m.onByte byte).modem.Attending ↔ m.Attending := by
  have hreceived := onByte_received m byte
  revert hreceived
  generalize m.onByte byte = s
  intro hreceived
  cases hreceived with
  | data | waiting => exact Iff.rfl
  | ended hc hr hb => exact absurd hb hcr
  | typed hc hr | overflowed hc hr => simp [Attending, hr]

lemma tick_attending_iff (hs : m.Sound) (hc : 2 ≤ m.settings.capacity) (b : β) :
    (m.onTick b).modem.Attending ↔ m.escape.fires = true ∨ m.Attending := by
  cases hf : m.escape.fires with
  | true =>
    have hroom : 2 ≤ m.line.capacity := by rwa [hs.capacity]
    rw [(onTick_fires hf).1]
    exact iff_of_true ⟨rfl, rfl, text_attention hroom⟩ (.inl rfl)
  | false =>
    rw [onTick_quiet hf]
    simp [Attending, text]

/-- Without a carriage return or a poll, the attention line waits at the end of a run if the
detector fires in it, or if it has waited before. -/
theorem after_attending_iff (hs : m.Sound) (hc : 2 ≤ m.settings.capacity) (b : β)
    {ss : List Signal} (hcr : .byte 0x0D ∉ ss) :
    (m.after b (ss.map .ofSignal)).1.Attending ↔ true ∈ m.escape.firings ss ∨ m.Attending := by
  induction ss generalizing m b with
  | nil => simp [after, EscapeDetector.firings]
  | cons s ss ih =>
    obtain ⟨hfirst, hrest⟩ := not_or.mp (mt List.mem_cons.mpr hcr)
    cases s with
    | byte byte =>
      have hstep := ih (m := (m.onByte byte).modem) ((onByte_received m byte).sound hs)
        (by rwa [onByte_settings]) b hrest
      rw [onByte_escape, byte_attending_iff fun h => hfirst (h ▸ rfl)] at hstep
      simpa [after, next, ModemEvent.ofSignal, EscapeDetector.firings, EscapeDetector.firesOn,
        EscapeDetector.next] using hstep
    | tick =>
      have hstep := ih (m := (m.onTick b).modem) (hs.onTick b) (by rwa [onTick_settings])
        (m.onTick b).board hrest
      rw [onTick_escape, tick_attending_iff hs hc] at hstep
      simpa [after, next, ModemEvent.ofSignal, EscapeDetector.firings, EscapeDetector.firesOn,
        EscapeDetector.next, or_assoc, or_left_comm] using hstep

/-- The events of an escape that nothing interrupts, with one guard window on either side. -/
def escapeEvents (guard : Nat) : List ModemEvent := (Signal.escape guard guard).map .ofSignal

/-- An escape is answered from every state but those that have seen one or two signs of another. -/
theorem escape_answered_iff (h : Reachable settings m) (hg : 1 ≤ settings.guardTicks)
    (hc : 2 ≤ settings.capacity) (b : β) :
    (m.after b (escapeEvents settings.guardTicks)).1.Attending ↔
      (m.escape.phase ≠ .seen2 ∧ m.escape.phase ≠ .seen3) ∨ m.Attending := by
  have hguard := h.guard
  have hcr : Signal.byte 0x0D ∉ Signal.escape settings.guardTicks settings.guardTicks := by
    simp [Signal.escape, Signal.silence, Signal.signs, Signal.plus, escapeByte]
  rw [escapeEvents, after_attending_iff h.sound (by rwa [h.settings_eq]) b hcr, ← hguard,
    EscapeDetector.fires_in_escape_iff h.wound (by rwa [hguard])]

/-- A line in command mode that the signs have overrun, and a tick of the second window. -/
def overrun : Modem :=
  let bench := Bench.ofNode 0
  let signed := (((((ofSettings ⟨4, 2, .basic⟩).onTick bench).modem.onTick bench).modem).feed
    [0x2B, 0x2B, 0x2B]).modem
  let typing := ((((signed.onTick bench).modem.onTick bench).modem.poll bench).modem.feed
    [0x41, 0x54]).modem
  ((((typing.onTick bench).modem.onTick bench).modem.feed [0x2B, 0x2B, 0x2B]).modem.onTick
    bench).modem

theorem escape_answered_iff_overrun : Reachable ⟨4, 2, .basic⟩ overrun ∧
    overrun.commandMode = false ∧ overrun.escape.phase = .armed ∧
    (overrun.after (Bench.ofNode 0) (escapeEvents 2)).1.Attending := by
  have hreach : Reachable ⟨4, 2, .basic⟩ overrun :=
    .tick _ (.feed _ (.tick _ (.tick _ (.feed _ (.poll _ (.tick _ (.tick _
      (.feed _ (.tick _ (.tick _ .fresh))))))))))
  have harmed : overrun.escape.phase = .armed := by decide +kernel
  exact ⟨hreach, by decide +kernel, harmed,
    (escape_answered_iff hreach (by decide) (by decide) _).mpr (.inl (by simp [harmed]))⟩

/-- A sign that was sent before the first window loses the whole escape. -/
theorem escape_lost_behind_sign :
    ¬∀ (settings : ModemSettings) (m : Modem) (β : Type) [Board β] (b : β),
      Reachable settings m → 1 ≤ settings.guardTicks → 2 ≤ settings.capacity →
        (m.after b (escapeEvents settings.guardTicks)).1.Attending := by
  intro h
  have hreach : Reachable ⟨2, 1, .basic⟩
      (((ofSettings ⟨2, 1, .basic⟩).onTick (Bench.ofNode 0)).modem.onByte 0x2B).modem :=
    .byte _ (.tick _ .fresh)
  exact absurd (h _ _ Bench (Bench.ofNode 0) hreach (by decide) (by decide)) (by decide +kernel)

end Modem

end RadioModem
