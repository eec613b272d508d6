import RadioModem.Modem
import RadioModem.Proofs.Editor
import RadioModem.Proofs.Escape

/-!
# Steps of the modem

One equation for each thing a byte, a tick or a poll can do, and the invariant `Sound` that every
interleaving of them keeps. The board is any board at all.
-/
namespace RadioModem

/-- The three calls that drive a modem. -/
inductive ModemEvent
  | byte (byte : UInt8)
  | tick
  | poll
  deriving DecidableEq, Repr

/-- What the detector sees of an event; a poll goes past it. -/
def ModemEvent.signal? : ModemEvent → Option Signal
  | byte b => some (.byte b)
  | tick => some .tick
  | poll => none

/-- The bytes and ticks of a run, without its polls. -/
def signals (es : List ModemEvent) : List Signal := es.filterMap ModemEvent.signal?

namespace Modem
variable {β : Type} [Board β]

def next (m : Modem) (b : β) : ModemEvent → Modem × β
  | .byte byte => ((m.onByte byte).modem, b)
  | .tick => ((m.onTick b).modem, (m.onTick b).board)
  | .poll => ((m.poll b).modem, (m.poll b).board)

/-- The modem and the board that a run leaves. -/
def after (m : Modem) (b : β) : List ModemEvent → Modem × β
  | [] => (m, b)
  | e :: es => (m.next b e).1.after (m.next b e).2 es

lemma after_append (m : Modem) (b : β) (es fs : List ModemEvent) :
    m.after b (es ++ fs) = (m.after b es).1.after (m.after b es).2 fs := by
  induction es generalizing m b with
  | nil => rfl
  | cons e es ih => exact ih _ _

/-- A modem with nothing pending outside command mode and a sound line. -/
structure Sound (m : Modem) : Prop where
  line : m.line.Sound
  capacity : m.line.capacity = m.settings.capacity
  ready_mode : m.ready = true → m.commandMode = true
  data_empty : m.commandMode = false → m.line.bytes = []

lemma Sound.not_ready {m : Modem} (h : m.Sound) (hc : m.commandMode = false) :
    m.ready = false := by
  cases hr : m.ready with
  | false => rfl
  | true => exact absurd (h.ready_mode hr) (by simp [hc])

lemma sound_ofSettings (s : ModemSettings) : (ofSettings s).Sound :=
  ⟨LineBuffer.sound_clear (.ofCapacity s.capacity), rfl, by simp [ofSettings], fun _ => rfl⟩

/-! ### Bytes -/

variable {m : Modem} {byte : UInt8}

lemma onByte_data (hc : m.commandMode = false) : m.onByte byte =
    ⟨{ m with escape := m.escape.onByte byte }, .data, "", m.escape.byteJournal byte⟩ := by
  simp [onByte, receive, hc]

lemma onByte_waiting (hc : m.commandMode = true) (hr : m.ready = true) : m.onByte byte =
    ⟨{ m with escape := m.escape.onByte byte }, .command, "", m.escape.byteJournal byte ++
      .note .trace ("line pending dispatch, dropping 0x" ++ Text.hex 2 byte.toNat)⟩ := by
  simp [onByte, receive, hc, hr]

lemma onByte_return (hc : m.commandMode = true) (hr : m.ready = false) : m.onByte 0x0D =
    ⟨{ m with escape := m.escape.onByte 0x0D, ready := true }, .command, "\n",
      m.escape.byteJournal 0x0D⟩ := by
  simp [onByte, receive, edit, LineBuffer.key_return, hc, hr]

lemma onByte_typed (hc : m.commandMode = true) (hr : m.ready = false)
    (he : (m.line.key byte).event = .pending) : m.onByte byte =
    ⟨{ m with escape := m.escape.onByte byte, line := (m.line.key byte).line }, .command,
      (m.line.key byte).echo, m.escape.byteJournal byte ++ (m.line.key byte).journal⟩ := by
  simp [onByte, receive, edit, hc, hr, he]

lemma onByte_overflow (hc : m.commandMode = true) (hr : m.ready = false)
    (he : (m.line.key byte).event = .overflow) : m.onByte byte =
    ⟨{ m with
        escape := m.escape.onByte byte, line := (m.line.key byte).line, commandMode := false },
      .command, (m.line.key byte).echo, m.escape.byteJournal byte ++ ((m.line.key byte).journal ++
        .count .overflows 1 ++ .note .info "command mode abandoned")⟩ := by
  simp [onByte, receive, edit, hc, hr, he]

/-- Everything that a byte may do. -/
inductive Received (m : Modem) (byte : UInt8) : ByteStep → Prop
  | data (hc : m.commandMode = false) : Received m byte
      ⟨{ m with escape := m.escape.onByte byte }, .data, "", m.escape.byteJournal byte⟩
  | waiting (hc : m.commandMode = true) (hr : m.ready = true) : Received m byte
      ⟨{ m with escape := m.escape.onByte byte }, .command, "", m.escape.byteJournal byte ++
        .note .trace ("line pending dispatch, dropping 0x" ++ Text.hex 2 byte.toNat)⟩
  | ended (hc : m.commandMode = true) (hr : m.ready = false) (hb : byte = 0x0D) : Received m byte
      ⟨{ m with escape := m.escape.onByte byte, ready := true }, .command, "\n",
        m.escape.byteJournal byte⟩
  | typed (hc : m.commandMode = true) (hr : m.ready = false)
      (he : (m.line.key byte).event = .pending) : Received m byte
      ⟨{ m with escape := m.escape.onByte byte, line := (m.line.key byte).line }, .command,
        (m.line.key byte).echo, m.escape.byteJournal byte ++ (m.line.key byte).journal⟩
  | overflowed (hc : m.commandMode = true) (hr : m.ready = false)
      (he : (m.line.key byte).event = .overflow) : Received m byte
      ⟨{ m with
          escape := m.escape.onByte byte, line := (m.line.key byte).line, commandMode := false },
        .command, (m.line.key byte).echo, m.escape.byteJournal byte ++
          ((m.line.key byte).journal ++ .count .overflows 1 ++
            .note .info "command mode abandoned")⟩

theorem onByte_received (m : Modem) (byte : UInt8) : Received m byte (m.onByte byte) := by
  cases hc : m.commandMode with
  | false =>
    rw [onByte_data hc]
    exact .data hc
  | true =>
    cases hr : m.ready with
    | true =>
      rw [onByte_waiting hc hr]
      exact .waiting hc hr
    | false =>
      cases he : (m.line.key byte).event with
      | pending =>
        rw [onByte_typed hc hr he]
        exact .typed hc hr he
      | lineReady =>
        obtain rfl := (m.line.key_stroke byte).return_iff.mp he
        rw [onByte_return hc hr]
        exact .ended hc hr rfl
      | overflow =>
        rw [onByte_overflow hc hr he]
        exact .overflowed hc hr he

section
variable {s : ByteStep}

lemma Received.escape (h : Received m byte s) : s.modem.escape = m.escape.onByte byte := by
  cases h <;> rfl

lemma Received.settings (h : Received m byte s) : s.modem.settings = m.settings := by
  cases h <;> rfl

lemma Received.route (h : Received m byte s) :
    s.route = if m.commandMode then .command else .data := by
  cases h with
  | data hc => rw [hc, if_neg Bool.false_ne_true]
  | waiting hc | ended hc | typed hc | overflowed hc => rw [hc, if_pos rfl]

/-- No byte turns command mode on. -/
lemma Received.commandMode (h : Received m byte s) (hs : s.modem.commandMode = true) :
    m.commandMode = true := by
  cases h with
  | data => exact hs
  | waiting hc | ended hc | typed hc | overflowed hc => exact hc

/-- A byte turns command mode off by an overflow only. -/
lemma Received.stays (h : Received m byte s) (hc : m.commandMode = true)
    (hk : m.ready = false → (m.line.key byte).event ≠ .overflow) :
    s.modem.commandMode = true := by
  cases h with
  | data | waiting | ended | typed => exact hc
  | overflowed _ hr he => exact absurd he (hk hr)

/-- A byte leaves a line ready if it was, or if it ends the line, which stays as it is. -/
lemma Received.ready (h : Received m byte s) (hs : s.modem.ready = true) :
    s.modem.line = m.line ∧ (m.ready = true ∨ byte = 0x0D) := by
  cases h with
  | data | waiting => exact ⟨rfl, .inl hs⟩
  | ended _ _ hb => exact ⟨rfl, .inr hb⟩
  | typed _ hr | overflowed _ hr => cases hs.symm.trans hr

theorem Received.sound (h : Received m byte s) (hm : m.Sound) : s.modem.Sound := by
  obtain ⟨hline, hcap, hready, hempty⟩ := hm
  have hk := m.line.key_stroke byte
  cases h with
  | data | waiting => exact ⟨hline, hcap, hready, hempty⟩
  | ended hc => exact ⟨hline, hcap, fun _ => hc, hempty⟩
  | typed hc hr =>
    refine ⟨hk.sound hline, hk.capacity.trans hcap, hready, fun hd => ?_⟩
    cases hd.symm.trans hc
  | overflowed hc hr he =>
    refine ⟨hk.sound hline, hk.capacity.trans hcap, fun hon => ?_, fun _ => hk.overflow_empty he⟩
    cases hon.symm.trans hr

end

@[simp] lemma onByte_escape (m : Modem) (byte : UInt8) :
    (m.onByte byte).modem.escape = m.escape.onByte byte := (onByte_received m byte).escape

@[simp] lemma onByte_settings (m : Modem) (byte : UInt8) :
    (m.onByte byte).modem.settings = m.settings := (onByte_received m byte).settings

/-! ### Ticks -/

variable {b : β}

lemma onTick_quiet (hf : m.escape.fires = false) :
    m.onTick b = ⟨{ m with escape := m.escape.onTick }, b, m.escape.tickJournal⟩ := by
  simp [onTick, hf]

lemma onTick_fires (hf : m.escape.fires = true) :
    (m.onTick b).modem =
        { m with
          escape := m.escape.idle
          commandMode := true
          line := m.line.set attentionLine
          ready := true } ∧
      (m.onTick b).board = (m.watchdog b false).1 := by
  rw [onTick, if_pos hf, ← EscapeDetector.onTick_of_fires hf]
  exact ⟨rfl, rfl⟩

@[simp] lemma onTick_escape (m : Modem) (b : β) : (m.onTick b).modem.escape = m.escape.onTick := by
  cases hf : m.escape.fires with
  | false => rw [onTick_quiet hf]
  | true => rw [(onTick_fires hf).1, EscapeDetector.onTick_of_fires hf]

@[simp] lemma onTick_settings (m : Modem) (b : β) :
    (m.onTick b).modem.settings = m.settings := by
  cases hf : m.escape.fires with
  | false => rw [onTick_quiet hf]
  | true => rw [(onTick_fires hf).1]

lemma watchdog_of_feature (hw : m.features.watchdog = true) (enabled : Bool) :
    (m.watchdog b enabled).1 = (Board.setWatchdog b enabled).1 := by simp [watchdog, hw]

lemma watchdog_of_no_feature (hw : m.features.watchdog = false) (enabled : Bool) :
    (m.watchdog b enabled).1 = b := by simp [watchdog, hw]

theorem Sound.onTick (h : m.Sound) (b : β) : (m.onTick b).modem.Sound := by
  cases hf : m.escape.fires with
  | false =>
    rw [onTick_quiet hf]
    exact ⟨h.line, h.capacity, h.ready_mode, h.data_empty⟩
  | true =>
    rw [(onTick_fires hf).1]
    exact ⟨LineBuffer.sound_attention _, h.capacity, fun _ => rfl, by simp⟩

/-! ### Polls -/

lemma poll_idle (hr : m.ready = false) : m.poll b = ⟨m, b, "", .ok false, .empty⟩ := by
  simp [poll, hr]

lemma poll_ready (hr : m.ready = true) : m.poll b = m.runLine b := by simp [poll, hr]

/-- What running the line of a modem comes to. -/
def outcome (m : Modem) (b : β) : Outcome β := Dispatch.run m.features b m.tests m.text

lemma leaveCommandMode_eq (m : Modem) (b : β) : m.leaveCommandMode b =
    ⟨{ m with escape := m.escape.restartWindow, commandMode := false }, (m.watchdog b true).1,
      (m.watchdog b true).2 ++ .note .info (Dispatch.tagged b "back to data mode")⟩ := rfl

lemma runLine_eq (m : Modem) (b : β) : m.runLine b =
    match (m.outcome b).effect with
    | .stop how => ⟨{ m with tests := (m.outcome b).tests }, (m.outcome b).board,
        (m.outcome b).reply, .error how, (m.outcome b).journal⟩
    | .stay => ⟨m.finished (m.outcome b).tests, (m.outcome b).board, (m.outcome b).reply,
        .ok true, (m.outcome b).journal⟩
    | .leaveCommandMode =>
      let left := (m.finished (m.outcome b).tests).leaveCommandMode (m.outcome b).board
      ⟨left.modem, left.board, (m.outcome b).reply, .ok true,
        (m.outcome b).journal ++ left.journal⟩ := rfl

/-- Everything that a poll may do. A line that stops the board stays in place. -/
inductive Polled (m : Modem) (b : β) : PollStep β → Prop
  | idle (hr : m.ready = false) : Polled m b ⟨m, b, "", .ok false, .empty⟩
  | stopped {how : Stop} (hr : m.ready = true) (he : (m.outcome b).effect = .stop how) :
      Polled m b ⟨{ m with tests := (m.outcome b).tests }, (m.outcome b).board,
        (m.outcome b).reply, .error how, (m.outcome b).journal⟩
  | stayed (hr : m.ready = true) (he : (m.outcome b).effect = .stay) :
      Polled m b ⟨m.finished (m.outcome b).tests, (m.outcome b).board, (m.outcome b).reply,
        .ok true, (m.outcome b).journal⟩
  | left (hr : m.ready = true) (he : (m.outcome b).effect = .leaveCommandMode) :
      Polled m b
        ⟨{ m.finished (m.outcome b).tests with
            escape := m.escape.restartWindow, commandMode := false },
          (m.watchdog (m.outcome b).board true).1, (m.outcome b).reply, .ok true,
          (m.outcome b).journal ++ ((m.watchdog (m.outcome b).board true).2 ++
            .note .info (Dispatch.tagged (m.outcome b).board "back to data mode"))⟩

theorem poll_polled (m : Modem) (b : β) : Polled m b (m.poll b) := by
  cases hr : m.ready with
  | false =>
    rw [poll_idle hr]
    exact .idle hr
  | true =>
    rw [poll_ready hr, runLine_eq]
    cases he : (m.outcome b).effect with
    | stop how => exact .stopped hr he
    | stay => exact .stayed hr he
    | leaveCommandMode =>
      simp only [leaveCommandMode_eq]
      exact .left hr he

section
variable {p : PollStep β}

lemma Polled.escape (h : Polled m b p) :
    p.modem.escape = m.escape ∨ p.modem.escape = m.escape.restartWindow := by
  cases h with
  | idle | stopped | stayed => exact .inl rfl
  | left => exact .inr rfl

lemma Polled.settings (h : Polled m b p) : p.modem.settings = m.settings := by
  cases h <;> rfl

/-- No poll turns command mode on. -/
lemma Polled.commandMode (h : Polled m b p) (hp : p.modem.commandMode = true) :
    m.commandMode = true := by
  cases h with
  | idle | stopped | stayed => exact hp
  | left => cases hp

/-- A poll leaves a line ready only if it was, and running it has stopped the board. -/
lemma Polled.ready (h : Polled m b p) (hp : p.modem.ready = true) :
    p.modem.line = m.line ∧ m.ready = true ∧ ∃ how, p.ran = .error how := by
  cases h with
  | idle hr => cases hp.symm.trans hr
  | stopped hr => exact ⟨rfl, hr, _, rfl⟩
  | stayed | left => cases hp

theorem Polled.sound (h : Polled m b p) (hm : m.Sound) : p.modem.Sound := by
  have hclear := LineBuffer.sound_clear m.line
  obtain ⟨hline, hcap, hready, hempty⟩ := hm
  cases h with
  | idle | stopped => exact ⟨hline, hcap, hready, hempty⟩
  | stayed | left => exact ⟨hclear, hcap, by simp [finished], fun _ => rfl⟩

/-- A line that was run to its end leaves the buffer free. -/
lemma Polled.finished (h : Polled m b p) (hr : m.ready = true) {ran : Bool} (hp : p.ran = .ok ran) :
    p.modem.ready = false ∧ p.modem.line = m.line.clear := by
  cases h with
  | idle hidle => cases hidle.symm.trans hr
  | stopped => cases hp
  | stayed | left => exact ⟨rfl, rfl⟩

end

@[simp] lemma poll_settings (m : Modem) (b : β) : (m.poll b).modem.settings = m.settings :=
  (poll_polled m b).settings

/-! ### The attention line -/

lemma text_attention (h : 2 ≤ m.line.capacity) :
    (m.line.set attentionLine).text = attentionLine := by
  have hb : (m.line.set attentionLine).bytes = LineBuffer.attentionBytes :=
    List.take_of_length_le h
  rw [LineBuffer.text, hb]
  rfl

/-- The line that answers an escape is an `OK` where the buffer has room for it, and is no command
at all where it has not. -/
theorem runLine_attention (h : m.line.bytes = LineBuffer.attentionBytes.take m.line.capacity) :
    (m.runLine b).modem = m.finished m.tests ∧ (m.runLine b).board = b ∧
      (m.runLine b).reply =
        (if 2 ≤ m.line.capacity then Dispatch.reply b okText else "") ∧
      (m.runLine b).ran = .ok true := by
  have ho : (m.outcome b).board = b ∧ (m.outcome b).tests = m.tests ∧
      (m.outcome b).effect = .stay ∧
      (m.outcome b).reply = (if 2 ≤ m.line.capacity then Dispatch.reply b okText else "") := by
    unfold outcome text LineBuffer.text
    rw [h]
    by_cases hc : 2 ≤ m.line.capacity
    · rw [if_pos hc, List.take_of_length_le hc]
      exact ⟨rfl, rfl, rfl, rfl⟩
    · have hsmall : m.line.capacity = 0 ∨ m.line.capacity = 1 := by omega
      rw [if_neg hc]
      rcases hsmall with h0 | h1
      · rw [h0]
        exact ⟨rfl, rfl, rfl, rfl⟩
      · rw [h1]
        exact ⟨rfl, rfl, rfl, rfl⟩
  obtain ⟨hb, ht, he, hr⟩ := ho
  simp [runLine_eq, hb, ht, he, hr]

end Modem

end RadioModem
