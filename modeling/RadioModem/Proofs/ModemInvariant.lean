import RadioModem.Bench
import RadioModem.Proofs.Modem

/-!
# The modem invariant

Whatever calls reach a modem, a line waits in command mode only, no line is kept outside it, and
the buffer holds printable bytes within its capacity, so its text is what was kept byte for byte.
-/
namespace RadioModem

namespace LineBuffer

lemma charOfByte_val {byte : UInt8} (h : byte ≤ 0x7E) :
    (charOfByte byte).utf8Size = 1 ∧ (charOfByte byte).val.toUInt8 = byte := by
  revert h
  exact forall_byte (P := fun b => b ≤ 0x7E →
    (charOfByte b).utf8Size = 1 ∧ (charOfByte b).val.toUInt8 = b) (by decide +kernel) byte

lemma flatMap_utf8EncodeChar {bytes : List UInt8} (h : ∀ b ∈ bytes, IsLineByte b) :
    (bytes.map charOfByte).flatMap String.utf8EncodeChar = bytes := by
  induction bytes with
  | nil => rfl
  | cons b bytes ih =>
    obtain ⟨⟨-, hb, -⟩, hrest⟩ := List.forall_mem_cons.mp h
    obtain ⟨hsize, hval⟩ := charOfByte_val hb
    rw [List.map_cons, List.flatMap_cons, String.utf8EncodeChar_eq_singleton hsize, hval, ih hrest]
    rfl

/-- The text of a line is made of its bytes: it never reads as nothing. -/
theorem Sound.toUTF8_text {l : LineBuffer} (h : l.Sound) : l.text.toUTF8.data.toList = l.bytes := by
  have hencoded : l.text.toUTF8 =
      ((l.bytes.map charOfByte).flatMap String.utf8EncodeChar).toByteArray := by
    rw [h.text]
    rfl
  rw [hencoded, flatMap_utf8EncodeChar h.plain, List.data_toByteArray]

end LineBuffer

namespace Modem

/-- Modems that calls lead to, in any order and each with a board of its own. A poll that a halt
cuts short leaves the modem of its step too. -/
inductive Reachable (settings : ModemSettings) : Modem → Prop
  | fresh : Reachable settings (ofSettings settings)
  | byte {m : Modem} (byte : UInt8) (h : Reachable settings m) :
      Reachable settings (m.onByte byte).modem
  | feed {m : Modem} (bytes : List UInt8) (h : Reachable settings m) :
      Reachable settings (m.feed bytes).modem
  | tick {m : Modem} {β : Type} [Board β] (b : β) (h : Reachable settings m) :
      Reachable settings (m.onTick b).modem
  | poll {m : Modem} {β : Type} [Board β] (b : β) (h : Reachable settings m) :
      Reachable settings (m.poll b).modem

variable {m : Modem} {settings : ModemSettings}

/-- What every byte keeps is kept by a run of them. -/
lemma feed_induct {P : Modem → Prop} (hP : ∀ m byte, P m → P (m.onByte byte).modem) (hm : P m)
    (bytes : List UInt8) : P (m.feed bytes).modem := by
  induction bytes generalizing m with
  | nil => exact hm
  | cons byte bytes ih => exact ih (hP m byte hm)

/-- A property of a fresh modem that no call takes away from a reachable one. -/
structure Kept (settings : ModemSettings) (P : Modem → Prop) : Prop where
  fresh : P (ofSettings settings)
  byte {m : Modem} (byte : UInt8) (h : Reachable settings m) : P m → P (m.onByte byte).modem
  tick {m : Modem} {β : Type} [Board β] (b : β) (h : Reachable settings m) :
    P m → P (m.onTick b).modem
  poll {m : Modem} {β : Type} [Board β] (b : β) (h : Reachable settings m) :
    P m → P (m.poll b).modem

theorem Kept.holds {P : Modem → Prop} (hP : Kept settings P) (h : Reachable settings m) : P m := by
  induction h with
  | fresh => exact hP.fresh
  | byte byte h ih => exact hP.byte byte h ih
  | feed bytes h ih =>
    have hfed := feed_induct (P := fun m => Reachable settings m ∧ P m)
      (fun m byte hm => ⟨.byte byte hm.1, hP.byte byte hm.1 hm.2⟩) ⟨h, ih⟩ bytes
    exact hfed.2
  | tick b h ih => exact hP.tick b h ih
  | poll b h ih => exact hP.poll b h ih

lemma kept_sound (settings : ModemSettings) : Kept settings Sound where
  fresh := sound_ofSettings settings
  byte byte _ hm := (onByte_received _ byte).sound hm
  tick b _ hm := hm.onTick b
  poll b _ hm := (poll_polled _ b).sound hm

lemma kept_settings (settings : ModemSettings) : Kept settings (·.settings = settings) where
  fresh := rfl
  byte byte _ hm := (onByte_settings _ byte).trans hm
  tick b _ hm := (onTick_settings _ b).trans hm
  poll b _ hm := (poll_settings _ b).trans hm

theorem Reachable.sound (h : Reachable settings m) : m.Sound := (kept_sound settings).holds h

lemma Reachable.settings_eq (h : Reachable settings m) : m.settings = settings :=
  (kept_settings settings).holds h

/-- A poll that ran a line with this outcome. The board may be touched once more behind a line that
leaves command mode. -/
structure Dispatched {β : Type} (o : Outcome β) (p : PollStep β) : Prop where
  reply : p.reply = o.reply
  tests : p.modem.tests = o.tests
  board : o.effect ≠ .leaveCommandMode → p.board = o.board
  ran : p.ran = match o.effect with
    | .stop how => .error how
    | .stay | .leaveCommandMode => .ok true
  records : o.journal.records <+: p.journal.records

lemma Polled.dispatched {β : Type} [Board β] {b : β} {p : PollStep β} (h : Polled m b p)
    (hr : m.ready = true) : Dispatched (m.outcome b) p := by
  cases h with
  | idle hidle => cases hidle.symm.trans hr
  | stopped _ he => exact ⟨rfl, rfl, fun _ => rfl, by rw [he], List.prefix_refl _⟩
  | stayed _ he => exact ⟨rfl, rfl, fun _ => rfl, by rw [he], List.prefix_refl _⟩
  | left _ he => exact ⟨rfl, rfl, fun h => absurd he h, by rw [he], ⟨_, rfl⟩⟩

lemma Polled.dispatches {β : Type} [Board β] {b : β} {p : PollStep β} (h : Polled m b p)
    (hr : m.ready = true) :
    p.reply = (m.outcome b).reply ∧ p.modem.tests = (m.outcome b).tests :=
  ⟨(h.dispatched hr).reply, (h.dispatched hr).tests⟩

/-- What holds of a modem whatever has happened to it. -/
theorem Reachable.invariant (h : Reachable settings m) :
    (m.ready = true → m.commandMode = true) ∧
    (m.commandMode = false → m.line.bytes = [] ∧ m.text = "") ∧
    m.line.size ≤ settings.capacity ∧
    (∀ byte ∈ m.line.bytes, 0x20 ≤ byte ∧ byte ≤ 0x7E ∧ ¬(0x61 ≤ byte ∧ byte ≤ 0x7A)) ∧
    m.text.toUTF8.data.toList = m.line.bytes ∧
    (m.ready = true → ∀ {β : Type} [Board β] (b : β),
      (m.poll b).reply = (Dispatch.run m.features b m.tests m.text).reply ∧
      (m.poll b).modem.tests = (Dispatch.run m.features b m.tests m.text).tests) ∧
    (m.ready = true → ∀ byte, (m.onByte byte).echo = "" ∧
      (m.onByte byte).modem.line = m.line ∧
      (m.onByte byte).modem.commandMode = m.commandMode ∧ (m.onByte byte).modem.ready = true) := by
  have hm := h.sound
  refine ⟨hm.ready_mode, ?_, ?_, hm.line.plain, hm.line.toUTF8_text, ?_, ?_⟩
  · intro hc
    have hempty := hm.data_empty hc
    refine ⟨hempty, ?_⟩
    rw [text, LineBuffer.text, hempty]
    rfl
  · rw [← h.settings_eq, ← hm.capacity]
    exact hm.line.bounded
  · intro hr β _ b
    exact (poll_polled m b).dispatches hr
  · intro hr byte
    rw [onByte_waiting (hm.ready_mode hr) hr]
    exact ⟨rfl, rfl, rfl, hr⟩

/-- A modem whose line has reset its board: the poll was cut short, and the line still waits. -/
def resetting : Modem :=
  let bench := Bench.ofNode 0
  let signed := (((ofSettings ⟨4, 1, .basic⟩).onTick bench).modem.feed [0x2B, 0x2B, 0x2B]).modem
  let attending := ((signed.onTick bench).modem.poll bench).modem
  (((attending.feed [0x61, 0x74, 0x7A]).modem.onByte 0x0D).modem.poll bench).modem

theorem invariant_resetting : Reachable ⟨4, 1, .basic⟩ resetting ∧ resetting.ready = true ∧
    resetting.commandMode = true ∧ resetting.text.toUTF8.data.toList = [0x41, 0x54, 0x5A] ∧
    (resetting.onByte 0x4F).modem.line = resetting.line := by
  have hreach : Reachable ⟨4, 1, .basic⟩ resetting :=
    .poll _ (.byte _ (.feed _ (.poll _ (.tick _ (.feed _ (.tick _ .fresh))))))
  have hready : resetting.ready = true := by decide +kernel
  obtain ⟨hmode, -, -, -, htext, -, hwaits⟩ := hreach.invariant
  refine ⟨hreach, hready, hmode hready, ?_, (hwaits hready 0x4F).2.1⟩
  rw [htext]
  decide +kernel

end Modem

end RadioModem
