import Mathlib.Data.List.Basic
import RadioModem.Console.Editor

/-!
# The edited line

A reference for what a line holds after a run of keys, told on characters and without a capacity.
The buffer follows it until a carriage return or an overflow.
-/
namespace RadioModem

/-- One key of a line: erasing keys take the last character away, printable ones add theirs in
upper case, all others do nothing. -/
def strike (line : List Char) (byte : UInt8) : List Char :=
  if byte = 0x08 ∨ byte = 0x7F then line.dropLast
  else if 0x20 ≤ byte ∧ byte ≤ 0x7E then line ++ [(Char.ofNat byte.toNat).toUpper]
  else line

/-- The line that a run of keys leaves on an empty one. -/
def typed (keys : List UInt8) : String := String.ofList (keys.foldl strike [])

/-- Bytes that a line may hold: printable and not in lower case. -/
def IsLineByte (byte : UInt8) : Prop :=
  0x20 ≤ byte ∧ byte ≤ 0x7E ∧ ¬(0x61 ≤ byte ∧ byte ≤ 0x7A)
  deriving Decidable

def charOfByte (byte : UInt8) : Char := Char.ofNat byte.toNat

/-- Bytes are few enough to be looked at one by one. -/
lemma forall_byte {P : UInt8 → Prop} (h : ∀ i : Fin 256, P (UInt8.ofFin i)) (byte : UInt8) :
    P byte := h byte.toFin

lemma charOfByte_upperByte (byte : UInt8) :
    charOfByte (upperByte byte) = (charOfByte byte).toUpper :=
  forall_byte (P := fun b => charOfByte (upperByte b) = (charOfByte b).toUpper)
    (by decide +kernel) byte

lemma isLineByte_upperByte {byte : UInt8} (h : 0x20 ≤ byte ∧ byte ≤ 0x7E) :
    IsLineByte (upperByte byte) := by
  revert h
  exact forall_byte (P := fun b => 0x20 ≤ b ∧ b ≤ 0x7E → IsLineByte (upperByte b))
    (by decide +kernel) byte

lemma isPrintableByte_iff (byte : UInt8) :
    isPrintableByte byte = true ↔ 0x20 ≤ byte ∧ byte ≤ 0x7E := by simp [isPrintableByte]

lemma not_printable_of_control {byte : UInt8} (h : isControlByte byte = true) :
    ¬(0x20 ≤ byte ∧ byte ≤ 0x7E) := by
  revert h
  exact forall_byte (P := fun b => isControlByte b = true → ¬(0x20 ≤ b ∧ b ≤ 0x7E))
    (by decide +kernel) byte

lemma textOfBytes_eq {bytes : List UInt8} (h : ∀ b ∈ bytes, IsLineByte b) :
    textOfBytes bytes = String.ofList (bytes.map charOfByte) := by
  have ha : bytes.all (· < 0x80) = true := by
    rw [List.all_eq_true]
    intro b hb
    obtain ⟨-, hle, -⟩ := h b hb
    exact decide_eq_true (UInt8.lt_of_le_of_lt hle (by decide))
  rw [textOfBytes, if_pos ha]
  rfl

namespace LineBuffer

lemma key_return (l : LineBuffer) : l.key 0x0D = ⟨l, "\n", .lineReady, .empty⟩ := rfl

/-- Every way in which a key may change a line, with the event that goes with it. -/
inductive Stroke (l : LineBuffer) (byte : UInt8) : LineBuffer → EditEvent → Prop
  | ended (h : byte = 0x0D) : Stroke l byte l .lineReady
  | erased (h : byte = 0x08 ∨ byte = 0x7F) : Stroke l byte l.pop .pending
  | passed (hr : byte ≠ 0x0D) (he : ¬(byte = 0x08 ∨ byte = 0x7F))
      (hp : ¬(0x20 ≤ byte ∧ byte ≤ 0x7E)) : Stroke l byte l .pending
  | added (hp : 0x20 ≤ byte ∧ byte ≤ 0x7E) (hf : l.isFull = false) :
      Stroke l byte { l with bytes := l.bytes ++ [upperByte byte] } .pending
  | overflowed (hc : isControlByte byte = false) (hf : l.isFull = true) :
      Stroke l byte l.clear .overflow

/-- Every keystroke there is, with the echo that goes with it. -/
inductive Struck (l : LineBuffer) (byte : UInt8) : Keystroke → Prop
  | ended (h : byte = 0x0D) : Struck l byte ⟨l, "\n", .lineReady, .empty⟩
  | erased (h : byte = 0x08 ∨ byte = 0x7F) : Struck l byte l.erase
  | passed (hr : byte ≠ 0x0D) (he : ¬(byte = 0x08 ∨ byte = 0x7F))
      (hp : ¬(0x20 ≤ byte ∧ byte ≤ 0x7E)) (hc : isControlByte byte = true ∨ l.isFull = false) :
      Struck l byte ⟨l, "", .pending, .empty⟩
  | added (hp : 0x20 ≤ byte ∧ byte ≤ 0x7E) (hf : l.isFull = false) :
      Struck l byte ⟨{ l with bytes := l.bytes ++ [upperByte byte] },
        String.singleton (charOfByte (upperByte byte)), .pending, .empty⟩
  | overflowed (hc : isControlByte byte = false) (hf : l.isFull = true) (message : String) :
      Struck l byte ⟨l.clear, "", .overflow, .note .warn message⟩

theorem key_struck (l : LineBuffer) (byte : UInt8) : Struck l byte (l.key byte) := by
  unfold key
  by_cases hr : byte = 0x0D
  · rw [if_pos hr]
    exact .ended hr
  by_cases he : byte = 0x08 ∨ byte = 0x7F
  · simpa [hr, he] using Struck.erased (l := l) he
  cases hc : isControlByte byte with
  | true =>
    simpa [hr, he, hc] using Struck.passed (l := l) hr he (not_printable_of_control hc) (.inl hc)
  | false =>
    cases hf : l.isFull with
    | true =>
      rw [if_neg hr, if_neg (by simpa using he), if_neg (by simp), if_pos (by simp), insert, push,
        if_pos hf]
      exact .overflowed hc hf _
    | false =>
      by_cases hp : 0x20 ≤ byte ∧ byte ≤ 0x7E
      · have hb := (isPrintableByte_iff byte).mpr hp
        simpa [hr, he, hc, hf, hb, insert, push, charOfByte] using Struck.added (l := l) hp hf
      · have hb : isPrintableByte byte = false := by
          simpa [← isPrintableByte_iff] using hp
        simpa [hr, he, hc, hf, hb] using Struck.passed (l := l) hr he hp (.inr hf)

theorem key_stroke (l : LineBuffer) (byte : UInt8) :
    Stroke l byte (l.key byte).line (l.key byte).event := by
  have h := key_struck l byte
  generalize l.key byte = k at h
  cases h with
  | ended h => exact .ended h
  | erased h => exact .erased h
  | passed hr he hp => exact .passed hr he hp
  | added hp hf => exact .added hp hf
  | overflowed hc hf => exact .overflowed hc hf

/-- A line within its capacity, with nothing in it that cannot be typed. -/
structure Sound (l : LineBuffer) : Prop where
  bounded : l.size ≤ l.capacity
  plain : ∀ b ∈ l.bytes, IsLineByte b

lemma sound_clear (l : LineBuffer) : l.clear.Sound := ⟨by simp [clear, size], by simp [clear]⟩

/-- The bytes of the attention line. -/
def attentionBytes : List UInt8 := [0x41, 0x54]

lemma set_attention (l : LineBuffer) :
    (l.set "AT").bytes = attentionBytes.take l.capacity := rfl

lemma sound_attention (l : LineBuffer) : (l.set "AT").Sound := by
  refine ⟨?_, fun b hb => ?_⟩
  · rw [size, set_attention]
    exact List.length_take_le _ _
  · rw [set_attention] at hb
    have hall : ∀ b ∈ attentionBytes, IsLineByte b := by decide +kernel
    exact hall b (List.mem_of_mem_take hb)

lemma Sound.text {l : LineBuffer} (h : l.Sound) :
    l.text = String.ofList (l.bytes.map charOfByte) := textOfBytes_eq h.plain

variable {l line : LineBuffer} {byte : UInt8} {event : EditEvent}

lemma Stroke.sound (h : Stroke l byte line event) (hl : l.Sound) : line.Sound := by
  cases h with
  | ended | passed => exact hl
  | erased =>
    have hsize : l.bytes.length ≤ l.capacity := hl.bounded
    refine ⟨?_, fun b hb => hl.plain b (List.dropLast_subset _ hb)⟩
    simp only [pop, size, List.length_dropLast]
    omega
  | added hp hf =>
    have hsize : l.size < l.capacity := by simpa [isFull] using hf
    refine ⟨by simpa [size] using Nat.succ_le_of_lt hsize, ?_⟩
    intro b hb
    rcases List.mem_append.mp hb with hb | hb
    · exact hl.plain b hb
    · rw [List.mem_singleton.mp hb]
      exact isLineByte_upperByte hp
  | overflowed => exact sound_clear l

lemma Stroke.capacity (h : Stroke l byte line event) : line.capacity = l.capacity := by
  cases h <;> rfl

lemma Stroke.return_iff (h : Stroke l byte line event) : event = .lineReady ↔ byte = 0x0D := by
  cases h with
  | ended h => simp [h]
  | passed hr => simp [hr]
  | erased h => rcases h with rfl | rfl <;> decide
  | added hp => simp [show byte ≠ 0x0D by rintro rfl; exact absurd hp (by decide)]
  | overflowed hc => simp [show byte ≠ 0x0D by rintro rfl; exact absurd hc (by decide)]

lemma Stroke.overflow_empty (h : Stroke l byte line event) (he : event = .overflow) :
    line.bytes = [] := by
  cases h with
  | overflowed => rfl
  | ended | erased | passed | added => cases he

/-- The buffer follows the reference line. -/
theorem Stroke.follows (h : Stroke l byte line .pending) :
    line.bytes.map charOfByte = strike (l.bytes.map charOfByte) byte := by
  cases h with
  | erased h => simp [strike, h, pop, List.map_dropLast]
  | passed hr he hp => rw [strike, if_neg he, if_neg hp]
  | added hp hf =>
    have he : ¬(byte = 0x08 ∨ byte = 0x7F) := by
      rintro (rfl | rfl)
      · exact absurd hp (by decide)
      · exact absurd hp (by decide)
    rw [strike, if_neg he, if_pos hp]
    simp only [List.map_append, List.map_cons, List.map_nil, charOfByte_upperByte]
    rfl

end LineBuffer

end RadioModem
