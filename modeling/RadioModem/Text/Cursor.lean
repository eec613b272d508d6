import RadioModem.Refusal

/-!
# Numbers among bytes

A line is bytes in the end, and a number may be read from any place among them. The number is kept
in a word while it is read, so the digit that would make it outgrow the word ends the reading.
-/
namespace RadioModem.Text

/-- A place in a string of bytes, which may lie behind the last of them. -/
structure Cursor where
  bytes : List UInt8
  place : Nat
  deriving DecidableEq, Repr

namespace Cursor

def ahead (c : Cursor) (count : Nat) : Cursor := { c with place := c.place + count }

def isDigitByte (byte : UInt8) : Bool := 0x30 ≤ byte && byte ≤ 0x39

/-- The product of two words, where it is a word. -/
def product? (a b : UInt32) : Option UInt32 :=
  if a.toNat * b.toNat < UInt32.size then some (a * b) else none

/-- The sum of two words, where it is a word. -/
def sum? (a b : UInt32) : Option UInt32 :=
  if a.toNat + b.toNat < UInt32.size then some (a + b) else none

/-- A number with one more digit behind it. -/
def appended? (n : UInt32) (digit : UInt8) : Option UInt32 := do
  sum? (← product? n 10) (digit - 0x30).toUInt32

/-- Goes on with a number for as long as digits follow. -/
def continued (c : Cursor) (n : UInt32) : Except Refusal UInt32 × Cursor :=
  if hplace : c.place < c.bytes.length then
    if isDigitByte c.bytes[c.place] then
      match appended? n c.bytes[c.place] with
      | some next => continued (c.ahead 1) next
      | none => (.error .malformed, c)
    else (.ok n, c)
  else (.ok n, c)
termination_by c.bytes.length - c.place
decreasing_by
  show c.bytes.length - (c.place + 1) < c.bytes.length - c.place
  omega

/-- The number at the place, with the place behind it. -/
def number (c : Cursor) : Except Refusal UInt32 × Cursor := c.continued 0

end Cursor

end RadioModem.Text
