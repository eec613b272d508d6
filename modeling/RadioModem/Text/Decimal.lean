/-!
# Decimal numbers in text

A number is the longest run of ASCII digits at the front of a text; an empty run is zero. Leading
zeros carry no weight. Readers are given the first value that is too large for them, and stop at
the digit that reaches it.
-/
namespace RadioModem.Text.Decimal

/-- The weight of an ASCII digit. -/
def weight (c : Char) : Nat := c.toNat - '0'.toNat

/-- The number written by a run of digits. -/
def value (digits : List Char) : Nat := digits.foldl (fun n c => 10 * n + weight c) 0

/-- Continues the number `n` with the digits at the front and hands back the text after them. -/
def continued (limit n : Nat) : List Char → Option (Nat × List Char)
  | [] => some (n, [])
  | c :: rest =>
    if c.isDigit then
      let next := 10 * n + weight c
      if next < limit then continued limit next rest else none
    else some (n, c :: rest)

/-- The leading number of a text, below `limit`, with the text after it. -/
def leading (limit : Nat) (text : List Char) : Option (Nat × List Char) := continued limit 0 text

/-- A text that is one non-empty run of digits and nothing else. -/
def whole (limit : Nat) (text : List Char) : Option Nat :=
  match leading limit text with
  | some (n, []) => if text.isEmpty then none else some n
  | _ => none

/-- One plus sign may stand before an unsigned number. -/
def withoutPlus : List Char → List Char
  | '+' :: rest => rest
  | text => text

/-- An unsigned 16-bit number, with an optional plus sign. -/
def word16 (text : List Char) : Option UInt16 :=
  (whole 65536 (withoutPlus text)).map (fun n => UInt16.ofNat n)

end RadioModem.Text.Decimal
