import RadioModem.Console.Buffer
import RadioModem.Journal

/-!
# Editing a line

Printable bytes are put in upper case, kept and echoed; backspace and delete take the last one
away and rub it out on the terminal; a carriage return ends the line. A byte that is no control
and finds the line full abandons the line without an echo.
-/
namespace RadioModem

inductive EditEvent
  | pending
  | lineReady
  | overflow
  deriving DecidableEq, Repr

/-- What one byte did to the line. -/
structure Keystroke where
  line : LineBuffer
  echo : String
  event : EditEvent
  journal : Journal
  deriving DecidableEq, Repr

def isControlByte (byte : UInt8) : Bool := byte < 0x20 || byte == 0x7F

def isPrintableByte (byte : UInt8) : Bool := 0x20 ≤ byte && byte ≤ 0x7E

def upperByte (byte : UInt8) : UInt8 :=
  if 0x61 ≤ byte && byte ≤ 0x7A then byte - 0x20 else byte

/-- Moves back over the last character and blanks it. -/
def rubOut : String := "\x08 \x08"

namespace LineBuffer

def erase (l : LineBuffer) : Keystroke :=
  ⟨l.pop, if l.isEmpty then "" else rubOut, .pending, .empty⟩

def insert (l : LineBuffer) (byte : UInt8) : Keystroke :=
  match l.push (upperByte byte) with
  | .ok line => ⟨line, String.singleton (Char.ofNat (upperByte byte).toNat), .pending, .empty⟩
  | .error full =>
    ⟨l.clear, "", .overflow, .note .warn (full.message ++ ", abandoning command mode")⟩

def key (l : LineBuffer) (byte : UInt8) : Keystroke :=
  if byte = 0x0D then ⟨l, "\n", .lineReady, .empty⟩
  else if byte = 0x08 || byte = 0x7F then l.erase
  else if isControlByte byte then ⟨l, "", .pending, .empty⟩
  else if isPrintableByte byte || l.isFull then l.insert byte
  else ⟨l, "", .pending, .empty⟩

end LineBuffer

end RadioModem
