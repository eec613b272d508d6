/-!
# The command buffer

A line is kept as bytes and never grows past the capacity it was given.
-/
namespace RadioModem

def defaultCapacity : Nat := 16

structure LineBuffer where
  capacity : Nat
  bytes : List UInt8
  deriving DecidableEq, Repr

/-- A byte was offered to a full buffer. -/
structure BufferFull where
  capacity : Nat
  deriving DecidableEq, Repr

def BufferFull.message (e : BufferFull) : String :=
  "command buffer full: capacity " ++ toString e.capacity ++ " bytes"

/-- The text of a line; bytes that are no text read as nothing. -/
def textOfBytes (bytes : List UInt8) : String :=
  if bytes.all (· < 0x80) then String.ofList (bytes.map fun b => Char.ofNat b.toNat)
  else (String.fromUTF8? ⟨bytes.toArray⟩).getD ""

namespace LineBuffer

def ofCapacity (capacity : Nat) : LineBuffer := ⟨capacity, []⟩

def size (l : LineBuffer) : Nat := l.bytes.length

def isEmpty (l : LineBuffer) : Bool := l.bytes.isEmpty

def isFull (l : LineBuffer) : Bool := l.capacity ≤ l.size

def push (l : LineBuffer) (byte : UInt8) : Except BufferFull LineBuffer :=
  if l.isFull then .error ⟨l.capacity⟩ else .ok { l with bytes := l.bytes ++ [byte] }

def last? (l : LineBuffer) : Option UInt8 := l.bytes.getLast?

def pop (l : LineBuffer) : LineBuffer := { l with bytes := l.bytes.dropLast }

def clear (l : LineBuffer) : LineBuffer := { l with bytes := [] }

/-- Replaces the line, keeping as many bytes as fit. -/
def set (l : LineBuffer) (line : String) : LineBuffer :=
  { l with bytes := line.toUTF8.data.toList.take l.capacity }

def text (l : LineBuffer) : String := textOfBytes l.bytes

end LineBuffer

end RadioModem
