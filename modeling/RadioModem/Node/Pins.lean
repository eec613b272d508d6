import RadioModem.Board
import RadioModem.Configuration.Basic

/-!
# User pins

A pin starts as an output driven low. As an output it has the level last driven since it became
one; as an input it has the reading of the outside world.
-/
namespace RadioModem

structure Pin where
  direction : PinDirection
  level : Nat
  reading : Nat
  deriving DecidableEq, Repr

namespace Pin

def initial (reading : Nat) : Pin := ⟨.output, 0, reading⟩

def turn (p : Pin) : PinDirection → Pin
  | .output => { p with direction := .output, level := 0 }
  | .input => { p with direction := .input }

def value (p : Pin) : Nat :=
  match p.direction with
  | .output => p.level
  | .input => p.reading

def drives (p : Pin) (level : Nat) : Bool := p.direction = .output && level ≤ 1

end Pin

structure Pins where
  pins : List Pin
  deriving DecidableEq, Repr

namespace Pins

def ofSettings (s : PinSettings) : Pins :=
  ⟨(List.range s.count).map fun i => .initial (s.inputs[i]?.getD 0)⟩

def count (b : Pins) : Nat := b.pins.length

def direction (b : Pins) (index : Nat) : PinDirection :=
  (b.pins[index]?.map Pin.direction).getD .input

def value (b : Pins) (index : Nat) : Nat := (b.pins[index]?.map Pin.value).getD 0

def setDirection (b : Pins) (index : Nat) (d : PinDirection) : Pins :=
  ⟨b.pins.modify index (·.turn d)⟩

def setValue (b : Pins) (index level : Nat) : Pins × Bool :=
  if b.pins[index]?.any (·.drives level) then
    (⟨b.pins.modify index fun p => { p with level }⟩, true)
  else (b, false)

end Pins

end RadioModem
