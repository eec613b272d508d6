import RadioModem.Journal
import RadioModem.Settings

/-!
# Boards

Everything outside the front end is reached through a board: numbered registers, calibration
channels, user pins, the relay to other nodes, link diagnostics and raw control. A board may stop
for good in the middle of an operation; the ones that are handed an index may do so when the index
is beyond their count.
-/
namespace RadioModem

inductive PinDirection
  | input
  | output
  deriving DecidableEq, Repr

inductive HaltReason
  | reset
  | flashFault
  deriving DecidableEq, Repr

def HaltReason.name : HaltReason → String
  | reset => "Reset"
  | flashFault => "FlashFault"

/-- How a board stopped: in the way it is meant to, or with a message. -/
inductive Stop
  | halted (reason : HaltReason)
  | crashed (message : String)
  deriving DecidableEq, Repr

abbrev Attempt (α : Type) := Except Stop α

/-- The operations of a board. Changes hand the board back, with whether they were accepted where
they can be turned down. -/
class Board (β : Type) where
  identity : β → Identity
  registerCount : β → Nat
  register : β → Nat → Attempt Nat
  setRegister : β → Nat → Nat → Attempt (β × Bool)
  /-- One framed line that describes a register. -/
  registerLine : β → Address → Nat → Attempt String
  saveRegisters : β → β × Journal
  resetRegisters : β → β
  hasCalibration : β → Bool
  channel : β → Nat → UInt8
  setChannel : β → Nat → UInt8 → β × Bool
  lockCalibration : β → β × Bool × Journal
  pinCount : β → Nat
  pinDirection : β → Nat → Attempt PinDirection
  setPinDirection : β → Nat → PinDirection → Attempt β
  /-- The level of an output or the reading of an input. -/
  pinValue : β → Nat → Attempt Nat
  setPin : β → Nat → Nat → Attempt (β × Bool)
  forward : β → Destination → String → β × Journal
  timingReport : β → Address → String
  signalReport : β → Address → String
  syncState : β → Nat
  setWatchdog : β → Bool → β × Journal
  setPower : β → UInt8 → β × Journal
  setDiversity : β → Bool → β
  halt : β → HaltReason → Stop × Journal

def Board.node {β : Type} [Board β] (b : β) : Address := (identity b).node

end RadioModem
