/-!
# Why a command is answered with an error

The operator sees the same reply for each of these; the reason goes to the log.
-/
namespace RadioModem

/-- The collaborator that turned an operation down. -/
inductive Rejector
  | parameterStore
  | calibrationStore
  | pinDirection
  | pin
  deriving DecidableEq, Repr

def Rejector.name : Rejector → String
  | parameterStore => "parameter store"
  | calibrationStore => "calibration store"
  | pinDirection => "pin direction"
  | pin => "pin"

inductive Refusal
  | malformed
  | outOfRange (index max : Nat)
  | readOnly (register : Nat)
  | unsupported
  | rejected (source : Rejector)
  deriving DecidableEq, Repr

def Refusal.message : Refusal → String
  | malformed => "syntax error"
  | outOfRange index max =>
    "index " ++ toString index ++ " out of range (max " ++ toString max ++ ")"
  | readOnly register => "register " ++ toString register ++ " is read-only"
  | unsupported => "not supported on this board"
  | rejected source => "rejected by " ++ source.name

end RadioModem
