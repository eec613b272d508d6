import RadioModem.TestMode

/-!
# Local commands

The commands an operator can give to the modem in front of them, and the families they are
counted by.
-/
namespace RadioModem

/-- What an information command asks for. -/
inductive Query
  | banner
  | version
  | boardId
  | frequency
  | bootloader
  | parameters
  | timing
  | signal
  | sync
  deriving DecidableEq, Repr

inductive PinAction
  | output
  | input
  | read
  | write (level : Nat)
  deriving DecidableEq, Repr

/-- Commands that only some boards have. -/
inductive Extended
  | power (pwm : Nat)
  | readChannel (channel : Nat)
  | writeChannel (channel value : Nat)
  | lockCalibration
  deriving DecidableEq, Repr

inductive Command
  | attention
  | factoryReset
  | save
  | forceUpdate
  | testMode (change : TestChange)
  | extended (request : Extended)
  | info (query : Query)
  | pinList
  | pin (index : Nat) (action : PinAction)
  | readRegister (index : Nat)
  | writeRegister (index value : Nat)
  | online
  | reset
  deriving DecidableEq, Repr

inductive Family
  | attention
  | ampersand
  | plus
  | info
  | pin
  | register
  | online
  | reset
  deriving DecidableEq, Repr

def Family.name : Family → String
  | attention => "attention"
  | ampersand => "ampersand"
  | plus => "plus"
  | info => "info"
  | pin => "pin"
  | register => "register"
  | online => "online"
  | reset => "reset"

def Command.family : Command → Family
  | attention => .attention
  | factoryReset | save | forceUpdate | testMode _ => .ampersand
  | extended _ => .plus
  | info _ => .info
  | pinList | pin _ _ => .pin
  | readRegister _ | writeRegister _ _ => .register
  | online => .online
  | reset => .reset

end RadioModem
