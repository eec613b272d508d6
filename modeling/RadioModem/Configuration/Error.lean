import RadioModem.Address
import RadioModem.Text.Quoted

/-!
# Why a node cannot be set up
-/
namespace RadioModem

/-- A setting that can be read and still cannot be used. -/
inductive SetupFault
  | capacityTooSmall
  | guardNotPositive
  | tooManyPins (count : Nat)
  | addressDiffers (register : Nat) (node : Address)
  deriving DecidableEq, Repr

def SetupFault.message : SetupFault → String
  | capacityTooSmall => "command_capacity must hold at least \"AT\""
  | guardNotPositive => "escape_guard_ticks must be positive"
  | tooManyPins count =>
    "pins.count is " ++ toString count ++ ", at most 10 pins are addressable"
  | addressDiffers register node =>
    "NODEID parameter " ++ toString register ++ " differs from identity.node_id " ++
      toString node.toNat

inductive SetupError
  | unreadableFile
  | unreadableText
  | unknownParameter (name : String)
  | invalidParameter (name : String) (value : Nat)
  | unusable (fault : SetupFault)
  deriving DecidableEq, Repr

namespace SetupError

/-- The message for a person; the first two come with texts of the reader's own. -/
def message : SetupError → String
  | unreadableFile => "IO error"
  | unreadableText => "YAML parsing error"
  | unknownParameter name => "Unknown parameter: " ++ name
  | invalidParameter name value => "Parameter " ++ name ++ " does not accept " ++ toString value
  | unusable fault => "Configuration error: " ++ fault.message

/-- The error as the program prints it when it ends with one. -/
def report : SetupError → String
  | unreadableFile => "Io"
  | unreadableText => "Yaml"
  | unknownParameter name => "UnknownParameter(" ++ Text.quoted name ++ ")"
  | invalidParameter name value =>
    "InvalidParameter \x7b name: " ++ Text.quoted name ++ ", value: " ++ toString value ++ " \x7d"
  | unusable fault => "Config(" ++ Text.quoted fault.message ++ ")"

end SetupError

end RadioModem
