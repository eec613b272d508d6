import RadioModem.Command

/-!
# The written form of a command

Each command has one canonical line: no leading zeros, nothing after the last argument, and the
shortest spelling where there are two.
-/
namespace RadioModem

def TestChange.suffix : TestChange → String
  | .clearAll => ""
  | .toggle flag => "=" ++ flag.name

def Extended.suffix : Extended → String
  | .power pwm => "P=" ++ toString pwm
  | .readChannel channel => "C" ++ toString channel ++ "?"
  | .writeChannel channel value => "C" ++ toString channel ++ "=" ++ toString value
  | .lockCalibration => "L"

def Query.suffix : Query → String
  | .banner => ""
  | .version => "1"
  | .boardId => "2"
  | .frequency => "3"
  | .bootloader => "4"
  | .parameters => "5"
  | .timing => "6"
  | .signal => "7"
  | .sync => "8"

def PinAction.line (index : Nat) : PinAction → String
  | .output => "O=" ++ toString index
  | .input => "I=" ++ toString index
  | .read => "R=" ++ toString index
  | .write level => "C=" ++ toString index ++ "," ++ toString level

def Command.print : Command → String
  | .attention => "AT"
  | .factoryReset => "AT&F"
  | .save => "AT&W"
  | .forceUpdate => "AT&UPDATE"
  | .testMode change => "AT&T" ++ change.suffix
  | .extended request => "AT+" ++ request.suffix
  | .info query => "ATI" ++ query.suffix
  | .pinList => "ATPP"
  | .pin index action => "ATP" ++ action.line index
  | .readRegister index => "ATS" ++ toString index ++ "?"
  | .writeRegister index value => "ATS" ++ toString index ++ "=" ++ toString value
  | .online => "ATO"
  | .reset => "ATZ"

end RadioModem
