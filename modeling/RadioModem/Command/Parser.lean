import RadioModem.Address
import RadioModem.Command
import RadioModem.Refusal
import RadioModem.Text.Decimal

/-!
# Reading a command line

A line is a request to the modem itself, a command for another node, or neither. A local command
is picked by single characters after the attention code; most commands look no further than they
need, so text after them is allowed. Numbers are below 2 ^ 32, and an empty run of digits is zero.

A remote line ends its command at the first comma after the third character of the line, and the
digits after that comma are the address.
-/
namespace RadioModem
open Text

def numberLimit : Nat := 4294967296

/-- The number at the front of an argument, with the text after it. -/
def number (text : List Char) : Except Refusal (Nat × List Char) :=
  match Decimal.leading numberLimit text with
  | some read => .ok read
  | none => .error .malformed

def digit (c : Char) : Except Refusal Nat :=
  if c.isDigit then .ok (Decimal.weight c) else .error .malformed

namespace Command

def ofAmpersand : List Char → Except Refusal Command
  | 'F' :: _ => .ok .factoryReset
  | 'W' :: _ => .ok .save
  | ['U', 'P', 'D', 'A', 'T', 'E'] => .ok .forceUpdate
  | ['T'] => .ok (.testMode .clearAll)
  | ['T', '=', 'R', 'S', 'S', 'I'] => .ok (.testMode (.toggle .rssi))
  | ['T', '=', 'T', 'D', 'M'] => .ok (.testMode (.toggle .tdm))
  | _ => .error .malformed

def ofPlus : List Char → Except Refusal Command
  | 'P' :: '=' :: text => do
    let (pwm, _) ← number text
    return .extended (.power pwm)
  | 'C' :: text => do
    match ← number text with
    | (channel, '?' :: _) => return .extended (.readChannel channel)
    | (channel, '=' :: argument) =>
      let (value, _) ← number argument
      return .extended (.writeChannel channel value)
    | _ => .error .malformed
  | 'L' :: _ => .ok (.extended .lockCalibration)
  | _ => .error .malformed

def ofInfo : List Char → Except Refusal Command
  | [] => .ok (.info .banner)
  | '0' :: _ => .ok (.info .banner)
  | '1' :: _ => .ok (.info .version)
  | '2' :: _ => .ok (.info .boardId)
  | '3' :: _ => .ok (.info .frequency)
  | '4' :: _ => .ok (.info .bootloader)
  | '5' :: _ => .ok (.info .parameters)
  | '6' :: _ => .ok (.info .timing)
  | '7' :: _ => .ok (.info .signal)
  | '8' :: _ => .ok (.info .sync)
  | _ => .error .malformed

/-- The level of a write follows the pin after one separating ASCII character. -/
def levelAfter : List Char → Except Refusal Nat
  | separator :: level :: _ =>
    if separator.toNat < 128 then digit level else .error .malformed
  | _ => .error .malformed

def ofPin : List Char → Except Refusal Command
  | 'P' :: _ => .ok .pinList
  | 'O' :: '=' :: index :: _ => return .pin (← digit index) .output
  | 'I' :: '=' :: index :: _ => return .pin (← digit index) .input
  | 'R' :: '=' :: index :: _ => return .pin (← digit index) .read
  | 'C' :: '=' :: index :: argument => do
    let index ← digit index
    let level ← levelAfter argument
    return .pin index (.write level)
  | _ => .error .malformed

def ofRegister (text : List Char) : Except Refusal Command := do
  match ← number text with
  | (index, '?' :: _) => return .readRegister index
  | (index, '=' :: argument) =>
    let (value, _) ← number argument
    return .writeRegister index value
  | _ => .error .malformed

/-- Reads what follows the attention code. -/
def parse : List Char → Except Refusal Command
  | [] => .ok .attention
  | '&' :: text => ofAmpersand text
  | '+' :: text => ofPlus text
  | 'I' :: text => ofInfo text
  | 'P' :: text => ofPin text
  | 'S' :: text => ofRegister text
  | 'O' :: _ => .ok .online
  | 'Z' :: _ => .ok .reset
  | _ => .error .malformed

end Command

/-- What a finished line asks for. -/
inductive Request
  | ignored
  | remote (destination : Except Refusal Destination) (command : String)
  | here (command : Except Refusal Command)
  deriving Repr

namespace Request

def destination (text : List Char) : Except Refusal Destination := do
  let (n, _) ← number text
  if n < UInt16.size then return .ofAddress (UInt16.ofNat n)
  .error (.outOfRange n 65535)

/-- Splits what follows the relay code into the command and its address. -/
def ofRelayed : List Char → Request
  | [] => .remote (.ok .broadcast) ""
  | first :: text =>
    let command := first :: text.takeWhile (· != ',')
    match text.dropWhile (· != ',') with
    | [] => .remote (.ok .broadcast) (String.ofList command)
    | _ :: address => .remote (destination address) (String.ofList command)

def parse (line : String) : Request :=
  match line.toList with
  | 'R' :: 'T' :: text => ofRelayed text
  | 'A' :: 'T' :: text => .here (Command.parse text)
  | _ => .ignored

end Request

end RadioModem
