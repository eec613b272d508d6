import RadioModem.Board
import RadioModem.Command.Parser
import RadioModem.Reply
import RadioModem.Text.Quoted

/-!
# Running a line

A finished line is read and run against a board. A local command is answered by one `OK`, one
`ERROR` or lines of data, with four exceptions that say nothing: leaving command mode, a change of
test modes, and the two commands that stop the board. A remote line is handed on without a word.
-/
namespace RadioModem

/-- What the modem has to do once a line has been run. -/
inductive Effect
  | stay
  | leaveCommandMode
  | stop (how : Stop)
  deriving DecidableEq, Repr

/-- The state a line leaves behind and what it produced. -/
structure Outcome (β : Type) where
  board : β
  tests : TestMode
  reply : String
  effect : Effect
  journal : Journal

/-- What a handler made of its command. -/
structure Handled (β : Type) where
  board : β
  answer : Except Refusal String
  journal : Journal

namespace Dispatch

variable {β : Type} [Board β]

def reply (b : β) (text : String) : String := frame (Board.node b) text

def answered (b : β) (text : String) : Handled β := ⟨b, .ok text, .empty⟩

def refused (b : β) (r : Refusal) : Handled β := ⟨b, .error r, .empty⟩

def accepted (b : β) : Handled β := answered b (reply b okText)

/-- A change is answered by whether its collaborator took it. -/
def judged (source : Rejector) (b : β) (taken : Bool) : Handled β :=
  if taken then accepted b else refused b (.rejected source)

def power (b : β) (pwm : Nat) : Handled β :=
  let (b, journal) := Board.setPower b (UInt8.ofNat pwm)
  { accepted (Board.setDiversity b false) with journal }

/-- Calibration is out of reach on a board that has none. -/
def withCalibration (b : β) (run : β → Handled β) : Handled β :=
  if Board.hasCalibration b then run b else refused b .unsupported

def extended (f : Features) (b : β) (request : Extended) : Handled β :=
  if f.extendedCommands then
    match request with
    | .power pwm => power b pwm
    | .readChannel channel => withCalibration b fun b =>
      answered b (reply b (toString (Board.channel b channel).toNat))
    | .writeChannel channel value => withCalibration b fun b =>
      let (b, taken) := Board.setChannel b channel (UInt8.ofNat value)
      judged .calibrationStore b taken
    | .lockCalibration => withCalibration b fun b =>
      let (b, taken, journal) := Board.lockCalibration b
      { judged .calibrationStore b taken with journal }
  else refused b .unsupported

def parameters (b : β) : Attempt (Handled β) := do
  let lines ← (List.range (Board.registerCount b)).mapM (Board.registerLine b (Board.node b))
  return answered b (String.join lines)

/-- Node zero is the timing base of the whole network. -/
def syncText (b : β) : String :=
  if Board.node b = 0 then "Sync: Base" else "Sync: " ++ toString (Board.syncState b)

def info (b : β) : Query → Attempt (Handled β)
  | .banner => .ok (answered b (reply b (Board.identity b).banner))
  | .version => .ok (answered b (reply b (Board.identity b).version))
  | .boardId => .ok (answered b (reply b (toString (Board.identity b).boardId)))
  | .frequency => .ok (answered b (reply b (toString (Board.identity b).boardFrequency)))
  | .bootloader => .ok (answered b (reply b (toString (Board.identity b).bootloaderVersion)))
  | .parameters => parameters b
  | .timing => .ok (answered b (Board.timingReport b (Board.node b)))
  | .signal => .ok (answered b (Board.signalReport b (Board.node b)))
  | .sync => .ok (answered b (reply b (syncText b)))

def directionText : PinDirection → String
  | .output => "Output "
  | .input => "Input  "

def pinLine (b : β) (index : Nat) : Attempt String := do
  let direction ← Board.pinDirection b index
  let value ← Board.pinValue b index
  return reply b
    ("Pin:" ++ toString index ++ " " ++ directionText direction ++ "Val: " ++ toString value)

def pinList (b : β) : Attempt (Handled β) := do
  let lines ← (List.range (Board.pinCount b)).mapM (pinLine b)
  return answered b (String.join lines)

def pin (b : β) (index : Nat) (action : PinAction) : Attempt (Handled β) :=
  if index < Board.pinCount b then
    match action with
    | .output => accepted <$> Board.setPinDirection b index .output
    | .input => accepted <$> Board.setPinDirection b index .input
    | .read => do
      match ← Board.pinDirection b index with
      | .input => return answered b (reply b ("val:" ++ toString (← Board.pinValue b index)))
      | .output => return refused b (.rejected .pinDirection)
    | .write level => do
      let (b, taken) ← Board.setPin b index level
      return judged .pin b taken
  else .ok (refused b (.outOfRange index (Board.pinCount b)))

def readRegister (b : β) (index : Nat) : Attempt (Handled β) :=
  if index < Board.registerCount b then do
    return answered b (reply b (toString (← Board.register b index)))
  else .ok (refused b (.outOfRange index (Board.registerCount b)))

def writeRegister (b : β) (index value : Nat) : Attempt (Handled β) :=
  if index < Board.registerCount b then
    if index = 0 then .ok (refused b (.readOnly index))
    else do
      let (b, taken) ← Board.setRegister b index value
      return judged .parameterStore b taken
  else .ok (refused b (.outOfRange index (Board.registerCount b)))

def save (b : β) : Handled β :=
  let (b, journal) := Board.saveRegisters b
  { accepted b with journal }

/-- A bracketed node number opens the records of a line. -/
def tagged (b : β) (text : String) : String :=
  "[" ++ toString (Board.node b).toNat ++ "] " ++ text

def failed (b : β) (t : TestMode) (r : Refusal) (journal : Journal) : Outcome β :=
  ⟨b, t, reply b errorText, .stay,
    journal ++ .note .debug (tagged b ("ERROR: " ++ r.message)) ++ .count .errors 1⟩

/-- Turns what a handler made into the outcome of its line. A board that stopped stays as it
was. -/
def settled (b : β) (t : TestMode) : Attempt (Handled β) → Outcome β
  | .error how => ⟨b, t, "", .stop how, .empty⟩
  | .ok ⟨b, .ok text, journal⟩ => ⟨b, t, text, .stay, journal⟩
  | .ok ⟨b, .error r, journal⟩ => failed b t r journal

def halting (b : β) (t : TestMode) (reason : HaltReason) (journal : Journal) : Outcome β :=
  let (how, record) := Board.halt b reason
  ⟨b, t, "", .stop how, journal ++ record⟩

def changeTests (b : β) (t : TestMode) (change : TestChange) : Outcome β :=
  let t := change.apply t
  ⟨b, t, "", .stay, .note .debug ("test modes now " ++ t.text)⟩

def execute (f : Features) (b : β) (t : TestMode) : Command → Outcome β
  | .attention => settled b t (.ok (accepted b))
  | .factoryReset => settled b t (.ok (accepted (Board.resetRegisters b)))
  | .save => settled b t (.ok (save b))
  | .forceUpdate =>
    halting b t .flashFault (.note .warn "forcing flash fault for firmware update")
  | .testMode change => changeTests b t change
  | .extended request => settled b t (.ok (extended f b request))
  | .info query => settled b t (info b query)
  | .pinList => settled b t (pinList b)
  | .pin index action => settled b t (pin b index action)
  | .readRegister index => settled b t (readRegister b index)
  | .writeRegister index value => settled b t (writeRegister b index value)
  | .online => ⟨b, t, "", .leaveCommandMode, .empty⟩
  | .reset => halting b t .reset (.note .info (tagged b "reset requested"))

def relay (b : β) (t : TestMode) (d : Destination) (command : String) : Outcome β :=
  let (b, journal) := Board.forward b d command
  ⟨b, t, "", .stay, .count (.relayed d.reach) 1 ++ journal⟩

def dropped (b : β) (t : TestMode) (r : Refusal) (command : String) : Outcome β :=
  ⟨b, t, "", .stay,
    .note .warn ("dropping remote command " ++ Text.quoted command ++ ": " ++ r.message)⟩

/-- Runs a request that has been read. -/
def answer (f : Features) (b : β) (t : TestMode) : Request → Outcome β
  | .ignored => ⟨b, t, "", .stay, .empty⟩
  | .remote (.ok d) command => relay b t d command
  | .remote (.error r) command => dropped b t r command
  | .here (.error r) => failed b t r .empty
  | .here (.ok command) =>
    let o := execute f b t command
    { o with journal := .count (.commands command.family) 1 ++ o.journal }

def run (f : Features) (b : β) (t : TestMode) (line : String) : Outcome β :=
  let o := answer f b t (.parse line)
  { o with journal := .note .debug (tagged b ("dispatch " ++ Text.quoted line)) ++ o.journal }

end Dispatch

end RadioModem
