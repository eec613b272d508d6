import Mathlib.Data.List.Basic
import RadioModem.Dispatch

/-!
# The calls of a line

A line as a script of the calls that it makes on its board. What a script calls next depends on the
answers so far, so a script knows of no board; a board plays it by answering. To run a line is to
play its script, on every board there is.
-/
namespace RadioModem

/-- The operations of a board. -/
inductive Call
  | identity
  | registerCount
  | register (index : Nat)
  | setRegister (index value : Nat)
  | registerLine (node : Address) (index : Nat)
  | saveRegisters
  | resetRegisters
  | hasCalibration
  | channel (index : Nat)
  | setChannel (index : Nat) (value : UInt8)
  | lockCalibration
  | pinCount
  | pinDirection (index : Nat)
  | setPinDirection (index : Nat) (d : PinDirection)
  | pinValue (index : Nat)
  | setPin (index level : Nat)
  | forward (d : Destination) (command : String)
  | timingReport (node : Address)
  | signalReport (node : Address)
  | syncState
  | setWatchdog (enabled : Bool)
  | setPower (pwm : UInt8)
  | setDiversity (enabled : Bool)
  | halt (reason : HaltReason)
  deriving DecidableEq

namespace Call

/-- What a call is answered. A halt never is. -/
@[reducible]
def Answer : Call → Type
  | identity => Identity
  | registerCount | register _ | pinCount | pinValue _ | syncState => Nat
  | setRegister _ _ | hasCalibration | setChannel _ _ | lockCalibration | setPin _ _ => Bool
  | registerLine _ _ | timingReport _ | signalReport _ => String
  | channel _ => UInt8
  | pinDirection _ => PinDirection
  | saveRegisters | resetRegisters | setPinDirection _ _ | forward _ _ | setWatchdog _ | setPower _
  | setDiversity _ => Unit
  | halt _ => Empty

variable {β : Type} [Board β]

/-- What a board makes of a call, with what it writes down. -/
def on (b : β) : (c : Call) → Attempt (β × c.Answer) × Journal
  | identity => (.ok (b, Board.identity b), .empty)
  | registerCount => (.ok (b, Board.registerCount b), .empty)
  | register index => ((b, ·) <$> Board.register b index, .empty)
  | setRegister index value => (Board.setRegister b index value, .empty)
  | registerLine node index => ((b, ·) <$> Board.registerLine b node index, .empty)
  | saveRegisters =>
    let (b, journal) := Board.saveRegisters b
    (.ok (b, ()), journal)
  | resetRegisters => (.ok (Board.resetRegisters b, ()), .empty)
  | hasCalibration => (.ok (b, Board.hasCalibration b), .empty)
  | channel index => (.ok (b, Board.channel b index), .empty)
  | setChannel index value => (.ok (Board.setChannel b index value), .empty)
  | lockCalibration =>
    let (b, taken, journal) := Board.lockCalibration b
    (.ok (b, taken), journal)
  | pinCount => (.ok (b, Board.pinCount b), .empty)
  | pinDirection index => ((b, ·) <$> Board.pinDirection b index, .empty)
  | setPinDirection index d => ((·, ()) <$> Board.setPinDirection b index d, .empty)
  | pinValue index => ((b, ·) <$> Board.pinValue b index, .empty)
  | setPin index level => (Board.setPin b index level, .empty)
  | forward d command =>
    let (b, journal) := Board.forward b d command
    (.ok (b, ()), journal)
  | timingReport node => (.ok (b, Board.timingReport b node), .empty)
  | signalReport node => (.ok (b, Board.signalReport b node), .empty)
  | syncState => (.ok (b, Board.syncState b), .empty)
  | setWatchdog enabled =>
    let (b, journal) := Board.setWatchdog b enabled
    (.ok (b, ()), journal)
  | setPower pwm =>
    let (b, journal) := Board.setPower b pwm
    (.ok (b, ()), journal)
  | setDiversity enabled => (.ok (Board.setDiversity b enabled, ()), .empty)
  | halt reason =>
    let (how, record) := Board.halt b reason
    (.error how, record)

end Call

/-- Calls one after the other, each chosen by the answers before it, with what is written down in
between. -/
inductive Script (α : Type)
  | done (a : α)
  | note (journal : Journal) (next : Script α)
  | call (c : Call) (next : c.Answer → Script α)

/-- A board behind a script, what the script came to, and the journal of both. A board that stops
in the middle of a script is left as it is then. -/
structure Played (β α : Type) where
  board : β
  result : Attempt α
  journal : Journal

namespace Played
variable {β α ω : Type}

def behind (journal : Journal) (p : Played β α) : Played β α :=
  { p with journal := journal ++ p.journal }

def andThen (p : Played β α) (next : β → α → Played β ω) : Played β ω :=
  match p with
  | ⟨b, .error how, journal⟩ => ⟨b, .error how, journal⟩
  | ⟨b, .ok a, journal⟩ => (next b a).behind journal

lemma behind_andThen (journal : Journal) (p : Played β α) (next : β → α → Played β ω) :
    (p.behind journal).andThen next = (p.andThen next).behind journal := by
  obtain ⟨b, result, written⟩ := p
  cases result with
  | error how => rfl
  | ok a => simp only [behind, andThen, Journal.append_assoc]

end Played

namespace Script
variable {α ω : Type}

protected def bind : Script α → (α → Script ω) → Script ω
  | done a, next => next a
  | note journal s, next => note journal (s.bind next)
  | call c answered, next => call c fun answer => (answered answer).bind next

instance : Monad Script where
  pure := done
  bind := Script.bind

/-- A single call. -/
def ask (c : Call) : Script c.Answer := call c done

def write (journal : Journal) : Script Unit := note journal (done ())

section
variable {β : Type} [Board β]

/-- Plays a script on a board. -/
def on (b : β) : Script α → Played β α
  | done a => ⟨b, .ok a, .empty⟩
  | note journal s => (s.on b).behind journal
  | call c next =>
    match c.on b with
    | (.error how, journal) => ⟨b, .error how, journal⟩
    | (.ok (b, answer), journal) => ((next answer).on b).behind journal

/-- The calls that a board gets when a script is played on it. -/
def calls (b : β) : Script α → List Call
  | done _ => []
  | note _ s => s.calls b
  | call c next =>
    c :: match c.on b with
      | (.error _, _) => []
      | (.ok (b, answer), _) => (next answer).calls b

theorem on_bind (b : β) (s : Script α) (next : α → Script ω) :
    (s >>= next).on b = (s.on b).andThen fun b a => (next a).on b := by
  change (s.bind next).on b = _
  induction s generalizing b with
  | done a => rfl
  | note journal s ih =>
    rw [Script.bind, on, on, ih, Played.behind_andThen]
  | call c answered ih =>
    rw [Script.bind, on, on]
    split
    · rfl
    · rw [ih, Played.behind_andThen]

end

/-! ### The scripts of the commands -/

/-- What a handler answers its command. -/
abbrev Answer := Except Refusal String

def node : Script Address := do return (← ask .identity).node

def framed (text : String) : Script String := do return frame (← node) text

def told (text : String) : Script Answer := do return .ok (← framed text)

def refused (r : Refusal) : Script Answer := return .error r

def accepted : Script Answer := told okText

def judged (source : Rejector) (taken : Bool) : Script Answer :=
  if taken then accepted else refused (.rejected source)

def power (pwm : Nat) : Script Answer := do
  ask (.setPower (UInt8.ofNat pwm))
  ask (.setDiversity false)
  accepted

def withCalibration (s : Script Answer) : Script Answer := do
  if ← ask .hasCalibration then s else refused .unsupported

def extended (f : Features) (request : Extended) : Script Answer :=
  if f.extendedCommands then
    match request with
    | .power pwm => power pwm
    | .readChannel channel => withCalibration do
      told (toString (← ask (.channel channel)).toNat)
    | .writeChannel channel value => withCalibration do
      judged .calibrationStore (← ask (.setChannel channel (UInt8.ofNat value)))
    | .lockCalibration => withCalibration do
      judged .calibrationStore (← ask .lockCalibration)
  else refused .unsupported

/-- One line for each index below a count. -/
def listed (count : Nat) (line : Nat → Script String) : Script Answer := do
  return .ok (String.join (← (List.range count).mapM' line))

def parameters : Script Answer := do
  let count ← ask .registerCount
  let node ← node
  listed count fun index => ask (.registerLine node index)

def syncText : Script String := do
  if (← node) = 0 then return "Sync: Base"
  return "Sync: " ++ toString (← ask .syncState)

def info : Query → Script Answer
  | .banner => do told (← ask .identity).banner
  | .version => do told (← ask .identity).version
  | .boardId => do told (toString (← ask .identity).boardId)
  | .frequency => do told (toString (← ask .identity).boardFrequency)
  | .bootloader => do told (toString (← ask .identity).bootloaderVersion)
  | .parameters => parameters
  | .timing => do return .ok (← ask (.timingReport (← node)))
  | .signal => do return .ok (← ask (.signalReport (← node)))
  | .sync => do told (← syncText)

def pinLine (index : Nat) : Script String := do
  let direction ← ask (.pinDirection index)
  let value ← ask (.pinValue index)
  framed ("Pin:" ++ toString index ++ " " ++ Dispatch.directionText direction ++ "Val: " ++
    toString value)

def pinList : Script Answer := do
  listed (← ask .pinCount) pinLine

def pin (index : Nat) (action : PinAction) : Script Answer := do
  let count ← ask .pinCount
  if index < count then
    match action with
    | .output => do
      ask (.setPinDirection index .output)
      accepted
    | .input => do
      ask (.setPinDirection index .input)
      accepted
    | .read => do
      match ← ask (.pinDirection index) with
      | .input => told ("val:" ++ toString (← ask (.pinValue index)))
      | .output => refused (.rejected .pinDirection)
    | .write level => do judged .pin (← ask (.setPin index level))
  else refused (.outOfRange index count)

def readRegister (index : Nat) : Script Answer := do
  let count ← ask .registerCount
  if index < count then told (toString (← ask (.register index)))
  else refused (.outOfRange index count)

def writeRegister (index value : Nat) : Script Answer := do
  let count ← ask .registerCount
  if index < count then
    if index = 0 then refused (.readOnly index)
    else judged .parameterStore (← ask (.setRegister index value))
  else refused (.outOfRange index count)

/-! ### The scripts of lines -/

/-- What becomes of a line that a board did not stop at. -/
structure Said where
  tests : TestMode
  reply : String
  leaves : Bool

def tagged (text : String) : Script String := do
  return "[" ++ toString (← node).toNat ++ "] " ++ text

def failed (t : TestMode) (r : Refusal) : Script Said := do
  write (.note .debug (← tagged ("ERROR: " ++ r.message)))
  write (.count .errors 1)
  return ⟨t, ← framed errorText, false⟩

def settled (t : TestMode) (s : Script Answer) : Script Said := do
  match ← s with
  | .ok text => return ⟨t, text, false⟩
  | .error r => failed t r

def halting (reason : HaltReason) : Script Said := do
  nomatch ← ask (.halt reason)

def execute (f : Features) (t : TestMode) : Command → Script Said
  | .attention => settled t accepted
  | .factoryReset => settled t do
    ask .resetRegisters
    accepted
  | .save => settled t do
    ask .saveRegisters
    accepted
  | .forceUpdate => do
    write (.note .warn "forcing flash fault for firmware update")
    halting .flashFault
  | .testMode change => do
    write (.note .debug ("test modes now " ++ (change.apply t).text))
    return ⟨change.apply t, "", false⟩
  | .extended request => settled t (extended f request)
  | .info query => settled t (info query)
  | .pinList => settled t pinList
  | .pin index action => settled t (pin index action)
  | .readRegister index => settled t (readRegister index)
  | .writeRegister index value => settled t (writeRegister index value)
  | .online => return ⟨t, "", true⟩
  | .reset => do
    write (.note .info (← tagged "reset requested"))
    halting .reset

def ofRequest (f : Features) (t : TestMode) : Request → Script Said
  | .ignored => return ⟨t, "", false⟩
  | .remote (.ok d) command => do
    write (.count (.relayed d.reach) 1)
    ask (.forward d command)
    return ⟨t, "", false⟩
  | .remote (.error r) command => do
    write (.note .warn
      ("dropping remote command " ++ Text.quoted command ++ ": " ++ r.message))
    return ⟨t, "", false⟩
  | .here (.error r) => failed t r
  | .here (.ok command) => do
    write (.count (.commands command.family) 1)
    execute f t command

/-- The script of a line. -/
def ofLine (f : Features) (t : TestMode) (line : String) : Script Said := do
  write (.note .debug (← tagged ("dispatch " ++ Text.quoted line)))
  ofRequest f t (.parse line)

end Script

/-! ### Playing a line is running it -/

section
variable {β : Type}

/-- What a handler made of its command, as a play of its script. -/
def Handled.played (h : Handled β) : Played β Script.Answer := ⟨h.board, .ok h.answer, h.journal⟩

/-- A handler that stops its board leaves it as it was. -/
def Attempt.played (b : β) : Attempt (Handled β) → Played β Script.Answer
  | .ok h => h.played
  | .error how => ⟨b, .error how, .empty⟩

namespace Played

/-- What a line comes to that has been played. A board that stopped says nothing. -/
def outcome (t : TestMode) : Played β Script.Said → Outcome β
  | ⟨b, .error how, journal⟩ => ⟨b, t, "", .stop how, journal⟩
  | ⟨b, .ok said, journal⟩ =>
    ⟨b, said.tests, said.reply, if said.leaves then .leaveCommandMode else .stay, journal⟩

lemma outcome_stop_iff {p : Played β Script.Said} {t : TestMode} {how : Stop} :
    (p.outcome t).effect = .stop how ↔ p.result = .error how := by
  obtain ⟨b, result, journal⟩ := p
  cases result with
  | error other => simp [outcome]
  | ok said =>
    simp only [outcome]
    split <;> simp

lemma outcome_behind (journal : Journal) (p : Played β Script.Said) (t : TestMode) :
    (p.behind journal).outcome t =
      { p.outcome t with journal := journal ++ (p.outcome t).journal } := by
  obtain ⟨b, result, written⟩ := p
  cases result <;> rfl

end Played

end

namespace Script

section
open Dispatch (reply answered)

variable {α ω : Type} {β : Type} [Board β] {b c : β} {f : Features} {t : TestMode}

lemma on_bind_ok {s : Script α} {a : α} {journal : Journal} (h : s.on b = ⟨c, .ok a, journal⟩)
    (next : α → Script ω) : (s >>= next).on b = ((next a).on c).behind journal := by
  rw [on_bind, h]
  rfl

lemma on_bind_error {s : Script α} {how : Stop} {journal : Journal}
    (h : s.on b = ⟨c, .error how, journal⟩) (next : α → Script ω) :
    (s >>= next).on b = ⟨c, .error how, journal⟩ := by
  rw [on_bind, h]
  rfl

lemma on_ask_reads {call : Call} {answer : Attempt call.Answer}
    (h : call.on b = ((b, ·) <$> answer, .empty)) : (ask call).on b = ⟨b, answer, .empty⟩ := by
  rw [ask, on, h]
  cases answer <;> rfl

/-- Where a script only reads, what follows it is run on the same board. -/
lemma on_bind_reads {s : Script α} {a : Attempt α} (h : s.on b = ⟨b, a, .empty⟩)
    (next : α → Script Answer) (handler : α → Attempt (Handled β))
    (hnext : ∀ x, (next x).on b = Attempt.played b (handler x)) :
    (s >>= next).on b = Attempt.played b (a >>= handler) := by
  cases a with
  | error how => exact on_bind_error h next
  | ok x => exact (on_bind_ok h next).trans (hnext x)

lemma on_judged (source : Rejector) (taken : Bool) :
    (judged source taken).on b = (Dispatch.judged source b taken).played := by
  cases taken <;> rfl

lemma on_judged_behind (source : Rejector) (taken : Bool) (journal : Journal) :
    ((judged source taken).on b).behind journal =
      ({ Dispatch.judged source b taken with journal } : Handled β).played := by
  cases taken <;> exact congrArg (Played.mk _ _) (Journal.append_empty _)

lemma on_power (pwm : Nat) : (power pwm).on b = (Dispatch.power b pwm).played :=
  congrArg (Played.mk _ _) (Journal.append_empty _)

lemma on_withCalibration {s : Script Answer} {run : β → Handled β} (h : s.on b = (run b).played) :
    (withCalibration s).on b = (Dispatch.withCalibration b run).played := by
  change (if Board.hasCalibration b then s else refused .unsupported).on b = _
  unfold Dispatch.withCalibration
  split
  · exact h
  · rfl

lemma on_extended (request : Extended) :
    (extended f request).on b = (Dispatch.extended f b request).played := by
  unfold extended Dispatch.extended
  split
  · cases request with
    | power pwm => exact on_power pwm
    | readChannel channel => exact on_withCalibration rfl
    | writeChannel channel value => exact on_withCalibration (on_judged _ _)
    | lockCalibration => exact on_withCalibration (on_judged_behind _ _ _)
  · rfl

/-- A list of lines that each only read. -/
lemma on_listed {count : Nat} {line : Nat → Script String} {plain : Nat → Attempt String}
    (h : ∀ index, (line index).on b = ⟨b, plain index, .empty⟩) :
    (listed count line).on b = Attempt.played b (do
      return answered b (String.join (← (List.range count).mapM plain))) := by
  have hlines (indices : List Nat) :
      (indices.mapM' line).on b = ⟨b, indices.mapM plain, .empty⟩ := by
    induction indices with
    | nil => rfl
    | cons index indices ih =>
      rw [List.mapM'_cons, List.mapM_cons, on_bind, h]
      cases plain index with
      | error how => rfl
      | ok text =>
        refine (congrArg (Played.behind .empty) (on_bind ..)).trans ?_
        rw [ih]
        cases indices.mapM plain <;> rfl
  exact on_bind_reads (hlines _) _ _ fun lines => rfl

lemma on_syncText : syncText.on b = ⟨b, .ok (Dispatch.syncText b), .empty⟩ := by
  change (if Board.node b = 0 then pure "Sync: Base" else
    (do return "Sync: " ++ toString (← ask .syncState))).on b = _
  unfold Dispatch.syncText
  split <;> rfl

lemma on_info (q : Query) : (info q).on b = Attempt.played b (Dispatch.info b q) := by
  cases q with
  | parameters => exact on_listed fun index => on_ask_reads rfl
  | banner | version | boardId | frequency | bootloader | timing | signal => rfl
  | sync => exact on_bind_ok on_syncText told

lemma on_pinLine (index : Nat) : (pinLine index).on b = ⟨b, Dispatch.pinLine b index, .empty⟩ := by
  have hdirection : (ask (.pinDirection index)).on b = ⟨b, Board.pinDirection b index, .empty⟩ :=
    on_ask_reads rfl
  have hvalue : (ask (.pinValue index)).on b = ⟨b, Board.pinValue b index, .empty⟩ :=
    on_ask_reads rfl
  unfold pinLine Dispatch.pinLine
  cases hd : Board.pinDirection b index with
  | error how => exact on_bind_error (hd ▸ hdirection) _
  | ok direction =>
    refine (on_bind_ok (hd ▸ hdirection) _).trans ?_
    cases hv : Board.pinValue b index with
    | error how => exact on_bind_error (hv ▸ hvalue) _
    | ok value => exact on_bind_ok (hv ▸ hvalue) _

/-- What changes a board may stop it instead. -/
lemma on_ask_changes {asked : Call} {change : Attempt (β × asked.Answer)}
    (h : asked.on b = (change, .empty)) (next : asked.Answer → Script Answer)
    (handler : β × asked.Answer → Attempt (Handled β))
    (hnext : ∀ c answer, (next answer).on c = Attempt.played b (handler (c, answer))) :
    (ask asked >>= next).on b = Attempt.played b (change >>= handler) := by
  change (call asked fun answer => (done answer).bind next).on b = _
  rw [on, h]
  cases change with
  | error how => rfl
  | ok made => exact hnext made.1 made.2

lemma on_setPinDirection (index : Nat) (d : PinDirection) :
    (do ask (.setPinDirection index d); accepted : Script Answer).on b =
      Attempt.played b (Dispatch.accepted <$> Board.setPinDirection b index d) := by
  refine (on_ask_changes rfl _ (fun made => .ok (Dispatch.accepted made.1)) fun _ _ => rfl).trans ?_
  cases Board.setPinDirection b index d <;> rfl

lemma on_pin (index : Nat) (action : PinAction) :
    (pin index action).on b = Attempt.played b (Dispatch.pin b index action) := by
  change (if index < Board.pinCount b then _ else _ : Script Answer).on b = _
  unfold Dispatch.pin
  split
  · cases action with
    | output | input => exact on_setPinDirection index _
    | read =>
      refine on_bind_reads (on_ask_reads rfl) _ _ fun direction => ?_
      cases direction with
      | input => exact on_bind_reads (on_ask_reads rfl) _ _ fun value => rfl
      | output => rfl
    | write level =>
      exact on_ask_changes rfl _ _ fun c taken => on_judged _ _
  · rfl

lemma on_readRegister (index : Nat) :
    (readRegister index).on b = Attempt.played b (Dispatch.readRegister b index) := by
  change (if index < Board.registerCount b then _ else _ : Script Answer).on b = _
  unfold Dispatch.readRegister
  split
  · exact on_bind_reads (on_ask_reads rfl) _ _ fun value => rfl
  · rfl

lemma on_writeRegister (index value : Nat) :
    (writeRegister index value).on b = Attempt.played b (Dispatch.writeRegister b index value) := by
  change (if index < Board.registerCount b then _ else _ : Script Answer).on b = _
  unfold Dispatch.writeRegister
  split
  · split
    · rfl
    · exact on_ask_changes rfl _ _ fun c taken => on_judged _ _
  · rfl

lemma on_failed (r : Refusal) (journal : Journal) :
    (((failed t r).on b).behind journal).outcome t = Dispatch.failed b t r journal := by
  refine congrArg (Outcome.mk b t _ _) ?_
  change journal ++ (.note .debug (Dispatch.tagged b _) ++ (.count .errors 1 ++ .empty)) = _
  rw [Journal.append_empty, Journal.append_assoc]

lemma on_settled {s : Script Answer} {a : Attempt (Handled β)}
    (h : s.on b = Attempt.played b a) :
    ((settled t s).on b).outcome t = Dispatch.settled b t a := by
  rw [settled, on_bind, h]
  cases a with
  | error how => rfl
  | ok handled =>
    obtain ⟨c, answer, journal⟩ := handled
    cases answer with
    | ok text => exact congrArg (Outcome.mk c t _ _) (Journal.append_empty _)
    | error r => exact on_failed r journal

lemma on_execute (command : Command) :
    ((execute f t command).on b).outcome t = Dispatch.execute f b t command := by
  cases command with
  | attention => exact on_settled (a := .ok (Dispatch.accepted b)) rfl
  | factoryReset =>
    exact on_settled (a := .ok (Dispatch.accepted (Board.resetRegisters b))) rfl
  | save =>
    exact on_settled (a := .ok (Dispatch.save b))
      (congrArg (Played.mk _ _) (Journal.append_empty _))
  | forceUpdate => rfl
  | testMode change => exact congrArg (Outcome.mk b _ _ _) (Journal.append_empty _)
  | extended request => exact on_settled (on_extended request)
  | info query => exact on_settled (on_info query)
  | pinList => exact on_settled (on_listed on_pinLine)
  | pin index action => exact on_settled (on_pin index action)
  | readRegister index => exact on_settled (on_readRegister index)
  | writeRegister index value => exact on_settled (on_writeRegister index value)
  | online => rfl
  | reset => rfl

lemma on_ofRequest (request : Request) :
    ((ofRequest f t request).on b).outcome t = Dispatch.answer f b t request := by
  cases request with
  | ignored => rfl
  | remote destination command =>
    cases destination with
    | ok d => exact congrArg (Outcome.mk _ t _ _) (congrArg _ (Journal.append_empty _))
    | error r => exact congrArg (Outcome.mk b t _ _) (Journal.append_empty _)
  | here command =>
    cases command with
    | ok command =>
      refine (Played.outcome_behind (.count (.commands command.family) 1)
        ((execute f t command).on b) t).trans ?_
      rw [on_execute]
      rfl
    | error r => exact on_failed r .empty

/-- To run a line is to play its script, on any board. -/
theorem on_ofLine (line : String) :
    ((ofLine f t line).on b).outcome t = Dispatch.run f b t line := by
  refine (Played.outcome_behind (.note .debug (Dispatch.tagged b _))
    ((ofRequest f t (.parse line)).on b) t).trans ?_
  rw [on_ofRequest]
  rfl

end

end Script

end RadioModem
