import RadioModem.Node.Calibration
import RadioModem.Node.Link
import RadioModem.Node.Pins
import RadioModem.Node.Registers
import RadioModem.Node.Relay

/-!
# The board of a simulated node

Every collaborator of one node, built from its configuration. No operation of this board stops on
an index beyond its count: reads give a fixed value and changes are turned down.
-/
namespace RadioModem

/-- What becomes of a node that stops: its reason is handed to the session, or it crashes. -/
inductive HaltHandling
  | report
  | crash
  deriving DecidableEq, Repr

structure Node where
  identity : Identity
  registers : Registers
  calibration : Option Calibration
  pins : Pins
  relay : RelayQueue
  link : LinkSettings
  watchdog : Bool
  power : UInt8
  diversity : Bool
  onHalt : HaltHandling
  deriving DecidableEq, Repr

namespace Node

/-- A board is built only if the register of the node's address agrees with the address. -/
def ofConfiguration (c : Configuration) : Except SetupError Node := do
  let registers ← Registers.forNode c.identity.node
  match registers.override c.parameters with
  | (_, some e) => .error e
  | (registers, none) =>
    let held := registers.get nodeIdIndex
    if held ≠ c.identity.node.toNat then
      .error (.unusable (.addressDiffers held c.identity.node))
    else .ok {
      identity := c.identity
      registers
      calibration :=
        if c.calibration.enabled then some (.ofChannels c.calibration.channels) else none
      pins := .ofSettings c.pins
      relay := .empty
      link := c.diagnostics
      watchdog := c.modem.features.watchdog
      power := 0
      diversity := true
      onHalt := .report }

def setRegister (n : Node) (index value : Nat) : Node × Bool :=
  let (registers, taken) := n.registers.set index value
  ({ n with registers }, taken)

def channel (n : Node) (index : Nat) : UInt8 :=
  (n.calibration.map (·.get index)).getD unwritten

def setChannel (n : Node) (index : Nat) (value : UInt8) : Node × Bool :=
  match n.calibration with
  | none => (n, false)
  | some area =>
    let (area, taken) := area.set index value
    ({ n with calibration := some area }, taken)

def lockCalibration (n : Node) : Node × Bool × Journal :=
  match n.calibration with
  | none => (n, false, .empty)
  | some area =>
    let (locked, taken) := area.lock
    ({ n with calibration := some locked }, taken, area.lockJournal)

def setPin (n : Node) (index level : Nat) : Node × Bool :=
  let (pins, taken) := n.pins.setValue index level
  ({ n with pins }, taken)

def halt (n : Node) (reason : HaltReason) : Stop × Journal :=
  match n.onHalt with
  | .report => (.halted reason, .note .debug ("board halting: " ++ reason.name))
  | .crash => (.crashed ("halted: " ++ reason.name), .empty)

instance : Board Node where
  identity := Node.identity
  registerCount _ := Registers.count
  register n index := .ok (n.registers.get index)
  setRegister n index value := .ok (n.setRegister index value)
  registerLine n node index := .ok (n.registers.line node index)
  saveRegisters n := ({ n with registers := n.registers.save }, n.registers.saveJournal)
  resetRegisters n := { n with registers := n.registers.reset }
  hasCalibration n := n.calibration.isSome
  channel := Node.channel
  setChannel := Node.setChannel
  lockCalibration := Node.lockCalibration
  pinCount n := n.pins.count
  pinDirection n index := .ok (n.pins.direction index)
  setPinDirection n index d := .ok { n with pins := n.pins.setDirection index d }
  pinValue n index := .ok (n.pins.value index)
  setPin n index level := .ok (n.setPin index level)
  forward n d command :=
    ({ n with relay := n.relay.forward d command }, n.relay.forwardJournal d command)
  timingReport n node := n.link.timingReport node
  signalReport n node := n.link.signalReport node
  syncState n := n.link.syncState
  setWatchdog n enabled :=
    ({ n with watchdog := enabled },
      .note .debug ("watchdog " ++ if enabled then "on" else "off"))
  setPower n pwm :=
    ({ n with power := pwm }, .note .debug ("power level pwm " ++ toString pwm.toNat))
  setDiversity n enabled := { n with diversity := enabled }
  halt := Node.halt

end Node

end RadioModem
