import RadioModem.Board
import RadioModem.Node.Relay
import RadioModem.Reply

/-!
# The bench board

A small board that records which of its controls were used. Its arrays are indexed without a
check, so an index beyond a count crashes it, and so does stopping it.
-/
namespace RadioModem

structure BenchCalibration where
  values : List UInt8
  locked : Bool
  deriving DecidableEq, Repr

/-- Controls are unset until they are first used. -/
structure Bench where
  identity : Identity
  registers : List Nat
  saves : Nat
  calibration : Option BenchCalibration
  pins : List (PinDirection × Nat)
  sent : List Relayed
  sync : Nat
  watchdog : Option Bool
  power : Option UInt8
  diversity : Option Bool
  deriving DecidableEq, Repr

namespace Bench

def registerDefaults : List Nat := [26, 57, 64, 25]

def ofNode (node : Address) : Bench :=
  { identity := { Identity.standard with node }
    registers := registerDefaults
    saves := 0
    calibration := none
    pins := [(.output, 0), (.input, 512)]
    sent := []
    sync := 0
    watchdog := none
    power := none
    diversity := none }

def withCalibration (b : Bench) : Bench :=
  { b with calibration := some ⟨List.replicate 4 0, false⟩ }

def withSync (b : Bench) (sync : Nat) : Bench := { b with sync }

/-- Reads an array without a check of its own. -/
def read {α : Type} (items : List α) (index : Nat) : Attempt α :=
  match items[index]? with
  | some item => .ok item
  | none =>
    .error (.crashed ("index out of bounds: the len is " ++ toString items.length ++
      " but the index is " ++ toString index))

/-- The last register takes values below this one only. -/
def lastRegisterLimit : Nat := 500

def setRegister (b : Bench) (index value : Nat) : Attempt (Bench × Bool) :=
  if index = 3 && lastRegisterLimit ≤ value then .ok (b, false)
  else do
    let _ ← read b.registers index
    return ({ b with registers := b.registers.set index value }, true)

def registerLine (b : Bench) (node : Address) (index : Nat) : Attempt String := do
  let value ← read b.registers index
  return frame node
    ("S" ++ toString index ++ ":REG" ++ toString index ++ "=" ++ toString value)

def channel (b : Bench) (index : Nat) : UInt8 :=
  ((b.calibration.map BenchCalibration.values).bind (·[index]?)).getD 0xFF

def setChannel (b : Bench) (index : Nat) (value : UInt8) : Bench × Bool :=
  match b.calibration with
  | none => (b, false)
  | some area =>
    if !area.locked && index < area.values.length then
      ({ b with calibration := some { area with values := area.values.set index value } }, true)
    else (b, false)

def lockCalibration (b : Bench) : Bench :=
  { b with calibration := b.calibration.map fun area => { area with locked := true } }

def setPinDirection (b : Bench) (index : Nat) (d : PinDirection) : Attempt Bench := do
  let (_, level) ← read b.pins index
  return { b with pins := b.pins.set index (d, level) }

def setPin (b : Bench) (index level : Nat) : Attempt (Bench × Bool) := do
  let (direction, _) ← read b.pins index
  if direction = .output && level ≤ 1 then
    return ({ b with pins := b.pins.set index (direction, level) }, true)
  return (b, false)

def haltMessage : HaltReason → String
  | .reset => "board reset"
  | .flashFault => "flash fault"

instance : Board Bench where
  identity := Bench.identity
  registerCount b := b.registers.length
  register b index := read b.registers index
  setRegister := Bench.setRegister
  registerLine := Bench.registerLine
  saveRegisters b := ({ b with saves := b.saves + 1 }, .empty)
  resetRegisters b := { b with registers := registerDefaults }
  hasCalibration b := b.calibration.isSome
  channel := Bench.channel
  setChannel := Bench.setChannel
  lockCalibration b := (b.lockCalibration, true, .empty)
  pinCount _ := 2
  pinDirection b index := Prod.fst <$> read b.pins index
  setPinDirection := Bench.setPinDirection
  pinValue b index := Prod.snd <$> read b.pins index
  setPin := Bench.setPin
  forward b d command := ({ b with sent := b.sent ++ [⟨d, command⟩] }, .empty)
  timingReport _ node := frame node "timing"
  signalReport _ node := frame node "signal"
  syncState := Bench.sync
  setWatchdog b enabled := ({ b with watchdog := some enabled }, .empty)
  setPower b pwm := ({ b with power := some pwm }, .empty)
  setDiversity b enabled := { b with diversity := some enabled }
  halt _ reason := (.crashed (haltMessage reason), .empty)

end Bench

end RadioModem
