import RadioModem.Configuration.Error
import RadioModem.Settings

/-!
# The configuration of a node

Every section has standard values, so a configuration says only what differs from them.
-/
namespace RadioModem

structure PinSettings where
  count : Nat
  /-- Readings of the pins as inputs; pins past the end read zero. -/
  inputs : List Nat
  deriving DecidableEq, Repr

def PinSettings.standard : PinSettings := ⟨6, []⟩

structure CalibrationSettings where
  enabled : Bool
  channels : Nat
  deriving DecidableEq, Repr

def CalibrationSettings.standard : CalibrationSettings := ⟨false, 16⟩

/-- What the diagnostic queries report. -/
structure LinkSettings where
  localRssi : Nat
  remoteRssi : Nat
  localNoise : Nat
  remoteNoise : Nat
  receivedPackets : Nat
  syncState : Nat
  silencePeriod : Nat
  txWindowWidth : Nat
  maxDataPacketLength : Nat
  deriving DecidableEq, Repr

def LinkSettings.standard : LinkSettings := ⟨180, 175, 40, 42, 0, 0, 65, 5632, 252⟩

/-- Where the serial console is served. -/
structure ConsoleSettings where
  bind : String
  port : Nat
  deriving DecidableEq, Repr

def ConsoleSettings.standard : ConsoleSettings := ⟨"127.0.0.1", 9000⟩

/-- Register values by register name. Keys are kept in the order of their code points, each once. -/
abbrev Overrides := List (String × Nat)

namespace Overrides

/-- A later value for a name replaces the earlier one. -/
def put (name : String) (value : Nat) : Overrides → Overrides
  | [] => [(name, value)]
  | entry :: rest =>
    if name < entry.1 then (name, value) :: entry :: rest
    else if name = entry.1 then (name, value) :: rest
    else entry :: put name value rest

def ofList (entries : List (String × Nat)) : Overrides :=
  entries.foldl (fun sorted entry => put entry.1 entry.2 sorted) []

end Overrides

structure Configuration where
  identity : Identity
  modem : ModemSettings
  parameters : Overrides
  pins : PinSettings
  calibration : CalibrationSettings
  diagnostics : LinkSettings
  uart : ConsoleSettings
  deriving DecidableEq, Repr

namespace Configuration

def standard : Configuration :=
  ⟨.standard, .standard, [], .standard, .standard, .standard, .standard⟩

/-- Pins are named by one digit. -/
def pinLimit : Nat := 10

/-- The first setting that the front end could not work with. -/
def fault? (c : Configuration) : Option SetupFault :=
  if c.modem.capacity < 2 then some .capacityTooSmall
  else if c.modem.guardTicks = 0 then some .guardNotPositive
  else if pinLimit < c.pins.count then some (.tooManyPins c.pins.count)
  else none

def validated (c : Configuration) : Except SetupError Configuration :=
  match c.fault? with
  | some fault => .error (.unusable fault)
  | none => .ok c

end Configuration

end RadioModem
