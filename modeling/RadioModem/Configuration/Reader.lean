import RadioModem.Configuration.Basic
import RadioModem.Yaml.Document

/-!
# Reading a configuration

A section is a map whose keys are scalars. Missing keys keep their standard values, unknown keys
are ignored, and a known key may stand only once. A number must fit its field. An alias is read as
the node that it stands for.
-/
namespace RadioModem

namespace Yaml.Document

/-- The items of a list. Nothing at all is an empty list. -/
def items? (d : Document) : Yaml → Option (List Yaml)
  | .list items => items.mapM d.anchors.follow?
  | .scalar s => if s.isEmpty then some [] else none
  | _ => none

/-- The entries of a map with scalars as keys. Nothing at all is an empty map. -/
def entries? (d : Document) : Yaml → Option (List (String × Yaml))
  | .map entries => entries.mapM fun (key, value) => do
    return (← (← d.anchors.follow? key).text?, ← d.anchors.follow? value)
  | .scalar s => if s.isEmpty then some [] else none
  | _ => none

end Yaml.Document

/-- The entries of a section, none of its known keys standing twice. -/
structure Section where
  entries : List (String × Yaml)

namespace Section

def values (s : Section) (name : String) : List Yaml :=
  (s.entries.filter fun e => e.1 = name).map Prod.snd

def ofYaml (known : List String) (d : Yaml.Document) (y : Yaml) : Option Section := do
  let s : Section := ⟨← d.entries? y⟩
  if known.all fun name => (s.values name).length ≤ 1 then some s else none

def field {α : Type} (s : Section) (name : String) (standard : α) (read : Yaml → Option α) :
    Option α :=
  match s.values name with
  | value :: _ => read value
  | [] => some standard

def byte (s : Section) (name : String) (standard : Nat) : Option Nat :=
  s.field name standard (Yaml.natural? 255)

def word (s : Section) (name : String) (standard : Nat) : Option Nat :=
  s.field name standard (Yaml.natural? 65535)

def flag (s : Section) (name : String) (standard : Bool) : Option Bool :=
  s.field name standard Yaml.bool?

def text (s : Section) (name : String) (standard : String) : Option String :=
  s.field name standard Yaml.text?

end Section

def Identity.ofYaml (d : Yaml.Document) (y : Yaml) : Option Identity := do
  let s ← Section.ofYaml
    ["node_id", "banner", "version", "board_id", "board_frequency", "bootloader_version"] d y
  return {
    node := UInt16.ofNat (← s.word "node_id" Identity.standard.node.toNat)
    banner := ← s.text "banner" Identity.standard.banner
    version := ← s.text "version" Identity.standard.version
    boardId := ← s.byte "board_id" Identity.standard.boardId
    boardFrequency := ← s.byte "board_frequency" Identity.standard.boardFrequency
    bootloaderVersion := ← s.byte "bootloader_version" Identity.standard.bootloaderVersion }

def Features.ofYaml (d : Yaml.Document) (y : Yaml) : Option Features := do
  let s ← Section.ofYaml ["extended_commands", "watchdog"] d y
  return {
    extendedCommands := ← s.flag "extended_commands" Features.basic.extendedCommands
    watchdog := ← s.flag "watchdog" Features.basic.watchdog }

/-- The largest capacity that can be written. -/
def capacityBound : Nat := 18446744073709551615

def ModemSettings.ofYaml (d : Yaml.Document) (y : Yaml) : Option ModemSettings := do
  let s ← Section.ofYaml ["command_capacity", "escape_guard_ticks", "features"] d y
  return {
    capacity := ←
      s.field "command_capacity" ModemSettings.standard.capacity (Yaml.natural? capacityBound)
    guardTicks := ← s.word "escape_guard_ticks" ModemSettings.standard.guardTicks
    features := ← s.field "features" ModemSettings.standard.features (Features.ofYaml d) }

/-- The largest value of a register and of a channel count. -/
def registerBound : Nat := 4294967295

def Overrides.ofYaml (d : Yaml.Document) (y : Yaml) : Option Overrides := do
  let named ← (← d.entries? y).mapM fun (name, value) => do
    return (name, ← value.natural? registerBound)
  return .ofList named

def PinSettings.ofYaml (d : Yaml.Document) (y : Yaml) : Option PinSettings := do
  let s ← Section.ofYaml ["count", "inputs"] d y
  return {
    count := ← s.byte "count" PinSettings.standard.count
    inputs := ← s.field "inputs" PinSettings.standard.inputs fun value => do
      (← d.items? value).mapM (Yaml.natural? 65535) }

def CalibrationSettings.ofYaml (d : Yaml.Document) (y : Yaml) : Option CalibrationSettings := do
  let s ← Section.ofYaml ["enabled", "channels"] d y
  return {
    enabled := ← s.flag "enabled" CalibrationSettings.standard.enabled
    channels := ←
      s.field "channels" CalibrationSettings.standard.channels (Yaml.natural? registerBound) }

def LinkSettings.ofYaml (d : Yaml.Document) (y : Yaml) : Option LinkSettings := do
  let s ← Section.ofYaml
    ["local_rssi", "remote_rssi", "local_noise", "remote_noise", "received_packets", "sync_state",
      "silence_period", "tx_window_width", "max_data_packet_length"] d y
  return {
    localRssi := ← s.byte "local_rssi" LinkSettings.standard.localRssi
    remoteRssi := ← s.byte "remote_rssi" LinkSettings.standard.remoteRssi
    localNoise := ← s.byte "local_noise" LinkSettings.standard.localNoise
    remoteNoise := ← s.byte "remote_noise" LinkSettings.standard.remoteNoise
    receivedPackets := ← s.word "received_packets" LinkSettings.standard.receivedPackets
    syncState := ← s.byte "sync_state" LinkSettings.standard.syncState
    silencePeriod := ← s.word "silence_period" LinkSettings.standard.silencePeriod
    txWindowWidth := ← s.word "tx_window_width" LinkSettings.standard.txWindowWidth
    maxDataPacketLength := ←
      s.word "max_data_packet_length" LinkSettings.standard.maxDataPacketLength }

def ConsoleSettings.ofYaml (d : Yaml.Document) (y : Yaml) : Option ConsoleSettings := do
  let s ← Section.ofYaml ["bind", "port"] d y
  return {
    bind := ← s.text "bind" ConsoleSettings.standard.bind
    port := ← s.word "port" ConsoleSettings.standard.port }

namespace Configuration

def ofDocument (d : Yaml.Document) : Option Configuration := do
  let s ← Section.ofYaml
    ["identity", "modem", "parameters", "pins", "calibration", "diagnostics", "uart"] d d.root
  return {
    identity := ← s.field "identity" standard.identity (Identity.ofYaml d)
    modem := ← s.field "modem" standard.modem (ModemSettings.ofYaml d)
    parameters := ← s.field "parameters" standard.parameters (Overrides.ofYaml d)
    pins := ← s.field "pins" standard.pins (PinSettings.ofYaml d)
    calibration := ← s.field "calibration" standard.calibration (CalibrationSettings.ofYaml d)
    diagnostics := ← s.field "diagnostics" standard.diagnostics (LinkSettings.ofYaml d)
    uart := ← s.field "uart" standard.uart (ConsoleSettings.ofYaml d) }

/-- Reads a configuration and checks that the front end can work with it. -/
def parse (text : String) : Except SetupError Configuration :=
  match (Yaml.Document.parse text).bind ofDocument with
  | some c => c.validated
  | none => .error .unreadableText

end Configuration

end RadioModem
