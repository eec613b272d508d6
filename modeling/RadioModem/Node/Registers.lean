import RadioModem.Configuration.Basic
import RadioModem.Journal
import RadioModem.Reply

/-!
# Registers

The numbered parameters of a node: the values in use, the values kept through a restart, and the
values a factory reset brings back. Register zero holds the storage format and cannot be written.
-/
namespace RadioModem

structure RegisterInfo where
  name : String
  initial : Nat
  low : Nat
  high : Nat
  deriving DecidableEq, Repr

def RegisterInfo.accepts (r : RegisterInfo) (value : Nat) : Bool :=
  r.low ≤ value && value ≤ r.high

/-- The number of the storage format. -/
def parameterFormat : Nat := 27

/-- The register that holds the node's own address. -/
def nodeIdIndex : Nat := 15

def nodeIdInfo : RegisterInfo := ⟨"NODEID", 2, 0, 0xFFFE⟩

def registerTable : List RegisterInfo :=
  [⟨"FORMAT", parameterFormat, parameterFormat, parameterFormat⟩,
    ⟨"SERIAL_SPEED", 57, 1, 230⟩,
    ⟨"AIR_SPEED", 64, 2, 250⟩,
    ⟨"NETID", 25, 0, 499⟩,
    ⟨"TXPOWER", 20, 0, 30⟩,
    ⟨"ECC", 0, 0, 1⟩,
    ⟨"MAVLINK", 1, 0, 2⟩,
    ⟨"OPPRESEND", 0, 0, 1⟩,
    ⟨"MIN_FREQ", 915000, 902000, 928000⟩,
    ⟨"MAX_FREQ", 928000, 902000, 928000⟩,
    ⟨"NUM_CHANNELS", 50, 1, 50⟩,
    ⟨"DUTY_CYCLE", 100, 10, 100⟩,
    ⟨"LBT_RSSI", 0, 0, 220⟩,
    ⟨"MANCHESTER", 0, 0, 1⟩,
    ⟨"RTSCTS", 0, 0, 1⟩,
    nodeIdInfo,
    ⟨"NODEDESTINATION", 0xFFFF, 0, 0xFFFF⟩,
    ⟨"SYNCANY", 0, 0, 1⟩,
    ⟨"NODECOUNT", 3, 2, 30⟩]

/-- Names are told apart without regard to the case of ASCII letters. -/
def sameName (a b : String) : Bool := a.toList.map Char.toLower == b.toList.map Char.toLower

structure Registers where
  factory : List Nat
  live : List Nat
  saved : List Nat
  deriving DecidableEq, Repr

namespace Registers

def count : Nat := registerTable.length

def initial : List Nat := registerTable.map RegisterInfo.initial

def ofValues (values : List Nat) : Registers := ⟨values, values, values⟩

def standard : Registers := ofValues initial

/-- Registers of a node, with its address in place from the factory on. -/
def forNode (node : Address) : Except SetupError Registers :=
  if nodeIdInfo.accepts node.toNat then .ok (ofValues (initial.set nodeIdIndex node.toNat))
  else .error (.invalidParameter nodeIdInfo.name node.toNat)

def info? (index : Nat) : Option RegisterInfo := registerTable[index]?

def indexOf? (name : String) : Option Nat :=
  registerTable.findIdx? fun r => sameName r.name name

def get (r : Registers) (index : Nat) : Nat := r.live[index]?.getD 0

/-- Whether a register may hold a value that is written to it. -/
def writable (index value : Nat) : Bool :=
  index ≠ 0 && (info? index).any (·.accepts value)

def set (r : Registers) (index value : Nat) : Registers × Bool :=
  if writable index value then ({ r with live := r.live.set index value }, true) else (r, false)

def line (r : Registers) (node : Address) (index : Nat) : String :=
  match info? index with
  | some info =>
    frame node ("S" ++ toString index ++ ":" ++ info.name ++ "=" ++ toString (r.get index))
  | none => ""

def save (r : Registers) : Registers := { r with saved := r.live }

def reset (r : Registers) : Registers := { r with live := r.factory }

def saveJournal (r : Registers) : Journal :=
  .note .debug ("saving " ++ toString r.live.length ++ " parameters")

/-- Sets one register by its name. -/
def setNamed (r : Registers) (name : String) (value : Nat) : Except SetupError Registers :=
  match indexOf? name with
  | none => .error (.unknownParameter name)
  | some index =>
    match r.set index value with
    | (r, true) => .ok r
    | (_, false) => .error (.invalidParameter name value)

/-- What a list of named values leaves in use, up to the first that cannot be set. -/
def setAll (r : Registers) : List (String × Nat) → Registers × Option SetupError
  | [] => (r, none)
  | (name, value) :: rest =>
    match r.setNamed name value with
    | .ok r => r.setAll rest
    | .error e => (r, some e)

/-- Start-up values are kept through a restart too, if all of them could be set. -/
def override (r : Registers) (values : Overrides) : Registers × Option SetupError :=
  match r.setAll values with
  | (r, none) => (r.save, none)
  | (r, some e) => (r, some e)

end Registers

end RadioModem
