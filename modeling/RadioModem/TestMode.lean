/-!
# Test modes

Two diagnostic reports can be switched on independently. They are kept as bits of one byte; bits
without a name are carried along and shown by no name.
-/
namespace RadioModem

/-- A diagnostic report that can be switched on. -/
inductive TestFlag
  | rssi
  | tdm
  deriving DecidableEq, Repr

namespace TestFlag

def mask : TestFlag → UInt8
  | rssi => 1
  | tdm => 2

def name : TestFlag → String
  | rssi => "RSSI"
  | tdm => "TDM"

def all : List TestFlag := [rssi, tdm]

end TestFlag

structure TestMode where
  bits : UInt8
  deriving DecidableEq, Repr

namespace TestMode

def clear : TestMode := ⟨0⟩

def has (m : TestMode) (f : TestFlag) : Bool := m.bits &&& f.mask != 0

def toggle (m : TestMode) (f : TestFlag) : TestMode := ⟨m.bits ^^^ f.mask⟩

/-- The names of the flags that are set; the empty set has a name of its own. -/
def text (m : TestMode) : String :=
  if m.bits = 0 then "none" else "|".intercalate ((TestFlag.all.filter m.has).map TestFlag.name)

end TestMode

/-- A bare request clears every flag; a named one flips its flag. -/
inductive TestChange
  | clearAll
  | toggle (flag : TestFlag)
  deriving DecidableEq, Repr

def TestChange.apply (m : TestMode) : TestChange → TestMode
  | .clearAll => TestMode.clear
  | .toggle flag => m.toggle flag

end RadioModem
