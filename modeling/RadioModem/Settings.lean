import RadioModem.Address
import RadioModem.Console.Buffer
import RadioModem.Escape

/-!
# Settings of the front end

What a modem says about itself, and what it is built with.
-/
namespace RadioModem

/-- What the board at hand can do. -/
structure Features where
  extendedCommands : Bool
  watchdog : Bool
  deriving DecidableEq, Repr

def Features.basic : Features := ⟨false, false⟩

structure ModemSettings where
  capacity : Nat
  guardTicks : Nat
  features : Features
  deriving DecidableEq, Repr

def ModemSettings.standard : ModemSettings := ⟨defaultCapacity, defaultGuardTicks, .basic⟩

structure Identity where
  node : Address
  banner : String
  version : String
  boardId : Nat
  boardFrequency : Nat
  bootloaderVersion : Nat
  deriving DecidableEq, Repr

def Identity.standard : Identity := ⟨0, "RFModem Multipoint", "1.0", 0x4E, 0x09, 0⟩

end RadioModem
