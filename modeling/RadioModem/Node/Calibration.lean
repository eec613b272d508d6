import RadioModem.Journal

/-!
# The calibration area

One byte for each channel. The area can be locked once no channel looks erased, and takes no more
writes from then on.
-/
namespace RadioModem

/-- The value of a channel that was never written. -/
def unwritten : UInt8 := 0xFF

structure Calibration where
  values : List UInt8
  locked : Bool
  deriving DecidableEq, Repr

namespace Calibration

def ofChannels (channels : Nat) : Calibration := ⟨List.replicate channels unwritten, false⟩

def get (c : Calibration) (channel : Nat) : UInt8 := c.values[channel]?.getD unwritten

def set (c : Calibration) (channel : Nat) (value : UInt8) : Calibration × Bool :=
  if !c.locked && channel < c.values.length then
    ({ c with values := c.values.set channel value }, true)
  else (c, false)

def complete (c : Calibration) : Bool := c.values.all (· != unwritten)

def lock (c : Calibration) : Calibration × Bool :=
  if c.complete then ({ c with locked := true }, true) else (c, false)

def lockJournal (c : Calibration) : Journal :=
  if c.complete then .empty else .note .warn "calibration lock refused, area incomplete"

end Calibration

end RadioModem
