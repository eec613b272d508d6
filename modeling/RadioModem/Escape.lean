import RadioModem.Journal

/-!
# The escape sequence

Command mode is entered by a guard window of silence, three plus signs, and a guard window of
silence. The tick is the only source of time: the detector keeps the ticks left in the running
window, and a window that has run out in the middle of the plus signs does nothing more.
-/
namespace RadioModem

def escapeByte : UInt8 := 0x2B

def defaultGuardTicks : Nat := 100

/-- How much of the sequence has been seen. -/
inductive EscapePhase
  | idle
  | seen1
  | seen2
  | seen3
  | armed
  deriving DecidableEq, Repr

def EscapePhase.name : EscapePhase → String
  | idle => "Idle"
  | seen1 => "Seen1"
  | seen2 => "Seen2"
  | seen3 => "Seen3"
  | armed => "Armed"

structure EscapeDetector where
  guard : Nat
  phase : EscapePhase
  countdown : Nat
  deriving DecidableEq, Repr

namespace EscapeDetector

def ofGuard (guard : Nat) : EscapeDetector := ⟨guard, .idle, guard⟩

def restartWindow (d : EscapeDetector) : EscapeDetector := { d with countdown := d.guard }

def idle (d : EscapeDetector) : EscapeDetector := { d with phase := .idle, countdown := d.guard }

/-- A plus sign moves the sequence on, or starts it over where silence was due. -/
def onPlus (d : EscapeDetector) : EscapeDetector :=
  match d.phase with
  | .seen1 => { d with phase := .seen2 }
  | .seen2 => { d with phase := .seen3 }
  | .seen3 => { d with phase := .armed, countdown := d.guard }
  | .idle | .armed => d.idle

def onByte (d : EscapeDetector) (byte : UInt8) : EscapeDetector :=
  if byte = escapeByte then d.onPlus else d.idle

/-- True on the tick that ends a window. -/
def elapses (d : EscapeDetector) : Bool := d.countdown == 1

/-- True on the tick that completes the sequence. -/
def fires (d : EscapeDetector) : Bool := d.elapses && d.phase == .armed

def onTick (d : EscapeDetector) : EscapeDetector :=
  if d.elapses then
    match d.phase with
    | .idle => { d with phase := .seen1, countdown := 0 }
    | .armed => d.idle
    | _ => { d with countdown := 0 }
  else { d with countdown := d.countdown - 1 }

def byteJournal (d : EscapeDetector) (byte : UInt8) : Journal :=
  if byte = escapeByte then .note .trace ("escape: '+' -> " ++ (d.onByte byte).phase.name)
  else .empty

def tickJournal (d : EscapeDetector) : Journal :=
  if d.elapses && d.phase == .idle then
    .note .trace "escape: guard window elapsed, watching for '+'"
  else .empty

end EscapeDetector

end RadioModem
