import RadioModem.Journal
import RadioModem.Text.Quoted

/-!
# The relay queue

Commands for other nodes wait here, oldest first, until they are drained. A full queue gives up
its oldest command for a new one.
-/
namespace RadioModem

def relayDepth : Nat := 32

structure Relayed where
  destination : Destination
  command : String
  deriving DecidableEq, Repr

structure RelayQueue where
  waiting : List Relayed
  deriving DecidableEq, Repr

namespace RelayQueue

def empty : RelayQueue := ⟨[]⟩

def size (q : RelayQueue) : Nat := q.waiting.length

def isFull (q : RelayQueue) : Bool := q.size == relayDepth

def forward (q : RelayQueue) (d : Destination) (command : String) : RelayQueue :=
  ⟨(if q.isFull then q.waiting.tail else q.waiting) ++ [⟨d, command⟩]⟩

/-- Takes every waiting command, oldest first. -/
def drain (q : RelayQueue) : List Relayed × RelayQueue := (q.waiting, empty)

def dropJournal (q : RelayQueue) : Journal :=
  match q.isFull, q.waiting with
  | true, oldest :: _ =>
    .note .warn ("relay queue full, dropping " ++ Text.quoted oldest.command)
  | _, _ => .empty

def forwardJournal (q : RelayQueue) (d : Destination) (command : String) : Journal :=
  .note .info
    ("relaying " ++ Text.quoted command ++ " to 0x" ++ Text.hex 4 d.address.toNat) ++
    q.dropJournal

end RelayQueue

end RadioModem
