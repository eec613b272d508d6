import RadioModem.Metric

/-!
# The journal

What an operation leaves behind besides its result: log records, and what it counted, both in the
order in which they arose.
-/
namespace RadioModem

inductive Level
  | error
  | warn
  | info
  | debug
  | trace
  deriving DecidableEq, Repr

def Level.name : Level → String
  | error => "error"
  | warn => "warn"
  | info => "info"
  | debug => "debug"
  | trace => "trace"

structure Record where
  level : Level
  message : String
  deriving DecidableEq, Repr

@[ext]
structure Journal where
  records : List Record
  counts : List (Counter × Nat)
  deriving DecidableEq, Repr

namespace Journal

def empty : Journal := ⟨[], []⟩

def append (a b : Journal) : Journal := ⟨a.records ++ b.records, a.counts ++ b.counts⟩

instance : Append Journal := ⟨append⟩

def note (level : Level) (message : String) : Journal := ⟨[⟨level, message⟩], []⟩

def count (c : Counter) (n : Nat) : Journal := ⟨[], [(c, n)]⟩

/-- How far a counter has advanced. -/
def total (j : Journal) (c : Counter) : Nat :=
  j.counts.foldr (fun entry n => if entry.1 = c then entry.2 + n else n) 0

@[simp] theorem records_append (a b : Journal) : (a ++ b).records = a.records ++ b.records := rfl

@[simp] theorem counts_append (a b : Journal) : (a ++ b).counts = a.counts ++ b.counts := rfl

@[simp] theorem empty_append (a : Journal) : empty ++ a = a := rfl

@[simp] theorem append_empty (a : Journal) : a ++ empty = a :=
  Journal.ext (by simp [empty]) (by simp [empty])

theorem append_assoc (a b c : Journal) : a ++ b ++ c = a ++ (b ++ c) :=
  Journal.ext (by simp) (by simp)

@[simp] theorem total_empty (c : Counter) : empty.total c = 0 := rfl

@[simp] theorem total_note (level : Level) (message : String) (c : Counter) :
    (note level message).total c = 0 := rfl

theorem total_count (c d : Counter) (n : Nat) :
    (count c n).total d = if c = d then n else 0 := by
  simp [total, count]

@[simp] theorem total_append (a b : Journal) (c : Counter) :
    (a ++ b).total c = a.total c + b.total c := by
  simp only [total, counts_append, List.foldr_append]
  induction a.counts with
  | nil => simp
  | cons entry rest ih =>
    simp only [List.foldr_cons, ih]
    split <;> omega

end Journal

end RadioModem
