import RadioModem.Yaml.Basic

/-!
# Anchors

A node that is used more than once carries a name, and aliases stand for it elsewhere.
-/
namespace RadioModem.Yaml

/-- The anchors of a document. A name may be given again; its number then is the number of names
given so far, which another name may have too. -/
structure Anchors where
  numbers : List (String × Nat)
  /-- Every node with an anchor, in the order in which they begin, once it is complete. -/
  nodes : List (Nat × Option Yaml)
  deriving Repr

namespace Anchors

def empty : Anchors := ⟨[], []⟩

def number? (name : String) (a : Anchors) : Option Nat := a.numbers.lookup name

/-- Begins a node with an anchor. -/
def add (name : String) (a : Anchors) : Anchors :=
  let number := a.numbers.length
  ⟨(name, number) :: a.numbers.filter (·.1 ≠ name), a.nodes ++ [(number, none)]⟩

def complete (place : Option Nat) (y : Yaml) (a : Anchors) : Anchors :=
  match place with
  | some place => { a with nodes := a.nodes.modify place fun node => (node.1, some y) }
  | none => a

/-- The latest node of a number. -/
def node? (number : Nat) (a : Anchors) : Option Yaml :=
  (a.nodes.reverse.lookup number).join

/-- The node itself, or the one that an alias stands for. -/
def follow? (a : Anchors) : Yaml → Option Yaml
  | reference number => a.node? number
  | y => some y

end Anchors

end RadioModem.Yaml
