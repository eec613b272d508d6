import RadioModem.Text.Decimal

/-!
# YAML values

The values that a configuration text can hold, and how a scalar is read as a number or a truth
value. A plain scalar has such a reading by itself; a literal one has it under the tag of its kind,
and any other scalar is text alone.
-/
namespace RadioModem

namespace Yaml

/-- How a scalar is written: bare, in quotes, or below its key with its lines kept or joined. -/
inductive Style
  | plain
  | quoted
  | literal
  | folded
  deriving DecidableEq, Repr

structure Scalar where
  style : Style
  tag : Option String
  text : String
  deriving DecidableEq, Repr

end Yaml

inductive Yaml
  | scalar (s : Yaml.Scalar)
  | list (items : List Yaml)
  | map (entries : List (Yaml × Yaml))
  /-- Stands for the node of an anchor. -/
  | reference (anchor : Nat)
  deriving Repr, Inhabited

namespace Yaml

/-- Where a node may stand and none does, there is an empty plain scalar. -/
def empty : Yaml := scalar ⟨.plain, none, ""⟩

/-- The shared front of the tags of numbers, truth values and the like. -/
def coreTag : String := "tag:yaml.org,2002:"

namespace Scalar

def mayBe (kind : String) (s : Scalar) : Bool :=
  match s.style with
  | .plain => true
  | .literal => s.tag == some (coreTag ++ kind)
  | _ => false

/-- An empty plain scalar stands for an empty list or map too. -/
def isEmpty (s : Scalar) : Bool := s.style == .plain && s.text.isEmpty

end Scalar

def digitWeight? (c : Char) : Option Nat :=
  if c.isDigit then some (c.toNat - '0'.toNat)
  else if 'a' ≤ c && c ≤ 'f' then some (c.toNat - 'a'.toNat + 10)
  else if 'A' ≤ c && c ≤ 'F' then some (c.toNat - 'A'.toNat + 10)
  else none

/-- The character of a code point. -/
def char? (n : Nat) : Option Char := if n.isValidChar then some (Char.ofNat n) else none

/-- A non-empty run of digits below the radix. -/
def inRadix? (radix : Nat) (text : List Char) : Option Nat :=
  if text.isEmpty then none
  else text.foldl
    (fun n c => do
      let n ← n
      let d ← digitWeight? c
      if d < radix then some (radix * n + d) else none)
    (some 0)

/-- A decimal number has no leading zero; other radices are marked. -/
def magnitude? : List Char → Option Nat
  | '0' :: 'x' :: digits => inRadix? 16 digits
  | '0' :: 'o' :: digits => inRadix? 8 digits
  | '0' :: 'b' :: digits => inRadix? 2 digits
  | '0' :: _ :: _ => none
  | text => inRadix? 10 text

/-- The text of a scalar, however it is written. -/
def text? : Yaml → Option String
  | scalar s => some s.text
  | _ => none

def bool? : Yaml → Option Bool
  | scalar s =>
    if !s.mayBe "bool" then none
    else if s.text ∈ ["true", "True", "TRUE"] then some true
    else if s.text ∈ ["false", "False", "FALSE"] then some false
    else none
  | _ => none

/-- A whole number from zero to the given bound. It has no minus sign, even as a zero. -/
def natural? (bound : Nat) : Yaml → Option Nat
  | scalar s => do
    let n ← magnitude? (Text.Decimal.withoutPlus s.text.toList)
    if s.mayBe "int" && n ≤ bound then some n else none
  | _ => none

end Yaml

end RadioModem
