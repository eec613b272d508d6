import RadioModem.Yaml.Basic
import RadioModem.Yaml.Placed

/-!
# Scalars that stand below their key

A header says how the breaks at the end are treated and may give the indentation; the lines of the
scalar start at that column. In a folded scalar, a break between two lines that start with no
blank becomes a space. What has been taken of a scalar is kept backwards.
-/
namespace RadioModem.Yaml

/-- What becomes of the line breaks at the end. -/
inductive Chomping
  | strip
  | clip
  | keep
  deriving DecidableEq, Repr

structure BlockHeader where
  chomping : Chomping
  /-- How much deeper than its surroundings the scalar stands, if that is said. -/
  step : Option Nat
  deriving DecidableEq, Repr

def chomping? : Char → Option Chomping
  | '-' => some .strip
  | '+' => some .keep
  | _ => none

/-- Takes a character of the header that has a reading. -/
def headerPart {α : Type} (read : Char → Option α) : List Placed → Option α × List Placed
  | [] => (none, [])
  | s :: rest =>
    match read s.char with
    | some a => (some a, rest)
    | none => (none, s :: rest)

def blockStep? (c : Char) : Option Nat := if c.isDigit then some (c.toNat - '0'.toNat) else none

/-- The two parts of a header stand in either order. -/
def blockHeader? (text : List Placed) : Option (BlockHeader × List Placed) := do
  let (early, rest) := headerPart chomping? text
  let (step, rest) := headerPart blockStep? rest
  let (late, rest) :=
    if early.isNone && step.isSome then headerPart chomping? rest else (none, rest)
  if step = some 0 then none
  return (⟨(early <|> late).getD .clip, step⟩, ← endLine? rest)

/-- The lines before the first one with text. -/
structure BlockLead where
  /-- The largest number of spaces in front. -/
  widest : Nat
  breaks : List Char
  rest : List Placed
  deriving DecidableEq, Repr

def blockLead? (widest : Nat) (breaks : List Char) : List Placed → Option BlockLead
  | [] => some ⟨widest, breaks, []⟩
  | s :: rest =>
    if s.char = ' ' then blockLead? (max widest (s.column + 1)) breaks rest
    else if s.char = '\t' then none
    else if isBreak s.char then blockLead? widest (s.char :: breaks) rest
    else some ⟨widest, breaks, s :: rest⟩

/-- The state between two characters of a block scalar. -/
structure BlockState where
  taken : List Char
  inLine : Bool
  /-- Whether the latest line starts with a blank. -/
  startsBlank : Bool
  /-- The break after the latest line, and those of the empty lines below it. -/
  lineBreak : Option Char
  breaks : List Char
  deriving DecidableEq, Repr

namespace BlockState

/-- What joins the next line, which starts with `c`, to those before it. -/
def joint (folds : Bool) (c : Char) (b : BlockState) : List Char :=
  if folds && b.lineBreak = some '\n' && !b.startsBlank && !isBlank c then
    if b.breaks.isEmpty then [' '] else b.breaks
  else b.breaks ++ b.lineBreak.toList

def startLine (folds : Bool) (c : Char) (b : BlockState) : BlockState :=
  ⟨c :: b.joint folds c ++ b.taken, true, isBlank c, none, []⟩

def chomped (chomping : Chomping) (b : BlockState) : String :=
  let ending :=
    match chomping with
    | .strip => []
    | .clip => b.lineBreak.toList
    | .keep => b.breaks ++ b.lineBreak.toList
  String.ofList (ending ++ b.taken).reverse

end BlockState

/-- Reads the lines that start at column `indent`. -/
def blockLines? (folds : Bool) (chomping : Chomping) (indent : Nat) (b : BlockState) :
    List Placed → Option (String × List Placed)
  | [] => some (b.chomped chomping, [])
  | s :: rest =>
    if b.inLine then
      if isBreak s.char then
        blockLines? folds chomping indent { b with inLine := false, lineBreak := some s.char } rest
      else blockLines? folds chomping indent { b with taken := s.char :: b.taken } rest
    else if s.char = ' ' && s.column < indent then blockLines? folds chomping indent b rest
    else if s.char = '\t' && s.column < indent then none
    else if isBreak s.char then
      blockLines? folds chomping indent { b with breaks := s.char :: b.breaks } rest
    else if s.column = indent then
      blockLines? folds chomping indent (b.startLine folds s.char) rest
    else some (b.chomped chomping, s :: rest)

/-- Reads a block scalar that stands in a block at column `parent`. Without a step in the header,
the lines before the first text give the indentation. -/
def blockScalar? (folds : Bool) (parent : Option Nat) (text : List Placed) :
    Option (String × List Placed) := do
  let (header, rest) ← blockHeader? text
  match header.step with
  | some step =>
    blockLines? folds header.chomping (parent.getD 0 + step) ⟨[], false, false, none, []⟩ rest
  | none =>
    let lead ← blockLead? 0 [] rest
    let least := (parent.map (· + 1)).getD 1
    blockLines? folds header.chomping (max lead.widest least)
      ⟨[], false, false, none, lead.breaks⟩ lead.rest

end RadioModem.Yaml
