import RadioModem.Yaml.Anchor
import RadioModem.Yaml.Frame
import RadioModem.Yaml.Layout

/-!
# From tokens to values

A document is built on a stack of the collections that are still open. A token that does not
belong to the innermost one ends what it cannot continue: a node that is missing is empty, and a
list at the column of its key ends with its last item.
-/
namespace RadioModem.Yaml

structure Assembly where
  handles : Handles
  anchors : Anchors
  frames : List Frame
  /-- The properties of the node to come. -/
  name : Option String
  tag : Option String
  deriving Repr

namespace Assembly

def waits (a : Assembly) : Bool := a.frames.head?.any Frame.waits

def hasProperties (a : Assembly) : Bool := a.name.isSome || a.tag.isSome

/-- Begins a node with the properties read before it, and says which anchored one it is. -/
def begun (a : Assembly) : Option Nat × Assembly :=
  match a.name with
  | some name =>
    (some a.anchors.nodes.length,
      { a with anchors := a.anchors.add name, name := none, tag := none })
  | none => (none, { a with tag := none })

def complete? (anchor : Option Nat) (y : Yaml) (a : Assembly) : Option Assembly := do
  return { a with anchors := a.anchors.complete anchor y, frames := ← placeNode? y a.frames }

def scalar? (style : Style) (text : String) (a : Assembly) : Option Assembly :=
  let (anchor, next) := a.begun
  next.complete? anchor (.scalar ⟨style, a.tag, text⟩)

def reference? (name : String) (a : Assembly) : Option Assembly := do
  if a.hasProperties then none
  a.complete? none (.reference (← a.anchors.number? name))

/-- Opens a collection where a node is awaited. -/
def push? (frame : Option Nat → Frame) (a : Assembly) : Option Assembly :=
  let (anchor, next) := a.begun
  if a.waits then some { next with frames := frame anchor :: a.frames } else none

/-- Blocks do not stand in brackets. -/
def pushBlock? (frame : Option Nat → Frame) (a : Assembly) : Option Assembly :=
  if a.frames.head?.any Frame.isFlow then none else a.push? frame

/-- Puts an empty scalar where one may be missing, or ends a loose list, if the token does not
belong there. -/
def relax? (t : Token) (a : Assembly) : Option Assembly :=
  if a.hasProperties then a.scalar? .plain ""
  else match a.frames with
  | .root true none :: _ => a.scalar? .plain ""
  | .list .flow _ _ true :: _ => some a
  | .list _ _ _ true :: _ => a.scalar? .plain ""
  | .list .loose anchor items false :: below =>
    if t = .dash then some a
    else ({ a with frames := below } : Assembly).complete? anchor (.list items.reverse)
  | .map _ _ _ .key :: _ => a.scalar? .plain ""
  | .map _ _ _ (.value _) :: _ => a.scalar? .plain ""
  | .pair (.value _) :: _ => a.scalar? .plain ""
  | .map form anchor entries (.mark key) :: below =>
    if t = .value then some a
    else ({ a with frames := .map form anchor entries (.value key) :: below } : Assembly).scalar?
      .plain ""
  | .pair (.mark key) :: below =>
    if t = .value then some a
    else ({ a with frames := .pair (.value key) :: below } : Assembly).scalar? .plain ""
  | _ => some a

/-- Three times is enough: for an item, the list that it ends, and the value of the key that the
list is. -/
def relaxed? (t : Token) (a : Assembly) : Option Assembly :=
  ((a.relax? t).bind (relax? t)).bind (relax? t)

/-- A token that is no part of a node. Right after the mark of a key in a list in brackets, what
can only follow an empty key is taken as that key. -/
def punctuate? (t : Token) (a : Assembly) : Option Assembly :=
  match t, a.frames with
  | .dash, .list .block anchor items false :: below =>
    some { a with frames := .list .block anchor items true :: below }
  | .dash, .list .loose anchor items false :: below =>
    some { a with frames := .list .loose anchor items true :: below }
  | .key, .map form anchor entries .start :: below =>
    some { a with frames := .map form anchor entries .key :: below }
  | .key, .list .flow anchor items true :: below =>
    some { a with frames := .pair .key :: .list .flow anchor items true :: below }
  | .value, .map form anchor entries (.mark key) :: below =>
    some { a with frames := .map form anchor entries (.value key) :: below }
  | .value, .pair (.mark key) :: below => some { a with frames := .pair (.value key) :: below }
  | .value, .pair .key :: _ => a.scalar? .plain ""
  | .comma, .pair .key :: _ => a.scalar? .plain ""
  | .closeList, .pair .key :: _ => a.scalar? .plain ""
  | .comma, .list .flow anchor items false :: below =>
    some { a with frames := .list .flow anchor items true :: below }
  | .comma, .map .flow anchor entries .done :: below =>
    some { a with frames := .map .flow anchor entries .start :: below }
  | .closeList, .list .flow anchor items _ :: below =>
    ({ a with frames := below } : Assembly).complete? anchor (.list items.reverse)
  | .closeMap, .map .flow anchor entries .start :: below
  | .closeMap, .map .flow anchor entries .done :: below =>
    ({ a with frames := below } : Assembly).complete? anchor (.map entries.reverse)
  | .blockEnd, .list .block anchor items false :: below =>
    ({ a with frames := below } : Assembly).complete? anchor (.list items.reverse)
  | .blockEnd, .map .block anchor entries .start :: below =>
    ({ a with frames := below } : Assembly).complete? anchor (.map entries.reverse)
  | .documentEnd, .root _ (some _) :: _ => some a
  | _, _ => none

def step? (a : Assembly) : Token → Option Assembly
  | .anchor name => if a.waits && a.name.isNone then some { a with name := some name } else none
  | .tag t =>
    if a.waits && a.tag.isNone then do return { a with tag := ← t.resolve a.handles } else none
  | .reference name => a.reference? name
  | .scalar style text => a.scalar? style text
  | .openList => a.push? fun anchor => .list .flow anchor [] true
  | .openMap => a.push? fun anchor => .map .flow anchor [] .start
  | .blockList => a.pushBlock? fun anchor => .list .block anchor [] false
  | .blockMap => a.pushBlock? fun anchor => .map .block anchor [] .start
  | t =>
    if t = .dash && a.frames.head?.any Frame.takesLooseList then
      a.push? fun anchor => .list .loose anchor [] true
    else (a.relaxed? t).bind (punctuate? t)

end Assembly

/-- A text holds at most one document. -/
structure Document where
  root : Yaml
  anchors : Anchors
  deriving Repr

namespace Document

/-- Versions are given at most once, and so is each handle. -/
def prologue? (hasVersion : Bool) (handles : Handles) : List Token → Option (Assembly × List Token)
  | .directive (.version major minor) :: rest =>
    if hasVersion || major ≠ 1 || (minor ≠ 1 && minor ≠ 2) then none
    else prologue? true handles rest
  | .directive (.handle name start) :: rest =>
    if (handles.lookup name).isSome then none
    else prologue? hasVersion ((name, start) :: handles) rest
  | .documentStart :: rest => some (⟨handles, .empty, [.root true none], none, none⟩, rest)
  | rest =>
    if hasVersion || !handles.isEmpty then none
    else some (⟨handles, .empty, [.root false none], none, none⟩, rest)

/-- A text without tokens is an empty value. -/
def ofTokens? : List Token → Option Document
  | [] => some ⟨empty, .empty⟩
  | tokens => do
    let (a, rest) ← prologue? false [] tokens
    let a ← (← rest.foldlM Assembly.step? a).step? .documentEnd
    match a.frames with
    | [.root _ (some root)] => some ⟨root, a.anchors⟩
    | _ => none

def parse (text : String) : Option Document := do
  ofTokens? (← Token.ofText? (← Placed.ofText? text))

end Document

end RadioModem.Yaml
