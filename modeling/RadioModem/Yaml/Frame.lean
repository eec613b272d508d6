import RadioModem.Yaml.Basic

/-!
# Open collections

While a document is read, the collections around a node are kept on a stack, each with what it
holds so far and what it waits for.
-/
namespace RadioModem.Yaml

/-- What a map waits for. -/
inductive Slot
  /-- An entry. -/
  | start
  | key
  /-- The mark of the value. -/
  | mark (key : Yaml)
  | value (key : Yaml)
  /-- A comma. -/
  | done
  deriving Repr

/-- Lists and maps are blocks or stand in brackets; the dashes of a loose list stand at the column
of the key that it belongs to. -/
inductive Form
  | block
  | loose
  | flow
  deriving DecidableEq, Repr

/-- A collection that is still open, or the place of the whole value. Contents are kept backwards;
a list may wait for an item. -/
inductive Frame
  | root (mayBeMissing : Bool) (value : Option Yaml)
  | list (form : Form) (anchor : Option Nat) (items : List Yaml) (waits : Bool)
  | map (form : Form) (anchor : Option Nat) (entries : List (Yaml × Yaml)) (slot : Slot)
  /-- An item of a list in brackets that is a map of one entry. -/
  | pair (slot : Slot)
  deriving Repr

namespace Frame

def isFlow : Frame → Bool
  | list .flow .. | map .flow .. | pair _ => true
  | _ => false

def waits : Frame → Bool
  | root _ value => value.isNone
  | list _ _ _ waits => waits
  | map .flow _ _ .start => true
  | map _ _ _ .key | map _ _ _ (.value _) | pair .key | pair (.value _) => true
  | _ => false

def takesLooseList : Frame → Bool
  | map .block _ _ .key | map .block _ _ (.value _) => true
  | _ => false

end Frame

def afterEntry (form : Form) : Slot := if form = .flow then .done else .start

/-- Puts a node where one is awaited. -/
def placeNode? (y : Yaml) : List Frame → Option (List Frame)
  | .root mayBeMissing none :: below => some (.root mayBeMissing (some y) :: below)
  | .list form anchor items true :: below => some (.list form anchor (y :: items) false :: below)
  | .map .flow anchor entries .start :: below =>
    some (.map .flow anchor ((y, empty) :: entries) .done :: below)
  | .map form anchor entries .key :: below => some (.map form anchor entries (.mark y) :: below)
  | .map form anchor entries (.value key) :: below =>
    some (.map form anchor ((key, y) :: entries) (afterEntry form) :: below)
  | .pair .key :: below => some (.pair (.mark y) :: below)
  | .pair (.value key) :: below => placeNode? (map [(key, y)]) below
  | _ => none

end RadioModem.Yaml
