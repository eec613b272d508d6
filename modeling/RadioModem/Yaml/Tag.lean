import RadioModem.Yaml.Basic
import RadioModem.Yaml.Placed

/-!
# Names, tags and directives

A node may carry the name of an anchor and a tag. A tag is written out between angle brackets, or
as a handle, which a directive may define, and a suffix.
-/
namespace RadioModem.Yaml

/-- What may follow the name of an anchor directly. -/
def endsName (text : List Placed) : Bool :=
  atGap text || startsWith (· ∈ ['?', ':', ',', ']', '\x7d', '%', '@', '\x60']) text

/-- The name of an anchor, after its indicator. -/
def name? (text : List Placed) : Option (String × List Placed) :=
  let (name, rest) := run isWord text
  if name.isEmpty || !endsName rest then none else some (String.ofList name, rest)

/-- A tag with no handle is a whole one. -/
structure Tag where
  handle : Option String
  suffix : String
  deriving DecidableEq, Repr

/-- The tags that a handle stands in front of, by handle. -/
abbrev Handles := List (String × String)

def standardHandles : Handles := [("!", "!"), ("!!", coreTag)]

def Tag.resolve (defined : Handles) (t : Tag) : Option String :=
  match t.handle with
  | none => some t.suffix
  | some handle => ((defined ++ standardHandles).lookup handle).map (· ++ t.suffix)

/-- Characters that stand for themselves in a tag. -/
def isTagChar (c : Char) : Bool :=
  isWord c ||
    c ∈ [';', '/', '?', ':', '@', '&', '=', '+', '$', '.', '!', '~', '*', '\x27', '(', ')']

/-- Tags written out and those of directives may hold a few more. -/
def isWholeTagChar (c : Char) : Bool := isTagChar c || c ∈ [',', '[', ']']

/-- How many octets follow the first one of a character, and the bits that it holds. -/
def leadOctet? (octet : Nat) : Option (Nat × Nat) :=
  if octet < 0x80 then some (0, octet)
  else if octet < 0xC0 then none
  else if octet < 0xE0 then some (1, octet - 0xC0)
  else if octet < 0xF0 then some (2, octet - 0xE0)
  else if octet < 0xF8 then some (3, octet - 0xF0)
  else none

def laterOctet? (octet : Nat) : Option Nat :=
  if 0x80 ≤ octet && octet < 0xC0 then some (octet - 0x80) else none

/-- Reads characters of a tag. A percent sign and two digits are an octet; while octets of a
character are missing, nothing else may follow. -/
def tagChars? (allowed : Char → Bool) (missing value : Nat) :
    List Placed → Option (List Char × List Placed)
  | [] => if missing = 0 then some ([], []) else none
  | s :: rest =>
    if s.char = '%' then
      match rest with
      | high :: low :: after => do
        let octet := 16 * (← digitWeight? high.char) + (← digitWeight? low.char)
        let (missing, value) ←
          if missing = 0 then leadOctet? octet
          else (laterOctet? octet).map fun bits => (missing - 1, 64 * value + bits)
        let (chars, rest) ← tagChars? allowed missing value after
        return (if missing = 0 then (char? value).getD '\uFFFD' :: chars else chars, rest)
      | _ => none
    else if missing ≠ 0 then none
    else if allowed s.char then do
      let (chars, rest) ← tagChars? allowed 0 0 rest
      return (s.char :: chars, rest)
    else some ([], s :: rest)

def filledTagChars? (allowed : Char → Bool) (text : List Placed) :
    Option (String × List Placed) := do
  let (chars, rest) ← tagChars? allowed 0 0 text
  if chars.isEmpty then none
  return (String.ofList chars, rest)

/-- A tag with the shortest handle, after its exclamation mark. Alone, that mark is a whole tag. -/
def shortTag? (text : List Placed) : Option (Tag × List Placed) := do
  let (chars, rest) ← tagChars? isTagChar 0 0 text
  if chars.isEmpty then return (⟨none, "!"⟩, rest)
  return (⟨some "!", String.ofList chars⟩, rest)

/-- A tag of any form, after its first exclamation mark. -/
def bareTag? (text : List Placed) : Option (Tag × List Placed) :=
  match run isWord text with
  | (name, s :: rest) =>
    if startsWith (· == '<') text then do
      let (suffix, rest) ← filledTagChars? isWholeTagChar rest
      if startsWith (· == '>') rest then return (⟨none, suffix⟩, rest.drop 1) else none
    else if s.char = '!' then do
      let (suffix, rest) ← filledTagChars? isTagChar rest
      return (⟨some ("!" ++ String.ofList name ++ "!"), suffix⟩, rest)
    else shortTag? text
  | _ => shortTag? text

/-- A tag ends at a gap, or at a comma inside brackets. -/
def tag? (inFlow : Bool) (text : List Placed) : Option (Tag × List Placed) := do
  let (tag, rest) ← bareTag? text
  if atGap rest || (inFlow && startsWith (· == ',') rest) then return (tag, rest) else none

inductive Directive
  | version (major minor : Nat)
  | handle (name start : String)
  deriving DecidableEq, Repr

/-- A part of a version has at most nine digits. -/
def versionPart? (text : List Placed) : Option (Nat × List Placed) :=
  let (digits, rest) := run Char.isDigit text
  if digits.isEmpty || 9 < digits.length then none
  else some (Text.Decimal.value digits, rest)

def versionDirective? (text : List Placed) : Option (Directive × List Placed) := do
  let (major, rest) ← versionPart? text
  if !startsWith (· == '.') rest then none
  let (minor, rest) ← versionPart? (rest.drop 1)
  return (.version major minor, rest)

/-- A handle is one exclamation mark, or a name between two. -/
def handleDirective? (text : List Placed) : Option (Directive × List Placed) := do
  if !startsWith (· == '!') text then none
  let (name, rest) := run isWord (text.drop 1)
  let closed := startsWith (· == '!') rest
  if !closed && !name.isEmpty then none
  let rest := if closed then rest.drop 1 else rest
  if !startsWith isBlank rest then none
  let (start, rest) ← filledTagChars? isWholeTagChar (skipBlanks rest)
  if !atGap rest then none
  return (.handle ("!" ++ String.ofList name ++ if closed then "!" else "") start, rest)

/-- A directive, after its percent sign, with its whole line. -/
def directive? (text : List Placed) : Option (Directive × List Placed) := do
  let (name, rest) := run isWord text
  if !atGap rest then none
  let (directive, rest) ←
    if String.ofList name = "YAML" then versionDirective? (skipBlanks rest)
    else if String.ofList name = "TAG" then handleDirective? (skipBlanks rest)
    else none
  return (directive, ← endLine? rest)

end RadioModem.Yaml
