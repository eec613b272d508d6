/-!
# Characters and their places

Indentation is part of the meaning of a text, so its characters are read with the line and the
column at which they stand.
-/
namespace RadioModem.Yaml

def isBlank (c : Char) : Bool := c == ' ' || c == '\t'

def isBreak (c : Char) : Bool := c == '\n' || c == '\u2028' || c == '\u2029'

def isGap (c : Char) : Bool := isBlank c || isBreak c

/-- Letters, digits, hyphens and underscores, of ASCII alone. -/
def isWord (c : Char) : Bool := c.isAlphanum || c == '-' || c == '_'

/-- Controls other than tabs and line breaks may stand in a text only as escapes. -/
def isAllowed (c : Char) : Bool :=
  c == '\t' || c == '\n' || c == '\r' || c == '\u0085' ||
    (0x20 ≤ c.toNat && c.toNat ≤ 0x7E) ||
    (0xA0 ≤ c.toNat && c.toNat ≠ 0xFEFF && c.toNat ≠ 0xFFFE && c.toNat ≠ 0xFFFF)

structure Placed where
  char : Char
  line : Nat
  column : Nat
  deriving DecidableEq, Repr

namespace Placed

/-- A carriage return, with or without a line feed, and a next-line control are line feeds. -/
def unified : List Char → List Char
  | '\r' :: '\n' :: rest => '\n' :: unified rest
  | c :: rest => (if c = '\r' || c = '\u0085' then '\n' else c) :: unified rest
  | [] => []

def place (line column : Nat) : List Char → List Placed
  | [] => []
  | c :: rest =>
    ⟨c, line, column⟩ :: if isBreak c then place (line + 1) 0 rest else place line (column + 1) rest

/-- A byte order mark may stand at the front of a text. -/
def withoutMark : List Char → List Char
  | '\uFEFF' :: rest => rest
  | text => text

def ofText? (text : String) : Option (List Placed) :=
  let chars := withoutMark text.toList
  if chars.all isAllowed then some (place 0 0 (unified chars)) else none

end Placed

def startsWith (p : Char → Bool) (text : List Placed) : Bool := text.head?.any fun s => p s.char

/-- A word ends at a blank, at a line break and at the end of the text. -/
def atGap (text : List Placed) : Bool := text.head?.all fun s => isGap s.char

/-- Three hyphens or three full stops at the front of a line are a boundary of the document. -/
def atBoundary : List Placed → Bool
  | a :: b :: c :: rest =>
    a.column = 0 && (a.char = '-' || a.char = '.') && b.char = a.char && c.char = a.char &&
      atGap rest
  | _ => false

def skipBlanks (text : List Placed) : List Placed := text.dropWhile fun s => isBlank s.char

/-- The text after an optional comment that reaches to the end of the line. -/
def skipComment (text : List Placed) : List Placed :=
  if startsWith (· == '#') text then text.dropWhile fun s => !isBreak s.char else text

/-- The text after blanks, an optional comment and the line break. Nothing else may stand there. -/
def endLine? (text : List Placed) : Option (List Placed) :=
  match skipComment (skipBlanks text) with
  | [] => some []
  | s :: rest => if isBreak s.char then some rest else none

/-- The longest run of characters of a class, and the text after it. -/
def run (p : Char → Bool) (text : List Placed) : List Char × List Placed :=
  ((text.takeWhile fun s => p s.char).map Placed.char, text.dropWhile fun s => p s.char)

end RadioModem.Yaml
