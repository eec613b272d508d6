import RadioModem.Yaml.Basic
import RadioModem.Yaml.Placed

/-!
# Plain and quoted scalars

Both may run over several lines, whose ends are folded: blanks around a line break are dropped, a
single break becomes a space, and further breaks are kept. What has been taken of a scalar is kept
backwards.
-/
namespace RadioModem.Yaml

/-- What stands between two runs of a scalar, backwards. -/
inductive Gap
  | blanks (chars : List Char)
  /-- A line break, unless it was escaped, and those after it. -/
  | breaks (first : Option Char) (more : List Char)
  deriving DecidableEq, Repr

namespace Gap

def empty : Gap := blanks []

def isEmpty : Gap → Bool
  | blanks chars => chars.isEmpty
  | breaks _ _ => false

def hasBreak : Gap → Bool
  | blanks _ => false
  | breaks _ _ => true

def add (c : Char) : Gap → Gap
  | blanks chars => if isBreak c then breaks (some c) [] else blanks (c :: chars)
  | breaks first more => breaks first (if isBreak c then c :: more else more)

/-- Separators of lines and of paragraphs are never dropped. -/
def folded : Gap → List Char
  | blanks chars => chars
  | breaks first more =>
    if first = some '\n' then (if more.isEmpty then [' '] else more) else more ++ first.toList

end Gap

/-- A plain scalar, whether a line break came after it, and the text after that. -/
structure PlainScalar where
  text : String
  lineEnded : Bool
  rest : List Placed
  deriving DecidableEq, Repr

def isBracket (c : Char) : Bool := c == '[' || c == ']' || c == '\x7b' || c == '\x7d'

/-- Whether a plain scalar ends before a character that is not in a gap. -/
def endsPlain (inFlow : Bool) (least : Nat) (gap : Gap) (s : Placed) (rest : List Placed) : Bool :=
  (!gap.isEmpty && (s.char == '#' || atBoundary (s :: rest) || (!inFlow && s.column < least))) ||
    (s.char == ':' && atGap rest) ||
    (inFlow && (s.char == ',' || isBracket s.char))

/-- A bare colon inside brackets may not touch what could follow a key. -/
def isStrayColon (inFlow : Bool) (s : Placed) (rest : List Placed) : Bool :=
  inFlow && s.char == ':' && startsWith (fun c => c == ',' || c == '?' || isBracket c) rest

/-- Reads a plain scalar; outside of brackets, its later lines start at column `least` or after. -/
def plain? (inFlow : Bool) (least : Nat) (taken : List Char) (gap : Gap) :
    List Placed → Option PlainScalar
  | [] => some ⟨String.ofList taken.reverse, gap.hasBreak, []⟩
  | s :: rest =>
    if isGap s.char then
      if gap.hasBreak && s.char == '\t' && s.column < least then none
      else plain? inFlow least taken (gap.add s.char) rest
    else if endsPlain inFlow least gap s rest then
      some ⟨String.ofList taken.reverse, gap.hasBreak, s :: rest⟩
    else if isStrayColon inFlow s rest then none
    else plain? inFlow least (s.char :: gap.folded ++ taken) .empty rest

/-- Reads on to the closing quote; a quote written twice does not close the scalar. -/
def single? (taken : List Char) (gap : Gap) : List Placed → Option (String × List Placed)
  | [] => none
  | s :: rest =>
    if isGap s.char then single? taken (gap.add s.char) rest
    else if atBoundary (s :: rest) then none
    else if s.char = '\x27' then
      match rest with
      | [] => some (String.ofList (gap.folded ++ taken).reverse, [])
      | t :: after =>
        if t.char = '\x27' then single? ('\x27' :: gap.folded ++ taken) .empty after
        else some (String.ofList (gap.folded ++ taken).reverse, t :: after)
    else single? (s.char :: gap.folded ++ taken) .empty rest

/-- The character that an escape of one letter stands for. -/
def escaped? : Char → Option Char
  | '0' => some '\x00'
  | 'a' => some '\x07'
  | 'b' => some '\x08'
  | 't' => some '\t'
  | '\t' => some '\t'
  | 'n' => some '\n'
  | 'v' => some '\x0b'
  | 'f' => some '\x0c'
  | 'r' => some '\r'
  | 'e' => some '\x1b'
  | ' ' => some ' '
  | '\x22' => some '\x22'
  | '/' => some '/'
  | '\\' => some '\\'
  | 'N' => some '\u0085'
  | '_' => some '\u00A0'
  | 'L' => some '\u2028'
  | 'P' => some '\u2029'
  | _ => none

/-- How many hexadecimal digits follow an escape letter. -/
def escapeDigits? : Char → Option Nat
  | 'x' => some 2
  | 'u' => some 4
  | 'U' => some 8
  | _ => none

/-- Where the reader of a double-quoted scalar stands. -/
inductive EscapeMode
  | off
  | letter
  | digits (left value : Nat)
  deriving DecidableEq, Repr

/-- Reads on to the closing quote. A backslash at the end of a line joins it to the next one. -/
def double? (mode : EscapeMode) (taken : List Char) (gap : Gap) :
    List Placed → Option (String × List Placed)
  | [] => none
  | s :: rest =>
    match mode with
    | .off =>
      if isGap s.char then double? .off taken (gap.add s.char) rest
      else if atBoundary (s :: rest) then none
      else if s.char = '\x22' then some (String.ofList (gap.folded ++ taken).reverse, rest)
      else if s.char = '\\' then double? .letter (gap.folded ++ taken) .empty rest
      else double? .off (s.char :: gap.folded ++ taken) .empty rest
    | .letter =>
      if isBreak s.char then double? .off taken (.breaks none []) rest
      else match escaped? s.char, escapeDigits? s.char with
        | some c, _ => double? .off (c :: taken) .empty rest
        | none, some left => double? (.digits left 0) taken .empty rest
        | none, none => none
    | .digits left value =>
      match digitWeight? s.char with
      | none => none
      | some d =>
        if 1 < left then double? (.digits (left - 1) (16 * value + d)) taken .empty rest
        else match char? (16 * value + d) with
          | some c => double? .off (c :: taken) .empty rest
          | none => none

end RadioModem.Yaml
