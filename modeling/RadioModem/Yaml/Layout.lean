import RadioModem.Yaml.BlockScalar
import RadioModem.Yaml.Scalar
import RadioModem.Yaml.Token

/-!
# From places to tokens

Outside of brackets the column of a token says which blocks it ends and whether it starts one.
Only a colon shows that what stands before it on its line is a key, so every place where a key may
begin is remembered until it is too far away.
-/
namespace RadioModem.Yaml

/-- Where a key may begin. -/
structure KeyStart where
  /-- The number of tokens before it. -/
  place : Nat
  line : Nat
  column : Nat
  /-- Nothing but a key may stand at the column of a block. -/
  required : Bool
  deriving DecidableEq, Repr

/-- The state between two tokens. -/
structure Layout where
  /-- The tokens so far, backwards. -/
  tokens : List Token
  count : Nat
  /-- The columns of the open blocks, the innermost first. -/
  indents : List Nat
  keyAllowed : Bool
  /-- The latest key start inside the innermost brackets, and those around each pair of them. -/
  keyStart : Option KeyStart
  outer : List (Option KeyStart)
  deriving DecidableEq, Repr

/-- A key is on one line and has at most so many characters. -/
def keyReach : Nat := 1024

/-- A key start that is still in reach. A required one must have got its colon. -/
def KeyStart.inReach? (s : Placed) (k : KeyStart) : Option (Option KeyStart) :=
  if k.line < s.line || k.column + keyReach < s.column then
    if k.required then none else some none
  else some (some k)

namespace Layout

def start : Layout := ⟨[], 0, [], true, none, []⟩

def inFlow (l : Layout) : Bool := !l.outer.isEmpty

def emit (t : Token) (l : Layout) : Layout :=
  { l with tokens := t :: l.tokens, count := l.count + 1 }

/-- Puts tokens, given backwards, behind the first `place` ones. -/
def insert (place : Nat) (ts : List Token) (l : Layout) : Layout :=
  let later := l.count - place
  { l with
    tokens := l.tokens.take later ++ ts ++ l.tokens.drop later
    count := l.count + ts.length }

/-- Ends the blocks whose columns satisfy a test, from the inside. -/
def endBlocks (ends : Nat → Bool) (l : Layout) : Layout :=
  if l.inFlow then l
  else
    let ended := l.indents.takeWhile ends
    { l with
      tokens := ended.map (fun _ => .blockEnd) ++ l.tokens
      count := l.count + ended.length
      indents := l.indents.dropWhile ends }

def startsBlock (column : Nat) (l : Layout) : Bool := !l.inFlow && l.indents.head?.all (· < column)

def dropKey? (l : Layout) : Option Layout :=
  if l.keyStart.any KeyStart.required then none else some { l with keyStart := none }

/-- Forgets the key starts that are out of reach at `s`. -/
def expire? (s : Placed) (l : Layout) : Option Layout := do
  let expired := fun k : Option KeyStart => (k.map (KeyStart.inReach? s)).getD (some none)
  return { l with keyStart := ← expired l.keyStart, outer := ← l.outer.mapM expired }

def noteKey? (s : Placed) (l : Layout) : Option Layout :=
  if l.keyAllowed then do
    let l ← l.dropKey?
    let required := !l.inFlow && l.indents.head? == some s.column
    return { l with keyStart := some ⟨l.count, s.line, s.column, required⟩ }
  else some l

/-- A token that a key may begin with, and that ends what may be a key. -/
def leaf? (s : Placed) (t : Token) (l : Layout) : Option Layout := do
  return { (← l.noteKey? s).emit t with keyAllowed := false }

def opened? (s : Placed) (t : Token) (l : Layout) : Option Layout := do
  let l ← l.noteKey? s
  return { l.emit t with keyAllowed := true, keyStart := none, outer := l.keyStart :: l.outer }

def closed? (t : Token) (l : Layout) : Option Layout := do
  let l ← l.dropKey?
  return { l.emit t with
    keyAllowed := false
    keyStart := l.outer.head?.join
    outer := l.outer.drop 1 }

def separated? (l : Layout) : Option Layout := do
  return { (← l.dropKey?).emit .comma with keyAllowed := true }

/-- Outside of brackets, an indicator of an entry starts a block or stands in one, and no other
node of its line stands before it. -/
def entry? (s : Placed) (opening : Token) (l : Layout) : Option Layout :=
  if l.inFlow then some l
  else if !l.keyAllowed then none
  else if l.startsBlock s.column then
    some { l.emit opening with indents := s.column :: l.indents }
  else some l

def dashed? (s : Placed) (l : Layout) : Option Layout := do
  return { (← (← l.entry? s .blockList).dropKey?).emit .dash with keyAllowed := true }

def keyMarked? (s : Placed) (l : Layout) : Option Layout := do
  return { (← (← l.entry? s .blockMap).dropKey?).emit .key with keyAllowed := !l.inFlow }

/-- A colon shows that there is a key at the latest key start, and perhaps a new block. -/
def valueMarked? (s : Placed) (l : Layout) : Option Layout :=
  match l.keyStart with
  | some k =>
    let l :=
      if l.startsBlock k.column then
        { l.insert k.place [.key, .blockMap] with indents := k.column :: l.indents }
      else l.insert k.place [.key]
    some { l.emit .value with keyAllowed := false, keyStart := none }
  | none => do
    return { (← l.entry? s .blockMap).emit .value with keyAllowed := !l.inFlow }

/-- A boundary of the document or a directive ends all blocks. -/
def boundary? (t : Token) (l : Layout) : Option Layout := do
  return { (← (l.endBlocks fun _ => true).dropKey?).emit t with keyAllowed := false }

/-- Characters that have a meaning of their own at the front of a scalar. -/
def isIndicator (c : Char) : Bool :=
  c ∈ ['-', '?', ':', ',', '[', ']', '\x7b', '\x7d', '#', '&', '*', '!', '|', '>', '\x27', '\x22',
    '%', '@', '\x60']

/-- Whether a plain scalar may start with a character that is no indicator of its own there. -/
def startsPlain (c : Char) (l : Layout) : Bool :=
  c == '-' || (!l.inFlow && (c == '?' || c == ':')) || !isIndicator c && !isGap c

/-- The next token, whose first character has been taken. -/
def token? (s : Placed) (rest : List Placed) (l : Layout) : Option (Layout × List Placed) := do
  let mark := fun l' : Option Layout => l'.map fun l' => (l', rest)
  if s.column = 0 && s.char = '%' then
    let (directive, rest) ← directive? rest
    return (← l.boundary? (.directive directive), rest)
  else if atBoundary (s :: rest) then
    let t := if s.char = '-' then Token.documentStart else Token.documentEnd
    return (← l.boundary? t, rest.drop 2)
  else if s.char = '[' then mark (l.opened? s .openList)
  else if s.char = '\x7b' then mark (l.opened? s .openMap)
  else if s.char = ']' then mark (l.closed? .closeList)
  else if s.char = '\x7d' then mark (l.closed? .closeMap)
  else if s.char = ',' then mark l.separated?
  else if s.char = '-' && atGap rest then mark (l.dashed? s)
  else if s.char = '?' && (l.inFlow || atGap rest) then mark (l.keyMarked? s)
  else if s.char = ':' && (l.inFlow || atGap rest) then mark (l.valueMarked? s)
  else if s.char = '*' then
    let (name, rest) ← name? rest
    return (← l.leaf? s (.reference name), rest)
  else if s.char = '&' then
    let (name, rest) ← name? rest
    return (← l.leaf? s (.anchor name), rest)
  else if s.char = '!' then
    let (tag, rest) ← tag? l.inFlow rest
    return (← l.leaf? s (.tag tag), rest)
  else if (s.char = '|' || s.char = '>') && !l.inFlow then
    let (text, rest) ← blockScalar? (s.char = '>') l.indents.head? rest
    let style := if s.char = '>' then Style.folded else Style.literal
    return ({ (← l.dropKey?).emit (.scalar style text) with keyAllowed := true }, rest)
  else if s.char = '\x27' then
    let (text, rest) ← single? [] .empty rest
    return (← l.leaf? s (.scalar .quoted text), rest)
  else if s.char = '\x22' then
    let (text, rest) ← double? .off [] .empty rest
    return (← l.leaf? s (.scalar .quoted text), rest)
  else if l.startsPlain s.char then
    let least := (l.indents.head?.map (· + 1)).getD 0
    let found ← plain? l.inFlow least [] .empty (s :: rest)
    return ({ (← l.leaf? s (.scalar .plain found.text)) with keyAllowed := found.lineEnded },
      found.rest)
  else none

/-- Skips blanks, comments and line breaks, and says whether a key may begin after them. A tab is
no indentation: it may not stand where a key may begin. -/
def skipGap (inFlow keyAllowed inComment : Bool) : List Placed → Bool × List Placed
  | [] => (keyAllowed, [])
  | s :: rest =>
    if isBreak s.char then skipGap inFlow (keyAllowed || !inFlow) false rest
    else if inComment then skipGap inFlow keyAllowed true rest
    else if s.char = '#' then skipGap inFlow keyAllowed true rest
    else if s.char = ' ' || (s.char = '\t' && (inFlow || !keyAllowed)) then
      skipGap inFlow keyAllowed false rest
    else (keyAllowed, s :: rest)

/-- All tokens of a text. Each takes a character, so `fuel` above their number is enough. -/
def tokens? (fuel : Nat) (l : Layout) (text : List Placed) : Option (List Token) :=
  match fuel with
  | 0 => none
  | fuel + 1 =>
    let (keyAllowed, text) := skipGap l.inFlow l.keyAllowed false text
    match text with
    | [] => (l.endBlocks fun _ => true).dropKey?.map fun l => l.tokens.reverse
    | s :: rest => do
      let l ← ({ l with keyAllowed } : Layout).expire? s
      let (l, rest) ← (l.endBlocks (s.column < ·)).token? s rest
      tokens? fuel l rest

end Layout

def Token.ofText? (text : List Placed) : Option (List Token) :=
  Layout.start.tokens? (text.length + 1) text

end RadioModem.Yaml
