import RadioModem.Address
import RadioModem.Text.Decimal

/-!
# Reply lines

A reply is one line that names the node it comes from, so that an operator's tools can tell it
from echoed input.
-/
namespace RadioModem

/-- Frames one text as a line of the given node. -/
def frame (node : Address) (text : String) : String :=
  "[" ++ toString node.toNat ++ "] " ++ text ++ "\n"

def okText : String := "OK"

def errorText : String := "ERROR"

inductive ReplyBody
  | ok
  | error
  | data (text : String)
  deriving DecidableEq, Repr

namespace ReplyBody

def ofText (text : String) : ReplyBody :=
  if text = okText then ok else if text = errorText then error else data text

def isOk : ReplyBody → Bool
  | ok => true
  | _ => false

def isError : ReplyBody → Bool
  | error => true
  | _ => false

def text? : ReplyBody → Option String
  | data text => some text
  | _ => none

end ReplyBody

structure Reply where
  node : Address
  body : ReplyBody
  deriving DecidableEq, Repr

namespace Reply

def isLineBreak (c : Char) : Bool := c == '\r' || c == '\n'

/-- Takes the line breaks off the end of a text. -/
def trimmed (text : List Char) : List Char := (text.reverse.dropWhile isLineBreak).reverse

/-- Splits at the first closing bracket that a space follows. -/
def splitTag : List Char → Option (List Char × List Char)
  | ']' :: ' ' :: rest => some ([], rest)
  | c :: rest => (splitTag rest).map fun (tag, body) => (c :: tag, body)
  | [] => none

def parse (line : String) : Option Reply :=
  match trimmed line.toList with
  | '[' :: rest => do
    let (tag, body) ← splitTag rest
    let node ← Text.Decimal.word16 tag
    return ⟨node, .ofText (String.ofList body)⟩
  | _ => none

end Reply

end RadioModem
