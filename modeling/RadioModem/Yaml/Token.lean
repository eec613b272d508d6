import RadioModem.Yaml.Basic
import RadioModem.Yaml.Tag

/-!
# Tokens

A text of YAML is a run of tokens. Those that open and close blocks, and the one that marks a key,
are not written: indentation and colons give them.
-/
namespace RadioModem.Yaml

inductive Token
  | directive (d : Directive)
  | documentStart
  | documentEnd
  | blockList
  | blockMap
  | blockEnd
  | openList
  | closeList
  | openMap
  | closeMap
  | dash
  | comma
  | key
  | value
  | reference (name : String)
  | anchor (name : String)
  | tag (t : Tag)
  | scalar (style : Style) (text : String)
  deriving DecidableEq, Repr

end RadioModem.Yaml
