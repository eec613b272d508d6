/-!
# Quoted text

Texts inside log records and diagnostics stand between double quotes, with the characters that
would end or break the line escaped. Numbers in such records may be hexadecimal.
-/
namespace RadioModem.Text

/-- Lower-case hexadecimal digits, padded with zeros to the given width. -/
def hex (width n : Nat) : String :=
  String.ofList ((Nat.toDigits 16 n).leftpad width '0')

/-- Controls without a short escape are written by their code point. -/
def isControl (c : Char) : Bool := c.toNat < 0x20 || (0x7F ≤ c.toNat && c.toNat < 0xA0)

def escaped (c : Char) : String :=
  if c = '\x22' then "\\\""
  else if c = '\\' then "\\\\"
  else if c = '\t' then "\\t"
  else if c = '\r' then "\\r"
  else if c = '\n' then "\\n"
  else if c = '\x00' then "\\0"
  else if isControl c then "\\u\x7b" ++ hex 1 c.toNat ++ "\x7d"
  else String.singleton c

def quoted (text : String) : String :=
  "\"" ++ String.join (text.toList.map escaped) ++ "\""

end RadioModem.Text
