import ProducerPool.Text.Escaped

/-!
# Quoted text

Text between double quotes, in which every character that a reader could not tell is escaped: tab,
line ends, NUL, backslash and the quote itself by a letter, all others by their code point in
hexadecimal digits.
-/

set_option autoImplicit false

namespace ProducerPool.Text

def quotedChar (c : Char) : List Char :=
  if c = '\x00' then ['\\', '0']
  else if c = '\t' then ['\\', 't']
  else if c = '\r' then ['\\', 'r']
  else if c = '\n' then ['\\', 'n']
  else if c = '\\' then ['\\', '\\']
  else if c = '"' then ['\\', '"']
  else if Escaped.contains c.toNat then
    ['\\', 'u', '\x7b'] ++ Nat.toDigits 16 c.toNat ++ ['\x7d']
  else [c]

def quoted (s : String) : String :=
  String.ofList ('"' :: s.toList.flatMap quotedChar ++ ['"'])

/-- An optional text: `None`, or the quoted text in `Some(..)`. -/
def quotedOption : Option String → String
  | none => "None"
  | some s => "Some(" ++ quoted s ++ ")"

end ProducerPool.Text
