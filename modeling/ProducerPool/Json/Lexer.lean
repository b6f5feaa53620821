/-!
# Tokens of a document

`Lexer.tokens?` cuts the characters of a document into tokens.  The lexer is a machine that reads
one character at a time: it is between tokens, inside a string, or inside a run of number or
letter characters, and a run ends at the first character that cannot belong to it.  A string
is kept as its code units: a character written as itself is its code point and an escape `\uXXXX`
is the unit it names, so that pairs and lone halves of surrogates can still be told apart.
-/

set_option autoImplicit false

namespace ProducerPool.Json

/-- The parts of a number as written: sign, digits before and after the point, and exponent.
Digits are kept as their values, first digit first. -/
structure Numeral where
  negative : Bool
  digits : List Nat
  fraction : List Nat
  /-- Whether the exponent is negative, and its digits. -/
  exponent : Option (Bool × List Nat)
deriving DecidableEq, Repr

inductive Token where
  | beginArray
  | endArray
  | beginObject
  | endObject
  | comma
  | colon
  | null
  | bool (b : Bool)
  | number (n : Numeral)
  | text (units : List Nat)
deriving DecidableEq, Repr

namespace Numeral

def digit? (c : Char) : Option Nat :=
  if '0' ≤ c ∧ c ≤ '9' then some (c.toNat - '0'.toNat) else none

def takeDigits : List Char → List Nat × List Char
  | [] => ([], [])
  | c :: rest =>
    match digit? c with
    | some d => let (ds, tail) := takeDigits rest; (d :: ds, tail)
    | none => ([], c :: rest)

/-- The exponent part, which must end the number. -/
def exponent? : List Char → Option (Option (Bool × List Nat))
  | [] => some none
  | e :: rest =>
    if e = 'e' ∨ e = 'E' then
      let (negative, rest) := match rest with
        | '-' :: tail => (true, tail)
        | '+' :: tail => (false, tail)
        | tail => (false, tail)
      match takeDigits rest with
      | ([], _) => none
      | (ds, []) => some (some (negative, ds))
      | (_, _ :: _) => none
    else none

/-- Digits before the point: a zero stands alone. -/
def leadingDigits? (cs : List Char) : Option (List Nat × List Char) :=
  match takeDigits cs with
  | ([], _) => none
  | (0 :: _ :: _, _) => none
  | (ds, rest) => some (ds, rest)

/-- Reads a number, which must take up the whole text. -/
def ofChars? (cs : List Char) : Option Numeral := do
  let (negative, cs) := match cs with
    | '-' :: rest => (true, rest)
    | _ => (false, cs)
  let (digits, rest) ← leadingDigits? cs
  match rest with
  | '.' :: rest =>
    match takeDigits rest with
    | ([], _) => none
    | (fraction, rest) => return ⟨negative, digits, fraction, ← exponent? rest⟩
  | rest => return ⟨negative, digits, [], ← exponent? rest⟩

end Numeral

namespace Lexer

/-- Where the lexer stands; what it has gathered is kept last character first. -/
inductive Mode where
  | between
  | number (seen : List Char)
  | word (seen : List Char)
  | text (units : List Nat)
  | escape (units : List Nat)
  /-- `missing` digits of an escape `\uXXXX` are still to come; `unit` holds the ones seen. -/
  | hex (units : List Nat) (missing : Nat) (unit : Nat)

structure State where
  mode : Mode
  /-- Finished tokens, last token first. -/
  done : List Token

def blank (c : Char) : Bool := c = ' ' || c = '\t' || c = '\n' || c = '\r'

def inNumber (c : Char) : Bool :=
  (Numeral.digit? c).isSome || c = '-' || c = '+' || c = '.' || c = 'e' || c = 'E'

def inWord (c : Char) : Bool := 'a' ≤ c && c ≤ 'z'

/-- The word of a constant; no other word is a token. -/
def word? : List Char → Option Token
  | ['n', 'u', 'l', 'l'] => some .null
  | ['t', 'r', 'u', 'e'] => some (.bool true)
  | ['f', 'a', 'l', 's', 'e'] => some (.bool false)
  | _ => none

def start? (done : List Token) (c : Char) : Option State :=
  if blank c then some ⟨.between, done⟩
  else if c = '[' then some ⟨.between, .beginArray :: done⟩
  else if c = ']' then some ⟨.between, .endArray :: done⟩
  else if c = '\x7b' then some ⟨.between, .beginObject :: done⟩
  else if c = '\x7d' then some ⟨.between, .endObject :: done⟩
  else if c = ',' then some ⟨.between, .comma :: done⟩
  else if c = ':' then some ⟨.between, .colon :: done⟩
  else if c = '"' then some ⟨.text [], done⟩
  else if c = '-' || (Numeral.digit? c).isSome then some ⟨.number [c], done⟩
  else if inWord c then some ⟨.word [c], done⟩
  else none

/-- The token of a finished run, put in front of the finished ones. -/
def finishRun? (mode : Mode) (done : List Token) : Option (List Token) :=
  match mode with
  | .between => some done
  | .number seen => (Numeral.ofChars? seen.reverse).map fun n => .number n :: done
  | .word seen => (word? seen.reverse).map fun t => t :: done
  | _ => none

def escaped? (c : Char) : Option Nat :=
  if c = '"' || c = '\\' || c = '/' then some c.toNat
  else if c = 'b' then some 8
  else if c = 'f' then some 12
  else if c = 'n' then some 10
  else if c = 'r' then some 13
  else if c = 't' then some 9
  else none

def hexDigit? (c : Char) : Option Nat :=
  if '0' ≤ c ∧ c ≤ '9' then some (c.toNat - '0'.toNat)
  else if 'a' ≤ c ∧ c ≤ 'f' then some (c.toNat - 'a'.toNat + 10)
  else if 'A' ≤ c ∧ c ≤ 'F' then some (c.toNat - 'A'.toNat + 10)
  else none

def step? (s : State) (c : Char) : Option State :=
  match s.mode with
  | .between => start? s.done c
  | .number seen =>
    if inNumber c then some ⟨.number (c :: seen), s.done⟩
    else (finishRun? s.mode s.done).bind fun done => start? done c
  | .word seen =>
    if inWord c then some ⟨.word (c :: seen), s.done⟩
    else (finishRun? s.mode s.done).bind fun done => start? done c
  | .text units =>
    if c = '"' then some ⟨.between, .text units.reverse :: s.done⟩
    else if c = '\\' then some ⟨.escape units, s.done⟩
    else if c.toNat < 32 then none
    else some ⟨.text (c.toNat :: units), s.done⟩
  | .escape units =>
    if c = 'u' then some ⟨.hex units 4 0, s.done⟩
    else (escaped? c).map fun unit => ⟨.text (unit :: units), s.done⟩
  | .hex units missing unit =>
    (hexDigit? c).map fun d =>
      if missing ≤ 1 then ⟨.text ((16 * unit + d) :: units), s.done⟩
      else ⟨.hex units (missing - 1) (16 * unit + d), s.done⟩

def run? : State → List Char → Option State
  | s, [] => some s
  | s, c :: rest =>
    match step? s c with
    | some next => run? next rest
    | none => none

def tokens? (cs : List Char) : Option (List Token) := do
  let s ← run? ⟨.between, []⟩ cs
  let done ← finishRun? s.mode s.done
  return done.reverse

end Lexer

end ProducerPool.Json
