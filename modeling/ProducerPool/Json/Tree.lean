import ProducerPool.Json.Lexer

/-!
# The tree of a document

A `Tree` is a document as it is written: members of an object stand in their order and may repeat,
strings are code units and numbers are numerals.  `Tree.ofTokens?` builds it with a stack of the
containers that are still open, one token at a time.
-/

set_option autoImplicit false

namespace ProducerPool.Json

inductive Tree where
  | null
  | bool (b : Bool)
  | number (n : Numeral)
  | text (units : List Nat)
  | array (items : List Tree)
  | object (members : List (List Nat × Tree))

instance : Inhabited Tree := ⟨.null⟩

namespace Tree

/-- A container that is still open; finished parts are kept last part first. -/
inductive Frame where
  | array (items : List Tree)
  | object (members : List (List Nat × Tree)) (key : List Nat)

inductive Expecting where
  | value
  /-- A value, or the end of an array that has just begun. -/
  | valueOrEnd
  /-- A comma, or the end of the innermost container. -/
  | separator
  | key (members : List (List Nat × Tree))
  /-- A key, or the end of an object that has just begun. -/
  | keyOrEnd
  | colon (members : List (List Nat × Tree)) (key : List Nat)
  | nothing (root : Tree)

structure Builder where
  expecting : Expecting
  frames : List Frame

def Builder.start : Builder := ⟨.value, []⟩

/-- A finished value goes into the innermost open container; without one it is the document. -/
def Builder.place (value : Tree) : List Frame → Builder
  | [] => ⟨.nothing value, []⟩
  | .array items :: outer => ⟨.separator, .array (value :: items) :: outer⟩
  | .object members key :: outer => ⟨.separator, .object ((key, value) :: members) key :: outer⟩

def Builder.beginValue? (frames : List Frame) : Token → Option Builder
  | .null => some (place .null frames)
  | .bool b => some (place (.bool b) frames)
  | .number n => some (place (.number n) frames)
  | .text units => some (place (.text units) frames)
  | .beginArray => some ⟨.valueOrEnd, .array [] :: frames⟩
  | .beginObject => some ⟨.keyOrEnd, frames⟩
  | _ => none

def Builder.step? (b : Builder) (t : Token) : Option Builder :=
  match b.expecting, t with
  | .value, t => beginValue? b.frames t
  | .valueOrEnd, .endArray =>
    match b.frames with
    | .array items :: outer => some (place (.array items.reverse) outer)
    | _ => none
  | .valueOrEnd, t => beginValue? b.frames t
  | .separator, .comma =>
    match b.frames with
    | .array _ :: _ => some ⟨.value, b.frames⟩
    | .object members _ :: outer => some ⟨.key members, outer⟩
    | [] => none
  | .separator, .endArray =>
    match b.frames with
    | .array items :: outer => some (place (.array items.reverse) outer)
    | _ => none
  | .separator, .endObject =>
    match b.frames with
    | .object members _ :: outer => some (place (.object members.reverse) outer)
    | _ => none
  | .key members, .text key => some ⟨.colon members key, b.frames⟩
  | .keyOrEnd, .text key => some ⟨.colon [] key, b.frames⟩
  | .keyOrEnd, .endObject => some (place (.object []) b.frames)
  | .colon members key, .colon => some ⟨.value, .object members key :: b.frames⟩
  | _, _ => none

def Builder.run? : Builder → List Token → Option Builder
  | b, [] => some b
  | b, t :: rest =>
    match b.step? t with
    | some next => next.run? rest
    | none => none

/-- The tree of a token sequence that is exactly one document. -/
def ofTokens? (tokens : List Token) : Option Tree :=
  match Builder.start.run? tokens with
  | some ⟨.nothing root, _⟩ => some root
  | _ => none

/-- Reads a document; only blanks may stand around it. -/
def parse? (text : String) : Option Tree :=
  (Lexer.tokens? text.toList).bind ofTokens?

/-- Of members with one key only the last is kept. -/
def keepLast (members : List (List Nat × Tree)) : List (List Nat × Tree) :=
  match members with
  | [] => []
  | (key, t) :: rest =>
    if rest.any fun member => member.1 == key then keepLast rest else (key, t) :: keepLast rest

mutual

/-- The document without the members that a later member of the same key replaces. -/
def lastMembers : Tree → Tree
  | .array items => .array (lastMembersList items)
  | .object members => .object (keepLast (lastMembersPairs members))
  | t => t

def lastMembersList : List Tree → List Tree
  | [] => []
  | t :: rest => lastMembers t :: lastMembersList rest

def lastMembersPairs : List (List Nat × Tree) → List (List Nat × Tree)
  | [] => []
  | (key, t) :: rest => (key, lastMembers t) :: lastMembersPairs rest

end

end Tree

end ProducerPool.Json
