import ProducerPool.Proofs.Json.Lexing
import Mathlib.Data.List.Forall2

/-!
# How tokens are built into a tree

A piece of a document is read as the same tree wherever a value may stand: alone, in an array or in an
object.  So the parts of a container are read one by one, and together they are the container.
-/

set_option autoImplicit false

namespace ProducerPool.Json

/-- The parts of a container one after the other. -/
def joined {α : Type} (opening separator closing : α) : List (List α) → List α
  | [] => [opening, closing]
  | part :: parts => opening :: (part ++ (parts.flatMap (separator :: ·) ++ [closing]))

namespace Lexer

theorem separated_scans {cs : List Char} {ts : List Token} (first : Scans cs ts)
    {parts : List (List Char)} {tokens : List (List Token)} (each : List.Forall₂ Scans parts tokens) :
    Scans (cs ++ parts.flatMap (',' :: ·)) (ts ++ tokens.flatMap (.comma :: ·)) := by
  induction each generalizing cs ts with
  | nil => simpa using first
  | cons head _ ih => simpa using (Mark.comma.cuts first).scans (ih head)

theorem joined_cuts {opening closing : Char} {opens closes : Token} (first : Mark opening opens)
    (last : Mark closing closes) {parts : List (List Char)} {tokens : List (List Token)}
    (each : List.Forall₂ Scans parts tokens) :
    Cuts (joined opening ',' closing parts) (joined opens .comma closes tokens) := by
  cases each with
  | nil => exact first.alone.append last.alone
  | cons head tail => simpa [joined] using first.alone.append (last.cuts (separated_scans head tail))

end Lexer

namespace Tree

variable {ts : List Token} {t : Tree} {tok : Token} {frames base : List Frame}

/-! ## Values wherever they stand -/

/-- The tokens are built into the tree where a value is expected. -/
def Builds (ts : List Token) (t : Tree) : Prop :=
  ∀ frames, Builder.run? ⟨.value, frames⟩ ts = some (Builder.place t frames)

namespace Builder

theorem run?_append (b : Builder) (ts ts' : List Token) :
    b.run? (ts ++ ts') = (b.run? ts).bind fun b => b.run? ts' := by
  induction ts generalizing b with
  | nil => rfl
  | cons t ts ih =>
    simp only [List.cons_append, run?]
    cases b.step? t with
    | none => rfl
    | some next => exact ih next

/-- The builder with further containers open around it. -/
def under (base : List Frame) (b : Builder) : Builder :=
  match b.expecting with
  | .nothing root => place root base
  | expecting => ⟨expecting, b.frames ++ base⟩

theorem place_under (value : Tree) (frames base : List Frame) :
    place value (frames ++ base) = (place value frames).under base := by
  cases frames with
  | nil => rfl
  | cons frame frames => cases frame <;> rfl

theorem beginValue?_under {b : Builder} (begins : beginValue? frames tok = some b) :
    beginValue? (frames ++ base) tok = some (b.under base) := by
  cases tok with
  | null | bool | number | text =>
    obtain rfl := Option.some.inj begins
    simp only [beginValue?, place_under]
  | beginArray | beginObject =>
    obtain rfl := Option.some.inj begins
    rfl
  | _ => cases begins

/-- In an array that has just begun a value may begin like any other. -/
theorem step?_first (frames : List Frame) (other : tok ≠ .endArray) :
    step? ⟨.valueOrEnd, frames⟩ tok = beginValue? frames tok := by
  cases tok with
  | endArray => exact absurd rfl other
  | _ => rfl

/-- What a step can do. -/
inductive Steps : Builder → Token → Builder → Prop
  | value {frames : List Frame} {tok : Token} {next : Builder} (begins : beginValue? frames tok = some next) :
      Steps ⟨.value, frames⟩ tok next
  | first {frames : List Frame} {tok : Token} {next : Builder} (other : tok ≠ .endArray)
      (begins : beginValue? frames tok = some next) : Steps ⟨.valueOrEnd, frames⟩ tok next
  | noItem (items : List Tree) (outer : List Frame) :
      Steps ⟨.valueOrEnd, .array items :: outer⟩ .endArray (place (.array items.reverse) outer)
  | nextItem (items : List Tree) (outer : List Frame) :
      Steps ⟨.separator, .array items :: outer⟩ .comma ⟨.value, .array items :: outer⟩
  | nextMember (members : List (List Nat × Tree)) (key : List Nat) (outer : List Frame) :
      Steps ⟨.separator, .object members key :: outer⟩ .comma ⟨.key members, outer⟩
  | lastItem (items : List Tree) (outer : List Frame) :
      Steps ⟨.separator, .array items :: outer⟩ .endArray (place (.array items.reverse) outer)
  | lastMember (members : List (List Nat × Tree)) (key : List Nat) (outer : List Frame) :
      Steps ⟨.separator, .object members key :: outer⟩ .endObject (place (.object members.reverse) outer)
  | key (members : List (List Nat × Tree)) (units : List Nat) (frames : List Frame) :
      Steps ⟨.key members, frames⟩ (.text units) ⟨.colon members units, frames⟩
  | firstKey (units : List Nat) (frames : List Frame) :
      Steps ⟨.keyOrEnd, frames⟩ (.text units) ⟨.colon [] units, frames⟩
  | noMember (frames : List Frame) : Steps ⟨.keyOrEnd, frames⟩ .endObject (place (.object []) frames)
  | colon (members : List (List Nat × Tree)) (key : List Nat) (frames : List Frame) :
      Steps ⟨.colon members key, frames⟩ .colon ⟨.value, .object members key :: frames⟩

theorem steps_of_step? {b next : Builder} (steps : b.step? tok = some next) : Steps b tok next := by
  obtain ⟨expecting, frames⟩ := b
  cases expecting with
  | nothing root => cases tok <;> cases steps
  | value => exact .value steps
  | valueOrEnd =>
    by_cases ends : tok = .endArray
    · subst ends
      rcases frames with - | ⟨items | members⟩
      case cons.array outer =>
        obtain rfl := Option.some.inj steps
        exact .noItem items outer
      all_goals cases steps
    · rw [step?_first frames ends] at steps
      exact .first ends steps
  | separator =>
    rcases frames with - | ⟨items | ⟨members, key⟩, outer⟩
    · cases tok <;> cases steps
    · cases tok with
      | comma =>
        obtain rfl := Option.some.inj steps
        exact .nextItem items outer
      | endArray =>
        obtain rfl := Option.some.inj steps
        exact .lastItem items outer
      | _ => cases steps
    · cases tok with
      | comma =>
        obtain rfl := Option.some.inj steps
        exact .nextMember members key outer
      | endObject =>
        obtain rfl := Option.some.inj steps
        exact .lastMember members key outer
      | _ => cases steps
  | key members =>
    cases tok with
    | text units =>
      obtain rfl := Option.some.inj steps
      exact .key members units frames
    | _ => cases steps
  | keyOrEnd =>
    cases tok with
    | text units =>
      obtain rfl := Option.some.inj steps
      exact .firstKey units frames
    | endObject =>
      obtain rfl := Option.some.inj steps
      exact .noMember frames
    | _ => cases steps
  | colon members key =>
    cases tok with
    | colon =>
      obtain rfl := Option.some.inj steps
      exact .colon members key frames
    | _ => cases steps

theorem step?_under {b next : Builder} (steps : b.step? tok = some next) :
    (b.under base).step? tok = some (next.under base) := by
  cases steps_of_step? steps with
  | value begins => exact beginValue?_under begins
  | first other begins => exact (step?_first _ other).trans (beginValue?_under begins)
  | noItem | lastItem | lastMember | noMember => exact congrArg some (place_under ..)
  | nextItem | nextMember | key | firstKey | colon => rfl

theorem run?_under {b last : Builder} (runs : b.run? ts = some last) :
    (b.under base).run? ts = some (last.under base) := by
  induction ts generalizing b with
  | nil =>
    obtain rfl := Option.some.inj runs
    rfl
  | cons tok ts ih =>
    simp only [run?] at runs ⊢
    cases steps : b.step? tok with
    | none =>
      rw [steps] at runs
      cases runs
    | some next =>
      rw [steps] at runs
      rw [step?_under steps]
      exact ih runs

end Builder

theorem Builds.of_ofTokens? (built : ofTokens? ts = some t) : Builds ts t := by
  intro frames
  unfold ofTokens? at built
  split at built
  case h_1 root _ runs =>
    obtain rfl := Option.some.inj built
    exact Builder.run?_under runs
  case h_2 => cases built

theorem Builds.ofTokens? (builds : Builds ts t) : ofTokens? ts = some t := by
  simp only [Tree.ofTokens?, Builder.start, builds []]
  rfl

/-- In an array that has just begun a value is read like any other. -/
theorem Builds.first (builds : Builds ts t) (frames : List Frame) :
    Builder.run? ⟨.valueOrEnd, frames⟩ ts = some (Builder.place t frames) := by
  have runs := builds frames
  cases ts with
  | nil =>
    have ends := congrArg Builder.expecting (Option.some.inj runs)
    rcases frames with - | ⟨items | members⟩ <;> cases ends
  | cons tok ts =>
    have other : tok ≠ .endArray := by
      rintro rfl
      cases runs
    rw [Builder.run?, Builder.step?_first frames other]
    exact runs

/-! ## Texts -/

/-- A container is open, or the whole document is one. -/
def Builder.Enclosed (b : Builder) : Prop :=
  match b.expecting with
  | .nothing root => ∀ units, root ≠ .text units
  | .value | .valueOrEnd | .separator => b.frames ≠ []
  | .key _ | .keyOrEnd | .colon .. => True

namespace Builder

theorem enclosed_place {value : Tree} (inside : frames = [] → ∀ units, value ≠ .text units) :
    (place value frames).Enclosed := by
  cases frames with
  | nil => exact inside rfl
  | cons frame frames => cases frame <;> exact List.cons_ne_nil _ _

theorem enclosed_beginValue? {b : Builder} (inside : frames ≠ [])
    (begins : beginValue? frames tok = some b) : b.Enclosed := by
  cases tok with
  | null | bool | number | text =>
    obtain rfl := Option.some.inj begins
    exact enclosed_place fun outside => absurd outside inside
  | beginArray =>
    obtain rfl := Option.some.inj begins
    exact List.cons_ne_nil _ _
  | beginObject =>
    obtain rfl := Option.some.inj begins
    trivial
  | _ => cases begins

theorem Enclosed.step? {b next : Builder} (enclosed : b.Enclosed) (steps : b.step? tok = some next) :
    next.Enclosed := by
  cases steps_of_step? steps with
  | value begins | first _ begins => exact enclosed_beginValue? enclosed begins
  | noItem | lastItem | lastMember | noMember => exact enclosed_place fun _ _ => Tree.noConfusion
  | nextItem | colon => exact List.cons_ne_nil _ _
  | nextMember | key | firstKey => trivial

theorem Enclosed.run? {b last : Builder} (enclosed : b.Enclosed) (runs : b.run? ts = some last) :
    last.Enclosed := by
  induction ts generalizing b with
  | nil =>
    obtain rfl := Option.some.inj runs
    exact enclosed
  | cons tok ts ih =>
    simp only [Builder.run?] at runs
    cases steps : b.step? tok with
    | none =>
      rw [steps] at runs
      cases runs
    | some next =>
      rw [steps] at runs
      exact ih (enclosed.step? steps) runs

/-- After a whole document nothing may follow. -/
theorem run?_nothing {root : Tree} {last : Builder} (runs : run? ⟨.nothing root, []⟩ ts = some last) :
    ts = [] ∧ last = ⟨.nothing root, []⟩ := by
  cases ts with
  | nil => exact ⟨rfl, (Option.some.inj runs).symm⟩
  | cons tok ts => cases tok <;> cases runs

end Builder

/-- Only a text is built into a text. -/
theorem Builds.text_inv {units : List Nat} (builds : Builds ts (.text units)) : ts = [.text units] := by
  have runs : Builder.run? ⟨.value, []⟩ ts = some ⟨.nothing (.text units), []⟩ := builds []
  cases ts with
  | nil => cases runs
  | cons tok ts =>
    cases tok with
    | text =>
      obtain ⟨rfl, same⟩ := Builder.run?_nothing runs
      cases same
      rfl
    | null | bool | number => cases (Builder.run?_nothing runs).2
    | beginArray =>
      have enclosed : Builder.Enclosed ⟨.valueOrEnd, [.array []]⟩ := List.cons_ne_nil _ _
      exact absurd rfl (enclosed.run? runs units)
    | beginObject =>
      have enclosed : Builder.Enclosed ⟨.keyOrEnd, []⟩ := trivial
      exact absurd rfl (enclosed.run? runs units)
    | _ => cases runs

/-! ## Containers -/

/-- The tokens are built into a member where a key is expected. -/
def BuildsMember (ts : List Token) (member : List Nat × Tree) : Prop :=
  ∀ members frames,
    Builder.run? ⟨.key members, frames⟩ ts =
      some ⟨.separator, .object (member :: members) member.1 :: frames⟩

theorem Builds.member (builds : Builds ts t) (units : List Nat) :
    BuildsMember (.text units :: .colon :: ts) (units, t) := fun members frames =>
  builds (.object members units :: frames)

/-- In an object that has just begun a member is read like any other. -/
theorem BuildsMember.first {member : List Nat × Tree} (builds : BuildsMember ts member)
    (frames : List Frame) :
    Builder.run? ⟨.keyOrEnd, frames⟩ ts = some ⟨.separator, .object [member] member.1 :: frames⟩ := by
  have runs := builds [] frames
  cases ts with
  | nil => cases Option.some.inj runs
  | cons tok ts =>
    cases tok with
    | text units => exact runs
    | _ => cases runs

theorem items_build {tokens : List (List Token)} {items : List Tree}
    (each : List.Forall₂ Builds tokens items) (before : List Tree) (frames : List Frame) :
    Builder.run? ⟨.separator, .array before :: frames⟩ (tokens.flatMap (.comma :: ·)) =
      some ⟨.separator, .array (items.reverse ++ before) :: frames⟩ := by
  induction each generalizing before with
  | nil => rfl
  | @cons ts t _ _ head _ ih =>
    have next := head (.array before :: frames)
    rw [List.flatMap_cons, Builder.run?_append]
    have comma : Builder.run? ⟨.separator, .array before :: frames⟩ (.comma :: ts) =
        some ⟨.separator, .array (t :: before) :: frames⟩ := next
    rw [comma, Option.bind_some, ih]
    simp

theorem members_build {tokens : List (List Token)} {members : List (List Nat × Tree)}
    (each : List.Forall₂ BuildsMember tokens members) (before : List (List Nat × Tree))
    (key : List Nat) (frames : List Frame) :
    ∃ last, Builder.run? ⟨.separator, .object before key :: frames⟩ (tokens.flatMap (.comma :: ·)) =
      some ⟨.separator, .object (members.reverse ++ before) last :: frames⟩ := by
  induction each generalizing before key with
  | nil => exact ⟨key, rfl⟩
  | @cons ts member _ _ head _ ih =>
    have comma : Builder.run? ⟨.separator, .object before key :: frames⟩ (.comma :: ts) =
        some ⟨.separator, .object (member :: before) member.1 :: frames⟩ := head before frames
    obtain ⟨last, rest⟩ := ih (member :: before) member.1
    refine ⟨last, ?_⟩
    rw [List.flatMap_cons, Builder.run?_append, comma, Option.bind_some, rest]
    simp

theorem array_builds {tokens : List (List Token)} {items : List Tree}
    (each : List.Forall₂ Builds tokens items) :
    Builds (joined .beginArray .comma .endArray tokens) (.array items) := by
  intro frames
  cases each with
  | nil => rfl
  | @cons ts t tokens items head tail =>
    have first : Builder.run? ⟨.value, frames⟩ (.beginArray :: ts) =
        some ⟨.separator, .array [t] :: frames⟩ := head.first (.array [] :: frames)
    have rest := items_build tail [t] frames
    rw [joined, ← List.cons_append, Builder.run?_append, first, Option.bind_some,
      Builder.run?_append, rest, Option.bind_some]
    simp [Builder.run?, Builder.step?]

theorem object_builds {tokens : List (List Token)} {members : List (List Nat × Tree)}
    (each : List.Forall₂ BuildsMember tokens members) :
    Builds (joined .beginObject .comma .endObject tokens) (.object members) := by
  intro frames
  cases each with
  | nil => rfl
  | @cons ts member tokens members head tail =>
    have first : Builder.run? ⟨.value, frames⟩ (.beginObject :: ts) =
        some ⟨.separator, .object [member] member.1 :: frames⟩ := head.first frames
    obtain ⟨last, rest⟩ := members_build tail [member] member.1 frames
    rw [joined, ← List.cons_append, Builder.run?_append, first, Option.bind_some,
      Builder.run?_append, rest, Option.bind_some]
    simp [Builder.run?, Builder.step?]

end Tree

/-! ## Texts of trees -/

/-- The text of a value, which is read as the tree wherever it stands. -/
def Reads (cs : List Char) (t : Tree) : Prop :=
  ∃ ts, Lexer.Scans cs ts ∧ Tree.Builds ts t

/-- The text of a member of an object. -/
inductive ReadsMember : List Char → List Nat × Tree → Prop
  | mk {key value : List Char} {units : List Nat} {t : Tree} (named : Lexer.Scans key [.text units])
      (reads : Reads value t) : ReadsMember (key ++ ':' :: value) (units, t)

namespace Reads

variable {cs : List Char} {t : Tree}

theorem of_tree (read : (Lexer.tokens? cs).bind Tree.ofTokens? = some t) : Reads cs t := by
  obtain ⟨ts, cut, built⟩ := Option.bind_eq_some_iff.mp read
  exact ⟨ts, .of_tokens? cut, .of_ofTokens? built⟩

theorem tree (reads : Reads cs t) : (Lexer.tokens? cs).bind Tree.ofTokens? = some t := by
  obtain ⟨ts, scans, builds⟩ := reads
  rw [scans.tokens?, Option.bind_some, builds.ofTokens?]

theorem array {parts : List (List Char)} {items : List Tree} (each : List.Forall₂ Reads parts items) :
    Reads (joined '[' ',' ']' parts) (.array items) := by
  have tokens : ∃ tokens, List.Forall₂ Lexer.Scans parts tokens ∧ List.Forall₂ Tree.Builds tokens items := by
    induction each with
    | nil => exact ⟨[], .nil, .nil⟩
    | cons head _ ih =>
      obtain ⟨ts, scans, builds⟩ := head
      obtain ⟨tokens, scan, build⟩ := ih
      exact ⟨ts :: tokens, .cons scans scan, .cons builds build⟩
  obtain ⟨tokens, scan, build⟩ := tokens
  exact ⟨_, (Lexer.joined_cuts .beginArray .endArray scan).toScans, Tree.array_builds build⟩

theorem object {parts : List (List Char)} {members : List (List Nat × Tree)}
    (each : List.Forall₂ ReadsMember parts members) :
    Reads (joined '\x7b' ',' '\x7d' parts) (.object members) := by
  have tokens : ∃ tokens, List.Forall₂ Lexer.Scans parts tokens ∧
      List.Forall₂ Tree.BuildsMember tokens members := by
    induction each with
    | nil => exact ⟨[], .nil, .nil⟩
    | cons head _ ih =>
      obtain ⟨named, ts, scans, builds⟩ := head
      obtain ⟨tokens, scan, build⟩ := ih
      refine ⟨_ :: tokens, .cons ?_ scan, .cons (builds.member _) build⟩
      simpa using (Lexer.Mark.colon.cuts named).scans scans
  obtain ⟨tokens, scan, build⟩ := tokens
  exact ⟨_, (Lexer.joined_cuts .beginObject .endObject scan).toScans, Tree.object_builds build⟩

end Reads

end ProducerPool.Json
