import ProducerPool.Json.Reader
import ProducerPool.Json.Writer

/-!
# How a document is cut into tokens

A piece of a document is cut into the same tokens wherever it stands between others.  Only a number or a
word needs to know what comes next: the mark after it ends it.
-/

set_option autoImplicit false

namespace ProducerPool.Json.Lexer

variable {cs cs' : List Char} {ts ts' : List Token} {c : Char} {t : Token} {s : State} {mode : Mode}
  {done base : List Token}

/-! ## Pieces -/

/-- The characters are cut into these tokens, and the lexer stands between tokens again. -/
def Cuts (cs : List Char) (ts : List Token) : Prop :=
  ∀ done, run? ⟨.between, done⟩ cs = some ⟨.between, ts.reverse ++ done⟩

/-- The characters are cut into these tokens, the last of which may have to be ended by what comes next. -/
def Scans (cs : List Char) (ts : List Token) : Prop :=
  ∀ done, ∃ s, run? ⟨.between, done⟩ cs = some s ∧ finishRun? s.mode s.done = some (ts.reverse ++ done)

theorem run?_append (s : State) (cs cs' : List Char) :
    run? s (cs ++ cs') = (run? s cs).bind fun s => run? s cs' := by
  induction cs generalizing s with
  | nil => rfl
  | cons c cs ih =>
    simp only [List.cons_append, run?]
    cases step? s c with
    | none => rfl
    | some next => exact ih next

theorem Cuts.append (first : Cuts cs ts) (second : Cuts cs' ts') : Cuts (cs ++ cs') (ts ++ ts') := by
  intro done
  rw [run?_append, first, Option.bind_some, second, List.reverse_append, List.append_assoc]

theorem Cuts.scans (first : Cuts cs ts) (second : Scans cs' ts') : Scans (cs ++ cs') (ts ++ ts') := by
  intro done
  obtain ⟨s, runs, ends⟩ := second (ts.reverse ++ done)
  refine ⟨s, ?_, ?_⟩
  · rw [run?_append, first, Option.bind_some, runs]
  · rw [ends, List.reverse_append, List.append_assoc]

theorem Scans.nil : Scans [] [] := fun _ => ⟨_, rfl, rfl⟩

theorem Cuts.toScans (cuts : Cuts cs ts) : Scans cs ts := fun done => ⟨_, cuts done, rfl⟩

/-! ## Marks -/

/-- The characters that are tokens by themselves. -/
inductive Mark : Char → Token → Prop
  | comma : Mark ',' .comma
  | colon : Mark ':' .colon
  | beginArray : Mark '[' .beginArray
  | endArray : Mark ']' .endArray
  | beginObject : Mark '\x7b' .beginObject
  | endObject : Mark '\x7d' .endObject

namespace Mark

theorem start? (mark : Mark c t) (done : List Token) : Lexer.start? done c = some ⟨.between, t :: done⟩ := by
  cases mark <;> rfl

/-- A mark ends a number or a word. -/
theorem step? (mark : Mark c t) (finished : finishRun? s.mode s.done = some done) :
    Lexer.step? s c = some ⟨.between, t :: done⟩ := by
  obtain ⟨mode, seen⟩ := s
  have alone : inNumber c = false ∧ inWord c = false := by cases mark <;> decide
  cases mode with
  | between =>
    obtain rfl := Option.some.inj finished
    exact mark.start? seen
  | number | word => simp [Lexer.step?, alone, finished, mark.start?]
  | text | escape | hex => cases finished

theorem cuts (mark : Mark c t) (scans : Scans cs ts) : Cuts (cs ++ [c]) (ts ++ [t]) := by
  intro done
  obtain ⟨s, runs, ends⟩ := scans done
  simp [run?_append, runs, run?, mark.step? ends]

theorem alone (mark : Mark c t) : Cuts [c] [t] := mark.cuts .nil

end Mark

/-! ## Whole documents -/

/-- What stands at the beginning of a token does not depend on those before it. -/
theorem start?_eq (done : List Token) (c : Char) :
    start? done c = (start? [] c).map fun s => ⟨s.mode, s.done ++ done⟩ := by
  simp only [start?, apply_ite (Option.map fun s : State => State.mk s.mode (s.done ++ done)),
    Option.map_some, Option.map_none, List.nil_append, List.cons_append]

theorem start?_append (starts : start? done c = some s) :
    start? (done ++ base) c = some ⟨s.mode, s.done ++ base⟩ := by
  rw [start?_eq] at starts ⊢
  obtain ⟨first, read, rfl⟩ := Option.map_eq_some_iff.mp starts
  simp [read]

theorem finishRun?_append {finished : List Token} (ends : finishRun? mode done = some finished) :
    finishRun? mode (done ++ base) = some (finished ++ base) := by
  cases mode with
  | between => rw [← Option.some.inj ends]; rfl
  | number | word =>
    obtain ⟨token, read, rfl⟩ := Option.map_eq_some_iff.mp ends
    simp [finishRun?, read]
  | text | escape | hex => cases ends

/-- The tokens that are finished already make no difference. -/
theorem step?_append (steps : step? ⟨mode, done⟩ c = some s) :
    step? ⟨mode, done ++ base⟩ c = some ⟨s.mode, s.done ++ base⟩ := by
  cases mode with
  | between => exact start?_append steps
  | number | word =>
    simp only [step?] at steps ⊢
    split at steps
    case isTrue inside =>
      obtain rfl := Option.some.inj steps
      rw [if_pos inside]
    case isFalse outside =>
      obtain ⟨finished, ends, starts⟩ := Option.bind_eq_some_iff.mp steps
      rw [if_neg outside, finishRun?_append ends, Option.bind_some]
      exact start?_append starts
  | text units =>
    simp only [step?] at steps ⊢
    split at steps
    case isTrue ends =>
      obtain rfl := Option.some.inj steps
      rw [if_pos ends]
      rfl
    case isFalse inside =>
    split at steps
    case isTrue slash =>
      obtain rfl := Option.some.inj steps
      rw [if_neg inside, if_pos slash]
    case isFalse plain =>
    split at steps
    case isTrue control => cases steps
    case isFalse printed =>
      obtain rfl := Option.some.inj steps
      rw [if_neg inside, if_neg plain, if_neg printed]
  | escape units =>
    simp only [step?] at steps ⊢
    split at steps
    · obtain rfl := Option.some.inj steps
      simp [*]
    · obtain ⟨unit, read, rfl⟩ := Option.map_eq_some_iff.mp steps
      simp [*]
  | hex units missing unit =>
    simp only [step?] at steps ⊢
    obtain ⟨digit, read, rfl⟩ := Option.map_eq_some_iff.mp steps
    rw [read]
    simp only [Option.map_some]
    split <;> rfl

theorem run?_frame (runs : run? ⟨mode, done⟩ cs = some s) :
    run? ⟨mode, done ++ base⟩ cs = some ⟨s.mode, s.done ++ base⟩ := by
  induction cs generalizing mode done with
  | nil =>
    obtain rfl := Option.some.inj runs
    rfl
  | cons c cs ih =>
    simp only [run?] at runs ⊢
    cases steps : step? ⟨mode, done⟩ c with
    | none =>
      rw [steps] at runs
      cases runs
    | some next =>
      rw [steps] at runs
      rw [step?_append steps]
      exact ih runs

theorem Scans.of_tokens? (tokens : tokens? cs = some ts) : Scans cs ts := by
  intro done
  obtain ⟨s, runs, rest⟩ := Option.bind_eq_some_iff.mp tokens
  obtain ⟨finished, ends, same⟩ := Option.bind_eq_some_iff.mp rest
  obtain rfl := Option.some.inj same
  refine ⟨⟨s.mode, s.done ++ done⟩, run?_frame runs, ?_⟩
  rw [finishRun?_append ends, List.reverse_reverse]

theorem Scans.tokens? (scans : Scans cs ts) : tokens? cs = some ts := by
  obtain ⟨s, runs, ends⟩ := scans []
  simp [Lexer.tokens?, runs, ends]

/-! ## Texts -/

theorem hexDigit?_hexDigit {d : Nat} (small : d < 16) : hexDigit? (hexDigit d) = some d := by
  have all : ∀ d : Fin 16, hexDigit? (hexDigit d) = some d.val := by decide
  exact all ⟨d, small⟩

/-- A character of a text is read as its code point, however it is written. -/
theorem run?_escapeChar (units : List Nat) (done : List Token) (c : Char) :
    run? ⟨.text units, done⟩ (escapeChar c) = some ⟨.text (c.toNat :: units), done⟩ := by
  have code {n : Nat} (same : c.toNat = n) : c = Char.ofNat n := by rw [← same, Char.ofNat_toNat]
  unfold escapeChar
  split
  case isTrue quoted => rw [quoted]; rfl
  case isFalse plain =>
  split
  case isTrue slash => rw [slash]; rfl
  case isFalse other =>
  split
  case isTrue same => rw [code same]; rfl
  split
  case isTrue same => rw [code same]; rfl
  split
  case isTrue same => rw [code same]; rfl
  split
  case isTrue same => rw [code same]; rfl
  split
  case isTrue same => rw [code same]; rfl
  split
  case isTrue control =>
    have high := hexDigit?_hexDigit (d := c.toNat / 16) (by omega)
    have low := hexDigit?_hexDigit (d := c.toNat % 16) (by omega)
    have whole : 16 * (c.toNat / 16) + c.toNat % 16 = c.toNat := Nat.div_add_mod ..
    have zero : hexDigit? '0' = some 0 := rfl
    simp [run?, step?, high, low, zero, whole]
  case isFalse printed =>
    simp [run?, step?, plain, other, printed]

theorem run?_escaped (chars : List Char) (units : List Nat) (done : List Token) :
    run? ⟨.text units, done⟩ (chars.flatMap escapeChar) =
      some ⟨.text ((chars.map Char.toNat).reverse ++ units), done⟩ := by
  induction chars generalizing units with
  | nil => rfl
  | cons c chars ih =>
    rw [List.flatMap_cons, run?_append, run?_escapeChar, Option.bind_some, ih]
    simp

theorem quote_cuts (s : String) : Cuts (quote s) [.text (s.toList.map Char.toNat)] := by
  intro done
  have opens : step? ⟨.between, done⟩ '"' = some ⟨.text [], done⟩ := rfl
  rw [quote, List.cons_append, run?, opens]
  dsimp only
  rw [run?_append, run?_escaped, Option.bind_some, List.append_nil]
  simp [run?, step?]

/-! ## Words and numbers -/

theorem null_scans : Scans ['n', 'u', 'l', 'l'] [.null] := fun _ => ⟨_, rfl, rfl⟩

theorem true_scans : Scans ['t', 'r', 'u', 'e'] [.bool true] := fun _ => ⟨_, rfl, rfl⟩

theorem false_scans : Scans ['f', 'a', 'l', 's', 'e'] [.bool false] := fun _ => ⟨_, rfl, rfl⟩

theorem run?_number (done : List Token) (seen : List Char) (inside : ∀ c ∈ cs, inNumber c = true) :
    run? ⟨.number seen, done⟩ cs = some ⟨.number (cs.reverse ++ seen), done⟩ := by
  induction cs generalizing seen with
  | nil => rfl
  | cons c cs ih =>
    have first := inside c List.mem_cons_self
    have rest := ih (c :: seen) fun d member => inside d (List.mem_cons_of_mem _ member)
    simp [run?, step?, first, rest]

end ProducerPool.Json.Lexer
