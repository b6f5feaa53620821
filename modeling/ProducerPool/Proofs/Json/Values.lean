import ProducerPool.Proofs.Json.Building
import Mathlib.Tactic.IntervalCases

/-!
# Values are read as they are written

Texts, whole numbers and constants are read as trees that have the same value again, and a container is
written as its parts.
-/

set_option autoImplicit false

namespace ProducerPool.Json

variable {n : Nat} {c : Char}

/-! ## Texts -/

theorem not_surrogate (c : Char) :
    isHighSurrogate c.toNat = false ∧ isLowSurrogate c.toNat = false := by
  have valid : c.toNat < 0xD800 ∨ 0xDFFF < c.toNat ∧ c.toNat < 0x110000 := c.valid
  simp only [isHighSurrogate, isLowSurrogate, Bool.and_eq_false_iff, decide_eq_false_iff_not]
  omega

/-- Code points of characters stand for those characters. -/
theorem chars?_toNat (cs : List Char) : chars? (cs.map Char.toNat) = some cs := by
  induction cs with
  | nil => rfl
  | cons c cs ih =>
    have plain := not_surrogate c
    cases cs with
    | nil => simp [chars?, plain, Char.ofNat_toNat]
    | cons next rest =>
      rw [List.map_cons] at ih
      simp [chars?, plain, ih, Char.ofNat_toNat]

theorem textOf?_units (s : String) : textOf? (s.toList.map Char.toNat) = some s := by
  rw [textOf?, chars?_toNat, Option.map_some, String.ofList_toList]

/-! ## Whole numbers -/

/-- The value of a digit. -/
def digitValue (c : Char) : Nat := c.toNat - 48

theorem isDigit_digitsOf (member : c ∈ digitsOf n) : c.isDigit = true :=
  Nat.isDigit_of_mem_toDigits (by decide) (by decide) member

theorem toNat_of_isDigit (digit : c.isDigit = true) : 48 ≤ c.toNat ∧ c.toNat ≤ 57 := by
  simp only [Char.isDigit, Bool.and_eq_true, decide_eq_true_eq] at digit
  exact digit

theorem digit?_of_isDigit (digit : c.isDigit = true) : Numeral.digit? c = some (digitValue c) := by
  obtain ⟨low, high⟩ := toNat_of_isDigit digit
  exact if_pos ⟨low, high⟩

theorem takeDigits_of_isDigit {cs : List Char} (digits : ∀ c ∈ cs, c.isDigit = true) :
    Numeral.takeDigits cs = (cs.map digitValue, []) := by
  induction cs with
  | nil => rfl
  | cons c cs ih =>
    have first := digit?_of_isDigit (digits c List.mem_cons_self)
    have rest := ih fun d member => digits d (List.mem_cons_of_mem _ member)
    simp [Numeral.takeDigits, first, rest]

/-- The number zero apart, no number begins with a zero. -/
theorem digitsOf_cons (positive : 0 < n) : ∃ c cs, digitsOf n = c :: cs ∧ digitValue c ≠ 0 := by
  induction n using Nat.strong_induction_on with
  | _ n ih =>
    rcases Nat.lt_or_ge n 10 with small | large
    · refine ⟨n.digitChar, [], Nat.toDigits_of_lt_base small, ?_⟩
      interval_cases n <;> decide
    · obtain ⟨c, cs, digits, nonzero⟩ := ih (n / 10) (by omega) (by omega)
      refine ⟨c, cs ++ [(n % 10).digitChar], ?_, nonzero⟩
      rw [digitsOf, Nat.toDigits_of_base_le (by decide) large, ← digitsOf, digits, List.cons_append]

theorem leadingDigits?_digitsOf (n : Nat) :
    Numeral.leadingDigits? (digitsOf n) = some ((digitsOf n).map digitValue, []) := by
  rcases Nat.eq_zero_or_pos n with rfl | positive
  · rfl
  · have taken := takeDigits_of_isDigit fun c => isDigit_digitsOf (n := n)
    obtain ⟨c, cs, digits, nonzero⟩ := digitsOf_cons positive
    rw [digits] at taken ⊢
    unfold Numeral.leadingDigits?
    rw [taken]
    split
    case h_1 _ none => cases none
    case h_2 _ zero =>
      have first := (Prod.mk.inj zero).1
      exact absurd (List.cons.inj first).1 nonzero
    case h_3 _ same => rw [← same]

theorem ofDigits_digitsOf (n : Nat) : ofDigits ((digitsOf n).map digitValue) = n := by
  have whole : Nat.ofDigitChars 10 (digitsOf n) 0 = n := Nat.ofDigitChars_toDigits (by decide) (by decide)
  simp only [Nat.ofDigitChars, Nat.mul_comm 10] at whole
  rw [ofDigits, List.foldl_map]
  exact whole

/-- The numeral that a whole number is written as. -/
def numeralOf (n : Int) : Numeral := ⟨decide (n < 0), (digitsOf n.natAbs).map digitValue, [], none⟩

theorem ofChars?_wholeChars (n : Int) : Numeral.ofChars? (wholeChars n) = some (numeralOf n) := by
  have leading := leadingDigits?_digitsOf n.natAbs
  unfold wholeChars numeralOf
  split
  case isTrue negative => simp [Numeral.ofChars?, leading, negative, Numeral.exponent?]
  case isFalse positive =>
    have unsigned : ∀ rest, digitsOf n.natAbs ≠ '-' :: rest := by
      intro rest signed
      have digit := isDigit_digitsOf (signed ▸ List.mem_cons_self : '-' ∈ digitsOf n.natAbs)
      cases digit
    unfold Numeral.ofChars?
    split
    rename_i split
    split at split
    · rename_i rest signed
      exact absurd signed (unsigned rest)
    · obtain ⟨rfl, rfl⟩ := Prod.mk.inj split
      simp [leading, positive, Numeral.exponent?]

/-- A run of digits begins at a digit. -/
theorem start?_digit (done : List Token) (digit : c.isDigit = true) :
    Lexer.start? done c = some ⟨.number [c], done⟩ := by
  obtain ⟨low, high⟩ := toNat_of_isDigit digit
  rw [← Char.ofNat_toNat c]
  generalize c.toNat = code at low high
  interval_cases code <;> rfl

theorem inNumber_of_isDigit (digit : c.isDigit = true) : Lexer.inNumber c = true := by
  simp [Lexer.inNumber, digit?_of_isDigit digit]

theorem wholeChars_scans (n : Int) : Lexer.Scans (wholeChars n) [.number (numeralOf n)] := by
  have finished (done : List Token) :
      Lexer.finishRun? (.number (wholeChars n).reverse) done = some (.number (numeralOf n) :: done) := by
    simp [Lexer.finishRun?, ofChars?_wholeChars]
  obtain ⟨c, cs, written, begins, inside⟩ : ∃ c cs, wholeChars n = c :: cs ∧
      (∀ done, Lexer.start? done c = some ⟨.number [c], done⟩) ∧
        ∀ d ∈ cs, Lexer.inNumber d = true := by
    unfold wholeChars
    split
    case isTrue =>
      exact ⟨'-', _, rfl, fun _ => rfl, fun d member => inNumber_of_isDigit (isDigit_digitsOf member)⟩
    case isFalse =>
      have digits : ∀ d ∈ digitsOf n.natAbs, d.isDigit = true := fun d => isDigit_digitsOf
      cases written : digitsOf n.natAbs with
      | nil => exact absurd written Nat.toDigits_ne_nil
      | cons c cs =>
        rw [written] at digits
        exact ⟨c, cs, rfl, fun done => start?_digit done (digits c List.mem_cons_self),
          fun d member => inNumber_of_isDigit (digits d (List.mem_cons_of_mem _ member))⟩
  intro done
  have runs := Lexer.run?_number done [c] inside
  refine ⟨⟨.number (wholeChars n).reverse, done⟩, ?_, finished done⟩
  simp [written, Lexer.run?, Lexer.step?, begins, runs]

theorem value?_numeralOf (n : Whole) : (numeralOf n.value).value? = some (.whole n) := by
  have whole := ofDigits_digitsOf n.value.natAbs
  have signed : (if n.value < 0 then -(n.value.natAbs : Int) else n.value.natAbs) = n.value := by
    split <;> omega
  have fits : Whole.ofInt? n.value = some n := dif_pos ⟨n.lower, n.upper⟩
  have nonzero : ¬(n.value < 0 ∧ n.value.natAbs = 0) := by omega
  simp only [Numeral.value?, numeralOf, whole, decide_eq_true_eq]
  rw [if_neg nonzero, signed, fits]

theorem whole_reads (n : Whole) : Reads (chars (.whole n)) (.number (numeralOf n.value)) := by
  rw [chars]
  exact ⟨[.number (numeralOf n.value)], wholeChars_scans n.value, fun _ => rfl⟩

theorem text_reads (s : String) : Reads (chars (.text s)) (.text (s.toList.map Char.toNat)) := by
  rw [chars]
  exact ⟨[.text (s.toList.map Char.toNat)], (Lexer.quote_cuts s).toScans, fun _ => rfl⟩

theorem null_reads : Reads (chars .null) .null := by
  rw [chars]
  exact ⟨[.null], Lexer.null_scans, fun _ => rfl⟩

theorem bool_reads (b : Bool) : Reads (chars (.bool b)) (.bool b) := by
  refine ⟨[.bool b], ?_, fun _ => rfl⟩
  cases b with
  | true => simpa only [chars] using Lexer.true_scans
  | false => simpa only [chars] using Lexer.false_scans

/-! ## Containers -/

/-- The text of a member. -/
def memberText (member : String × Json) : List Char := quote member.1 ++ ':' :: member.2.chars

theorem itemChars_eq (items : List Json) :
    itemChars items = (items.map chars).flatMap (',' :: ·) ++ [']'] := by
  induction items with
  | nil => rfl
  | cons item items ih => simp [itemChars, ih]

theorem memberChars_eq (members : List (String × Json)) :
    memberChars members = (members.map memberText).flatMap (',' :: ·) ++ ['\x7d'] := by
  induction members with
  | nil => rfl
  | cons member members ih => simp [memberChars, memberText, ih]

theorem chars_array (items : List Json) : chars (.array items) = joined '[' ',' ']' (items.map chars) := by
  cases items with
  | nil => rfl
  | cons item items => simp [chars, joined, itemChars_eq]

theorem chars_object (members : List (String × Json)) :
    chars (.object members) = joined '\x7b' ',' '\x7d' (members.map memberText) := by
  cases members with
  | nil => rfl
  | cons member members => simp [chars, joined, memberText, memberChars_eq]

end ProducerPool.Json
