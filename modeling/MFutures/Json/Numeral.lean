import Mathlib.Tactic.NormNum
import MFutures.Json.Reader

namespace MFutures.Json

/-- A run of digits. -/
def Digits (s : List Char) : Prop := ∀ c ∈ s, c.isDigit

/-- A text that goes on with no digit. -/
def NoDigit (s : List Char) : Prop := ∀ c ∈ s.head?, ¬c.isDigit

theorem Digits.takeWhile {digits rest : List Char} (all : Digits digits) (stop : NoDigit rest) :
    (digits ++ rest).takeWhile Char.isDigit = digits := by
  rw [List.takeWhile_append_of_pos all]
  cases rest with
  | nil => exact List.append_nil _
  | cons c rest => rw [List.takeWhile_cons_of_neg (stop c rfl), List.append_nil]

theorem Digits.dropWhile {digits rest : List Char} (all : Digits digits) (stop : NoDigit rest) :
    (digits ++ rest).dropWhile Char.isDigit = rest := by
  rw [List.dropWhile_append_of_pos all]
  cases rest with
  | nil => rfl
  | cons c rest => rw [List.dropWhile_cons_of_neg (stop c rfl)]

theorem Digits.nil : Digits [] := List.forall_mem_nil _

theorem Digits.append {a b : List Char} (first : Digits a) (second : Digits b) : Digits (a ++ b) :=
  fun c mem => (List.mem_append.mp mem).elim (first c) (second c)

/-- An exponent: its letter, its sign if it has one, and its digits. -/
structure Exponent where
  upper : Bool
  sign : Option Bool
  digits : List Char
  all_digits : Digits digits
  nonempty : digits ≠ []

def Exponent.text (e : Exponent) : List Char :=
  (if e.upper then 'E' else 'e') :: match e.sign with
    | none => e.digits
    | some true => '-' :: e.digits
    | some false => '+' :: e.digits

def Exponent.value (e : Exponent) : Int :=
  if e.sign = some true then -(Nat.ofDigitChars 10 e.digits 0 : Int) else Nat.ofDigitChars 10 e.digits 0

/-- A number as it is written in JSON: a sign, digits, a fraction and an exponent.
The fraction without digits is the one that is left out. -/
structure Numeral where
  negative : Bool
  int : List Char
  frac : List Char
  exponent : Option Exponent
  int_digits : Digits int
  int_nonempty : int ≠ []
  frac_digits : Digits frac

namespace Numeral
variable (n : Numeral)

def fracText : List Char := if n.frac = [] then [] else '.' :: n.frac

def exponentText : List Char :=
  match n.exponent with
  | none => []
  | some e => e.text

/-- The text after the sign. -/
def unsigned : List Char := n.int ++ (n.fracText ++ n.exponentText)

def text : List Char := if n.negative then '-' :: n.unsigned else n.unsigned

def mantissa : Nat := Nat.ofDigitChars 10 (n.int ++ n.frac) 0

def scale : Int := (n.exponent.elim 0 Exponent.value) - n.frac.length

def magnitude : ℚ := n.mantissa * 10 ^ n.scale

def value : ℚ := if n.negative then -n.magnitude else n.magnitude

end Numeral

/-- A text that goes on with nothing that could belong to a number. -/
def NoNumber (s : List Char) : Prop := ∀ c ∈ s.head?, ¬c.isDigit ∧ c ≠ '.' ∧ c ≠ 'e' ∧ c ≠ 'E'

theorem NoNumber.noDigit {s : List Char} (stop : NoNumber s) : NoDigit s := fun c mem => (stop c mem).1

theorem NoNumber.nil : NoNumber [] := fun _ mem => (Option.not_mem_none _ mem).elim

theorem NoNumber.cons {c : Char} {s : List Char} (stop : ¬c.isDigit ∧ c ≠ '.' ∧ c ≠ 'e' ∧ c ≠ 'E') : NoNumber (c :: s) := by
  rintro _ ⟨⟩
  exact stop

section scanning
variable {n : Numeral} {rest : List Char}

theorem Exponent.noDigit (e : Exponent) (rest : List Char) : NoDigit (e.text ++ rest) := by
  unfold Exponent.text
  rintro c ⟨⟩
  split <;> decide

theorem readSign_digits {digits : List Char} (all : Digits digits) (nonempty : digits ≠ []) (rest : List Char) :
    readSign (digits ++ rest) = (false, digits ++ rest) := by
  obtain ⟨c, digits, rfl⟩ := List.exists_cons_of_ne_nil nonempty
  have digit := all c List.mem_cons_self
  unfold readSign
  split
  · rename_i same
    rw [(List.cons.inj same).1] at digit
    exact absurd digit (by decide)
  · rename_i same
    rw [(List.cons.inj same).1] at digit
    exact absurd digit (by decide)
  · rfl

/-- What the sign of an exponent is read as. -/
theorem readSign_exponent (e : Exponent) (rest : List Char) :
    readSign (e.text ++ rest).tail = (decide (e.sign = some true), e.digits ++ rest) := by
  obtain ⟨upper, sign, digits, all, nonempty⟩ := e
  rcases sign with _ | _ | _
  · exact readSign_digits all nonempty rest
  · rfl
  · rfl

theorem skipExponent_text (e : Exponent) (stop : NoDigit rest) : skipExponent (e.text ++ rest) = rest := by
  have sign := readSign_exponent e rest
  have digits := e.all_digits.dropWhile stop
  unfold Exponent.text at sign ⊢
  rw [List.cons_append, List.tail_cons] at sign
  rw [List.cons_append, skipExponent, sign, if_pos (by cases e.upper <;> simp)]
  exact digits

theorem readExponent_text (e : Exponent) (stop : NoDigit rest) :
    readExponent (e.text ++ rest).tail = some e.value := by
  unfold readExponent Exponent.value
  rw [readSign_exponent]
  simp only [e.all_digits.takeWhile stop, List.isEmpty_eq_false_iff.mpr e.nonempty, Bool.false_eq_true, if_false,
    decide_eq_true_eq]

theorem Numeral.exponentText_noDigit (n : Numeral) (stop : NoDigit rest) : NoDigit (n.exponentText ++ rest) := by
  unfold Numeral.exponentText
  split
  · exact stop
  · exact Exponent.noDigit _ _

theorem Numeral.fracText_noDigit (n : Numeral) (stop : NoDigit rest) :
    NoDigit (n.fracText ++ (n.exponentText ++ rest)) := by
  unfold Numeral.fracText
  split
  · exact n.exponentText_noDigit stop
  · rintro c ⟨⟩
    decide

theorem skipFraction_none {s : List Char} (other : ∀ c ∈ s.head?, c ≠ '.') : skipFraction s = s := by
  unfold skipFraction
  split
  · exact absurd rfl (other '.' rfl)
  · rfl

theorem Numeral.exponentText_noPoint (n : Numeral) (stop : NoNumber rest) :
    ∀ c ∈ (n.exponentText ++ rest).head?, c ≠ '.' := by
  unfold Numeral.exponentText
  split
  · exact fun c mem => (stop c mem).2.1
  · unfold Exponent.text
    rintro c ⟨⟩
    split <;> decide

theorem skipFraction_text (n : Numeral) (stop : NoNumber rest) :
    skipFraction (n.fracText ++ (n.exponentText ++ rest)) = n.exponentText ++ rest := by
  unfold Numeral.fracText
  split
  · exact skipFraction_none (n.exponentText_noPoint stop)
  · exact n.frac_digits.dropWhile (n.exponentText_noDigit stop.noDigit)

theorem skipExponent_none {s : List Char} (stop : NoNumber s) : skipExponent s = s := by
  unfold skipExponent
  split
  · rfl
  · rename_i c rest
    have other := stop c rfl
    rw [if_neg (not_or.mpr other.2.2)]

theorem skipExponent_exponentText (n : Numeral) (stop : NoNumber rest) :
    skipExponent (n.exponentText ++ rest) = rest := by
  unfold Numeral.exponentText
  split
  · exact skipExponent_none stop
  · exact skipExponent_text _ stop.noDigit

theorem readNumber_digits (n : Numeral) {digits : List Char} (all : Digits digits) (stop : NoNumber rest) :
    readNumber (digits ++ (n.fracText ++ (n.exponentText ++ rest))) = rest := by
  rw [readNumber, all.dropWhile (n.fracText_noDigit stop.noDigit), skipFraction_text n stop,
    skipExponent_exponentText n stop]

/-- The scanner of numbers stops at the end of a number. -/
theorem readNumber_text (n : Numeral) (stop : NoNumber rest) : readNumber (n.text ++ rest).tail = rest := by
  unfold Numeral.text Numeral.unsigned
  split
  · rw [List.cons_append, List.tail_cons, List.append_assoc, List.append_assoc]
    exact readNumber_digits n n.int_digits stop
  · obtain ⟨c, digits, int⟩ := List.exists_cons_of_ne_nil n.int_nonempty
    rw [int, List.append_assoc, List.append_assoc, List.cons_append, List.tail_cons]
    exact readNumber_digits n (fun d mem => n.int_digits d (int ▸ List.mem_cons_of_mem c mem)) stop

end scanning

section reading

theorem readFraction_none {s : List Char} (other : ∀ c ∈ s.head?, c ≠ '.') : readFraction s = ([], s) := by
  unfold readFraction
  split
  · exact absurd rfl (other '.' rfl)
  · rfl

theorem readFraction_text (n : Numeral) : readFraction (n.fracText ++ n.exponentText) = (n.frac, n.exponentText) := by
  have noPoint := n.exponentText_noPoint NoNumber.nil
  have noDigit := n.exponentText_noDigit NoNumber.nil.noDigit
  rw [List.append_nil] at noPoint noDigit
  unfold Numeral.fracText
  split
  · rename_i none
    rw [none]
    exact readFraction_none noPoint
  · simp only [List.cons_append, readFraction, n.frac_digits.takeWhile noDigit, n.frac_digits.dropWhile noDigit]

theorem readScale_text (n : Numeral) : readScale n.exponentText = some (n.exponent.elim 0 Exponent.value) := by
  unfold Numeral.exponentText
  split
  · rename_i none
    rw [none]
    rfl
  · rename_i e some
    have read := readExponent_text e NoNumber.nil.noDigit
    rw [List.append_nil] at read
    rw [some, Option.elim_some, ← read]
    unfold readScale Exponent.text
    exact if_pos (by cases e.upper <;> simp)

theorem readUnsigned_text (n : Numeral) : readUnsigned n.unsigned = some n.magnitude := by
  have stop := n.fracText_noDigit NoNumber.nil.noDigit
  rw [List.append_nil] at stop
  have some_digits : (n.int ++ n.frac).isEmpty = false :=
    List.isEmpty_eq_false_iff.mpr fun none => n.int_nonempty (List.append_eq_nil_iff.mp none).1
  unfold readUnsigned Numeral.unsigned
  simp only [n.int_digits.takeWhile stop, n.int_digits.dropWhile stop, readFraction_text, some_digits,
    Bool.false_eq_true, if_false, readScale_text, Option.map_some]
  rfl

/-- The text of a number is read as the number. -/
theorem readDecimal_text (n : Numeral) : readDecimal n.text = some (n.negative, n.magnitude) := by
  unfold Numeral.text
  split
  · rename_i negative
    rw [readDecimal, readUnsigned_text, Option.map_some, negative]
  · rename_i positive
    rw [Bool.eq_false_of_not_eq_true positive]
    unfold readDecimal
    split
    · rename_i same
      obtain ⟨c, digits, int⟩ := List.exists_cons_of_ne_nil n.int_nonempty
      have digit := n.int_digits c (int ▸ List.mem_cons_self)
      rw [Numeral.unsigned, int, List.cons_append] at same
      rw [(List.cons.inj same).1] at digit
      exact absurd digit (by decide)
    · rw [readUnsigned_text, Option.map_some]

end reading

section integers

theorem isDigit_value {c : Char} (digit : c.isDigit) : c.toNat - '0'.toNat ≤ 9 := by
  rw [Char.isDigit_iff_toNat] at digit
  have zero : '0'.toNat = 48 := rfl
  have nine : '9'.toNat = 57 := rfl
  omega

/-- More digits make no smaller number. -/
theorem le_ofDigitChars (digits : List Char) (value : Nat) :
    10 ^ digits.length * value ≤ Nat.ofDigitChars 10 digits value := by
  rw [Nat.ofDigitChars_eq_ofDigitChars_zero]
  exact Nat.le_add_right _ _

theorem lt_ofDigitChars {digits : List Char} {value limit : Nat} (passed : limit < value) :
    limit < Nat.ofDigitChars 10 digits value := by
  have grown := le_ofDigitChars digits value
  have one : 1 * value ≤ 10 ^ digits.length * value := Nat.mul_le_mul_right _ (Nat.one_le_pow _ _ (by decide))
  omega

/-- The loop finds out before its accumulator wraps around: it has a result exactly
where the number is not over the limit. -/
theorem decodeInteger_digits {limit : Nat} (wide : 10 ≤ limit) (fits : limit < 2 ^ 64) {digits : List Char}
    (all : Digits digits) {value : Nat} (below : value ≤ limit) :
    decodeInteger limit value digits =
      if Nat.ofDigitChars 10 digits value ≤ limit then some (Nat.ofDigitChars 10 digits value) else none := by
  induction digits generalizing value with
  | nil => rw [decodeInteger, Nat.ofDigitChars_nil, if_pos below]
  | cons c digits ih =>
    have digit := all c List.mem_cons_self
    have small := isDigit_value digit
    rw [decodeInteger, if_pos digit, Nat.ofDigitChars_cons, Nat.mul_comm 10 value]
    generalize c.toNat - '0'.toNat = d at small ⊢
    dsimp only
    split
    · rename_i stop
      refine (if_neg (Nat.not_le.mpr ?_)).symm
      obtain ⟨reached, passed | more | digitOver⟩ := stop
      · exact lt_ofDigitChars (by omega)
      · -- One more digit makes ten times at least the threshold.
        obtain ⟨e, digits, rfl⟩ := List.exists_cons_of_ne_nil more
        rw [Nat.ofDigitChars_cons]
        exact lt_ofDigitChars (by omega)
      · exact lt_ofDigitChars (by omega)
    · rename_i go
      have within : value * 10 + d ≤ limit := by
        by_cases reached : limit / 10 ≤ value
        · have notPassed : ¬limit / 10 < value := fun passed => go ⟨reached, Or.inl passed⟩
          have notOver : ¬limit % 10 < d := fun beyond => go ⟨reached, Or.inr (Or.inr beyond)⟩
          omega
        · omega
      rw [Nat.mod_eq_of_lt (by omega), ih (fun c mem => all c (List.mem_cons_of_mem _ mem)) within]

/-- A character that is no digit makes the loop give up. -/
theorem decodeInteger_none {limit value : Nat} {s : List Char} {c : Char} (mem : c ∈ s) (other : ¬c.isDigit) :
    decodeInteger limit value s = none := by
  induction s generalizing value with
  | nil => cases mem
  | cons b s ih =>
    unfold decodeInteger
    split
    · rename_i digit
      dsimp only
      split
      · rfl
      · rcases List.mem_cons.mp mem with rfl | mem
        · exact absurd digit other
        · exact ih mem
    · rfl

/-- No fraction and no exponent. -/
def Numeral.IsInteger (n : Numeral) : Prop := n.frac = [] ∧ n.exponent = none

instance (n : Numeral) : Decidable n.IsInteger := decidable_of_iff (n.frac = [] ∧ n.exponent.isNone) (by
  rw [Numeral.IsInteger, Option.isNone_iff_eq_none])

/-- The integers that are read as such. -/
def Numeral.limit (n : Numeral) : Nat := if n.negative then maxLargestInt + 1 else maxLargestUInt

/-- An integer as the reader holds it. -/
def integerValue (negative : Bool) (m : Nat) : Value :=
  if negative then .intValue (-m) else if (m : Int) ≤ maxInt then .intValue m else .uintValue m

/-- What a number is read as: an integer of 64 bits as itself, every other number
as the double next to it. -/
def Numeral.decoded (n : Numeral) : Option Value :=
  if n.IsInteger ∧ n.mantissa ≤ n.limit then some (integerValue n.negative n.mantissa)
  else (nearestDouble n.negative n.magnitude).map .realValue

theorem decodeDouble_text (n : Numeral) :
    decodeDouble n.text = (nearestDouble n.negative n.magnitude).map .realValue := by
  rw [decodeDouble, readDecimal_text, Option.bind_some]

theorem Numeral.head_text (n : Numeral) : n.text.head? = some '-' ↔ n.negative := by
  unfold text
  split
  · simp [*]
  · rename_i positive
    obtain ⟨c, digits, int⟩ := List.exists_cons_of_ne_nil n.int_nonempty
    have digit := n.int_digits c (int ▸ List.mem_cons_self)
    have other : c ≠ '-' := by
      rintro rfl
      exact absurd digit (by decide)
    simp [unsigned, int, other, positive]

theorem Numeral.unsigned_text (n : Numeral) : (if n.text.head? = some '-' then n.text.tail else n.text) = n.unsigned := by
  by_cases negative : n.negative
  · rw [if_pos (n.head_text.mpr negative), text, if_pos negative, List.tail_cons]
  · rw [if_neg fun head => negative (n.head_text.mp head), text, if_neg negative]

theorem Numeral.unsigned_integer {n : Numeral} (integer : n.IsInteger) : n.unsigned = n.int ∧
    n.mantissa = Nat.ofDigitChars 10 n.int 0 := by
  unfold unsigned fracText exponentText mantissa
  rw [integer.1, integer.2, if_pos rfl]
  simp

/-- The text of a number that is no integer has a character that is no digit. -/
theorem Numeral.unsigned_real {n : Numeral} (real : ¬n.IsInteger) : ∃ c ∈ n.unsigned, ¬c.isDigit := by
  by_cases whole : n.frac = []
  · obtain ⟨e, some⟩ := Option.ne_none_iff_exists'.mp fun none => real ⟨whole, none⟩
    refine ⟨if e.upper then 'E' else 'e', ?_, by split <;> decide⟩
    unfold unsigned exponentText
    rw [some]
    exact List.mem_append_right _ (List.mem_append_right _ List.mem_cons_self)
  · refine ⟨'.', ?_, by decide⟩
    unfold unsigned fracText
    rw [if_neg whole]
    exact List.mem_append_right _ (List.mem_append_left _ List.mem_cons_self)

/-- What the reader makes of a number. -/
theorem decodeNumber_text (n : Numeral) : decodeNumber n.text = n.decoded := by
  have limits : n.limit = if n.text.head? = some '-' then maxLargestInt + 1 else maxLargestUInt := by
    rw [Numeral.limit]
    simp only [n.head_text]
  have fits : n.limit < 2 ^ 64 := by
    unfold Numeral.limit maxLargestInt maxLargestUInt
    split <;> decide
  have wide : 10 ≤ n.limit := by
    unfold Numeral.limit maxLargestInt maxLargestUInt
    split <;> decide
  unfold decodeNumber Numeral.decoded
  simp only [← limits, n.unsigned_text, decodeDouble_text]
  by_cases integer : n.IsInteger
  · obtain ⟨unsigned, mantissa⟩ := Numeral.unsigned_integer integer
    rw [unsigned, decodeInteger_digits wide fits n.int_digits (Nat.zero_le _), ← mantissa]
    by_cases within : n.mantissa ≤ n.limit
    · rw [if_pos within, if_pos ⟨integer, within⟩]
      simp only [n.head_text]
      unfold integerValue
      by_cases negative : n.negative
      · have lowest : n.limit = 2 ^ 63 := by rw [Numeral.limit, if_pos negative]; rfl
        simp only [negative, true_and, if_true]
        split
        · rename_i least
          rw [least, lowest]
          rfl
        · rfl
      · simp only [negative, Bool.false_eq_true, false_and, if_false]
        split <;> rfl
    · rw [if_neg within, if_neg fun both => within both.2]
  · obtain ⟨c, mem, other⟩ := Numeral.unsigned_real integer
    rw [decodeInteger_none mem other, if_neg fun both => integer both.1]

end integers

end MFutures.Json
