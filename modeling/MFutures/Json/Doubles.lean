import Mathlib.Data.List.TakeWhile
import MFutures.Json.Numeral

namespace MFutures

namespace Double

/-- A double of 64 bits: 53 bits at an exponent from -1074 to 971. -/
def IsBinary64 : Double → Prop
  | .finite v => ∃ n e : ℤ, |n| < 2 ^ 53 ∧ -1074 ≤ e ∧ e ≤ 971 ∧ v.toRat = n * 2 ^ e
  | _ => True

def IsFinite : Double → Prop
  | .finite _ => True
  | .negZero => True
  | _ => False

/-- The number that a finite double is. -/
def toRat : Double → ℚ
  | .finite v => v.toRat
  | _ => 0

/-- The sign of a double. -/
def negative : Double → Bool
  | .finite v => decide (v.toRat < 0)
  | .negZero => true
  | .infinite negative => negative
  | .nan => false

end Double

namespace Json

section digits

/-- Zeros at the end of a fraction do not count. -/
theorem stripZeros_append (digits : List Char) :
    ∃ k, stripZeros digits ++ List.replicate k '0' = digits := by
  have split := List.takeWhile_append_dropWhile (p := (· = '0')) (l := digits.reverse)
  have zeros : digits.reverse.takeWhile (· = '0') = List.replicate (digits.reverse.takeWhile (· = '0')).length '0' := by
    refine List.eq_replicate_of_mem fun c mem => ?_
    simpa using List.mem_takeWhile_imp mem
  refine ⟨(digits.reverse.takeWhile (· = '0')).length, ?_⟩
  have reversed := congrArg List.reverse split
  rw [List.reverse_append, List.reverse_reverse, zeros, List.reverse_replicate] at reversed
  exact reversed

theorem stripZeros_digits {digits : List Char} (all : Digits digits) : Digits (stripZeros digits) := by
  obtain ⟨k, whole⟩ := stripZeros_append digits
  exact fun c mem => all c (whole ▸ List.mem_append_left _ mem)

/-- What the digits of a fraction add to those before them. -/
theorem ofDigitChars_stripZeros (int digits : List Char) (scale : Int) :
    (Nat.ofDigitChars 10 (int ++ stripZeros digits) 0 : ℚ) * 10 ^ (scale - (stripZeros digits).length) =
      Nat.ofDigitChars 10 (int ++ digits) 0 * 10 ^ (scale - digits.length) := by
  obtain ⟨k, whole⟩ := stripZeros_append digits
  generalize stripZeros digits = frac at whole ⊢
  subst whole
  have ten : (10 : ℚ) ≠ 0 := by norm_num
  have shifted : scale - (frac.length : Int) = (k : Int) + (scale - ((frac ++ List.replicate k '0').length : Int)) := by
    simp only [List.length_append, List.length_replicate]
    push_cast
    omega
  rw [← List.append_assoc, Nat.ofDigitChars_append (l := int ++ frac), Nat.ofDigitChars_replicate_zero, shifted, zpow_add₀ ten,
    zpow_natCast]
  push_cast
  ring

theorem digits_toDigits (n : Nat) : Digits (Nat.toDigits 10 n) :=
  fun _ mem => Nat.isDigit_of_mem_toDigits (by decide) (by decide) mem

end digits

section printing

/-- The seventeen digits of a number, and the number they are rounded to. -/
theorem digits17_spec {x : ℚ} (pos : 0 < x) :
    10 ^ 16 ≤ (digits17 x).1 ∧ (digits17 x).1 < 10 ^ 17 ∧
      ((digits17 x).1 : ℚ) * 10 ^ (digits17 x).2 = decimal17.round x := by
  have lower : (10 : ℤ) ^ 16 ≤ decimal17.significand x := decimal17.le_significand pos rfl
  have upper : decimal17.significand x ≤ (10 : ℤ) ^ 17 := decimal17.significand_le x
  have natural : ((decimal17.significand x).toNat : ℤ) = decimal17.significand x := Int.toNat_of_nonneg (by omega)
  have rational : ((decimal17.significand x).toNat : ℚ) = decimal17.significand x := by exact_mod_cast natural
  have rounded : decimal17.round x = decimal17.significand x * (10 : ℚ) ^ decimal17.ulp x := rfl
  unfold digits17
  dsimp only
  split
  · rename_i carry
    refine ⟨by norm_num, by norm_num, ?_⟩
    rw [rounded, ← rational, carry, zpow_add₀ (by norm_num)]
    push_cast
    ring
  · rename_i plain
    exact ⟨by omega, by omega, by rw [rounded, ← rational]⟩

theorem length_digits17 {x : ℚ} (pos : 0 < x) : (Nat.toDigits 10 (digits17 x).1).length = 17 := by
  obtain ⟨lower, upper, -⟩ := digits17_spec pos
  have most := (Nat.length_toDigits_le_iff (b := 10) (n := (digits17 x).1) (k := 17) (by decide) (by decide)).mpr upper
  have least := (Nat.length_toDigits_le_iff (b := 10) (n := (digits17 x).1) (k := 16) (by decide) (by decide)).not.mpr
    (by omega)
  omega

/-- The exponent of the `%e` style. -/
def printedExponent (x : Int) : Exponent where
  upper := false
  sign := some (decide (x < 0))
  digits := if (Nat.toDigits 10 x.natAbs).length < 2 then '0' :: Nat.toDigits 10 x.natAbs else Nat.toDigits 10 x.natAbs
  all_digits := by
    split
    · intro c mem
      rcases List.mem_cons.mp mem with rfl | mem
      · decide
      · exact digits_toDigits _ c mem
    · exact digits_toDigits _
  nonempty := by
    split
    · exact List.cons_ne_nil _ _
    · exact Nat.toDigits_ne_nil

theorem printedExponent_text (x : Int) : (printedExponent x).text = 'e' :: exponentText x := by
  unfold Exponent.text exponentText printedExponent
  by_cases negative : x < 0 <;> simp [negative]

theorem printedExponent_value (x : Int) : (printedExponent x).value = x := by
  have digits : Nat.ofDigitChars 10 (printedExponent x).digits 0 = x.natAbs := by
    unfold printedExponent
    dsimp only
    split
    · rw [Nat.ofDigitChars_cons]
      exact Nat.ofDigitChars_ten_toDigits
    · exact Nat.ofDigitChars_ten_toDigits
  unfold Exponent.value
  rw [digits]
  simp only [printedExponent, Option.some.injEq, decide_eq_true_eq]
  split <;> omega

/-- The letter of an exponent is the small one. -/
def Numeral.Lower (n : Numeral) : Prop := ∀ e ∈ n.exponent, e.upper = false

theorem Numeral.unsigned_withPoint (n : Numeral) : n.unsigned = withPoint n.int n.frac ++ n.exponentText := by
  unfold unsigned fracText withPoint
  split <;> simp

/-- The number of a text whose fraction had its last zeros taken off. -/
theorem exists_numeral {int digits : List Char} (exponent : Option Exponent) (intDigits : Digits int)
    (nonempty : int ≠ []) (all : Digits digits) :
    ∃ n : Numeral, n.negative = false ∧ n.exponent = exponent ∧
      n.unsigned = withPoint int (stripZeros digits) ++ exponent.elim [] Exponent.text ∧
      n.magnitude = Nat.ofDigitChars 10 (int ++ digits) 0 * 10 ^ (exponent.elim 0 Exponent.value - digits.length) := by
  refine ⟨⟨false, int, stripZeros digits, exponent, intDigits, nonempty, stripZeros_digits all⟩, rfl, rfl, ?_, ?_⟩
  · rw [Numeral.unsigned_withPoint]
    cases exponent <;> rfl
  · exact ofDigitChars_stripZeros int digits _

/-- `%.17g` of a positive number is the text of the number rounded to seventeen digits. -/
theorem printfG_numeral {x : ℚ} (pos : 0 < x) :
    ∃ n : Numeral, n.negative = false ∧ n.Lower ∧ n.unsigned = printfG x ∧ n.magnitude = decimal17.round x := by
  obtain ⟨-, -, value⟩ := digits17_spec pos
  have length := length_digits17 pos
  have all := digits_toDigits (digits17 x).1
  have number : Nat.ofDigitChars 10 (Nat.toDigits 10 (digits17 x).1) 0 = (digits17 x).1 :=
    Nat.ofDigitChars_ten_toDigits
  unfold printfG
  generalize (digits17 x).1 = significand at *
  generalize (digits17 x).2 = e at *
  generalize Nat.toDigits 10 significand = digits at *
  have taken (k : Nat) : Digits (digits.take k) := fun c mem => all c (List.mem_of_mem_take mem)
  have dropped (k : Nat) : Digits (digits.drop k) := fun c mem => all c (List.mem_of_mem_drop mem)
  have front (k : Nat) : digits.take (k + 1) ≠ [] := by
    intro none
    have := congrArg List.length none
    simp only [List.length_take, List.length_nil] at this
    omega
  have zeros (k : Nat) : Digits (List.replicate k '0') := by
    intro c mem
    rw [List.eq_of_mem_replicate mem]
    decide
  dsimp only
  split
  · split
    · rename_i range nonneg
      obtain ⟨n, sign, exponent, text, magnitude⟩ :=
        exists_numeral none (taken _) (front (e + 16).toNat) (dropped ((e + 16).toNat + 1))
      refine ⟨n, sign, by simp [Numeral.Lower, exponent], by rw [text, Option.elim_none, List.append_nil], ?_⟩
      rw [magnitude, List.take_append_drop, number, ← value, List.length_drop, length, Option.elim_none]
      congr 2
      omega
    · rename_i range negative
      obtain ⟨n, sign, exponent, text, magnitude⟩ := exists_numeral none (zeros 1) (List.cons_ne_nil _ _)
        ((zeros (-(e + 16) - 1).toNat).append all)
      have front : Nat.ofDigitChars 10 (List.replicate 1 '0' ++ (List.replicate (-(e + 16) - 1).toNat '0' ++ digits)) 0 =
          significand := by
        rw [Nat.ofDigitChars_append, Nat.ofDigitChars_append, Nat.ofDigitChars_replicate_zero, ← number]
        rfl
      refine ⟨n, sign, by simp [Numeral.Lower, exponent], by rw [text, Option.elim_none, List.append_nil]; rfl, ?_⟩
      rw [magnitude, front, ← value, List.length_append, List.length_replicate, length, Option.elim_none]
      congr 2
      omega
  · obtain ⟨n, sign, exponent, text, magnitude⟩ :=
      exists_numeral (some (printedExponent (e + 16))) (taken _) (front 0) (dropped 1)
    refine ⟨n, sign, by simp [Numeral.Lower, exponent, printedExponent],
      by rw [text, Option.elim_some, printedExponent_text], ?_⟩
    rw [magnitude, List.take_append_drop, number, ← value, List.length_drop, length, Option.elim_some,
      printedExponent_value]
    congr 2
    omega

theorem digits_zero : Digits ['0'] := by
  intro c mem
  rw [List.mem_singleton.mp mem]
  decide

theorem snprintfG_numeral (negative : Bool) {x : ℚ} (nonneg : 0 ≤ x) :
    ∃ n : Numeral, n.negative = negative ∧ n.Lower ∧ n.text = snprintfG negative x ∧ n.magnitude = decimal17.round x := by
  have signed {n : Numeral} (lower : n.Lower) (text : n.unsigned = if x = 0 then ['0'] else printfG x)
      (magnitude : n.magnitude = decimal17.round x) :
      ∃ n : Numeral, n.negative = negative ∧ n.Lower ∧ n.text = snprintfG negative x ∧
        n.magnitude = decimal17.round x := by
    refine ⟨{ n with negative := negative }, rfl, lower, ?_, magnitude⟩
    rw [snprintfG, ← text]
    rfl
  rcases nonneg.eq_or_lt with rfl | pos
  · refine @signed ⟨false, ['0'], [], none, digits_zero, List.cons_ne_nil _ _, Digits.nil⟩ ?_ rfl ?_
    · simp [Numeral.Lower]
    · rw [Grid.round_zero]
      simp [Numeral.magnitude, Numeral.mantissa, Nat.ofDigitChars_cons]
  · obtain ⟨n, -, lower, text, magnitude⟩ := printfG_numeral pos
    exact signed lower (by rw [text, if_neg pos.ne']) magnitude

theorem Numeral.mem_text_integer {n : Numeral} (integer : n.IsInteger) {c : Char} (mem : c ∈ n.text) :
    c = '-' ∨ c.isDigit := by
  have unsigned := (Numeral.unsigned_integer integer).1
  unfold text at mem
  rw [unsigned] at mem
  split at mem
  · exact (List.mem_cons.mp mem).imp_right (n.int_digits c)
  · exact Or.inr (n.int_digits c mem)

/-- The text of a number that is no integer shows it. -/
theorem Numeral.mem_text_real {n : Numeral} (lower : n.Lower) (real : ¬n.IsInteger) : '.' ∈ n.text ∨ 'e' ∈ n.text := by
  have inside {c : Char} (mem : c ∈ n.unsigned) : c ∈ n.text := by
    unfold text
    split
    · exact List.mem_cons_of_mem _ mem
    · exact mem
  by_cases whole : n.frac = []
  · obtain ⟨e, some⟩ := Option.ne_none_iff_exists'.mp fun none => real ⟨whole, none⟩
    refine Or.inr (inside ?_)
    unfold unsigned exponentText
    rw [some]
    refine List.mem_append_right _ (List.mem_append_right _ ?_)
    simp only [Exponent.text, lower e some]
    exact List.mem_cons_self
  · refine Or.inl (inside ?_)
    unfold unsigned fracText
    rw [if_neg whole]
    exact List.mem_append_right _ (List.mem_append_left _ List.mem_cons_self)

/-- The decimal point makes a number no integer and leaves it the same. -/
theorem withDecimalPoint_numeral {n : Numeral} (lower : n.Lower) :
    ∃ m : Numeral, ¬m.IsInteger ∧ m.text = withDecimalPoint n.text ∧ m.negative = n.negative ∧
      m.magnitude = n.magnitude := by
  unfold withDecimalPoint
  by_cases integer : n.IsInteger
  · have none : ¬('.' ∈ n.text ∨ 'e' ∈ n.text) := by
      rintro (mem | mem)
      · rcases Numeral.mem_text_integer integer mem with same | digit
        · exact absurd same (by decide)
        · exact absurd digit (by decide)
      · rcases Numeral.mem_text_integer integer mem with same | digit
        · exact absurd same (by decide)
        · exact absurd digit (by decide)
    refine ⟨{ n with frac := ['0'], frac_digits := digits_zero }, fun whole => List.cons_ne_nil _ _ whole.1, ?_, rfl, ?_⟩
    · rw [if_neg none]
      simp only [Numeral.text, Numeral.unsigned, Numeral.fracText, Numeral.exponentText, integer.1, integer.2]
      split <;> simp
    · have stripped := ofDigitChars_stripZeros n.int ['0'] 0
      simp only [Numeral.magnitude, Numeral.mantissa, Numeral.scale, integer.1, integer.2]
      exact stripped.symm
  · exact ⟨n, integer, (if_pos (Numeral.mem_text_real lower integer)).symm, rfl, rfl⟩

/-- A finite double is printed as a number that is no integer: with its sign, and
as the number next to it with seventeen digits. -/
theorem doubleToString_numeral {d : Double} (finite : d.IsFinite) :
    ∃ n : Numeral, ¬n.IsInteger ∧ n.text = doubleToString d ∧ n.negative = d.negative ∧
      n.magnitude = decimal17.round |d.toRat| := by
  have printed : doubleToString d = withDecimalPoint (snprintfG d.negative |d.toRat|) := by
    cases d with
    | finite v => rfl
    | negZero => rfl
    | infinite _ => exact finite.elim
    | nan => exact finite.elim
  obtain ⟨n, sign, lower, text, magnitude⟩ := snprintfG_numeral d.negative (abs_nonneg d.toRat)
  obtain ⟨m, real, text', sign', magnitude'⟩ := withDecimalPoint_numeral lower
  exact ⟨m, real, by rw [text', text, printed], sign'.trans sign, magnitude'.trans magnitude⟩

end printing

section round_trip

theorem binary64_ulp_le {x : ℚ} {e : ℤ} (pos : 0 < x) (least : -1074 ≤ e) (below : x < 2 ^ 53 * 2 ^ e) :
    binary64.ulp x ≤ e := by
  have log : Int.log 2 x < 53 + e := by
    rw [← Int.lt_zpow_iff_log_lt (by decide) pos, zpow_add₀ (by norm_num)]
    exact_mod_cast below
  have last : binary64.ulp x = max (Int.log 2 x - 52) (-1074) := rfl
  omega

/-- A double is on the grid of the doubles, and below the first number that is too large. -/
theorem binary64_holds {v : Dyadic} (double : (Double.finite v).IsBinary64) (nonzero : v.toRat ≠ 0) :
    binary64.Holds |v.toRat| ∧ |v.toRat| < 2 ^ 1024 := by
  obtain ⟨n, e, bits, least, most, value⟩ := double
  have pos : 0 < |v.toRat| := abs_pos.mpr nonzero
  have unit : (0 : ℚ) < 2 ^ e := zpow_pos (by norm_num) _
  have magnitude : |v.toRat| = (|n| : ℤ) * (2 : ℚ) ^ e := by
    rw [value, abs_mul, abs_of_pos unit, Int.cast_abs]
  have bitsRat : ((|n| : ℤ) : ℚ) < 2 ^ 53 := by exact_mod_cast bits
  have below : |v.toRat| < 2 ^ 53 * 2 ^ e := by
    rw [magnitude]
    exact mul_lt_mul_of_pos_right bitsRat unit
  refine ⟨?_, ?_⟩
  · exact Grid.multiple_of_le magnitude (binary64_ulp_le pos least below)
  · calc |v.toRat| < 2 ^ 53 * 2 ^ e := below
      _ ≤ 2 ^ 53 * 2 ^ (971 : ℤ) := by
        refine mul_le_mul_of_nonneg_left (zpow_le_zpow_right₀ (by norm_num) most) (by norm_num)
      _ = 2 ^ 1024 := by
        rw [show (971 : ℤ) = ((971 : ℕ) : ℤ) from rfl, zpow_natCast, ← pow_add]

/-- Seventeen digits are enough for every double. -/
theorem nearestDouble_round17 {d : Double} (finite : d.IsFinite) (double : d.IsBinary64) :
    nearestDouble d.negative (decimal17.round |d.toRat|) = some d := by
  have negZero : nearestDouble true 0 = some .negZero := by simp [nearestDouble]
  have zero : nearestDouble false 0 = some (.finite 0) := by simp [nearestDouble]
  cases d with
  | finite v =>
    by_cases none : v.toRat = 0
    · rw [Dyadic.toRat_eq_zero_iff.mp none]
      simpa [Double.negative, Double.toRat] using zero
    have magnitude : 0 < |v.toRat| := abs_pos.mpr none
    obtain ⟨holds, bounded⟩ := binary64_holds double none
    have back : binary64.round (decimal17.round |v.toRat|) = |v.toRat| :=
      Grid.round_round magnitude holds rfl (by decide)
    have value : (binary64.significand (decimal17.round |v.toRat|) : ℚ) *
        2 ^ binary64.ulp (decimal17.round |v.toRat|) = |v.toRat| := back
    have significand : binary64.significand (decimal17.round |v.toRat|) ≠ 0 := by
      intro none
      rw [none, Int.cast_zero, zero_mul] at value
      exact magnitude.ne value
    simp only [Double.toRat, Double.negative]
    rw [nearestDouble, back, if_neg (not_le.mpr bounded), if_neg fun both => significand both.2]
    congr 2
    rw [← Dyadic.toRat_inj, Dyadic.toRat_ofIntWithPrec_eq_mul_two_pow, neg_neg]
    simp only [decide_eq_true_eq]
    split
    · rename_i negative
      rw [abs_of_neg negative] at value ⊢
      push_cast
      linarith
    · rename_i nonneg
      rw [abs_of_nonneg (not_lt.mp nonneg)] at value ⊢
      exact value
  | negZero => simpa [Double.negative, Double.toRat] using negZero
  | infinite _ => exact finite.elim
  | nan => exact finite.elim

/-- What the writer prints of a finite double is read as that double. -/
theorem decodeNumber_doubleToString {d : Double} (finite : d.IsFinite) (double : d.IsBinary64) :
    decodeNumber (doubleToString d) = some (.realValue d) := by
  obtain ⟨n, real, text, sign, magnitude⟩ := doubleToString_numeral finite
  rw [← text, decodeNumber_text, Numeral.decoded, if_neg fun both => real both.1, sign, magnitude,
    nearestDouble_round17 finite double, Option.map_some]

example : decodeNumber "-0.0".toList = some (.realValue .negZero) :=
  @decodeNumber_doubleToString .negZero trivial trivial

end round_trip

section nearest

/-- Rounding a number below the first that is too large gives a double. -/
theorem binary64_round {x : ℚ} (nonneg : 0 ≤ x) (bounded : binary64.round x < 2 ^ 1024) :
    ∃ n e : ℤ, 0 ≤ n ∧ n < 2 ^ 53 ∧ -1074 ≤ e ∧ e ≤ 971 ∧ binary64.round x = n * 2 ^ e := by
  rcases nonneg.eq_or_lt with rfl | pos
  · exact ⟨0, 0, by norm_num, by norm_num, by norm_num, by norm_num, by simp⟩
  have natural := binary64.significand_nonneg nonneg
  have most : binary64.significand x ≤ 2 ^ 53 := binary64.significand_le x
  have last : binary64.ulp x = max (Int.log 2 x - 52) (-1074) := rfl
  have value : binary64.round x = binary64.significand x * (2 : ℚ) ^ binary64.ulp x := rfl
  have exponent {e : ℤ} {k : ℕ} (reached : (2 : ℚ) ^ k * 2 ^ e ≤ binary64.round x) : k + e < 1024 := by
    have below : (2 : ℚ) ^ ((k : ℤ) + e) < 2 ^ (1024 : ℤ) := by
      rw [zpow_add₀ (by norm_num)]
      exact_mod_cast reached.trans_lt bounded
    exact (zpow_lt_zpow_iff_right₀ (by norm_num)).mp below
  rcases most.lt_or_eq with less | carry
  · refine ⟨_, _, natural, less, by omega, ?_, value⟩
    by_contra large
    have normal : binary64.ulp x = Int.log binary64.base x - (binary64.precision - 1) := by
      have base : Int.log binary64.base x = Int.log 2 x := rfl
      have precision : (binary64.precision : ℤ) = 53 := rfl
      omega
    have least : (2 : ℤ) ^ 52 ≤ binary64.significand x := binary64.le_significand pos normal
    have := exponent (e := binary64.ulp x) (k := 52) (by
      rw [value]
      refine mul_le_mul_of_nonneg_right ?_ (zpow_pos (by norm_num) _).le
      exact_mod_cast least)
    omega
  · have := exponent (e := binary64.ulp x) (k := 53) (by rw [value, carry]; norm_num)
    refine ⟨2 ^ 52, binary64.ulp x + 1, by norm_num, by norm_num, by omega, by omega, ?_⟩
    rw [value, carry, zpow_add₀ (by norm_num)]
    push_cast
    ring

/-- A double that is read has the sign of the number, and its size rounded. -/
theorem nearestDouble_some {negative : Bool} {x : ℚ} {d : Double} (nonneg : 0 ≤ x)
    (near : nearestDouble negative x = some d) :
    d.IsFinite ∧ d.negative = negative ∧ binary64.round x < 2 ^ 1024 ∧
      d.toRat = if negative then -binary64.round x else binary64.round x := by
  have natural := binary64.significand_nonneg nonneg
  have value : (binary64.significand x : ℚ) * 2 ^ binary64.ulp x = binary64.round x := rfl
  have round := binary64.round_nonneg nonneg
  unfold nearestDouble at near
  dsimp only at near
  split at near
  · cases near
  · rename_i bounded
    have below := not_le.mp bounded
    split at near
    · rename_i zero
      cases near
      rw [zero.2, Int.cast_zero, zero_mul] at value
      exact ⟨trivial, zero.1.symm, below, by rw [← value]; simp [Double.toRat]⟩
    · rename_i nonzero
      cases near
      have same : (Double.finite (.ofIntWithPrec (if negative then -binary64.significand x else binary64.significand x)
          (-binary64.ulp x))).toRat = if negative then -binary64.round x else binary64.round x := by
        rw [Double.toRat, Dyadic.toRat_ofIntWithPrec_eq_mul_two_pow, neg_neg]
        split
        · push_cast
          rw [neg_mul, value]
        · exact value
      refine ⟨trivial, ?_, below, same⟩
      rw [Double.toRat] at same
      rw [Double.negative, same]
      cases negative with
      | false => simpa using round
      | true =>
        have digits : (0 : ℚ) < binary64.significand x := by
          have : binary64.significand x ≠ 0 := fun zero => nonzero ⟨rfl, zero⟩
          exact_mod_cast lt_of_le_of_ne natural this.symm
        simpa using value ▸ mul_pos digits (zpow_pos (by norm_num) _)

/-- The reader makes finite doubles only. -/
theorem nearestDouble_isBinary64 {negative : Bool} {x : ℚ} {d : Double} (nonneg : 0 ≤ x)
    (near : nearestDouble negative x = some d) : d.IsFinite ∧ d.IsBinary64 := by
  obtain ⟨finite, -, bounded, value⟩ := nearestDouble_some nonneg near
  refine ⟨finite, ?_⟩
  cases d with
  | finite v =>
    obtain ⟨n, e, natural, bits, least, most, round⟩ := binary64_round nonneg bounded
    refine ⟨if negative then -n else n, e, ?_, least, most, ?_⟩
    · split
      · rw [abs_neg, abs_of_nonneg natural]
        exact bits
      · rw [abs_of_nonneg natural]
        exact bits
    · rw [Double.toRat, round] at value
      rw [value]
      split
      · push_cast
        rw [neg_mul]
      · rfl
  | _ => trivial

/-- No double is nearer than the one that is read. -/
theorem nearestDouble_nearest {negative : Bool} {x : ℚ} {d w : Double} (nonneg : 0 ≤ x)
    (near : nearestDouble negative x = some d) (finite : w.IsFinite) (double : w.IsBinary64) :
    |d.toRat - (if negative then -x else x)| ≤ |w.toRat - (if negative then -x else x)| := by
  obtain ⟨-, -, -, value⟩ := nearestDouble_some nonneg near
  have on : |w.toRat| = 0 ∨ 0 < |w.toRat| ∧ binary64.Holds |w.toRat| := by
    cases w with
    | finite v =>
      by_cases zero : v.toRat = 0
      · exact Or.inl (abs_eq_zero.mpr zero)
      · exact Or.inr ⟨abs_pos.mpr zero, (binary64_holds double zero).1⟩
    | _ => exact Or.inl abs_zero
  have moved : |d.toRat - (if negative then -x else x)| = |binary64.round x - x| := by
    rw [value]
    split
    · rw [← abs_neg]
      congr 1
      ring
    · rfl
  have least : |binary64.round x - x| ≤ |(|w.toRat| - x)| := by
    rcases nonneg.eq_or_lt with rfl | pos
    · rw [Grid.round_zero, sub_zero, abs_zero]
      exact abs_nonneg _
    · exact binary64.abs_sub_round_le_holds pos on
  have size : |if negative then -x else x| = x := by
    split
    · rw [abs_neg, abs_of_nonneg nonneg]
    · exact abs_of_nonneg nonneg
  calc |d.toRat - (if negative then -x else x)| = |binary64.round x - x| := moved
    _ ≤ |(|w.toRat| - x)| := least
    _ = |(|w.toRat| - |if negative then -x else x|)| := by rw [size]
    _ ≤ |w.toRat - (if negative then -x else x)| := abs_abs_sub_abs_le _ _

/-- The largest double. -/
theorem binary64_holds_largest : binary64.Holds ((2 ^ 53 - 1) * 2 ^ (971 : ℤ) : ℚ) := by
  have unit : (0 : ℚ) < 2 ^ (971 : ℤ) := zpow_pos (by norm_num) _
  have magnitude : ((2 ^ 53 - 1) * 2 ^ (971 : ℤ) : ℚ) = ((2 ^ 53 - 1 : ℤ) : ℚ) * (2 : ℚ) ^ (971 : ℤ) := by norm_num
  refine Grid.multiple_of_le magnitude (binary64_ulp_le (mul_pos (by norm_num) unit) (by norm_num) ?_)
  exact mul_lt_mul_of_pos_right (by norm_num) unit

/-- A number at least halfway past an odd integer is not rounded to it. -/
theorem roundEven_half {x : ℚ} {n : ℤ} (odd : n % 2 = 1) (half : n + 1 / 2 ≤ x) : n + 1 ≤ Grid.roundEven x := by
  rcases le_or_gt ((n : ℚ) + 1) x with whole | below
  · exact Grid.le_roundEven (by exact_mod_cast whole)
  · have floor : ⌊x⌋ = n := Int.floor_eq_iff.mpr ⟨by linarith, below⟩
    have fract : (1 / 2 : ℚ) ≤ Int.fract x := by
      rw [Int.fract, floor]
      linarith
    unfold Grid.roundEven
    rw [floor, if_neg]
    rintro (less | tie)
    · exact absurd fract (not_le.mpr less)
    · omega

theorem two_pow_1024 : (2 : ℚ) ^ 1024 = 2 ^ 53 * 2 ^ (971 : ℤ) := by
  rw [show (971 : ℤ) = ((971 : ℕ) : ℤ) from rfl, zpow_natCast, ← pow_add]

/-- The numbers from half a unit past the largest double on are those that round
past it. -/
theorem le_binary64_round_iff {x : ℚ} (pos : 0 < x) :
    2 ^ 1024 ≤ binary64.round x ↔ (2 ^ 53 - 1 / 2) * 2 ^ (971 : ℤ) ≤ x := by
  have unit : (0 : ℚ) < 2 ^ (971 : ℤ) := zpow_pos (by norm_num) _
  have largest := binary64.abs_sub_round_le_holds pos
    (Or.inr ⟨mul_pos (by norm_num) unit, binary64_holds_largest⟩)
  rw [two_pow_1024]
  constructor
  · intro reached
    by_contra below
    have upper := le_trans (le_abs_self _) largest
    have lower := not_le.mp below
    generalize (2 : ℚ) ^ (971 : ℤ) = u at *
    rcases abs_cases ((2 ^ 53 - 1) * u - x) with ⟨eq, -⟩ | ⟨eq, -⟩
    · linarith
    · linarith
  · intro reached
    have last : binary64.ulp x = max (Int.log 2 x - 52) (-1074) := rfl
    have base : Int.log binary64.base x = Int.log 2 x := rfl
    rcases le_or_gt ((2 : ℚ) ^ (1024 : ℤ)) x with large | small
    · have log : 1024 ≤ Int.log 2 x := (Int.zpow_le_iff_le_log (by decide) pos).mp large
      have passed : (2 : ℚ) ^ (1024 : ℤ) ≤ binary64.round x := binary64.zpow_le_round large (by omega)
      exact two_pow_1024 ▸ passed
    · have front : (2 : ℚ) ^ (1023 : ℤ) ≤ x := by
        have split : (2 : ℚ) ^ (1023 : ℤ) = 2 ^ 52 * 2 ^ (971 : ℤ) := by
          rw [show (1023 : ℤ) = ((52 : ℕ) : ℤ) + 971 from rfl, zpow_add₀ (by norm_num), zpow_natCast]
        rw [split]
        exact (mul_le_mul_of_nonneg_right (by norm_num) unit.le).trans reached
      have lower : 1023 ≤ Int.log 2 x := (Int.zpow_le_iff_le_log (by decide) pos).mp front
      have upper : Int.log 2 x < 1024 := (Int.lt_zpow_iff_log_lt (by decide) pos).mp small
      have ulp : binary64.ulp x = 971 := by omega
      have carry : (2 ^ 53 - 1 : ℤ) + 1 ≤ binary64.significand x := by
        refine roundEven_half (by norm_num) ?_
        rw [ulp, le_div_iff₀ (show (0 : ℚ) < (binary64.base : ℚ) ^ (971 : ℤ) from unit)]
        push_cast
        have same : ((binary64.base : ℚ)) ^ (971 : ℤ) = 2 ^ (971 : ℤ) := rfl
        rw [same]
        linarith
      have value : binary64.round x = binary64.significand x * (2 : ℚ) ^ binary64.ulp x := rfl
      rw [value, ulp]
      refine mul_le_mul_of_nonneg_right ?_ unit.le
      exact_mod_cast carry

/-- Exactly the numbers from half a unit past the largest double on are refused. -/
theorem nearestDouble_eq_none_iff (negative : Bool) {x : ℚ} (nonneg : 0 ≤ x) :
    nearestDouble negative x = none ↔ (2 ^ 53 - 1 / 2) * 2 ^ (971 : ℤ) ≤ x := by
  have unit : (0 : ℚ) < 2 ^ (971 : ℤ) := zpow_pos (by norm_num) _
  have refused : nearestDouble negative x = none ↔ 2 ^ 1024 ≤ binary64.round x := by
    unfold nearestDouble
    dsimp only
    split
    · rename_i passed
      exact ⟨fun _ => passed, fun _ => rfl⟩
    · rename_i bounded
      refine ⟨fun none => ?_, fun passed => absurd passed bounded⟩
      split at none <;> cases none
  rw [refused]
  rcases nonneg.eq_or_lt with rfl | pos
  · rw [Grid.round_zero]
    exact ⟨fun le => absurd le (not_le.mpr (pow_pos (by norm_num) _)),
      fun le => absurd le (not_le.mpr (mul_pos (by norm_num) unit))⟩
  · exact le_binary64_round_iff pos

/-- The number that a value holds. -/
def number : Value → ℚ
  | .intValue n => n
  | .uintValue n => n
  | .realValue d => d.toRat
  | _ => 0

theorem Numeral.magnitude_nonneg (n : Numeral) : 0 ≤ n.magnitude :=
  mul_nonneg (Nat.cast_nonneg _) (zpow_pos (by norm_num) _).le

theorem number_integerValue {n : Numeral} (integer : n.IsInteger) :
    number (integerValue n.negative n.mantissa) = n.value := by
  have scale : n.scale = 0 := by
    rw [Numeral.scale, integer.1, integer.2]
    rfl
  have magnitude : n.magnitude = n.mantissa := by rw [Numeral.magnitude, scale, zpow_zero, mul_one]
  rw [Numeral.value, magnitude]
  unfold integerValue
  split
  · simp [number]
  · split <;> simp [number]

/-- Every number of a document is read as itself where it is an integer of 64
bits, else as the nearest of all doubles with its sign, and refused where its size
rounds past them. -/
theorem decodeNumber_exact (n : Numeral) :
    if n.IsInteger ∧ n.mantissa ≤ n.limit then
      decodeNumber n.text = some (integerValue n.negative n.mantissa) ∧
        number (integerValue n.negative n.mantissa) = n.value
    else if n.magnitude < (2 ^ 53 - 1 / 2) * 2 ^ (971 : ℤ) then
      ∃ d, decodeNumber n.text = some (.realValue d) ∧ d.IsFinite ∧ d.IsBinary64 ∧ d.negative = n.negative ∧
        ∀ w : Double, w.IsFinite → w.IsBinary64 → |d.toRat - n.value| ≤ |w.toRat - n.value|
    else decodeNumber n.text = none := by
  have nonneg := n.magnitude_nonneg
  rw [decodeNumber_text, Numeral.decoded]
  split
  · rename_i integer
    exact ⟨rfl, number_integerValue integer.1⟩
  · split
    · rename_i bounded
      obtain ⟨d, near⟩ := Option.ne_none_iff_exists'.mp
        fun refused => absurd ((nearestDouble_eq_none_iff n.negative nonneg).mp refused) (not_le.mpr bounded)
      obtain ⟨finite, double⟩ := nearestDouble_isBinary64 nonneg near
      exact ⟨d, by rw [near, Option.map_some], finite, double, (nearestDouble_some nonneg near).2.1,
        fun w finite' double' => nearestDouble_nearest nonneg near finite' double'⟩
    · rename_i large
      rw [(nearestDouble_eq_none_iff n.negative nonneg).mpr (not_lt.mp large), Option.map_none]

end nearest

section infinite

/-- The text that the writer puts for an infinity. -/
def infiniteNumeral (negative : Bool) : Numeral where
  negative := negative
  int := ['1']
  frac := []
  exponent := some ⟨false, some false, ['9', '9', '9', '9'], digits_toDigits 9999, List.cons_ne_nil _ _⟩
  int_digits := digits_toDigits 1
  int_nonempty := List.cons_ne_nil _ _
  frac_digits := Digits.nil

theorem infiniteNumeral_text (negative : Bool) : (infiniteNumeral negative).text = doubleToString (.infinite negative) := by
  cases negative <;> rfl

end infinite

end Json

end MFutures
