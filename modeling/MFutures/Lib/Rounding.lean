import Mathlib.Algebra.Order.Round
import Mathlib.Data.Int.Log
import Mathlib.Data.Rat.Floor
import Mathlib.Tactic.FieldSimp
import Mathlib.Tactic.Linarith
import Mathlib.Tactic.Positivity
import Mathlib.Tactic.Ring
import Mathlib.Algebra.Order.Field.Power

/-- Floating-point numbers in base `base` with a significand of `precision`
digits. The exponents of a grid with a `least` one stop there, as those of the
subnormal numbers do. -/
structure Grid where
  base : ℕ
  precision : ℕ
  least : Option ℤ
  one_lt_base : 1 < base
  precision_pos : 0 < precision

namespace Grid
variable {K : Type} [Field K] [LinearOrder K] [IsStrictOrderedRing K] [FloorRing K]

/-- The integer next to a number, and the even one of two that are as near. -/
def roundEven (x : K) : ℤ :=
  if Int.fract x < 1 / 2 ∨ Int.fract x = 1 / 2 ∧ ⌊x⌋ % 2 = 0 then ⌊x⌋ else ⌊x⌋ + 1

theorem abs_sub_roundEven (x : K) : |x - roundEven x| ≤ 1 / 2 := by
  have lower := Int.fract_nonneg x
  have upper := Int.fract_lt_one x
  have split := Int.floor_add_fract x
  unfold roundEven
  rw [abs_le]
  split
  · rename_i down
    have near : Int.fract x ≤ 1 / 2 := down.elim le_of_lt fun tie => tie.1.le
    constructor <;> linarith
  · rename_i up
    have far : 1 / 2 ≤ Int.fract x := not_lt.mp fun below => up (Or.inl below)
    push_cast
    constructor <;> linarith

/-- An integer nearer than half a unit is the one that is rounded to. -/
theorem roundEven_eq {x : K} {n : ℤ} (near : |x - n| < 1 / 2) : roundEven x = n := by
  have bound := abs_sub_roundEven x
  have apart : |((roundEven x : K)) - n| < 1 := by
    calc |(roundEven x : K) - n| ≤ |(roundEven x : K) - x| + |x - n| := abs_sub_le _ _ _
      _ < 1 / 2 + 1 / 2 := by rw [abs_sub_comm _ x]; exact add_lt_add_of_le_of_lt bound near
      _ = 1 := by norm_num
  have same : |roundEven x - n| < 1 := by exact_mod_cast apart
  have zero := Int.abs_lt_one_iff.mp same
  omega

/-- No integer is nearer. -/
theorem abs_sub_roundEven_le (x : K) (n : ℤ) : |x - roundEven x| ≤ |x - n| := by
  rcases lt_or_ge |x - n| (1 / 2) with near | far
  · rw [roundEven_eq near]
  · exact (abs_sub_roundEven x).trans far

@[simp] theorem roundEven_intCast (n : ℤ) : roundEven (n : K) = n := roundEven_eq (by simp)

omit [IsStrictOrderedRing K] in
theorem le_roundEven {x : K} {n : ℤ} (le : (n : K) ≤ x) : n ≤ roundEven x := by
  have below := Int.le_floor.mpr le
  unfold roundEven
  split <;> omega

theorem roundEven_le {x : K} {n : ℤ} (le : x ≤ n) : roundEven x ≤ n := by
  by_cases whole : x = n
  · rw [whole, roundEven_intCast]
  · have above : ⌊x⌋ < n := Int.floor_lt.mpr (lt_of_le_of_ne le whole)
    unfold roundEven
    split <;> omega

variable (F G : Grid)

/-- The exponent of the last digit of a number. -/
def ulp (x : K) : ℤ :=
  match F.least with
  | none => Int.log F.base x - (F.precision - 1)
  | some e => max (Int.log F.base x - (F.precision - 1)) e

def significand (x : K) : ℤ := roundEven (x / (F.base : K) ^ F.ulp x)

/-- The number of the grid next to a positive number. The exponents are not
bounded above. -/
def round (x : K) : K := F.significand x * (F.base : K) ^ F.ulp x

/-- The positive numbers of the grid, with no bound on the exponents above. -/
def Holds (x : K) : Prop := ∃ n : ℤ, x = n * (F.base : K) ^ F.ulp x

theorem base_pos : (0 : K) < F.base := by exact_mod_cast Nat.zero_lt_of_lt F.one_lt_base

theorem one_lt_base_cast : (1 : K) < F.base := by exact_mod_cast F.one_lt_base

theorem zpow_base_mono {m n : ℤ} (le : m ≤ n) : (F.base : K) ^ m ≤ (F.base : K) ^ n :=
  zpow_le_zpow_right₀ F.one_lt_base_cast.le le

omit [IsStrictOrderedRing K] in
theorem log_le_ulp (x : K) : Int.log F.base x - (F.precision - 1) ≤ F.ulp x := by
  unfold ulp
  split
  · exact le_refl _
  · exact le_max_left _ _

omit [IsStrictOrderedRing K] in
theorem ulp_mono {x y : K} (le : Int.log F.base x ≤ Int.log F.base y) : F.ulp x ≤ F.ulp y := by
  unfold ulp
  split
  · omega
  · exact max_le_max (by omega) le_rfl

variable {F G}

theorem significand_nonneg {x : K} (nonneg : 0 ≤ x) : 0 ≤ F.significand x := by
  refine le_roundEven ?_
  rw [Int.cast_zero]
  exact div_nonneg nonneg (zpow_pos F.base_pos _).le

theorem round_nonneg {x : K} (nonneg : 0 ≤ x) : 0 ≤ F.round x :=
  mul_nonneg (by exact_mod_cast significand_nonneg nonneg) (zpow_pos F.base_pos _).le

@[simp] theorem significand_zero : F.significand (0 : K) = 0 := by
  rw [significand, zero_div, ← Int.cast_zero, roundEven_intCast]

@[simp] theorem round_zero : F.round (0 : K) = 0 := by
  rw [round, significand_zero, Int.cast_zero, zero_mul]

/-- A significand has at most the digits of the grid; one more is a power of the base. -/
theorem significand_le (x : K) : F.significand x ≤ (F.base : ℤ) ^ F.precision := by
  have unit : (0 : K) < (F.base : K) ^ F.ulp x := zpow_pos F.base_pos _
  refine roundEven_le ?_
  rw [div_le_iff₀ unit]
  push_cast
  calc x ≤ (F.base : K) ^ (Int.log F.base x + 1) := (Int.lt_zpow_succ_log_self F.one_lt_base x).le
    _ ≤ (F.base : K) ^ ((F.precision : ℤ) + F.ulp x) := by
      have := F.log_le_ulp x
      exact F.zpow_base_mono (by omega)
    _ = (F.base : K) ^ F.precision * (F.base : K) ^ F.ulp x := by
      rw [zpow_add₀ F.base_pos.ne', zpow_natCast]

/-- Above the least exponent a significand has all the digits of the grid. -/
theorem le_significand {x : K} (pos : 0 < x) (normal : F.ulp x = Int.log F.base x - (F.precision - 1)) :
    (F.base : ℤ) ^ (F.precision - 1) ≤ F.significand x := by
  have unit : (0 : K) < (F.base : K) ^ F.ulp x := zpow_pos F.base_pos _
  have digits : ((F.precision - 1 : ℕ) : ℤ) = (F.precision : ℤ) - 1 := by
    have := F.precision_pos
    omega
  refine le_roundEven ?_
  rw [le_div_iff₀ unit]
  push_cast
  rw [normal, ← zpow_natCast, ← zpow_add₀ F.base_pos.ne', digits, add_sub_cancel]
  exact Int.zpow_log_le_self F.one_lt_base pos

/-- Rounding does not go below a power of the base. -/
theorem zpow_le_round {x : K} {k : ℤ} (reached : (F.base : K) ^ k ≤ x) (normal : F.ulp x ≤ Int.log F.base x) :
    (F.base : K) ^ k ≤ F.round x := by
  have pos : 0 < x := (zpow_pos F.base_pos k).trans_le reached
  have unit : (0 : K) < (F.base : K) ^ F.ulp x := zpow_pos F.base_pos _
  have split : (F.base : K) ^ Int.log F.base x =
      (F.base : K) ^ (Int.log F.base x - F.ulp x).toNat * (F.base : K) ^ F.ulp x := by
    rw [← zpow_natCast, ← zpow_add₀ F.base_pos.ne', Int.toNat_of_nonneg (by omega), sub_add_cancel]
  have digits : (F.base : ℤ) ^ (Int.log F.base x - F.ulp x).toNat ≤ F.significand x := by
    refine le_roundEven ?_
    rw [le_div_iff₀ unit]
    push_cast
    rw [← split]
    exact Int.zpow_log_le_self F.one_lt_base pos
  have digits' : (F.base : K) ^ (Int.log F.base x - F.ulp x).toNat ≤ F.significand x := by exact_mod_cast digits
  calc (F.base : K) ^ k ≤ (F.base : K) ^ Int.log F.base x :=
        F.zpow_base_mono ((Int.zpow_le_iff_le_log F.one_lt_base pos).mp reached)
    _ ≤ F.round x := by
      rw [split, round]
      exact mul_le_mul_of_nonneg_right digits' unit.le

/-- A number that has an integer number of units in the last place of a larger
one is rounded to it from everything nearer than half a unit. -/
theorem round_eq {x y : K} (n : ℤ) (on : x = n * (F.base : K) ^ F.ulp y)
    (near : |y - x| < (F.base : K) ^ F.ulp y / 2) : F.round y = x := by
  have unit : (0 : K) < (F.base : K) ^ F.ulp y := zpow_pos F.base_pos _
  have nearest : F.significand y = n := by
    refine roundEven_eq ?_
    have scaled : y / (F.base : K) ^ F.ulp y - n = (y - x) / (F.base : K) ^ F.ulp y := by
      rw [on]
      field_simp
    rw [scaled, abs_div, abs_of_pos unit, div_lt_iff₀ unit]
    linarith
  rw [round, nearest, on]

theorem abs_sub_round_le (x : K) : |F.round x - x| ≤ (F.base : K) ^ F.ulp x / 2 := by
  have unit : (0 : K) < (F.base : K) ^ F.ulp x := zpow_pos F.base_pos _
  have bound := abs_sub_roundEven (x / (F.base : K) ^ F.ulp x)
  have scaled : F.round x - x =
      -((x / (F.base : K) ^ F.ulp x - F.significand x) * (F.base : K) ^ F.ulp x) := by
    rw [round]
    field_simp
    ring
  rw [scaled, abs_neg, abs_mul, abs_of_pos unit]
  calc _ ≤ 1 / 2 * (F.base : K) ^ F.ulp x := mul_le_mul_of_nonneg_right bound unit.le
    _ = _ := by ring

/-- No multiple of the unit in the last place is nearer. -/
theorem abs_sub_round_le_multiple (x : K) (n : ℤ) :
    |F.round x - x| ≤ |n * (F.base : K) ^ F.ulp x - x| := by
  have unit : (0 : K) < (F.base : K) ^ F.ulp x := zpow_pos F.base_pos _
  have scaled (m : ℤ) : |m * (F.base : K) ^ F.ulp x - x| =
      |x / (F.base : K) ^ F.ulp x - m| * (F.base : K) ^ F.ulp x := by
    rw [abs_sub_comm, ← abs_of_pos unit, ← abs_mul, abs_of_pos unit]
    congr 1
    field_simp
  rw [round, scaled, scaled]
  exact mul_le_mul_of_nonneg_right (abs_sub_roundEven_le _ n) unit.le

/-- A multiple of a power of the base is one of every smaller power. -/
theorem multiple_of_le {x : K} {n a b : ℤ} (on : x = n * (F.base : K) ^ a) (le : b ≤ a) :
    ∃ m : ℤ, x = m * (F.base : K) ^ b := by
  refine ⟨n * (F.base : ℤ) ^ (a - b).toNat, ?_⟩
  have split : (F.base : K) ^ a = (F.base : K) ^ (a - b).toNat * (F.base : K) ^ b := by
    rw [← zpow_natCast, ← zpow_add₀ F.base_pos.ne', Int.toNat_of_nonneg (by omega)]
    congr 1
    omega
  push_cast
  rw [on, split]
  ring

/-- Two multiples of a unit that differ are a unit apart. -/
theorem unit_le_sub {x y u : K} {m n : ℤ} (pos : 0 < u) (onX : x = m * u) (onY : y = n * u) (lt : x < y) :
    u ≤ y - x := by
  have less : (m : K) < n := by
    rw [onX, onY] at lt
    exact lt_of_mul_lt_mul_right lt pos.le
  have step : (m : K) + 1 ≤ n := by
    have : m < n := by exact_mod_cast less
    exact_mod_cast this
  calc u = (m + 1) * u - m * u := by ring
    _ ≤ n * u - m * u := sub_le_sub_right (mul_le_mul_of_nonneg_right step pos.le) _
    _ = y - x := by rw [onX, onY]

theorem Holds.ulp_le_log {x : K} (pos : 0 < x) (on : F.Holds x) : F.ulp x ≤ Int.log F.base x := by
  obtain ⟨n, eq⟩ := on
  have unit : (0 : K) < (F.base : K) ^ F.ulp x := zpow_pos F.base_pos _
  have positive : (0 : K) < n := by
    rw [eq] at pos
    exact pos_of_mul_pos_left pos unit.le
  have one : (1 : K) ≤ n := by
    have : 0 < n := by exact_mod_cast positive
    exact_mod_cast this
  rw [Int.zpow_le_iff_le_log F.one_lt_base pos |>.symm]
  calc (F.base : K) ^ F.ulp x = 1 * (F.base : K) ^ F.ulp x := (one_mul _).symm
    _ ≤ n * (F.base : K) ^ F.ulp x := mul_le_mul_of_nonneg_right one unit.le
    _ = x := eq.symm

/-- A number of a finer unit than that of another lies below the power of the base
that is next to the other, which has an exponent of its own. -/
theorem lt_zpow_log {x y : K} (posY : 0 < y) (finer : F.ulp y < F.ulp x) :
    y < (F.base : K) ^ Int.log F.base x ∧ F.ulp x ≤ Int.log F.base x := by
  have logs : Int.log F.base y < Int.log F.base x :=
    lt_of_not_ge fun le => absurd (F.ulp_mono le) (not_le.mpr finer)
  have below : y < (F.base : K) ^ Int.log F.base x := (Int.lt_zpow_iff_log_lt F.one_lt_base posY).mpr logs
  have last := F.log_le_ulp y
  have digits := F.precision_pos
  refine ⟨below, ?_⟩
  unfold ulp at finer ⊢
  split at finer
  · omega
  · omega

/-- No number of the grid is nearer, nor is zero. -/
theorem abs_sub_round_le_holds {x y : K} (posX : 0 < x) (on : y = 0 ∨ 0 < y ∧ F.Holds y) :
    |F.round x - x| ≤ |y - x| := by
  rcases on with rfl | ⟨posY, n, eq⟩
  · have zero := F.abs_sub_round_le_multiple x 0
    rwa [Int.cast_zero, zero_mul] at zero
  rcases le_or_gt (F.ulp x) (F.ulp y) with coarser | finer
  · obtain ⟨m, multiple⟩ := multiple_of_le eq coarser
    rw [multiple]
    exact F.abs_sub_round_le_multiple x m
  · obtain ⟨below, normal⟩ := F.lt_zpow_log posY finer
    have one : (F.base : K) ^ Int.log F.base x = (1 : ℤ) * (F.base : K) ^ Int.log F.base x := by
      rw [Int.cast_one, one_mul]
    obtain ⟨m, power⟩ := multiple_of_le one normal
    have reached : (F.base : K) ^ Int.log F.base x ≤ x := Int.zpow_log_le_self F.one_lt_base posX
    calc |F.round x - x| ≤ |m * (F.base : K) ^ F.ulp x - x| := F.abs_sub_round_le_multiple x m
      _ = x - (F.base : K) ^ Int.log F.base x := by
        rw [← power, abs_sub_comm, abs_of_nonneg (sub_nonneg.mpr reached)]
      _ ≤ x - y := sub_le_sub_left below.le x
      _ ≤ |y - x| := by
        rw [abs_sub_comm]
        exact le_abs_self _

/-- Rounding to digits without a least exponent moves a number by less than any
fraction of it that has fewer digits. -/
theorem abs_sub_round_lt {p : ℕ} {b : K} {x : K} (all : G.least = none) (pos : 0 < x) (positive : 0 < b)
    (finer : b ^ p < (G.base : K) ^ (G.precision - 1)) : |G.round x - x| < x / (2 * b ^ p) := by
  have scale : (0 : K) < (G.base : K) ^ (G.precision - 1) := pow_pos G.base_pos _
  have digits : ((G.precision : ℤ) - 1) = ((G.precision - 1 : ℕ) : ℤ) := by
    have := G.precision_pos
    omega
  have unit : (G.base : K) ^ G.ulp x = (G.base : K) ^ Int.log G.base x / (G.base : K) ^ (G.precision - 1) := by
    unfold ulp
    rw [all]
    dsimp only
    rw [digits, zpow_sub₀ G.base_pos.ne', zpow_natCast]
  have below : (G.base : K) ^ Int.log G.base x ≤ x := Int.zpow_log_le_self G.one_lt_base pos
  calc |G.round x - x| ≤ (G.base : K) ^ G.ulp x / 2 := abs_sub_round_le x
    _ ≤ x / (G.base : K) ^ (G.precision - 1) / 2 := by
      rw [unit]
      exact div_le_div_of_nonneg_right (div_le_div_of_nonneg_right below scale.le) (by norm_num)
    _ = x / (2 * (G.base : K) ^ (G.precision - 1)) := by rw [div_div, mul_comm]
    _ < x / (2 * b ^ p) :=
      div_lt_div_of_pos_left pos (by have := pow_pos positive p; linarith) (by linarith)

/-- A power of the base is the only number of the grid that a number of a lower
exponent can be near to. -/
theorem Holds.eq_zpow_log {x y : K} (pos : 0 < x) (on : F.Holds x)
    (near : |y - x| < (F.base : K) ^ F.ulp x / 2) (lower : y < (F.base : K) ^ Int.log F.base x) :
    x = (F.base : K) ^ Int.log F.base x := by
  have unit : (0 : K) < (F.base : K) ^ F.ulp x := zpow_pos F.base_pos _
  by_contra other
  have above := lt_of_le_of_ne (Int.zpow_log_le_self F.one_lt_base pos) (Ne.symm other)
  obtain ⟨m, power⟩ : ∃ m : ℤ, (F.base : K) ^ Int.log F.base x = m * (F.base : K) ^ F.ulp x :=
    multiple_of_le (n := 1) (by rw [Int.cast_one, one_mul]) (on.ulp_le_log pos)
  obtain ⟨n, eq⟩ := on
  have apart := unit_le_sub unit power eq above
  have := (abs_lt.mp near).1
  linarith

/-- No number of the grid is so near to a number of a higher exponent. -/
theorem Holds.log_le {x y : K} (pos : 0 < x) (on : F.Holds x)
    (near : |y - x| < (F.base : K) ^ F.ulp x / 2) : Int.log F.base y ≤ Int.log F.base x := by
  have unit : (0 : K) < (F.base : K) ^ F.ulp x := zpow_pos F.base_pos _
  have within := abs_lt.mp near
  by_contra higher
  have positive : 0 < y := by
    have low : (F.base : K) ^ F.ulp x ≤ x :=
      (F.zpow_base_mono (on.ulp_le_log pos)).trans (Int.zpow_log_le_self F.one_lt_base pos)
    linarith
  have reached : (F.base : K) ^ (Int.log F.base x + 1) ≤ y :=
    (Int.zpow_le_iff_le_log F.one_lt_base positive).mpr (by omega)
  have short : x < (F.base : K) ^ (Int.log F.base x + 1) := Int.lt_zpow_succ_log_self F.one_lt_base x
  obtain ⟨m, power⟩ : ∃ m : ℤ, (F.base : K) ^ (Int.log F.base x + 1) = m * (F.base : K) ^ F.ulp x :=
    multiple_of_le (n := 1) (by rw [Int.cast_one, one_mul]) (by have := on.ulp_le_log pos; omega)
  obtain ⟨n, eq⟩ := on
  have apart := unit_le_sub unit eq power short
  linarith

/-- Digits enough in one base lose nothing of a number of another base: rounded
to them and back, it is the same number. -/
theorem round_round {x : K} (pos : 0 < x) (on : F.Holds x) (all : G.least = none)
    (finer : F.base ^ F.precision < G.base ^ (G.precision - 1)) : F.round (G.round x) = x := by
  have basePos : (0 : K) < F.base := F.base_pos
  have moved : |G.round x - x| < x / (2 * (F.base : K) ^ F.precision) :=
    abs_sub_round_lt all pos basePos (by exact_mod_cast finer)
  generalize G.round x = y at moved ⊢
  have room : (0 : K) < (F.base : K) ^ F.precision := pow_pos basePos _
  have next : (F.base : K) ^ (Int.log F.base x + 1) =
      (F.base : K) ^ (Int.log F.base x - (F.precision - 1)) * (F.base : K) ^ F.precision := by
    rw [← zpow_natCast, ← zpow_add₀ basePos.ne']
    congr 1
    omega
  have near : |y - x| < (F.base : K) ^ F.ulp x / 2 := by
    have short := Int.lt_zpow_succ_log_self F.one_lt_base x
    have fits := F.zpow_base_mono (K := K) (F.log_le_ulp x)
    calc |y - x| < x / (2 * (F.base : K) ^ F.precision) := moved
      _ < (F.base : K) ^ (Int.log F.base x + 1) / (2 * (F.base : K) ^ F.precision) :=
        div_lt_div_of_pos_right short (by linarith)
      _ = (F.base : K) ^ (Int.log F.base x - (F.precision - 1)) / 2 := by
        rw [next]
        field_simp
      _ ≤ (F.base : K) ^ F.ulp x / 2 := div_le_div_of_nonneg_right fits (by norm_num)
  have le := on.log_le pos near
  obtain ⟨n, eq⟩ := on
  obtain ⟨m, unit⟩ := multiple_of_le eq (F.ulp_mono le)
  refine round_eq m unit ?_
  rcases le.eq_or_lt with same | lower
  · exact near.trans_le (by rw [ulp, ulp, same])
  · -- The number moved below a power of the base, so it is that power, and the
    -- unit there is still as large as the distance allows.
    have positive : 0 < y := by
      have low := (F.zpow_base_mono (Holds.ulp_le_log pos ⟨n, eq⟩)).trans (Int.zpow_log_le_self F.one_lt_base pos)
      have := (abs_lt.mp near).1
      linarith [zpow_pos basePos (F.ulp x)]
    have under : y < (F.base : K) ^ Int.log F.base x :=
      (Int.lt_zpow_succ_log_self F.one_lt_base y).trans_le (F.zpow_base_mono (by omega))
    have power := Holds.eq_zpow_log pos ⟨n, eq⟩ near under
    have whole : (F.base : K) ^ Int.log F.base x =
        (F.base : K) ^ (Int.log F.base x - F.precision) * (F.base : K) ^ F.precision := by
      rw [← zpow_natCast, ← zpow_add₀ basePos.ne', sub_add_cancel]
    have close : |y - x| < (F.base : K) ^ (Int.log F.base x - F.precision) / 2 := by
      calc |y - x| < x / (2 * (F.base : K) ^ F.precision) := moved
        _ = (F.base : K) ^ Int.log F.base x / (2 * (F.base : K) ^ F.precision) := by rw [← power]
        _ = (F.base : K) ^ (Int.log F.base x - F.precision) / 2 := by
          rw [whole]
          field_simp
    have previous : Int.log F.base x - 1 ≤ Int.log F.base y := by
      rw [← Int.zpow_le_iff_le_log F.one_lt_base positive]
      have two : (2 : K) ≤ F.base := by exact_mod_cast F.one_lt_base
      have one : (1 : K) ≤ (F.base : K) ^ F.precision := one_le_pow₀ F.one_lt_base_cast.le
      calc (F.base : K) ^ (Int.log F.base x - 1) = x / F.base := by rw [zpow_sub_one₀ basePos.ne', ← power, div_eq_mul_inv]
        _ ≤ x / 2 := div_le_div_of_nonneg_left pos.le (by norm_num) two
        _ = x - x / (2 * 1) := by ring
        _ ≤ x - x / (2 * (F.base : K) ^ F.precision) := by
          refine sub_le_sub_left (div_le_div_of_nonneg_left pos.le (by norm_num) ?_) x
          linarith
        _ ≤ y := by
          have := (abs_lt.mp moved).1
          linarith
    refine close.trans_le (div_le_div_of_nonneg_right (F.zpow_base_mono ?_) (by norm_num))
    have := F.log_le_ulp y
    omega

end Grid
