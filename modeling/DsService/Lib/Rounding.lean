import Mathlib.Data.Int.Log
import Mathlib.Data.Rat.Floor
import Mathlib.Algebra.Order.Round
import Mathlib.Tactic.Linarith
import Mathlib.Tactic.Positivity
import Mathlib.Tactic.FieldSimp
import Mathlib.Tactic.Ring

/-!
# Rounding to a binary floating-point number

The numbers of `p` significant bits are `m * 2 ^ e` with an `m` of at most `p` bits and an exponent
without bound (`IsFloat`). `roundTo` rounds a rational to the nearest of them, to the even one of
two. Every other fact is read off `roundTo_nearest`: a rounding stays on its side of a
floating-point number (`roundTo_le`), and what is left of it below the unit is one of the two
integers at the number exactly if some floating-point number is that close (`floor_roundTo_iff`).
-/

namespace Rounding

/-! ## To an integer -/

/-- The nearest integer, and the even one of two. -/
def roundEven (q : ℚ) : ℤ :=
  if q - ⌊q⌋ < 1 / 2 ∨ q - ⌊q⌋ = 1 / 2 ∧ ⌊q⌋ % 2 = 0 then ⌊q⌋ else ⌊q⌋ + 1

/-- The rounding to an integer is off by half at most. -/
theorem abs_roundEven_sub_le (q : ℚ) : |(roundEven q : ℚ) - q| ≤ 1 / 2 := by
  have hlo := Int.floor_le q
  have hhi := Int.lt_floor_add_one q
  unfold roundEven
  split
  · next h =>
    have hle : q - ⌊q⌋ ≤ 1 / 2 := h.elim le_of_lt fun h => h.1.le
    rw [abs_le]
    constructor <;> linarith
  · next h =>
    have hge : 1 / 2 ≤ q - ⌊q⌋ := not_lt.1 fun hlt => h (.inl hlt)
    push_cast
    rw [abs_le]
    constructor <;> linarith

/-- No integer is nearer. -/
theorem abs_roundEven_sub_le_abs_sub (q : ℚ) (n : ℤ) : |(roundEven q : ℚ) - q| ≤ |(n : ℚ) - q| := by
  rcases eq_or_ne n (roundEven q) with rfl | hne
  · exact le_rfl
  have hhalf := abs_roundEven_sub_le q
  have hone : (1 : ℚ) ≤ |(n : ℚ) - roundEven q| := by
    exact_mod_cast Int.one_le_abs (sub_ne_zero.2 hne)
  have htriangle := abs_sub_le (n : ℚ) q (roundEven q)
  rw [abs_sub_comm q] at htriangle
  linarith

/-! ## To a number of significant bits -/

/-- A number of `p` significant bits. -/
def IsFloat (p : ℕ) (d : ℚ) : Prop := ∃ m e : ℤ, |m| < 2 ^ p ∧ d = m * 2 ^ e

/-- The weight of the last of the `p` bits of a number of this size. -/
def ulp (p : ℕ) (x : ℚ) : ℚ := 2 ^ (Int.log 2 |x| + 1 - p)

/-- The nearest number of `p` significant bits, and the even one of two. -/
def roundTo (p : ℕ) (x : ℚ) : ℚ := roundEven (x / ulp p x) * ulp p x

variable {p : ℕ} {x d : ℚ}

/-- A unit is positive. -/
theorem ulp_pos : 0 < ulp p x := zpow_pos (by norm_num) _

/-- The bits of a number, in units of its last one. -/
theorem two_pow_mul_ulp (p : ℕ) (x : ℚ) : 2 ^ p * ulp p x = 2 ^ (Int.log 2 |x| + 1) := by
  unfold ulp
  rw [← zpow_natCast, ← zpow_add₀ (by norm_num)]
  congr 1
  omega

/-- A number has fewer than `2 ^ p` of its units. -/
theorem abs_lt_two_pow_mul_ulp (p : ℕ) (x : ℚ) : |x| < 2 ^ p * ulp p x := by
  rw [two_pow_mul_ulp]
  exact_mod_cast Int.lt_zpow_succ_log_self (by norm_num) |x|

/-- What is a whole number of units is no nearer than the rounding. -/
theorem abs_roundTo_sub_le_of_units (n : ℤ) : |roundTo p x - x| ≤ |n * ulp p x - x| := by
  have hscale : ∀ a : ℚ, |a * ulp p x - x| = |a - x / ulp p x| * ulp p x := by
    intro a
    rw [← abs_of_pos (ulp_pos (p := p) (x := x)), ← abs_mul, abs_of_pos ulp_pos, sub_mul,
      div_mul_cancel₀ _ ulp_pos.ne']
  rw [roundTo, hscale, hscale]
  exact mul_le_mul_of_nonneg_right (abs_roundEven_sub_le_abs_sub _ n) ulp_pos.le

/-- The first bit of a number, in units of its last one. -/
theorem two_pow_pred_mul_ulp (hp : 0 < p) : 2 ^ (p - 1) * ulp p x = 2 ^ Int.log 2 |x| := by
  unfold ulp
  rw [← zpow_natCast, ← zpow_add₀ (by norm_num)]
  congr 1
  omega

/-- A float is below the power of two that its bits and its exponent allow. -/
theorem IsFloat.abs_lt {m e : ℤ} (hm : |m| < 2 ^ p) : |(m : ℚ) * 2 ^ e| < 2 ^ (p + e) := by
  have hm' : |(m : ℚ)| < 2 ^ p := by exact_mod_cast hm
  have hpos : (0 : ℚ) < 2 ^ e := zpow_pos (by norm_num) e
  rw [abs_mul, abs_of_pos hpos, zpow_add₀ (by norm_num), zpow_natCast]
  exact mul_lt_mul_of_pos_right hm' hpos

/-- The first bit of a number, with its sign, is a whole number of units. -/
theorem abs_roundTo_sub_le_of_bit (hp : 0 < p) (hx : x ≠ 0) :
    |roundTo p x - x| ≤ |x| - 2 ^ Int.log 2 |x| := by
  have hbit : (2 : ℚ) ^ Int.log 2 |x| ≤ |x| := by
    exact_mod_cast Int.zpow_log_le_self (by norm_num) (abs_pos.2 hx)
  rw [← two_pow_pred_mul_ulp hp] at hbit ⊢
  rcases lt_or_gt_of_ne hx with hneg | hpos
  · have hunits := abs_roundTo_sub_le_of_units (p := p) (x := x) (-2 ^ (p - 1))
    push_cast at hunits
    rw [abs_of_neg hneg] at hbit ⊢
    rw [abs_of_nonneg (a := -2 ^ (p - 1) * ulp p x - x) (by linarith)] at hunits
    linarith
  · have hunits := abs_roundTo_sub_le_of_units (p := p) (x := x) (2 ^ (p - 1))
    push_cast at hunits
    rw [abs_of_pos hpos] at hbit ⊢
    rw [abs_of_nonpos (a := 2 ^ (p - 1) * ulp p x - x) (by linarith)] at hunits
    linarith

/-- **No number of `p` significant bits is nearer than the rounding.** One with a bit below the unit
is smaller than the power of two that is the first bit, and so further away than this. -/
theorem roundTo_nearest (hp : 0 < p) (hd : IsFloat p d) : |roundTo p x - x| ≤ |d - x| := by
  obtain ⟨m, e, hm, rfl⟩ := hd
  rcases eq_or_ne x 0 with rfl | hx
  · have hzero := abs_roundTo_sub_le_of_units (p := p) (x := 0) 0
    rw [Int.cast_zero, zero_mul, sub_self, abs_zero] at hzero
    exact hzero.trans (abs_nonneg _)
  rcases le_or_gt (Int.log 2 |x| + 1 - p) e with hle | hlt
  · have hunits : (m : ℚ) * 2 ^ e =
        (m * 2 ^ (e - (Int.log 2 |x| + 1 - p)).toNat : ℤ) * ulp p x := by
      unfold ulp
      push_cast
      rw [mul_assoc, ← zpow_natCast, ← zpow_add₀ (by norm_num)]
      congr 2
      omega
    rw [hunits]
    exact abs_roundTo_sub_le_of_units _
  · have hsmall : |(m : ℚ) * 2 ^ e| ≤ 2 ^ Int.log 2 |x| :=
      (IsFloat.abs_lt hm).le.trans (zpow_le_zpow_right₀ (by norm_num) (by omega))
    calc |roundTo p x - x| ≤ |x| - 2 ^ Int.log 2 |x| := abs_roundTo_sub_le_of_bit hp hx
      _ ≤ |x| - |(m : ℚ) * 2 ^ e| := sub_le_sub_left hsmall _
      _ ≤ |(m : ℚ) * 2 ^ e - x| := by
        rw [abs_sub_comm]
        exact abs_sub_abs_le_abs_sub x _

/-- A number of `p` significant bits is its own rounding. -/
theorem roundTo_of_isFloat (hp : 0 < p) (h : IsFloat p x) : roundTo p x = x := by
  have hnear := roundTo_nearest (x := x) hp h
  rw [sub_self, abs_zero] at hnear
  exact sub_eq_zero.1 (abs_nonpos_iff.1 hnear)

/-- A rounding stays below a floating-point number that is not below what is rounded. -/
theorem roundTo_le (hp : 0 < p) (hd : IsFloat p d) (hxd : x ≤ d) : roundTo p x ≤ d := by
  have hnear := roundTo_nearest (x := x) hp hd
  rw [abs_of_nonneg (sub_nonneg.2 hxd)] at hnear
  have := le_abs_self (roundTo p x - x)
  linarith

/-- Rounding does not go below a float. -/
theorem le_roundTo (hp : 0 < p) (hd : IsFloat p d) (hdx : d ≤ x) : d ≤ roundTo p x := by
  have hnear := roundTo_nearest (x := x) hp hd
  rw [abs_of_nonpos (sub_nonpos.2 hdx)] at hnear
  have := neg_abs_le (roundTo p x - x)
  linarith

/-! ## Which numbers there are -/

/-- A power of two fits with an exponent more. -/
theorem isFloat_of_le (hp : 0 < p) {m : ℤ} (hm : |m| ≤ 2 ^ p) (e : ℤ) : IsFloat p (m * 2 ^ e) := by
  rcases hm.lt_or_eq with hlt | heq
  · exact ⟨m, e, hlt, rfl⟩
  obtain ⟨s, hs, rfl⟩ : ∃ s : ℤ, |s| = 1 ∧ m = s * 2 ^ p := by
    rcases (abs_eq (by positivity)).1 heq with h | h
    · exact ⟨1, rfl, by rw [h, one_mul]⟩
    · exact ⟨-1, rfl, by rw [h, neg_one_mul]⟩
  refine ⟨s * 2 ^ (p - 1), e + 1, ?_, ?_⟩
  · rw [abs_mul, hs, one_mul, abs_of_pos (by positivity)]
    exact pow_lt_pow_right₀ (by norm_num) (by omega)
  · obtain ⟨k, rfl⟩ : ∃ k, p = k + 1 := ⟨p - 1, by omega⟩
    push_cast
    rw [zpow_add_one₀ (by norm_num), pow_succ]
    ring

/-- Integers up to `2 ^ p` are floats. -/
theorem isFloat_int (hp : 0 < p) {m : ℤ} (hm : |m| ≤ 2 ^ p) : IsFloat p m := by
  have h := isFloat_of_le hp hm 0
  rwa [zpow_zero, mul_one] at h

/-- The rounding is one of them. -/
theorem isFloat_roundTo (hp : 0 < p) (x : ℚ) : IsFloat p (roundTo p x) := by
  refine isFloat_of_le hp ?_ _
  have hlt : |x / ulp p x| < 2 ^ p := by
    rw [abs_div, abs_of_pos ulp_pos, div_lt_iff₀ ulp_pos]
    exact abs_lt_two_pow_mul_ulp p x
  have hhalf := abs_roundEven_sub_le (x / ulp p x)
  have htriangle := abs_sub_abs_le_abs_sub (roundEven (x / ulp p x) : ℚ) (x / ulp p x)
  have hsucc : |(roundEven (x / ulp p x) : ℚ)| < 2 ^ p + 1 := by linarith
  have hsucc : |roundEven (x / ulp p x)| < 2 ^ p + 1 := by exact_mod_cast hsucc
  exact Int.lt_add_one_iff.1 hsucc

/-- From `2 ^ p` on there are whole numbers only. -/
theorem roundTo_int (h : 2 ^ p ≤ |x|) : ∃ n : ℤ, roundTo p x = n := by
  have hpos : 0 < |x| := lt_of_lt_of_le (by positivity) h
  have hlog : (p : ℤ) ≤ Int.log 2 |x| := by
    rw [← Int.zpow_le_iff_le_log (by norm_num) hpos]
    exact_mod_cast h
  refine ⟨roundEven (x / ulp p x) * 2 ^ (Int.log 2 |x| + 1 - p).toNat, ?_⟩
  unfold roundTo ulp
  push_cast
  rw [← zpow_natCast, Int.toNat_of_nonneg (by omega)]

/-! ## What is left below the unit -/

/-- A number is as close to a whole one as it can be. -/
theorem abs_sub_lt_one_iff {k : ℤ} : |(k : ℚ) - x| < 1 ↔ k = ⌊x⌋ ∨ k = ⌈x⌉ := by
  rw [abs_lt]
  constructor
  · rintro ⟨hlo, hhi⟩
    rcases le_or_gt (k : ℚ) x with hle | hgt
    · exact .inl (Int.floor_eq_iff.2 ⟨hle, by linarith⟩).symm
    · exact .inr (Int.ceil_eq_iff.2 ⟨by linarith, hgt.le⟩).symm
  · rintro (rfl | rfl)
    · have hlo := Int.floor_le x
      have hhi := Int.lt_floor_add_one x
      constructor <;> linarith
    · have hlo := Int.le_ceil x
      have hhi := Int.ceil_lt_add_one x
      constructor <;> linarith

/-- Below `2 ^ p` a number lies between two whole ones that are floating-point numbers. -/
theorem isFloat_floor (hp : 0 < p) (hx : 0 ≤ x) (h : x < 2 ^ p) :
    IsFloat p ⌊x⌋ ∧ IsFloat p (⌊x⌋ + 1 : ℤ) := by
  have hfloor : ⌊x⌋ < 2 ^ p := Int.floor_lt.2 (by exact_mod_cast h)
  have hnonneg := Int.floor_nonneg.2 hx
  refine ⟨isFloat_int hp ?_, isFloat_int hp ?_⟩
  · rw [abs_of_nonneg hnonneg]
    exact hfloor.le
  · rw [abs_of_nonneg (by omega)]
    exact hfloor

/-- **The whole part of a rounding is next to the number exactly if some floating-point number is.**
Below `2 ^ p` it always is. -/
theorem floor_roundTo_iff (hp : 0 < p) (hx : 0 ≤ x) :
    |(⌊roundTo p x⌋ : ℚ) - x| < 1 ↔ ∃ d, IsFloat p d ∧ |d - x| < 1 := by
  rcases lt_or_ge x (2 ^ p) with hlt | hge
  · obtain ⟨hlo, hhi⟩ := isFloat_floor hp hx hlt
    have hle := le_roundTo hp hlo (Int.floor_le x)
    have hle' := roundTo_le hp hhi (by push_cast; exact (Int.lt_floor_add_one x).le)
    refine iff_of_true ?_ ⟨_, hlo, abs_sub_lt_one_iff.2 (.inl rfl)⟩
    rcases hle'.lt_or_eq with hlt' | heq
    · push_cast at hlt'
      rw [Int.floor_eq_iff.2 ⟨hle, hlt'⟩]
      exact abs_sub_lt_one_iff.2 (.inl rfl)
    · -- a whole number is not rounded up
      have hne : (⌊x⌋ : ℚ) ≠ x := by
        intro hwhole
        rw [hwhole] at hlo
        rw [roundTo_of_isFloat hp hlo] at heq
        push_cast at heq
        linarith
      have hlt' := lt_of_le_of_ne (Int.floor_le x) hne
      have hsucc := Int.lt_floor_add_one x
      rw [heq, Int.floor_intCast, abs_lt]
      push_cast
      constructor <;> linarith
  · obtain ⟨n, hn⟩ := roundTo_int (p := p) (x := x) (by rwa [abs_of_nonneg hx])
    rw [hn, Int.floor_intCast]
    refine ⟨fun h => ⟨n, hn ▸ isFloat_roundTo hp x, h⟩, fun ⟨d, hd, hlt⟩ => ?_⟩
    rw [← hn]
    exact (roundTo_nearest hp hd).trans_lt hlt

end Rounding
