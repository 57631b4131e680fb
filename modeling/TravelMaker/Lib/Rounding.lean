import Mathlib.Algebra.Order.Floor.Ring
import Mathlib.Data.Int.Log
import Mathlib.Data.Rat.Floor
import Mathlib.Tactic

/-! Rounding to the nearest, ties to even, and binary64.

Python's `round(x, k)` rounds the exact value of the float `x`, so what it does to
a mean depends on the double the mean became first. -/
namespace TravelMaker.Lib

/-- The nearest integer; halfway, the even one. -/
def roundHalfEven (q : ℚ) : ℤ :=
  let f := ⌊q⌋
  if q - f < 1 / 2 then f
  else if 1 / 2 < q - f then f + 1
  else if f % 2 = 0 then f else f + 1

/-- The binary64 nearest to a positive rational in the normal range; 0 otherwise. -/
def toDouble (q : ℚ) : ℚ :=
  if 0 < q then
    let e := Int.log 2 q - 52
    roundHalfEven (q / 2 ^ e) * 2 ^ e
  else 0

/-- `round(x, 1)` for the float nearest to `q`, as the decimal that `str` prints. -/
def roundTenth (q : ℚ) : ℚ := roundHalfEven (toDouble q * 10) / 10

/-- An integer is its own rounding. -/
@[simp] theorem roundHalfEven_intCast (n : ℤ) : roundHalfEven n = n := by
  simp [roundHalfEven]

/-- Nothing is rounded past an integer. -/
theorem le_roundHalfEven {n : ℤ} {q : ℚ} (h : n ≤ q) : n ≤ roundHalfEven q := by
  have hf : n ≤ ⌊q⌋ := Int.le_floor.mpr h
  simp only [roundHalfEven]
  split_ifs <;> omega

theorem roundHalfEven_le {n : ℤ} {q : ℚ} (h : q ≤ n) : roundHalfEven q ≤ n := by
  by_cases hn : q = n
  · rw [hn, roundHalfEven_intCast]
  · have hf : ⌊q⌋ < n := Int.floor_lt.mpr (lt_of_le_of_ne h hn)
    simp only [roundHalfEven]
    split_ifs <;> omega

/-- Below `2 ^ 53` the doubles include the integers, so none is crossed. -/
theorem toDouble_mem {n m : ℕ} {q : ℚ} (hn : 0 < n) (hm : m < 2 ^ 53) (hq : n ≤ q ∧ q ≤ m) :
    n ≤ toDouble q ∧ toDouble q ≤ m := by
  have hpos : 0 < q := lt_of_lt_of_le (by exact_mod_cast hn) hq.1
  have hlog : Int.log 2 q < 53 := by
    apply (Int.lt_zpow_iff_log_lt (by norm_num) hpos).mp
    calc q ≤ m := hq.2
      _ < ((2 ^ 53 : ℕ) : ℚ) := by exact_mod_cast hm
      _ = ((2 : ℕ) : ℚ) ^ (53 : ℤ) := by norm_num
  obtain ⟨k, hk⟩ : ∃ k : ℕ, Int.log 2 q - 52 = -(k : ℤ) := ⟨(52 - Int.log 2 q).toNat, by omega⟩
  have hp : (0 : ℚ) < 2 ^ k := by positivity
  have hd : toDouble q = roundHalfEven (q * 2 ^ k) / 2 ^ k := by
    simp only [toDouble, hpos, if_true, hk, zpow_neg, zpow_natCast, div_inv_eq_mul]
    rfl
  rw [hd, le_div_iff₀ hp, div_le_iff₀ hp]
  constructor
  · have := le_roundHalfEven (n := n * 2 ^ k) (q := q * 2 ^ k)
      (by push_cast; exact mul_le_mul_of_nonneg_right hq.1 hp.le)
    exact_mod_cast this
  · have := roundHalfEven_le (n := m * 2 ^ k) (q := q * 2 ^ k)
      (by push_cast; exact mul_le_mul_of_nonneg_right hq.2 hp.le)
    exact_mod_cast this

/-- Rounding a float to a tenth crosses no integer either. -/
theorem roundTenth_mem {n m : ℕ} {q : ℚ} (hn : 0 < n) (hm : m < 2 ^ 53) (hq : n ≤ q ∧ q ≤ m) :
    n ≤ roundTenth q ∧ roundTenth q ≤ m := by
  obtain ⟨hlo, hhi⟩ := toDouble_mem hn hm hq
  have h1 := le_roundHalfEven (n := n * 10) (q := toDouble q * 10) (by push_cast; linarith)
  have h2 := roundHalfEven_le (n := m * 10) (q := toDouble q * 10) (by push_cast; linarith)
  have h1' : ((n * 10 : ℤ) : ℚ) ≤ roundHalfEven (toDouble q * 10) := by exact_mod_cast h1
  have h2' : (roundHalfEven (toDouble q * 10) : ℚ) ≤ ((m * 10 : ℤ) : ℚ) := by exact_mod_cast h2
  push_cast at h1' h2'
  unfold roundTenth
  constructor <;> linarith

/-- A tie in the decimal digits is decided by the double: 4.35 is stored just below. -/
example : roundTenth (87 / 20) = 43 / 10 ∧ roundTenth (17 / 4) = 42 / 10 := by decide +kernel

end TravelMaker.Lib
