import TravelMaker.Lib.Rounding

/-! Floats as Python has them: binary64 with subnormals, infinities and signed zeros.

`nearest` rounds a size, `Magnitude` is a size that needs no rounding, and `Double.round`
is `round(x, ndigits)`: the exact value of the float is rounded, and the nearest float to
that is the result. -/
namespace TravelMaker.Lib

/-- The exponent of the last bit of a number of this size. -/
def quantum (q : ℚ) : ℤ := max (Int.log 2 q - 52) (-1074)

/-- The nearest multiple of that bit; ties go to the even one. -/
def nearest (q : ℚ) : ℚ := if 0 < q then roundHalfEven (q / 2 ^ quantum q) * 2 ^ quantum q else 0

/-! ### Rounding to a multiple -/

theorem roundHalfEven_eq {n : ℤ} {q : ℚ} (h : |q - n| < 1 / 2) : roundHalfEven q = n := by
  rw [abs_lt] at h
  obtain ⟨hlo, hhi⟩ := h
  rcases lt_or_ge q n with hlt | hge
  · have hfloor : ⌊q⌋ = n - 1 := by
      refine Int.floor_eq_iff.mpr ⟨?_, ?_⟩ <;> push_cast <;> linarith
    simp only [roundHalfEven, hfloor]
    push_cast
    rw [if_neg (by linarith), if_pos (by linarith)]
    omega
  · have hfloor : ⌊q⌋ = n := Int.floor_eq_iff.mpr ⟨hge, by linarith⟩
    simp only [roundHalfEven, hfloor]
    rw [if_pos (by linarith)]

theorem abs_roundHalfEven_sub_le (q : ℚ) : |(roundHalfEven q : ℚ) - q| ≤ 1 / 2 := by
  have hlo := Int.floor_le q
  have hhi := Int.lt_floor_add_one q
  simp only [roundHalfEven]
  split_ifs <;> push_cast <;> rw [abs_le] <;> constructor <;> linarith

theorem quantum_ge (q : ℚ) : -1074 ≤ quantum q := le_max_right _ _

/-- At most 53 bits. -/
theorem div_quantum_lt (q : ℚ) : q / 2 ^ quantum q < 2 ^ 53 := by
  have hlog : q < (2 : ℚ) ^ (Int.log 2 q + 1) := by exact_mod_cast Int.lt_zpow_succ_log_self (by norm_num) q
  rw [div_lt_iff₀ (by positivity)]
  calc q < (2 : ℚ) ^ (Int.log 2 q + 1) := hlog
    _ ≤ (2 : ℚ) ^ ((53 : ℤ) + quantum q) := zpow_le_zpow_right₀ (by norm_num) (by unfold quantum; omega)
    _ = 2 ^ 53 * 2 ^ quantum q := by rw [zpow_add₀ (by norm_num)]; norm_num

theorem nearest_nonneg (q : ℚ) : 0 ≤ nearest q := by
  unfold nearest
  split
  · rename_i h
    have := le_roundHalfEven (n := 0) (q := q / 2 ^ quantum q) (by push_cast; positivity)
    exact mul_nonneg (by exact_mod_cast this) (by positivity)
  · exact le_rfl

/-- Numbers of at most 53 bits are their own nearest. -/
theorem nearest_mul_zpow {a : ℕ} {e : ℤ} (ha : a ≤ 2 ^ 53) (he : -1074 ≤ e) : nearest (a * 2 ^ e) = a * 2 ^ e := by
  rcases Nat.eq_zero_or_pos a with rfl | hpos
  · simp [nearest]
  have hq : (0 : ℚ) < a * 2 ^ e := by positivity
  -- The last bit of the number is at `e` or below, or the number is `2 ^ (e + 53)`.
  have hmultiple : ∃ n : ℤ, (a * 2 ^ e : ℚ) / 2 ^ quantum (a * 2 ^ e) = n := by
    rcases le_or_gt (quantum (a * 2 ^ e)) e with hle | hgt
    · obtain ⟨k, hk⟩ := Int.eq_ofNat_of_zero_le (sub_nonneg.mpr hle)
      refine ⟨a * 2 ^ k, ?_⟩
      rw [mul_div_assoc, ← zpow_sub₀ (by norm_num), hk]
      push_cast
      rfl
    · have hlog : e + 53 ≤ Int.log 2 (a * 2 ^ e : ℚ) := by unfold quantum at hgt; omega
      have hle : (2 : ℚ) ^ (e + 53) ≤ a * 2 ^ e := by
        have := (Int.zpow_le_iff_le_log (b := 2) (by norm_num) hq).mpr hlog
        exact_mod_cast this
      have hbig : (a : ℚ) = 2 ^ 53 := by
        apply le_antisymm (by exact_mod_cast ha)
        rw [zpow_add₀ (by norm_num), mul_comm] at hle
        have := le_of_mul_le_mul_right hle (by positivity)
        exact_mod_cast this
      have hpow : (a * 2 ^ e : ℚ) = ((2 : ℕ) : ℚ) ^ (e + 53) := by
        rw [hbig, zpow_add₀ (by norm_num)]
        push_cast
        ring
      have hquantum : quantum (a * 2 ^ e) = e + 1 := by
        rw [quantum, hpow, Int.log_zpow (by norm_num)]
        omega
      refine ⟨2 ^ 52, ?_⟩
      rw [hquantum, hpow, show e + 53 = e + 1 + 52 by ring, zpow_add₀ (by norm_num)]
      field_simp
      norm_num
  obtain ⟨n, hn⟩ := hmultiple
  rw [nearest, if_pos hq, hn, roundHalfEven_intCast, ← hn, div_mul_cancel₀ _ (by positivity)]

/-- The shape of what is nearest. -/
theorem nearest_eq_mul (q : ℚ) : ∃ a : ℕ, ∃ e : ℤ, a ≤ 2 ^ 53 ∧ -1074 ≤ e ∧ nearest q = a * 2 ^ e := by
  rcases le_or_gt q 0 with hle | hq
  · exact ⟨0, 0, by norm_num, by norm_num, by simp [nearest, not_lt.mpr hle]⟩
  have hlo := le_roundHalfEven (n := 0) (q := q / 2 ^ quantum q) (by push_cast; positivity)
  have hhi := roundHalfEven_le (n := 2 ^ 53) (q := q / 2 ^ quantum q) (by push_cast; exact (div_quantum_lt q).le)
  obtain ⟨a, ha⟩ := Int.eq_ofNat_of_zero_le hlo
  refine ⟨a, quantum q, by omega, quantum_ge q, ?_⟩
  rw [nearest, if_pos hq, ha, Int.cast_natCast]

theorem nearest_le_one {q : ℚ} (hq : q ≤ 1) : nearest q ≤ 1 := by
  rcases le_or_gt q 0 with hle | hpos
  · simp [nearest, not_lt.mpr hle]
  have hlog : Int.log 2 q ≤ 0 := by
    have hmono := Int.log_mono_right (b := 2) hpos hq
    rwa [Int.log_one_right] at hmono
  obtain ⟨k, hk⟩ := Int.eq_ofNat_of_zero_le (a := -quantum q) (by unfold quantum; omega)
  have hquantum : (2 : ℚ) ^ quantum q = (2 ^ k)⁻¹ := by
    rw [← neg_neg (quantum q), hk, zpow_neg, zpow_natCast]
  have hround : roundHalfEven (q / 2 ^ quantum q) ≤ 2 ^ k := by
    apply roundHalfEven_le
    rw [hquantum, div_inv_eq_mul]
    push_cast
    exact mul_le_of_le_one_left (by positivity) hq
  rw [nearest, if_pos hpos, hquantum, mul_inv_le_iff₀ (by positivity), one_mul, ← hquantum]
  exact_mod_cast hround

theorem nearest_nearest (q : ℚ) : nearest (nearest q) = nearest q := by
  obtain ⟨a, e, ha, he, h⟩ := nearest_eq_mul q
  rw [h, nearest_mul_zpow ha he]

/-- A multiple of the last bit. -/
theorem nearest_of_div {q : ℚ} (hq : 0 < q) {n : ℤ} (h : |q / 2 ^ quantum q - n| < 1 / 2) :
    nearest q = n * 2 ^ quantum q := by
  rw [nearest, if_pos hq, roundHalfEven_eq h]

section
variable {q r : ℚ} {e : ℤ} (hq : 0 < q)
include hq

theorem quantum_le (h : q < 2 ^ 53 * 2 ^ e) (he : -1074 ≤ e) : quantum q ≤ e := by
  have hlog : Int.log 2 q < 53 + e := by
    apply (Int.lt_zpow_iff_log_lt (b := 2) (by norm_num) hq).mp
    push_cast
    rw [zpow_add₀ (by norm_num)]
    exact_mod_cast h
  unfold quantum
  omega

theorem le_quantum (h : (2 : ℚ) ^ (52 + e) ≤ q) : e ≤ quantum q := by
  have hlog : 52 + e ≤ Int.log 2 q := (Int.zpow_le_iff_le_log (b := 2) (by norm_num) hq).mp (by exact_mod_cast h)
  unfold quantum
  omega

/-- Above the subnormals a number has all 53 bits. -/
theorem le_div_quantum (h : -1074 < quantum q) : 2 ^ 52 ≤ q / 2 ^ quantum q := by
  have hlog : 52 + quantum q ≤ Int.log 2 q := by unfold quantum at h ⊢; omega
  have hle := (Int.zpow_le_iff_le_log (b := 2) (by norm_num) hq).mpr hlog
  push_cast at hle
  rw [zpow_add₀ (by norm_num)] at hle
  rw [le_div_iff₀ (by positivity)]
  exact_mod_cast hle

theorem lt_of_quantum_lt (h : quantum q < quantum r) : q < 2 ^ 52 * 2 ^ quantum r := by
  have hlog : Int.log 2 q < 52 + quantum r := by unfold quantum at h ⊢; omega
  have hlt := (Int.lt_zpow_iff_log_lt (b := 2) (by norm_num) hq).mpr hlog
  push_cast at hlt
  rw [zpow_add₀ (by norm_num)] at hlt
  exact_mod_cast hlt

end

section
variable {q : ℚ} {e : ℤ} {a : ℤ} (hq : 0 < q) (hclose : |q / 2 ^ e - a| < a / 2 ^ 54)
include hq hclose

/-- Close to a float that is a power of two, and below it, the last bit is at the next place. -/
theorem quantum_below (ha : a = 2 ^ 52) (hlt : quantum q < e) : quantum q = e - 1 := by
  have hbits : (0 : ℚ) < 2 ^ e := by positivity
  refine le_antisymm (by omega) (le_quantum hq ?_)
  rw [show (52 : ℤ) + (e - 1) = 51 + e by ring, zpow_add₀ (by norm_num), ← le_div_iff₀ hbits]
  rw [abs_lt, ha] at hclose
  push_cast at hclose
  norm_num at hclose ⊢
  linarith

theorem nearest_below (ha : a = 2 ^ 52) (hlt : quantum q < e) : nearest q = a * 2 ^ e := by
  have hquantum := quantum_below hq hclose ha hlt
  have hhalf : (2 : ℚ) ^ e = 2 * 2 ^ quantum q := by
    rw [hquantum, ← zpow_one_add₀ (by norm_num)]
    congr 1
    ring
  have hdouble : q / 2 ^ quantum q = 2 * (q / 2 ^ e) := by
    rw [hhalf]
    field_simp
  have hnear : nearest q = ((2 * a : ℤ) : ℚ) * 2 ^ quantum q := by
    apply nearest_of_div hq
    rw [hdouble, abs_lt]
    rw [abs_lt, ha] at hclose
    rw [ha]
    push_cast at hclose ⊢
    constructor <;> linarith
  rw [hnear, hhalf]
  push_cast
  ring

end

/-- A float has 53 bits. -/
theorem exists_div_quantum {m : ℚ} (hm : 0 < m) (hfloat : nearest m = m) :
    ∃ a : ℤ, m / 2 ^ quantum m = a ∧ a ≤ 2 ^ 53 - 1 := by
  have hbits : (0 : ℚ) < 2 ^ quantum m := by positivity
  have hscaled : m / 2 ^ quantum m = roundHalfEven (m / 2 ^ quantum m) := by
    rw [div_eq_iff hbits.ne']
    rw [nearest, if_pos hm] at hfloat
    exact hfloat.symm
  have hlt : roundHalfEven (m / 2 ^ quantum m) < 2 ^ 53 := by
    have := div_quantum_lt m
    rw [hscaled] at this
    exact_mod_cast this
  exact ⟨_, hscaled, by omega⟩

/-- **What is close enough to a float reads as that float.** The gap below a power of two
is half the gap above it. -/
theorem nearest_of_close {m q : ℚ} (hm : 0 < m) (hfloat : nearest m = m) (h : |q - m| < m / 2 ^ 54) :
    nearest q = m := by
  have hbits : (0 : ℚ) < 2 ^ quantum m := by positivity
  obtain ⟨a, hscaled, hle⟩ := exists_div_quantum hm hfloat
  have hle : (a : ℚ) ≤ 2 ^ 53 - 1 := by exact_mod_cast hle
  have ha : m = a * 2 ^ quantum m := (div_eq_iff hbits.ne').mp hscaled
  have hclose : |q / 2 ^ quantum m - a| < a / 2 ^ 54 := by
    rw [← hscaled, ← sub_div, abs_div, abs_of_pos hbits, div_right_comm]
    exact div_lt_div_of_pos_right h hbits
  have hdist := abs_lt.mp hclose
  have hpos : 0 < q := by
    rw [abs_lt] at h
    linarith
  have hbelow : quantum q ≤ quantum m := by
    refine quantum_le hpos ?_ (quantum_ge m)
    rw [← div_lt_iff₀ hbits]
    linarith
  rcases hbelow.lt_or_eq with hquantum | hquantum
  · -- The float is a power of two and `q` is below it.
    have hge : (2 : ℚ) ^ 52 ≤ a := hscaled ▸ le_div_quantum hm (lt_of_le_of_lt (quantum_ge q) hquantum)
    have hupper := lt_of_quantum_lt hpos hquantum
    rw [← div_lt_iff₀ hbits] at hupper
    have ha52 : a = 2 ^ 52 := by
      have : (a : ℚ) < 2 ^ 52 + 1 := by linarith
      have : a < 2 ^ 52 + 1 := by exact_mod_cast this
      have : 2 ^ 52 ≤ a := by exact_mod_cast hge
      omega
    exact (nearest_below hpos hclose ha52 hquantum).trans ha.symm
  · rw [nearest_of_div hpos, hquantum, ← ha]
    rw [hquantum, abs_lt]
    constructor <;> linarith

/-! ### Floats -/

/-- The size of a finite float. -/
structure Magnitude where
  value : ℚ
  nearest_eq : nearest value = value
  lt : value < 2 ^ 1024
deriving DecidableEq, Repr

inductive Double where
  | finite (negative : Bool) (magnitude : Magnitude)
  | infinity (negative : Bool)
  | nan
deriving DecidableEq, Repr

theorem Magnitude.nonneg (m : Magnitude) : 0 ≤ m.value := m.nearest_eq ▸ nearest_nonneg m.value

namespace Double

/-- The float nearest to a number of this size. -/
def ofRat (negative : Bool) (q : ℚ) : Double :=
  if h : nearest q < 2 ^ 1024 then .finite negative ⟨nearest q, nearest_nearest q, h⟩ else .infinity negative

theorem ofRat_eq {negative : Bool} {q : ℚ} {m : Magnitude} (h : nearest q = m.value) :
    ofRat negative q = .finite negative m := by
  obtain ⟨value, hnearest, hlt⟩ := m
  subst h
  rw [ofRat, dif_pos hlt]

/-- `float(n)`; `none` for the `OverflowError`. -/
def ofInt? (n : ℤ) : Option Double :=
  match ofRat (n < 0) n.natAbs with
  | .finite negative m => some (.finite negative m)
  | _ => none

/-- `round(x, ndigits)`, for up to 323 digits. -/
def round (ndigits : ℕ) : Double → Double
  | .finite negative m => ofRat negative (roundHalfEven (m.value * 10 ^ ndigits) / 10 ^ ndigits)
  | x => x

/-- The value of a finite float. -/
def toRat? : Double → Option ℚ
  | .finite negative m => some (if negative then -m.value else m.value)
  | _ => none

/-- `x < y`. -/
def lt (x y : Double) : Bool :=
  match x, y with
  | .nan, _ | _, .nan => false
  | _, .infinity false => x != .infinity false
  | _, .infinity true => false
  | .infinity negative, .finite .. => negative
  | .finite .., .finite .. => x.toRat?.any fun q => y.toRat?.any (q < ·)

/-- `min(1.0, max(0.0, x))`: each keeps its first argument unless the second is beyond it. -/
def clampUnit (x : Double) : Double :=
  let zero := ofRat false 0
  let one := ofRat false 1
  let larger := if zero.lt x then x else zero
  if larger.lt one then larger else one

/-- `0.0 <= x <= 1.0`. -/
def inUnit (x : Double) : Bool := x.toRat?.any fun q => 0 ≤ q ∧ q ≤ 1

/-- Rounding keeps a size between 0 and 1. -/
theorem inUnit_round {m : Magnitude} (h : m.value ≤ 1) (ndigits : ℕ) : (round ndigits (.finite false m)).inUnit = true := by
  have hpow : (0 : ℚ) < 10 ^ ndigits := by positivity
  have hround : roundHalfEven (m.value * 10 ^ ndigits) ≤ 10 ^ ndigits := by
    apply roundHalfEven_le
    push_cast
    exact mul_le_of_le_one_left hpow.le h
  have hle : nearest (roundHalfEven (m.value * 10 ^ ndigits) / 10 ^ ndigits) ≤ 1 := by
    apply nearest_le_one
    rw [div_le_one hpow]
    exact_mod_cast hround
  unfold round ofRat
  dsimp only
  rw [dif_pos (lt_of_le_of_lt hle (one_lt_pow₀ one_lt_two (by decide)))]
  simp [inUnit, toRat?, hle, nearest_nonneg]

/-- What is put between 0 and 1 is a size that is not above 1. -/
theorem clampUnit_cases (x : Double) : ∃ m : Magnitude, x.clampUnit = .finite false m ∧ m.value ≤ 1 := by
  have hzero : nearest 0 = 0 := by simp [nearest]
  have hone : nearest 1 = 1 := by simpa using nearest_mul_zpow (a := 1) (e := 0) (by norm_num) (by norm_num)
  have h0 : ofRat false 0 = .finite false ⟨0, hzero, by positivity⟩ := ofRat_eq hzero
  have h1 : ofRat false 1 = .finite false ⟨1, hone, one_lt_pow₀ one_lt_two (by decide)⟩ := ofRat_eq hone
  unfold clampUnit
  dsimp only
  rw [h0, h1]
  rcases x with ⟨negative, m⟩ | negative | _
  · by_cases hpos : lt (.finite false ⟨0, hzero, by positivity⟩) (.finite negative m) = true
    · rw [if_pos hpos]
      by_cases hlt : lt (.finite negative m) (.finite false ⟨1, hone, one_lt_pow₀ one_lt_two (by decide)⟩) = true
      · rw [if_pos hlt]
        have hm := m.nonneg
        cases negative <;> simp [lt, toRat?] at hpos hlt
        · exact ⟨m, rfl, hlt.le⟩
        · linarith
      · rw [if_neg hlt]
        exact ⟨_, rfl, le_rfl⟩
    · rw [if_neg hpos]
      exact ⟨_, rfl, zero_le_one⟩
  · cases negative
    · exact ⟨_, rfl, le_rfl⟩
    · exact ⟨_, rfl, zero_le_one⟩
  · exact ⟨_, rfl, zero_le_one⟩

/-- Whatever it is given, `min(1.0, max(0.0, x))` is between 0 and 1. -/
theorem inUnit_round_clampUnit (x : Double) (ndigits : ℕ) : (x.clampUnit.round ndigits).inUnit = true := by
  obtain ⟨m, hclamp, hm⟩ := clampUnit_cases x
  rw [hclamp]
  exact inUnit_round hm ndigits

end Double
end TravelMaker.Lib
