import TravelMaker.Lib.Double

/-! Binary formats of floats, and the arithmetic on them: the operation on the numbers,
rounded once.

`nearest_mono` and `nearest_le` say that rounding crosses no float, so a bound that is one stays. `Double`
is the format `binary64` with the texts of its numbers. -/
namespace TravelMaker.Lib

/-- A format: so many bits after the first, none below `2 ^ least`, and every number below `2 ^ top`. -/
structure Format where
  bits : ℕ
  least : ℤ
  top : ℕ

def binary64 : Format := ⟨52, -1074, 1024⟩

def binary32 : Format := ⟨23, -149, 128⟩

namespace Format
variable (f : Format)

/-- The exponent of the last bit of a number of this size. -/
def quantum (q : ℚ) : ℤ := max (Int.log 2 q - f.bits) f.least

/-- The nearest multiple of that bit; ties go to the even one. -/
def nearest (q : ℚ) : ℚ := if 0 < q then roundHalfEven (q / 2 ^ f.quantum q) * 2 ^ f.quantum q else 0

/-! ### Rounding -/

variable {f} {q r m : ℚ}

theorem nearest_nonneg : 0 ≤ f.nearest q := by
  unfold nearest
  split
  · have := le_roundHalfEven (n := 0) (q := q / 2 ^ f.quantum q) (by push_cast; positivity)
    exact mul_nonneg (by exact_mod_cast this) (by positivity)
  · exact le_rfl

/-- No more bits than the format has. -/
theorem div_quantum_lt : q / 2 ^ f.quantum q < 2 ^ (f.bits + 1) := by
  have hlog : q < (2 : ℚ) ^ (Int.log 2 q + 1) := by exact_mod_cast Int.lt_zpow_succ_log_self (by norm_num) q
  rw [div_lt_iff₀ (by positivity)]
  calc q < (2 : ℚ) ^ (Int.log 2 q + 1) := hlog
    _ ≤ (2 : ℚ) ^ (((f.bits + 1 : ℕ) : ℤ) + f.quantum q) :=
      zpow_le_zpow_right₀ (by norm_num) (by unfold quantum; omega)
    _ = 2 ^ (f.bits + 1) * 2 ^ f.quantum q := by rw [zpow_add₀ (by norm_num), zpow_natCast]

/-- Numbers of so few bits are their own nearest. -/
theorem nearest_mul_zpow {a : ℕ} {e : ℤ} (ha : a ≤ 2 ^ (f.bits + 1)) (he : f.least ≤ e) :
    f.nearest (a * 2 ^ e) = a * 2 ^ e := by
  rcases Nat.eq_zero_or_pos a with rfl | hpos
  · simp [nearest]
  have hq : (0 : ℚ) < a * 2 ^ e := by positivity
  -- The last bit of the number is at `e` or below, or the number is the next power of two.
  have hmultiple : ∃ n : ℤ, (a * 2 ^ e : ℚ) / 2 ^ f.quantum (a * 2 ^ e) = n := by
    rcases le_or_gt (f.quantum (a * 2 ^ e)) e with hle | hgt
    · obtain ⟨k, hk⟩ := Int.eq_ofNat_of_zero_le (sub_nonneg.mpr hle)
      refine ⟨a * 2 ^ k, ?_⟩
      rw [mul_div_assoc, ← zpow_sub₀ (by norm_num), hk]
      push_cast
      rfl
    · have hlog : e + (f.bits + 1 : ℕ) ≤ Int.log 2 (a * 2 ^ e : ℚ) := by unfold quantum at hgt; omega
      have hle : (2 : ℚ) ^ (e + (f.bits + 1 : ℕ)) ≤ a * 2 ^ e := by
        have := (Int.zpow_le_iff_le_log (b := 2) (by norm_num) hq).mpr hlog
        exact_mod_cast this
      have hbig : (a : ℚ) = 2 ^ (f.bits + 1) := by
        apply le_antisymm (by exact_mod_cast ha)
        rw [zpow_add₀ (by norm_num), mul_comm, zpow_natCast] at hle
        exact le_of_mul_le_mul_right hle (by positivity)
      have hpow : (a * 2 ^ e : ℚ) = ((2 : ℕ) : ℚ) ^ (e + (f.bits + 1 : ℕ)) := by
        rw [hbig, zpow_add₀ (by norm_num), zpow_natCast, mul_comm]
        norm_num
      have hquantum : f.quantum (a * 2 ^ e) = e + 1 := by
        rw [quantum, hpow, Int.log_zpow (by norm_num)]
        push_cast
        omega
      refine ⟨2 ^ f.bits, ?_⟩
      rw [hquantum, hbig, zpow_add_one₀ (by norm_num), pow_succ]
      field_simp
      push_cast
      rfl
  obtain ⟨n, hn⟩ := hmultiple
  rw [nearest, if_pos hq, hn, roundHalfEven_intCast, ← hn, div_mul_cancel₀ _ (by positivity)]

/-- A power of two is a float. -/
theorem nearest_two_pow (hleast : f.least ≤ 0) (k : ℕ) : f.nearest (2 ^ k) = 2 ^ k := by
  have h := nearest_mul_zpow (f := f) (a := 1) (e := k) Nat.one_le_two_pow (hleast.trans (Int.natCast_nonneg k))
  simpa using h

/-- The shape of what is nearest. -/
theorem nearest_eq_mul (q : ℚ) : ∃ a : ℕ, ∃ e : ℤ, a ≤ 2 ^ (f.bits + 1) ∧ f.least ≤ e ∧ f.nearest q = a * 2 ^ e := by
  rcases le_or_gt q 0 with hle | hq
  · exact ⟨0, f.least, Nat.zero_le _, le_rfl, by simp [nearest, not_lt.mpr hle]⟩
  have hlo := le_roundHalfEven (n := 0) (q := q / 2 ^ f.quantum q) (by push_cast; positivity)
  have hhi := roundHalfEven_le (n := 2 ^ (f.bits + 1)) (q := q / 2 ^ f.quantum q) (by push_cast; exact div_quantum_lt.le)
  obtain ⟨a, ha⟩ := Int.eq_ofNat_of_zero_le hlo
  refine ⟨a, f.quantum q, ?_, le_max_right _ _, by rw [nearest, if_pos hq, ha, Int.cast_natCast]⟩
  rw [ha] at hhi
  exact_mod_cast hhi

theorem nearest_nearest (q : ℚ) : f.nearest (f.nearest q) = f.nearest q := by
  obtain ⟨a, e, ha, he, h⟩ := nearest_eq_mul (f := f) q
  rw [h, nearest_mul_zpow ha he]

/-! ### Rounding is monotone -/

theorem quantum_mono (hq : 0 < q) (h : q ≤ r) : f.quantum q ≤ f.quantum r :=
  max_le_max_right _ (sub_le_sub_right (Int.log_mono_right hq h) _)

/-- Where the last bit is higher, the number is a power of two away. -/
theorem lt_of_quantum_lt (hq : 0 < q) (h : f.quantum q < f.quantum r) :
    q < 2 ^ f.bits * 2 ^ f.quantum r ∧ (0 < r → 2 ^ f.bits * 2 ^ f.quantum r ≤ r) := by
  have hlog : Int.log 2 q < f.bits + f.quantum r ∧ f.bits + f.quantum r ≤ Int.log 2 r := by unfold quantum at h ⊢; omega
  have hpow : (2 : ℚ) ^ f.bits * 2 ^ f.quantum r = ((2 : ℕ) : ℚ) ^ ((f.bits : ℤ) + f.quantum r) := by
    rw [zpow_add₀ (by norm_num), zpow_natCast]
    norm_num
  rw [hpow]
  exact ⟨(Int.lt_zpow_iff_log_lt (b := 2) (by norm_num) hq).mpr hlog.1,
    fun hr => (Int.zpow_le_iff_le_log (b := 2) (by norm_num) hr).mpr hlog.2⟩

end Format

theorem roundHalfEven_mono {q r : ℚ} (h : q ≤ r) : roundHalfEven q ≤ roundHalfEven r := by
  rcases (Int.floor_mono h).lt_or_eq with hlt | heq
  · -- There is an integer between them.
    have hle : roundHalfEven q ≤ ⌊q⌋ + 1 := by
      simp only [roundHalfEven]
      split_ifs <;> omega
    have hge : ⌊r⌋ ≤ roundHalfEven r := le_roundHalfEven (Int.floor_le r)
    omega
  · simp only [roundHalfEven, heq]
    split_ifs <;> first | omega | (exfalso; linarith)

namespace Format
variable {f : Format} {q r m : ℚ}

theorem nearest_mono (h : q ≤ r) : f.nearest q ≤ f.nearest r := by
  rcases le_or_gt q 0 with hle | hq
  · rw [nearest, if_neg (not_lt.mpr hle)]
    exact nearest_nonneg
  have hr : 0 < r := lt_of_lt_of_le hq h
  have hbits : ∀ e : ℤ, (0 : ℚ) < 2 ^ e := fun e => by positivity
  rcases (quantum_mono (f := f) hq h).lt_or_eq with hlt | heq
  · -- A power of two is between them.
    obtain ⟨hbelow, habove⟩ := lt_of_quantum_lt hq hlt
    obtain ⟨k, hk⟩ := Int.eq_ofNat_of_zero_le (a := f.bits + f.quantum r - f.quantum q) (by omega)
    have hpow : (2 : ℚ) ^ f.bits * 2 ^ f.quantum r = 2 ^ k * 2 ^ f.quantum q := by
      rw [← zpow_natCast, ← zpow_natCast, ← zpow_add₀ (by norm_num), ← zpow_add₀ (by norm_num)]
      congr 1
      omega
    have hdown : roundHalfEven (q / 2 ^ f.quantum q) ≤ 2 ^ k := by
      apply roundHalfEven_le
      rw [div_le_iff₀ (hbits _)]
      push_cast
      exact hpow ▸ hbelow.le
    have hup : 2 ^ f.bits ≤ roundHalfEven (r / 2 ^ f.quantum r) := by
      apply le_roundHalfEven
      rw [le_div_iff₀ (hbits _)]
      push_cast
      exact habove hr
    calc f.nearest q = roundHalfEven (q / 2 ^ f.quantum q) * 2 ^ f.quantum q := by rw [nearest, if_pos hq]
      _ ≤ 2 ^ k * 2 ^ f.quantum q := mul_le_mul_of_nonneg_right (by exact_mod_cast hdown) (hbits _).le
      _ = 2 ^ f.bits * 2 ^ f.quantum r := hpow.symm
      _ ≤ roundHalfEven (r / 2 ^ f.quantum r) * 2 ^ f.quantum r :=
        mul_le_mul_of_nonneg_right (by exact_mod_cast hup) (hbits _).le
      _ = f.nearest r := by rw [nearest, if_pos hr]
  · rw [nearest, nearest, if_pos hq, if_pos hr, heq]
    refine mul_le_mul_of_nonneg_right ?_ (hbits _).le
    exact_mod_cast roundHalfEven_mono (div_le_div_of_nonneg_right h (hbits _).le)

/-- A number of the format is not crossed. -/
theorem nearest_le (hm : f.nearest m = m) (h : q ≤ m) : f.nearest q ≤ m := hm ▸ nearest_mono h

end Format

end TravelMaker.Lib
