import TravelMaker.Lib.DoubleText

/-! Reading back what `str` printed of a float.

Seventeen digits tell every float from its neighbours, so `str` always finds digits that
read back, and `ofText?_text` follows from the layout. -/
namespace TravelMaker.Lib
namespace Double
open Text Decimal

/-! ### Seventeen digits are enough -/

theorem nearest_seventeen {m : ℚ} (hm : 0 < m) (hfloat : nearest m = m) :
    ∃ d ∈ candidates m 17, nearest (decimalValue d) = m := by
  have hbit : (0 : ℚ) < 10 ^ (Int.log 10 m + 1 - (17 : ℕ)) := by positivity
  have hlog : (10 : ℚ) ^ Int.log 10 m ≤ m := by exact_mod_cast Int.zpow_log_le_self (by norm_num) hm
  have hscale : (10 : ℚ) ^ Int.log 10 m = 10 ^ 16 * 10 ^ (Int.log 10 m + 1 - (17 : ℕ)) := by
    rw [← zpow_natCast, ← zpow_add₀ (by norm_num)]
    congr 1
    push_cast
    ring
  have hround := abs_roundHalfEven_sub_le (m / 10 ^ (Int.log 10 m + 1 - (17 : ℕ)))
  have hnonneg : 0 ≤ roundHalfEven (m / 10 ^ (Int.log 10 m + 1 - (17 : ℕ))) :=
    le_roundHalfEven (by push_cast; positivity)
  refine ⟨_, List.mem_cons_self, nearest_of_close hm hfloat ?_⟩
  have hvalue : decimalValue ((roundHalfEven (m / 10 ^ (Int.log 10 m + 1 - (17 : ℕ)))).toNat, Int.log 10 m + 1 - (17 : ℕ)) =
      roundHalfEven (m / 10 ^ (Int.log 10 m + 1 - (17 : ℕ))) * 10 ^ (Int.log 10 m + 1 - (17 : ℕ)) := by
    have hcast : (((roundHalfEven (m / 10 ^ (Int.log 10 m + 1 - (17 : ℕ)))).toNat : ℤ) : ℚ) =
        roundHalfEven (m / 10 ^ (Int.log 10 m + 1 - (17 : ℕ))) := by rw [Int.toNat_of_nonneg hnonneg]
    rw [decimalValue, ← hcast, Int.cast_natCast]
  rw [hvalue]
  rw [hscale] at hlog
  generalize (10 : ℚ) ^ (Int.log 10 m + 1 - (17 : ℕ)) = unit at *
  generalize roundHalfEven (m / unit) = c at *
  have hdist : |(c : ℚ) * unit - m| ≤ unit / 2 := by
    have hmul := mul_le_mul_of_nonneg_right hround hbit.le
    rwa [← abs_of_pos hbit, ← abs_mul, abs_of_pos hbit, sub_mul, div_mul_cancel₀ _ hbit.ne', one_div,
      inv_mul_eq_div] at hmul
  linarith

theorem shortest_spec {m : ℚ} (hm : 0 < m) (hfloat : nearest m = m) :
    (∃ n, 1 ≤ n ∧ shortest m ∈ candidates m n) ∧ nearest (decimalValue (shortest m)) = m := by
  obtain ⟨d, hd, hread⟩ := nearest_seventeen hm hfloat
  have hmem : d ∈ (List.range' 1 17).flatMap (candidates m) := List.mem_flatMap.mpr ⟨17, by decide, hd⟩
  have hsome := List.find?_isSome (p := fun d => nearest (decimalValue d) == m).mpr ⟨d, hmem, beq_iff_eq.mpr hread⟩
  obtain ⟨found, hfound⟩ := Option.isSome_iff_exists.mp hsome
  rw [shortest, hfound, Option.getD_some]
  have hreads := List.find?_some hfound
  obtain ⟨n, hn, hcandidate⟩ := List.mem_flatMap.mp (List.mem_of_find?_eq_some hfound)
  exact ⟨⟨n, (List.mem_range'_1.mp hn).1, hcandidate⟩, beq_iff_eq.mp hreads⟩

/-- What `str` prints reads back. -/
theorem nearest_shortest {m : ℚ} (hm : 0 < m) (hfloat : nearest m = m) : nearest (decimalValue (shortest m)) = m :=
  (shortest_spec hm hfloat).2

/-! ### Significant digits -/

theorem digits_significant (c : ℕ) : Digits (significant c) := by
  refine digits_map fun d hd => ?_
  exact Nat.digits_lt_base (by norm_num) ((List.dropWhile_sublist _).mem (List.mem_reverse.mp hd))

/-- The zeros at the end only move the point. -/
theorem decimalValue_significant (c : ℕ) (e : ℤ) :
    decimalValue (digitsToNat (significant c), e + (Nat.digits 10 c).length - (significant c).length) =
      decimalValue (c, e) := by
  have hlt : ∀ d ∈ (Nat.digits 10 c).dropWhile (· == 0), d < 10 := fun d hd =>
    Nat.digits_lt_base (by norm_num) ((List.dropWhile_sublist _).mem hd)
  have hsplit := List.takeWhile_append_dropWhile (p := (· == 0)) (l := Nat.digits 10 c)
  have hzeros : (Nat.digits 10 c).takeWhile (· == 0) = List.replicate ((Nat.digits 10 c).takeWhile (· == 0)).length 0 :=
    List.eq_replicate_of_mem fun d hd => by simpa using List.mem_takeWhile_imp hd
  have hvalue : c = digitsToNat (significant c) * 10 ^ ((Nat.digits 10 c).takeWhile (· == 0)).length := by
    conv_lhs => rw [← Nat.ofDigits_digits 10 c, ← hsplit, Nat.ofDigits_append, hzeros, Nat.ofDigits_replicate_zero]
    rw [significant, digitsToNat_map hlt, List.length_replicate]
    ring
  have hlength : (Nat.digits 10 c).length = ((Nat.digits 10 c).takeWhile (· == 0)).length + (significant c).length := by
    conv_lhs => rw [← hsplit, List.length_append]
    simp [significant]
  conv_rhs => rw [hvalue, decimalValue_mul_pow]
  congr 2
  rw [hlength]
  push_cast
  ring

theorem significant_ne_nil {c : ℕ} (h : c ≠ 0) : significant c ≠ [] := by
  intro hnil
  have hvalue := decimalValue_significant c 0
  rw [hnil] at hvalue
  simp only [decimalValue, digitsToNat, List.foldl_nil, Nat.cast_zero, zero_mul, zpow_zero, mul_one] at hvalue
  exact h (by exact_mod_cast hvalue.symm)

theorem shortest_ne_zero (m : Magnitude) (hm : m.value ≠ 0) : (shortest m.value).1 ≠ 0 := by
  have hread := nearest_shortest (lt_of_le_of_ne m.nonneg (Ne.symm hm)) m.nearest_eq
  intro hzero
  rw [decimalValue, hzero, Nat.cast_zero, zero_mul] at hread
  exact hm (hread ▸ if_neg (lt_irrefl 0))

/-- The text of a size reads as that size. -/
theorem number?_magnitudeText (m : Magnitude) : ∃ q, number? (magnitudeText m.value) = some q ∧ nearest q = m.value := by
  unfold magnitudeText
  by_cases hzero : m.value = 0
  · rw [if_pos hzero, hzero]
    refine ⟨0, ?_, if_neg (lt_irrefl 0)⟩
    decide +kernel
  · rw [if_neg hzero]
    refine ⟨_, number?_layout (digits_significant _) (significant_ne_nil (shortest_ne_zero m hzero)) _, ?_⟩
    rw [decimalValue_significant]
    exact nearest_shortest (lt_of_le_of_ne m.nonneg (Ne.symm hzero)) m.nearest_eq

/-! ### The characters -/

/-- The characters of floats. -/
def isNumeric (c : Char) : Bool := isDigit c || ['.', 'e', '-', '+', 'i', 'n', 'f', 'a'].contains c

theorem isNumeric_of_isDigit {c : Char} (h : isDigit c = true) : isNumeric c = true := by
  rw [isNumeric, h, Bool.true_or]

theorem isNumeric_exponentText (e : ℤ) : ∀ c ∈ exponentText e, isNumeric c = true := by
  intro c hc
  rcases List.mem_cons.mp hc with rfl | hc
  · split <;> decide
  · exact isNumeric_of_isDigit (digits_exponentDigits _ c hc)

theorem isNumeric_layout {digits : List Char} (hdigits : Digits digits) (point : ℤ) :
    ∀ c ∈ layout digits point, isNumeric c = true := by
  have hdigit : ∀ c ∈ digits, isNumeric c = true := fun c hc => isNumeric_of_isDigit (hdigits c hc)
  have hzero : isNumeric '0' = true := rfl
  have hpoint : isNumeric '.' = true := by decide
  have he : isNumeric 'e' = true := by decide
  have hexponent := isNumeric_exponentText (point - 1)
  intro c hc
  unfold layout at hc
  split at hc
  · split at hc
    · exact absurd hc List.not_mem_nil
    · simp only [List.mem_cons] at hc
      rcases hc with rfl | rfl | hc
      · exact hdigit c List.mem_cons_self
      · exact he
      · exact hexponent c hc
    · simp only [List.cons_append, List.mem_cons, List.mem_append] at hc
      rcases hc with rfl | rfl | hc | rfl | hc
      · exact hdigit c List.mem_cons_self
      · exact hpoint
      · exact hdigit c (List.mem_cons_of_mem _ hc)
      · exact he
      · exact hexponent c hc
  · split at hc
    · simp only [List.mem_cons, List.mem_append, List.mem_replicate] at hc
      rcases hc with rfl | rfl | ⟨-, rfl⟩ | hc
      · exact hzero
      · exact hpoint
      · exact hzero
      · exact hdigit c hc
    · split at hc
      · simp only [List.mem_cons, List.mem_append, List.mem_replicate, List.not_mem_nil, or_false] at hc
        rcases hc with (hc | ⟨-, rfl⟩) | rfl | rfl
        · exact hdigit c hc
        · exact hzero
        · exact hpoint
        · exact hzero
      · simp only [List.mem_cons, List.mem_append] at hc
        rcases hc with hc | rfl | hc
        · exact hdigit c (List.mem_of_mem_take hc)
        · exact hpoint
        · exact hdigit c (List.mem_of_mem_drop hc)

theorem isNumeric_magnitudeText (m : ℚ) : ∀ c ∈ magnitudeText m, isNumeric c = true := by
  unfold magnitudeText
  split
  · exact List.all_eq_true.mp (by decide)
  · exact isNumeric_layout (digits_significant _) _

theorem isNumeric_text (x : Double) : ∀ c ∈ x.text.toList, isNumeric c = true := by
  cases x with
  | finite negative m =>
    rw [text, String.toList_ofList]
    intro c hc
    rcases List.mem_append.mp hc with hc | hc
    · cases negative with
      | true =>
        obtain rfl := List.mem_singleton.mp hc
        decide
      | false => exact absurd hc List.not_mem_nil
    · exact isNumeric_magnitudeText _ c hc
  | infinity negative => cases negative <;> exact List.all_eq_true.mp (by decide)
  | nan => exact List.all_eq_true.mp (by decide)

theorem isNumeric_fixedText (ndigits : ℕ) (x : Double) : ∀ c ∈ (x.fixedText ndigits).toList, isNumeric c = true := by
  cases x with
  | finite negative m =>
    have hdigit : ∀ n, ∀ c ∈ Nat.toDigits 10 n, isNumeric c = true := fun n c hc =>
      isNumeric_of_isDigit (digits_toDigits n c hc)
    rw [fixedText, String.toList_ofList]
    intro c hc
    rcases List.mem_append.mp hc with hc | hc
    · rcases List.mem_append.mp hc with hc | hc
      · cases negative with
        | true =>
          obtain rfl := List.mem_singleton.mp hc
          decide
        | false => exact absurd hc List.not_mem_nil
      · exact hdigit _ c hc
    · rcases List.mem_cons.mp hc with rfl | hc
      · decide
      · rcases List.mem_append.mp hc with hc | hc
        · exact isNumeric_of_isDigit (digits_replicate_zero _ c hc)
        · exact hdigit _ c hc
  | infinity negative => exact isNumeric_text (.infinity negative)
  | nan => exact isNumeric_text .nan

theorem fixedText_ne_nil (ndigits : ℕ) (x : Double) : (x.fixedText ndigits).toList ≠ [] := by
  cases x with
  | finite negative m => simp [fixedText]
  | infinity negative => cases negative <;> simp [fixedText]
  | nan => simp [fixedText]

theorem head_layout {digits : List Char} (hdigits : Digits digits) (hne : digits ≠ []) (point : ℤ) :
    ∃ c rest, layout digits point = c :: rest ∧ isDigit c = true := by
  obtain ⟨d, rest, rfl⟩ := List.exists_cons_of_ne_nil hne
  have hd := hdigits d List.mem_cons_self
  unfold layout
  split
  · cases rest with
    | nil => exact ⟨d, _, rfl, hd⟩
    | cons d' rest => exact ⟨d, _, rfl, hd⟩
  · split
    · exact ⟨'0', _, rfl, rfl⟩
    · rename_i hpoint
      split
      · exact ⟨d, _, rfl, hd⟩
      · obtain ⟨n, hn⟩ : ∃ n, point.toNat = n + 1 := ⟨point.toNat - 1, by omega⟩
        rw [hn]
        exact ⟨d, _, rfl, hd⟩

/-- A number begins with a digit. -/
theorem head_magnitudeText (m : Magnitude) : ∃ c rest, magnitudeText m.value = c :: rest ∧ isDigit c = true := by
  unfold magnitudeText
  by_cases hzero : m.value = 0
  · rw [if_pos hzero]
    exact ⟨'0', _, rfl, rfl⟩
  · rw [if_neg hzero]
    exact head_layout (digits_significant _) (significant_ne_nil (shortest_ne_zero m hzero)) _

/-! ### Reading what was printed -/

theorem underscoresOk_of_not_mem {s : List Char} (h : '_' ∉ s) (digit : Bool) : underscoresOk digit s = true := by
  fun_induction underscoresOk digit s with
  | case1 digit c rest ih => exact absurd List.mem_cons_self h
  | case2 digit => exact absurd List.mem_cons_self h
  | case3 digit c rest _ _ ih => exact ih fun hmem => h (List.mem_cons_of_mem _ hmem)
  | case4 digit => rfl

theorem splitSign_of_isDigit {c : Char} {rest : List Char} (h : isDigit c = true) :
    splitSign (c :: rest) = (false, c :: rest) := by
  unfold splitSign
  split
  · rename_i heq
    obtain ⟨rfl, -⟩ := List.cons.inj heq
    exact absurd h (by decide)
  · rename_i heq
    obtain ⟨rfl, -⟩ := List.cons.inj heq
    exact absurd h (by decide)
  · rfl

/-- Digits are no letters. -/
theorem toLower_of_isDigit {c : Char} (h : isDigit c = true) : c.toLower = c := by
  have hletter : ∀ n < 26, isDigit (Char.ofNat (65 + n)) = false := by decide
  unfold Char.toLower
  split
  · rename_i hupper
    have hlo : 65 ≤ c.toNat := hupper.1
    have hhi : c.toNat ≤ 90 := hupper.2
    have hc := hletter (c.toNat - 65) (by omega)
    rw [show 65 + (c.toNat - 65) = c.toNat by omega, Char.ofNat_toNat] at hc
    exact absurd h (by simp [hc])
  · rfl

/-- What begins with a digit is no name. -/
theorem map_toLower_ne {c : Char} {rest name : List Char} (h : isDigit c = true)
    (hname : (name.head?.any fun d => !isDigit d) = true) : (c :: rest).map Char.toLower ≠ name := by
  rintro rfl
  rw [List.map_cons, List.head?_cons, Option.any_some, toLower_of_isDigit h, h] at hname
  cases hname

/-- There is no white space in a float. -/
theorem isNumeric_of_isSpace {c : Char} (h : isSpace c = true) : isNumeric c = false :=
  of_isSpace (P := fun c => isNumeric c = false) (by decide) h

theorem isSpace_text (x : Double) : ∀ c ∈ x.text.toList, isSpace c = false := by
  intro c hc
  by_contra hspace
  rw [Bool.not_eq_false] at hspace
  have hnumeric := isNumeric_text x c hc
  rw [isNumeric_of_isSpace hspace] at hnumeric
  cases hnumeric

/-- **`float(str(x))` is `x`.** -/
theorem ofText?_text (x : Double) : ofText? x.text = some x := by
  have hspace : stripWith isIntSpace x.text.toList = x.text.toList :=
    stripWith_eq_self fun c hc => by rw [isIntSpace, isSpace_text x c hc, Bool.false_and]
  have hunderscore : '_' ∉ x.text.toList := fun h => absurd (isNumeric_text x '_' h) (by decide)
  have hfilter : x.text.toList.filter (· != '_') = x.text.toList := by
    refine List.filter_eq_self.mpr fun c hc => ?_
    rw [bne_iff_ne]
    rintro rfl
    exact hunderscore hc
  rw [ofText?, hspace, if_pos (underscoresOk_of_not_mem hunderscore false), hfilter]
  cases x with
  | infinity negative => cases negative <;> rfl
  | nan => rfl
  | finite negative m =>
    obtain ⟨c, rest, htext, hc⟩ := head_magnitudeText m
    obtain ⟨q, hq, hread⟩ := number?_magnitudeText m
    have hsign : splitSign (text (.finite negative m)).toList = (negative, c :: rest) := by
      rw [text, String.toList_ofList, htext]
      cases negative with
      | true => rfl
      | false => exact splitSign_of_isDigit hc
    rw [hsign]
    dsimp only
    have hinf : ¬ ((c :: rest).map Char.toLower = "inf".toList ∨ (c :: rest).map Char.toLower = "infinity".toList) :=
      not_or.mpr ⟨map_toLower_ne hc (by decide), map_toLower_ne hc (by decide)⟩
    rw [if_neg hinf, if_neg (map_toLower_ne hc (by decide)), ← htext, hq, Option.map_some, ofRat_eq hread]

/-! ### Where a plus sign stands -/

/-- A candidate is at most one digit too large. -/
theorem decimalValue_candidate_le {m : ℚ} (hm : 0 < m) {n : ℕ} (hn : 1 ≤ n) {d : ℕ × ℤ} (hd : d ∈ candidates m n) :
    decimalValue d ≤ 2 * m := by
  have hlog : (10 : ℚ) ^ Int.log 10 m ≤ m := by exact_mod_cast Int.zpow_log_le_self (by norm_num) hm
  have hunit : (10 : ℚ) ^ (Int.log 10 m + 1 - n) ≤ m :=
    le_trans (zpow_le_zpow_right₀ (by norm_num) (by omega)) hlog
  have hle : ∀ c : ℤ, (c : ℚ) ≤ m / 10 ^ (Int.log 10 m + 1 - n) + 1 →
      decimalValue (c.toNat, Int.log 10 m + 1 - n) ≤ 2 * m := by
    intro c hc
    have hnat : ((c.toNat : ℕ) : ℚ) ≤ m / 10 ^ (Int.log 10 m + 1 - n) + 1 := by
      rcases le_or_gt 0 c with hc0 | hc0
      · have hcast : ((c.toNat : ℤ) : ℚ) = c := by rw [Int.toNat_of_nonneg hc0]
        rw [Int.cast_natCast] at hcast
        rwa [hcast]
      · rw [Int.toNat_of_nonpos hc0.le, Nat.cast_zero]
        positivity
    calc ((c.toNat : ℕ) : ℚ) * 10 ^ (Int.log 10 m + 1 - n)
        ≤ (m / 10 ^ (Int.log 10 m + 1 - n) + 1) * 10 ^ (Int.log 10 m + 1 - n) :=
          mul_le_mul_of_nonneg_right hnat (by positivity)
      _ = m + 10 ^ (Int.log 10 m + 1 - n) := by rw [add_mul, div_mul_cancel₀ _ (by positivity), one_mul]
      _ ≤ 2 * m := by linarith
  have hround := abs_le.mp (abs_roundHalfEven_sub_le (m / 10 ^ (Int.log 10 m + 1 - n)))
  unfold candidates at hd
  simp only [List.mem_cons, List.not_mem_nil, or_false] at hd
  rcases hd with rfl | rfl
  · exact hle _ (by linarith)
  · apply hle _
    split
    · push_cast
      linarith
    · push_cast
      linarith

/-- Up to one there is at most one digit before the point. -/
theorem point_le {m : Magnitude} (hm : 0 < m.value) (hle : m.value ≤ 1) :
    (shortest m.value).2 + (Nat.digits 10 (shortest m.value).1).length ≤ 1 := by
  obtain ⟨⟨n, hn, hmem⟩, -⟩ := shortest_spec hm m.nearest_eq
  have hvalue := decimalValue_candidate_le hm hn hmem
  have hne := shortest_ne_zero m hm.ne'
  generalize shortest m.value = d at *
  obtain ⟨c, e⟩ := d
  have hlength : (Nat.digits 10 c).length = Nat.log 10 c + 1 := Nat.length_digits 10 c (by norm_num) hne
  have hpow : (10 : ℚ) ^ Nat.log 10 c ≤ c := by exact_mod_cast Nat.pow_log_le_self 10 hne
  by_contra hpoint
  rw [hlength] at hpoint
  push_cast at hpoint
  have hbig : (10 : ℚ) ≤ 2 * m.value :=
    calc (10 : ℚ) = 10 ^ (1 : ℤ) := by norm_num
      _ ≤ 10 ^ ((Nat.log 10 c : ℤ) + e) := zpow_le_zpow_right₀ (by norm_num) (by omega)
      _ = 10 ^ Nat.log 10 c * 10 ^ e := by rw [zpow_add₀ (by norm_num), zpow_natCast]
      _ ≤ c * 10 ^ e := mul_le_mul_of_nonneg_right hpow (by positivity)
      _ ≤ 2 * m.value := hvalue
  linarith

theorem plus_not_mem_layout {digits : List Char} (hdigits : Digits digits) {point : ℤ} (hpoint : point ≤ 16) :
    '+' ∉ layout digits point := by
  have hdigit : '+' ∉ digits := fun h => absurd (hdigits _ h) (by decide)
  have hexponent : point ≤ -4 → '+' ∉ exponentText (point - 1) := by
    intro hle hmem
    rw [exponentText, if_pos (by omega)] at hmem
    rcases List.mem_cons.mp hmem with h | h
    · exact absurd h (by decide)
    · exact absurd (digits_exponentDigits _ _ h) (by decide)
  unfold layout
  split
  · rename_i hfar
    have hexp := hexponent (by omega)
    split <;> simp_all
  · split
    · simp [hdigit]
    · split
      · simp [hdigit]
      · have htake : '+' ∉ digits.take point.toNat := fun h => hdigit (List.mem_of_mem_take h)
        have hdrop : '+' ∉ digits.drop point.toNat := fun h => hdigit (List.mem_of_mem_drop h)
        simp [htake, hdrop]

/-- Floats up to one are printed without a plus sign. -/
theorem plus_not_mem_text {x : Double} (h : x.inUnit = true) : '+' ∉ x.text.toList := by
  cases x with
  | infinity negative => cases h
  | nan => cases h
  | finite negative m =>
    have hle : m.value ≤ 1 := by
      have hnonneg := m.nonneg
      simp only [inUnit, toRat?, Option.any_some, decide_eq_true_eq] at h
      split at h <;> linarith
    have hsize : '+' ∉ magnitudeText m.value := by
      unfold magnitudeText
      split
      · decide
      · rename_i hzero
        have hpos := lt_of_le_of_ne m.nonneg (Ne.symm hzero)
        exact plus_not_mem_layout (digits_significant _) (le_trans (point_le hpos hle) (by norm_num))
    rw [text, String.toList_ofList, List.mem_append, not_or]
    refine ⟨?_, hsize⟩
    cases negative <;> decide

end Double
end TravelMaker.Lib