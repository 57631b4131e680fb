import Mathlib.Data.Nat.Digits.Lemmas
import TravelMaker.Lib.Decimal
import TravelMaker.Lib.Double

/-! Floats as text: `str(x)` and `float(s)`.

`str` prints the fewest digits that read back as the float, and of those the nearest.
Wherever it puts the point, the same number is read (`number?_layout`). -/
namespace TravelMaker.Lib
namespace Double
open Text Decimal

/-! ### Printing -/

/-- The two numbers of `n` digits around `m`, the nearer one first, each as its digits and
the exponent of the last one. -/
def candidates (m : ℚ) (n : ℕ) : List (ℕ × ℤ) :=
  let e := Int.log 10 m + 1 - n
  let c := roundHalfEven (m / 10 ^ e)
  [(c.toNat, e), ((if c < m / 10 ^ e then c + 1 else c - 1).toNat, e)]

def decimalValue (d : ℕ × ℤ) : ℚ := d.1 * 10 ^ d.2

/-- The shortest decimal that reads back as `m`. -/
def shortest (m : ℚ) : ℕ × ℤ :=
  (((List.range' 1 17).flatMap (candidates m)).find? fun d => nearest (decimalValue d) == m).getD (0, 0)

/-- The digits without the zeros at the end. -/
def significant (c : ℕ) : List Char := (((Nat.digits 10 c).dropWhile (· == 0)).reverse).map Nat.digitChar

/-- Two digits at least. -/
def exponentDigits (n : ℕ) : List Char :=
  let digits := ((Nat.digits 10 n).reverse).map Nat.digitChar
  List.replicate (2 - digits.length) '0' ++ digits

def exponentText (e : ℤ) : List Char := (if e < 0 then '-' else '+') :: exponentDigits e.natAbs

/-- Digits with the point after the first `point` of them. -/
def layout (digits : List Char) (point : ℤ) : List Char :=
  if point ≤ -4 ∨ 16 < point then
    match digits with
    | [] => []
    | [d] => d :: 'e' :: exponentText (point - 1)
    | d :: rest => d :: '.' :: rest ++ 'e' :: exponentText (point - 1)
  else if point ≤ 0 then '0' :: '.' :: (List.replicate (-point).toNat '0' ++ digits)
  else if digits.length ≤ point then
    digits ++ List.replicate (point.toNat - digits.length) '0' ++ ['.', '0']
  else digits.take point.toNat ++ '.' :: digits.drop point.toNat

def magnitudeText (m : ℚ) : List Char :=
  if m = 0 then ['0', '.', '0']
  else
    let d := shortest m
    layout (significant d.1) (d.2 + (Nat.digits 10 d.1).length)

/-- `str(x)`. -/
def text : Double → String
  | .finite negative m => .ofList ((if negative then ['-'] else []) ++ magnitudeText m.value)
  | .infinity negative => if negative then "-inf" else "inf"
  | .nan => "nan"

/-- `format(x, ".nf")`, with at least one digit after the point. -/
def fixedText (ndigits : ℕ) : Double → String
  | .finite negative m =>
    let n := (roundHalfEven (m.value * 10 ^ ndigits)).toNat
    let fraction := Nat.toDigits 10 (n % 10 ^ ndigits)
    .ofList ((if negative then ['-'] else []) ++ Nat.toDigits 10 (n / 10 ^ ndigits) ++
      '.' :: (List.replicate (ndigits - fraction.length) '0' ++ fraction))
  | .infinity negative => if negative then "-inf" else "inf"
  | .nan => "nan"

/-! ### Reading -/

/-- An underscore stands between digits; `digit` says that the last character was one. -/
def underscoresOk : (digit : Bool) → List Char → Bool
  | digit, '_' :: c :: rest => digit && isDigit c && underscoresOk true rest
  | _, ['_'] => false
  | _, c :: rest => underscoresOk (isDigit c) rest
  | _, [] => true

/-- Digits with an optional point and an optional exponent. -/
def number? (s : List Char) : Option ℚ :=
  let whole := s.takeWhile isDigit
  let (fraction, rest) := match s.dropWhile isDigit with
    | '.' :: rest => (rest.takeWhile isDigit, rest.dropWhile isDigit)
    | rest => ([], rest)
  if whole ++ fraction = [] then none
  else (exponent? rest).map fun e => decimalValue (digitsToNat (whole ++ fraction), e - fraction.length)

/-- `float(s)`; `none` for the `ValueError`. -/
def ofText? (s : String) : Option Double :=
  let body := stripWith isIntSpace s.toList
  if underscoresOk false body then
    let (negative, unsigned) := splitSign (body.filter (· != '_'))
    let name := unsigned.map Char.toLower
    if name = "inf".toList ∨ name = "infinity".toList then some (.infinity negative)
    else if name = "nan".toList then some .nan
    else (number? unsigned).map (ofRat negative)
  else none

/-! ### Digits -/

/-- All the characters are decimal digits. -/
def Digits (s : List Char) : Prop := ∀ c ∈ s, isDigit c = true

theorem digit?_digitChar : ∀ d < 10, digit? (Nat.digitChar d) = some d := by decide

theorem digit?_zero : digit? '0' = some 0 := by decide

theorem isDigit_digitChar {d : ℕ} (hd : d < 10) : isDigit (Nat.digitChar d) = true := by
  rw [isDigit, digit?_digitChar d hd]
  rfl

theorem digits_append {s t : List Char} (hs : Digits s) (ht : Digits t) : Digits (s ++ t) := by
  intro c hc
  rcases List.mem_append.mp hc with hc | hc
  · exact hs c hc
  · exact ht c hc

theorem digits_replicate_zero (n : ℕ) : Digits (List.replicate n '0') := by
  intro c hc
  rw [List.eq_of_mem_replicate hc]
  decide

theorem digits_map {l : List ℕ} (hl : ∀ d ∈ l, d < 10) : Digits (l.map Nat.digitChar) := by
  intro c hc
  obtain ⟨d, hd, rfl⟩ := List.mem_map.mp hc
  exact isDigit_digitChar (hl d hd)

theorem isDigit_of_ascii {c : Char} (h : c.isDigit = true) : isDigit c = true := by
  have hrange : 48 ≤ c.toNat ∧ c.toNat ≤ 57 := by
    simpa [Char.isDigit, UInt32.le_iff_toNat_le] using h
  rw [isDigit, digit?, decimalZeros, List.find?_cons_of_pos (by simpa using hrange)]
  rfl

theorem digits_toDigits (n : ℕ) : Digits (Nat.toDigits 10 n) := fun _ hc =>
  isDigit_of_ascii (Nat.isDigit_of_mem_toDigits (by decide) (by decide) hc)

theorem digitsToNat_concat (s : List Char) (c : Char) :
    digitsToNat (s ++ [c]) = digitsToNat s * 10 + (digit? c).getD 0 := by
  rw [digitsToNat, List.foldl_append]
  rfl

theorem digitsToNat_append_zeros (s : List Char) (n : ℕ) :
    digitsToNat (s ++ List.replicate n '0') = digitsToNat s * 10 ^ n := by
  induction n with
  | zero => simp
  | succ n ih =>
    rw [List.replicate_succ', ← List.append_assoc, digitsToNat_concat, ih, digit?_zero]
    simp only [Option.getD_some]
    ring

theorem digitsToNat_zeros_append (s : List Char) (n : ℕ) : digitsToNat (List.replicate n '0' ++ s) = digitsToNat s := by
  induction n with
  | zero => rfl
  | succ n ih => exact ih

/-- The digits are read as they were written. -/
theorem digitsToNat_map {l : List ℕ} (hl : ∀ d ∈ l, d < 10) :
    digitsToNat (l.reverse.map Nat.digitChar) = Nat.ofDigits 10 l := by
  induction l with
  | nil => rfl
  | cons d l ih =>
    rw [List.reverse_cons, List.map_append, List.map_singleton, digitsToNat_concat,
      ih fun d hd => hl d (List.mem_cons_of_mem _ hd), digit?_digitChar d (hl d List.mem_cons_self), Nat.ofDigits_cons]
    simp only [Option.getD_some]
    ring

/-! ### Reading what was laid out -/

section
variable {w f t : List Char}

theorem takeWhile_digits (hw : Digits w) (ht : ∀ c ∈ t.head?, isDigit c = false) :
    (w ++ t).takeWhile isDigit = w ∧ (w ++ t).dropWhile isDigit = t := by
  rw [List.takeWhile_append_of_pos hw, List.dropWhile_append_of_pos hw]
  cases t with
  | nil => exact ⟨List.append_nil w, rfl⟩
  | cons c t =>
    have hc := ht c rfl
    constructor
    · rw [List.takeWhile_cons_of_neg (by simp [hc]), List.append_nil]
    · rw [List.dropWhile_cons_of_neg (by simp [hc])]

theorem number?_whole (hw : Digits w) (hne : w ≠ []) (ht : ∀ c ∈ t.head?, isDigit c = false ∧ c ≠ '.') :
    number? (w ++ t) = (exponent? t).map fun e => decimalValue (digitsToNat w, e) := by
  obtain ⟨htake, hdrop⟩ := takeWhile_digits hw fun c hc => (ht c hc).1
  simp only [number?, htake, hdrop]
  split
  · exact absurd rfl (ht '.' rfl).2
  · rw [List.append_nil, if_neg hne]
    simp only [List.length_nil, Nat.cast_zero, sub_zero]

theorem number?_fraction (hw : Digits w) (hf : Digits f) (hne : w ≠ []) (ht : ∀ c ∈ t.head?, isDigit c = false) :
    number? (w ++ '.' :: (f ++ t)) =
      (exponent? t).map fun e => decimalValue (digitsToNat (w ++ f), e - f.length) := by
  obtain ⟨htake, hdrop⟩ := takeWhile_digits (t := '.' :: (f ++ t)) hw fun c hc => by
    obtain rfl : '.' = c := Option.some.inj hc
    decide
  obtain ⟨htake', hdrop'⟩ := takeWhile_digits hf ht
  simp only [number?, htake, hdrop, htake', hdrop']
  rw [if_neg fun h => hne (List.append_eq_nil_iff.mp h).1]

end

theorem digits_exponentDigits (n : ℕ) : Digits (exponentDigits n) :=
  digits_append (digits_replicate_zero _)
    (digits_map fun _ hd => Nat.digits_lt_base (by norm_num) (List.mem_reverse.mp hd))

theorem digitsToNat_exponentDigits (n : ℕ) : digitsToNat (exponentDigits n) = n := by
  rw [exponentDigits, digitsToNat_zeros_append, digitsToNat_map fun _ hd => Nat.digits_lt_base (by norm_num) hd,
    Nat.ofDigits_digits]

theorem exponentDigits_ne_nil (n : ℕ) : exponentDigits n ≠ [] := by
  intro h
  have hlen := congrArg List.length h
  simp only [exponentDigits, List.length_append, List.length_replicate, List.length_nil] at hlen
  omega

/-- The exponent is read as it was written. -/
theorem exponent?_exponentText (e : ℤ) : exponent? ('e' :: exponentText e) = some e := by
  have hdigits : isE 'e' ∧ exponentDigits e.natAbs ≠ [] ∧ (exponentDigits e.natAbs).all isDigit :=
    ⟨rfl, exponentDigits_ne_nil _, List.all_eq_true.mpr (digits_exponentDigits _)⟩
  unfold exponentText
  by_cases he : e < 0
  · rw [if_pos he]
    simp only [exponent?, splitSign, if_pos hdigits, if_true, digitsToNat_exponentDigits]
    congr 1
    omega
  · rw [if_neg he]
    simp only [exponent?, splitSign, if_pos hdigits, Bool.false_eq_true, if_false, digitsToNat_exponentDigits]
    congr 1
    omega

theorem decimalValue_mul_pow (c k : ℕ) (e : ℤ) : decimalValue (c * 10 ^ k, e) = decimalValue (c, e + k) := by
  simp only [decimalValue]
  rw [zpow_add₀ (by norm_num)]
  push_cast
  rw [zpow_natCast]
  ring

/-- **Wherever the point stands, the number is the same.** -/
theorem number?_layout {digits : List Char} (hdigits : Digits digits) (hne : digits ≠ []) (point : ℤ) :
    number? (layout digits point) = some (decimalValue (digitsToNat digits, point - digits.length)) := by
  unfold layout
  split
  · -- With an exponent.
    have hexponent : ∀ c ∈ ('e' :: exponentText (point - 1)).head?, isDigit c = false ∧ c ≠ '.' := by
      intro c hc
      obtain rfl : 'e' = c := Option.some.inj hc
      decide
    split
    · exact absurd rfl hne
    · rename_i d
      refine (number?_whole (w := [d]) hdigits hne hexponent).trans ?_
      rw [exponent?_exponentText, Option.map_some]
      rfl
    · rename_i d rest _
      have hrest : Digits rest := fun c hc => hdigits c (List.mem_cons_of_mem _ hc)
      have hd : Digits [d] := fun c hc => hdigits c (by simp_all)
      refine (number?_fraction hd hrest (by simp) fun c hc => (hexponent c hc).1).trans ?_
      rw [exponent?_exponentText, Option.map_some, List.singleton_append]
      congr 3
      push_cast [List.length_cons]
      ring
  · split
    · rename_i hpoint
      have hzeros := digits_append (digits_replicate_zero (-point).toNat) hdigits
      have hread := number?_fraction (w := List.replicate 1 '0') (t := []) (digits_replicate_zero 1) hzeros (by simp)
        (by simp)
      rw [List.append_nil] at hread
      apply hread.trans
      rw [exponent?, Option.map_some, digitsToNat_zeros_append, digitsToNat_zeros_append, List.length_append,
        List.length_replicate]
      congr 3
      push_cast
      omega
    · split
      · -- An integer.
        rename_i hpoint hlen
        have hzeros := digits_append hdigits (digits_replicate_zero (point.toNat - digits.length))
        have hread := number?_fraction (f := List.replicate 1 '0') (t := []) hzeros (digits_replicate_zero 1)
          (by simp [hne]) (by simp)
        rw [List.append_nil] at hread
        apply hread.trans
        rw [exponent?, Option.map_some, List.append_assoc, List.replicate_append_replicate, digitsToNat_append_zeros,
          decimalValue_mul_pow, List.length_replicate]
        congr 3
        push_cast
        omega
      · rename_i hpoint hlen
        have hread := number?_fraction (w := digits.take point.toNat) (f := digits.drop point.toNat) (t := [])
          (fun c hc => hdigits c (List.mem_of_mem_take hc)) (fun c hc => hdigits c (List.mem_of_mem_drop hc))
          (by simp [hne]; omega) (by simp)
        rw [List.append_nil] at hread
        apply hread.trans
        rw [exponent?, Option.map_some, List.take_append_drop, List.length_drop]
        congr 3
        omega

end Double
end TravelMaker.Lib
