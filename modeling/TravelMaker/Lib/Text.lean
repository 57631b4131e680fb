import Mathlib.Data.List.DropRight
import Mathlib.Data.List.Infix

/-! Text, as `str` sees it: white space, decimal digits, `strip`, `split` and `int`.

Characters are classified by their code points, over the whole of Unicode, because
the digits of the regular expressions and of `int` are not only the ASCII ones. -/
namespace TravelMaker.Lib.Text

/-! ### Characters -/

/-- `str.isspace`, and `\s` of the regular expressions. -/
def isSpace (c : Char) : Bool :=
  let n := c.toNat
  (9 ≤ n && n ≤ 13) || (28 ≤ n && n ≤ 32) || n == 0x85 || n == 0xA0 || n == 0x1680 ||
    (0x2000 ≤ n && n ≤ 0x200A) || n == 0x2028 || n == 0x2029 || n == 0x202F || n == 0x205F || n == 0x3000

/-- The code points of white space. -/
def spaces : List Nat := [
  9, 10, 11, 12, 13, 28, 29, 30, 31, 32, 0x85, 0xA0, 0x1680, 0x2000, 0x2001, 0x2002, 0x2003, 0x2004, 0x2005, 0x2006, 0x2007,
  0x2008, 0x2009, 0x200A, 0x2028, 0x2029, 0x202F, 0x205F, 0x3000]

/-- What is said of white space is said of each of its characters. -/
theorem of_isSpace {P : Char → Prop} (h : ∀ n ∈ spaces, P (.ofNat n)) {c : Char} (hc : isSpace c = true) : P c := by
  rw [← Char.ofNat_toNat c]
  apply h c.toNat
  simp only [isSpace, Bool.or_eq_true, Bool.and_eq_true, decide_eq_true_eq, beq_iff_eq] at hc
  simp only [spaces, List.mem_cons, List.not_mem_nil, or_false]
  omega

/-- The code points of the digits zero; the digits of a script follow one another. -/
def decimalZeros : List Nat := [
  0x30, 0x660, 0x6F0, 0x7C0, 0x966, 0x9E6, 0xA66, 0xAE6, 0xB66, 0xBE6, 0xC66, 0xCE6, 0xD66, 0xDE6,
  0xE50, 0xED0, 0xF20, 0x1040, 0x1090, 0x17E0, 0x1810, 0x1946, 0x19D0, 0x1A80, 0x1A90, 0x1B50,
  0x1BB0, 0x1C40, 0x1C50, 0xA620, 0xA8D0, 0xA900, 0xA9D0, 0xA9F0, 0xAA50, 0xABF0, 0xFF10, 0x104A0,
  0x10D30, 0x11066, 0x110F0, 0x11136, 0x111D0, 0x112F0, 0x11450, 0x114D0, 0x11650, 0x116C0, 0x11730,
  0x118E0, 0x11950, 0x11C50, 0x11D50, 0x11DA0, 0x11F50, 0x16A60, 0x16AC0, 0x16B50, 0x1D7CE, 0x1D7D8,
  0x1D7E2, 0x1D7EC, 0x1D7F6, 0x1E140, 0x1E2F0, 0x1E4F0, 0x1E950, 0x1FBF0]

/-- The value of a decimal digit of any script. -/
def digit? (c : Char) : Option Nat :=
  (decimalZeros.find? fun z => z ≤ c.toNat && c.toNat ≤ z + 9).map (c.toNat - ·)

/-- `\d` of the regular expressions. -/
def isDigit (c : Char) : Bool := (digit? c).isSome

/-! ### Strings -/

def stripWith (p : Char → Bool) (s : List Char) : List Char := (s.dropWhile p).rdropWhile p

/-- `str.strip()`. -/
def strip (s : String) : String := .ofList (stripWith isSpace s.toList)

/-- `str.split()`: the maximal runs of characters that are no white space. -/
def split (s : String) : List String :=
  ((s.toList.splitOnP isSpace).filter (· != [])).map .ofList

/-- `t in s`. -/
def contains (s t : String) : Bool := s.toList.tails.any (t.toList.isPrefixOf ·)

/-- The value of digits with single underscores between them, after `value`;
`digit` says that the last character was a digit. -/
def digitsValue : (value : Nat) → (digit : Bool) → List Char → Option Nat
  | value, digit, [] => if digit then some value else none
  | value, digit, c :: rest =>
    if c = '_' then if digit then digitsValue value false rest else none
    else (digit? c).bind fun d => digitsValue (value * 10 + d) true rest

/-- What `int` strips: white space without the four ASCII separators. -/
def isIntSpace (c : Char) : Bool := isSpace c && !(28 ≤ c.toNat && c.toNat ≤ 31)

/-- The most digits that `int` converts. -/
def intMaxStrDigits : Nat := 4300

/-- `int(s)`; `none` for the `ValueError`. -/
def int? (s : String) : Option Int :=
  let body := stripWith isIntSpace s.toList
  let (sign, digits) := match body with
    | '-' :: rest => (-1, rest)
    | '+' :: rest => (1, rest)
    | _ => ((1 : Int), body)
  if (digits.filter (· != '_')).length ≤ intMaxStrDigits then
    (digitsValue 0 false digits).map fun n => sign * n
  else none

example : int? " １2_0\n" = some 120 := by decide +kernel

/-! ### Ends -/

theorem prefix_iff {text start : String} : start.toList <+: text.toList ↔ ∃ rest, text = start ++ rest := by
  constructor
  · intro h
    obtain ⟨rest, hrest⟩ := h
    refine ⟨.ofList rest, String.toList_inj.mp ?_⟩
    rw [String.toList_append, String.toList_ofList, hrest]
  · intro h
    obtain ⟨rest, rfl⟩ := h
    rw [String.toList_append]
    exact List.prefix_append _ _

theorem suffix_iff {text ending : String} : ending.toList <:+ text.toList ↔ ∃ rest, text = rest ++ ending := by
  constructor
  · intro h
    obtain ⟨rest, hrest⟩ := h
    refine ⟨.ofList rest, String.toList_inj.mp ?_⟩
    rw [String.toList_append, String.toList_ofList, hrest]
  · intro h
    obtain ⟨rest, rfl⟩ := h
    rw [String.toList_append]
    exact List.suffix_append _ _

/-! ### Words -/

theorem contains_iff {s t : String} : contains s t = true ↔ t.toList <:+: s.toList := by
  unfold contains
  simp only [List.any_eq_true, List.mem_tails, List.isPrefixOf_iff_prefix, List.infix_iff_prefix_suffix, and_comm]

/-- White space at the ends is in no word. -/
theorem infix_stripWith {p : Char → Bool} {word : List Char} (hword : ∀ c ∈ word, p c = false) (s : List Char) :
    word <:+: stripWith p s ↔ word <:+: s := by
  have hdrop : ∀ {word : List Char}, (∀ c ∈ word, p c = false) → ∀ s : List Char, word <:+: s.dropWhile p ↔ word <:+: s := by
    intro word hword s
    induction s with
    | nil => exact Iff.rfl
    | cons c rest ih =>
      rw [List.dropWhile_cons]
      split
      · rename_i hc
        rw [ih, List.infix_cons_iff]
        cases word with
        | nil => exact iff_of_true List.nil_infix (.inl List.nil_prefix)
        | cons d word =>
          refine (or_iff_right fun hstarts => ?_).symm
          obtain ⟨rfl, -⟩ := List.cons_prefix_cons.mp hstarts
          rw [hword d List.mem_cons_self] at hc
          cases hc
      · exact Iff.rfl
  have hreverse : ∀ c ∈ word.reverse, p c = false := fun c hc => hword c (List.mem_reverse.mp hc)
  unfold stripWith List.rdropWhile
  rw [← List.reverse_infix, List.reverse_reverse, hdrop hreverse, List.reverse_infix, hdrop hword]

/-! ### Stripped texts -/

/-- Nothing to strip. -/
theorem stripWith_eq_self {p : Char → Bool} {s : List Char} (h : ∀ c ∈ s, p c = false) : stripWith p s = s := by
  have hdrop : s.dropWhile p = s := List.dropWhile_eq_self_iff.mpr fun hlen => by simp [h _ (List.getElem_mem hlen)]
  rw [stripWith, hdrop]
  exact List.rdropWhile_eq_self_iff.mpr fun hne => by simp [h _ (List.getLast_mem hne)]

theorem stripWith_sublist (p : Char → Bool) (s : List Char) : (stripWith p s).Sublist s :=
  (List.rdropWhile_prefix p (s.dropWhile p)).sublist.trans (List.dropWhile_sublist p)

/-- What `strip` takes away on either side. -/
theorem stripWith_split (p : Char → Bool) (s : List Char) : ∃ left right, s = left ++ (stripWith p s ++ right) ∧
    (∀ c ∈ left, p c = true) ∧ ∀ c ∈ right, p c = true := by
  refine ⟨s.takeWhile p, (s.dropWhile p).rtakeWhile p, ?_, fun c hc => List.mem_takeWhile_imp hc,
    fun c hc => List.mem_rtakeWhile_imp hc⟩
  have hright : (s.dropWhile p).rdropWhile p ++ (s.dropWhile p).rtakeWhile p = s.dropWhile p := by
    unfold List.rdropWhile List.rtakeWhile
    rw [← List.reverse_append, List.takeWhile_append_dropWhile, List.reverse_reverse]
  rw [stripWith, hright, List.takeWhile_append_dropWhile]

/-- What is stripped stays so. -/
theorem stripWith_stripWith (p : Char → Bool) (s : List Char) : stripWith p (stripWith p s) = stripWith p s := by
  have hdrop : (stripWith p s).dropWhile p = stripWith p s := by
    refine List.dropWhile_eq_self_iff.mpr fun hlen => ?_
    have hstart : stripWith p s <+: s.dropWhile p := List.rdropWhile_prefix p (s.dropWhile p)
    have hnot := List.dropWhile_get_zero_not p s (Nat.lt_of_lt_of_le hlen hstart.length_le)
    rw [hstart.getElem hlen]
    exact hnot
  rw [stripWith, hdrop]
  exact List.rdropWhile_idempotent p _

end TravelMaker.Lib.Text
