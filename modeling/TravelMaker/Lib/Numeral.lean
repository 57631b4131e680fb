import TravelMaker.Lib.DoubleRoundTrip

/-! Whole numbers as text: what `int` reads, and what `str.isdigit` sees.

`int` reads a `Literal` and nothing else. `isdigit` knows digits that are not decimal, looks
at no length, and `strip` takes away characters that `int` does not: the texts that pass
the one and not the other are those that are not `Readable`. -/
namespace TravelMaker.Lib
open Text Decimal

/-! ### Literals -/

/-- Digits with single underscores between them; `after` says that a digit came before. -/
inductive Grouped : (after : Bool) → (text digits : List Char) → Prop where
  | nil : Grouped true [] []
  | underscore {text digits : List Char} : Grouped false text digits → Grouped true ('_' :: text) digits
  | digit {after : Bool} {c : Char} {text digits : List Char} : isDigit c = true → Grouped true text digits →
    Grouped after (c :: text) (c :: digits)

/-- White space, a sign, and digits. -/
structure Literal where
  left : List Char
  sign : Option Bool
  body : List Char
  digits : List Char
  right : List Char
  space : ∀ c ∈ left ++ right, isIntSpace c = true
  grouped : Grouped false body digits
  length_le : digits.length ≤ intMaxStrDigits

namespace Literal

def signText : Option Bool → List Char
  | none => []
  | some negative => [if negative then '-' else '+']

def text (l : Literal) : List Char := l.left ++ (signText l.sign ++ l.body) ++ l.right

def value (l : Literal) : Int := (if l.sign = some true then -1 else 1) * digitsToNat l.digits

end Literal

/-! ### Groups of digits -/

section
variable {after : Bool} {c : Char} {rest digits : List Char}

theorem grouped_nil : Grouped after [] digits ↔ after = true ∧ digits = [] := by
  constructor
  · intro h
    cases h
    exact ⟨rfl, rfl⟩
  · rintro ⟨rfl, rfl⟩
    exact .nil

theorem grouped_underscore : Grouped after ('_' :: rest) digits ↔ after = true ∧ Grouped false rest digits := by
  constructor
  · intro h
    cases h with
    | underscore hrest => exact ⟨rfl, hrest⟩
    | digit hdigit => exact absurd hdigit (by decide)
  · rintro ⟨rfl, hrest⟩
    exact .underscore hrest

theorem grouped_cons (hc : c ≠ '_') : Grouped after (c :: rest) digits ↔
    isDigit c = true ∧ ∃ tail, digits = c :: tail ∧ Grouped true rest tail := by
  constructor
  · intro h
    cases h with
    | underscore => exact absurd rfl hc
    | digit hdigit hrest => exact ⟨hdigit, _, rfl, hrest⟩
  · rintro ⟨hdigit, tail, rfl, hrest⟩
    exact .digit hdigit hrest

end

/-- The digits after `value`. -/
def valueFrom (value : Nat) (digits : List Char) : Nat := digits.foldl (fun n c => n * 10 + (digit? c).getD 0) value

/-- The reader of digits takes the groups. -/
theorem digitsValue_eq_some_iff {s : List Char} {value n : Nat} {after : Bool} :
    digitsValue value after s = some n ↔ ∃ digits, Grouped after s digits ∧ n = valueFrom value digits := by
  induction s generalizing value after with
  | nil => cases after <;> simp [digitsValue, grouped_nil, valueFrom, eq_comm]
  | cons c rest ih =>
    rw [digitsValue]
    by_cases hc : c = '_'
    · subst hc
      rw [if_pos rfl]
      cases after <;> simp [grouped_underscore, ih]
    · rw [if_neg hc]
      simp only [grouped_cons hc]
      cases hd : digit? c with
      | none => simp [isDigit, hd]
      | some d =>
        have hvalue : ∀ digits, valueFrom value (c :: digits) = valueFrom (value * 10 + d) digits := by
          intro digits
          rw [valueFrom, List.foldl_cons, hd]
          rfl
        rw [Option.bind_some, ih]
        simp [isDigit, hd, hvalue]

/-- The digits are what is left without the underscores. -/
theorem Grouped.filter_eq {after : Bool} {text digits : List Char} (h : Grouped after text digits) :
    text.filter (· != '_') = digits := by
  induction h with
  | nil => rfl
  | underscore _ ih => rw [List.filter_cons_of_neg (by decide), ih]
  | digit hdigit _ ih =>
    rename_i c _ _ _
    have hc : (c != '_') = true := by
      rw [bne_iff_ne]
      rintro rfl
      exact absurd hdigit (by decide)
    rw [List.filter_cons, if_pos hc, ih]

theorem Grouped.char {after : Bool} {text digits : List Char} (h : Grouped after text digits) :
    ∀ c ∈ text, isDigit c = true ∨ c = '_' := by
  induction h with
  | nil => exact List.forall_mem_nil _
  | underscore _ ih => exact List.forall_mem_cons.mpr ⟨.inr rfl, ih⟩
  | digit hdigit _ ih => exact List.forall_mem_cons.mpr ⟨.inl hdigit, ih⟩

/-! ### Reading -/

/-- White space around a text without white space. -/
theorem stripWith_append {p : Char → Bool} {left middle right : List Char} (hspace : ∀ c ∈ left ++ right, p c = true)
    (hmiddle : ∀ c ∈ middle, p c = false) (hne : middle ≠ []) : stripWith p (left ++ middle ++ right) = middle := by
  have hdrop : ∀ {left middle right : List Char}, (∀ c ∈ left, p c = true) → (∀ c ∈ middle, p c = false) → middle ≠ [] →
      (left ++ (middle ++ right)).dropWhile p = middle ++ right := by
    intro left middle right hleft hmiddle hne
    rw [List.dropWhile_append_of_pos hleft]
    cases middle with
    | nil => exact absurd rfl hne
    | cons c rest =>
      rw [List.cons_append, List.dropWhile_cons_of_neg]
      rw [hmiddle c List.mem_cons_self]
      decide
  rw [List.forall_mem_append] at hspace
  have hright : (right.reverse ++ (middle.reverse ++ [])).dropWhile p = middle.reverse ++ [] :=
    hdrop (fun c hc => hspace.2 c (List.mem_reverse.mp hc)) (fun c hc => hmiddle c (List.mem_reverse.mp hc))
      (fun h => hne (List.reverse_eq_nil_iff.mp h))
  rw [List.append_nil] at hright
  rw [stripWith, List.append_assoc, hdrop hspace.1 hmiddle hne, List.rdropWhile, List.reverse_append, hright,
    List.reverse_reverse]

/-- No digit of any script is white space. -/
theorem isSpace_of_isDigit {c : Char} (h : isDigit c = true) : isSpace c = false := by
  by_contra hspace
  rw [Bool.not_eq_false] at hspace
  have hnumeric := Double.isNumeric_of_isSpace hspace
  rw [Double.isNumeric_of_isDigit h] at hnumeric
  cases hnumeric

theorem isIntSpace_of_isSpace {c : Char} (h : isSpace c = false) : isIntSpace c = false := by
  rw [isIntSpace, h, Bool.false_and]

namespace Literal

/-- What stands between the white space. -/
def core (l : Literal) : List Char := signText l.sign ++ l.body

theorem char_core (l : Literal) : ∀ c ∈ l.core, isDigit c = true ∨ c ∈ ['-', '+', '_'] := by
  intro c hc
  rcases List.mem_append.mp hc with hc | hc
  · cases hsign : l.sign with
    | none =>
      rw [hsign] at hc
      cases hc
    | some negative =>
      rw [hsign] at hc
      obtain rfl := List.mem_singleton.mp hc
      cases negative <;> decide
  · rcases l.grouped.char c hc with hdigit | rfl
    · exact .inl hdigit
    · decide

/-- The signs and the underscore one by one. -/
theorem forall_mark {P : Char → Prop} (hminus : P '-') (hplus : P '+') (hunderscore : P '_') : ∀ c ∈ ['-', '+', '_'], P c := by
  simp [hminus, hplus, hunderscore]

theorem isSpace_sign : ∀ c ∈ ['-', '+', '_'], isSpace c = false := forall_mark (by decide) (by decide) (by decide)

theorem isSpace_core (l : Literal) : ∀ c ∈ l.core, isSpace c = false := by
  intro c hc
  rcases l.char_core c hc with hdigit | hmark
  · exact isSpace_of_isDigit hdigit
  · exact isSpace_sign c hmark

/-- The digits begin with a digit. -/
theorem exists_body (l : Literal) : ∃ c rest, l.body = c :: rest ∧ isDigit c = true := by
  obtain ⟨left, sign, body, digits, right, space, grouped, length_le⟩ := l
  cases grouped with
  | digit hdigit => exact ⟨_, _, rfl, hdigit⟩

theorem stripWith_text (l : Literal) : stripWith isIntSpace l.text = l.core := by
  obtain ⟨c, rest, hbody, -⟩ := l.exists_body
  refine stripWith_append l.space (fun c hc => isIntSpace_of_isSpace (l.isSpace_core c hc)) ?_
  rw [hbody]
  simp

end Literal

/-- The sign of a text, if it starts with one. -/
theorem exists_signText (body : List Char) : ∃ sign text, body = Literal.signText sign ++ text ∧
    (sign = none → ∀ c ∈ text.head?, c ≠ '-' ∧ c ≠ '+') := by
  cases body with
  | nil => exact ⟨none, [], rfl, fun _ c hc => absurd hc (by simp)⟩
  | cons c rest =>
    by_cases hminus : c = '-'
    · exact ⟨some true, rest, congrArg (· :: rest) hminus, fun h => nomatch h⟩
    · by_cases hplus : c = '+'
      · exact ⟨some false, rest, congrArg (· :: rest) hplus, fun h => nomatch h⟩
      · refine ⟨none, c :: rest, rfl, fun _ d hd => ?_⟩
        obtain rfl := Option.some.inj hd
        exact ⟨hminus, hplus⟩

theorem int?_of_sign {s : String} {sign : Option Bool} {text : List Char}
    (hbody : stripWith isIntSpace s.toList = Literal.signText sign ++ text)
    (hhead : sign = none → ∀ c ∈ text.head?, c ≠ '-' ∧ c ≠ '+') :
    int? s = if (text.filter (· != '_')).length ≤ intMaxStrDigits then
      (digitsValue 0 false text).map fun n : Nat => (if sign = some true then -1 else 1) * (n : Int) else none := by
  have hmap : ∀ sign : Int, ((digitsValue 0 false text >>= fun n => pure (n : Int)).map fun n => sign * n) =
      (digitsValue 0 false text).map fun n : Nat => sign * (n : Int) := by
    intro sign
    cases digitsValue 0 false text <;> rfl
  simp only [← hmap]
  unfold int?
  rw [hbody]
  cases sign with
  | some negative => cases negative <;> rfl
  | none =>
    cases text with
    | nil => rfl
    | cons c rest =>
      obtain ⟨hminus, hplus⟩ := hhead rfl c rfl
      simp [Literal.signText, hminus, hplus]

/-- **`int(s)`.** The texts that are read are the literals. -/
theorem int?_eq_some_iff {s : String} {n : Int} : int? s = some n ↔ ∃ l : Literal, s.toList = l.text ∧ n = l.value := by
  constructor
  · intro h
    obtain ⟨left, right, hs, hleft, hright⟩ := stripWith_split isIntSpace s.toList
    obtain ⟨sign, text, hbody, hhead⟩ := exists_signText (stripWith isIntSpace s.toList)
    rw [int?_of_sign hbody hhead] at h
    split at h
    · rename_i hlength
      obtain ⟨m, hm, rfl⟩ := Option.map_eq_some_iff.mp h
      obtain ⟨digits, hgrouped, rfl⟩ := digitsValue_eq_some_iff.mp hm
      rw [hgrouped.filter_eq] at hlength
      refine ⟨⟨left, sign, text, digits, right, List.forall_mem_append.mpr ⟨hleft, hright⟩, hgrouped, hlength⟩, ?_, rfl⟩
      rw [Literal.text, List.append_assoc, ← hbody]
      exact hs
    · cases h
  · intro h
    obtain ⟨l, hs, rfl⟩ := h
    have hhead : l.sign = none → ∀ c ∈ l.body.head?, c ≠ '-' ∧ c ≠ '+' := by
      intro _ c hc
      obtain ⟨first, rest, hbody, hdigit⟩ := l.exists_body
      rw [hbody] at hc
      obtain rfl := Option.some.inj hc
      constructor <;> rintro rfl <;> exact absurd hdigit (by decide)
    have hbody : stripWith isIntSpace s.toList = Literal.signText l.sign ++ l.body := by
      rw [hs]
      exact l.stripWith_text
    have hvalue : digitsValue 0 false l.body = some (digitsToNat l.digits) :=
      digitsValue_eq_some_iff.mpr ⟨l.digits, l.grouped, rfl⟩
    rw [int?_of_sign hbody hhead, l.grouped.filter_eq, if_pos l.length_le, hvalue]
    rfl

/-! ### Digits that are not decimal -/

/-- Superscripts, subscripts, circled digits and the like, by their code points. -/
def otherDigits : List (Nat × Nat) := [
  (0xB2, 0xB3), (0xB9, 0xB9), (0x1369, 0x1371), (0x19DA, 0x19DA), (0x2070, 0x2070), (0x2074, 0x2079), (0x2080, 0x2089),
  (0x2460, 0x2468), (0x2474, 0x247C), (0x2488, 0x2490), (0x24EA, 0x24EA), (0x24F5, 0x24FD), (0x24FF, 0x24FF),
  (0x2776, 0x277E), (0x2780, 0x2788), (0x278A, 0x2792), (0x10A40, 0x10A43), (0x10E60, 0x10E68), (0x11052, 0x1105A),
  (0x1F100, 0x1F10A)]

def isAnyDigit (c : Char) : Bool := isDigit c || otherDigits.any fun range => range.1 ≤ c.toNat && c.toNat ≤ range.2

/-- `str.isdigit()`. -/
def isdigit (s : String) : Bool := s.toList != [] && s.toList.all isAnyDigit

example : isdigit "x²" = false ∧ isdigit "²" = true ∧ int? "²" = none := by decide +kernel

/-- The separators of ASCII: `strip` takes them away, `int` does not. -/
def isSeparator (c : Char) : Bool := 28 ≤ c.toNat && c.toNat ≤ 31

/-- A text of digits that `int` reads. -/
structure Readable (s : String) : Prop where
  decimal : ∀ c ∈ (strip s).toList, isDigit c = true
  length_le : (strip s).toList.length ≤ intMaxStrDigits
  unseparated : ∀ c ∈ s.toList, isSeparator c = false

theorem isSpace_of_isAnyDigit {c : Char} (h : isAnyDigit c = true) : isSpace c = false := by
  by_contra hspace
  rw [Bool.not_eq_false] at hspace
  have hother : isAnyDigit c = false := of_isSpace (P := fun c => isAnyDigit c = false) (by decide) hspace
  rw [h] at hother
  cases hother

theorem isAnyDigit_sign : ∀ c ∈ ['-', '+', '_'], isAnyDigit c = false :=
  Literal.forall_mark (by decide) (by decide) (by decide)

theorem isSeparator_of_isSpace {c : Char} (h : isSpace c = false) : isSeparator c = false := by
  by_contra hseparator
  rw [Bool.not_eq_false, isSeparator, Bool.and_eq_true, decide_eq_true_eq, decide_eq_true_eq] at hseparator
  have hspace : isSpace c = true := by
    simp only [isSpace, Bool.or_eq_true, Bool.and_eq_true, decide_eq_true_eq, beq_iff_eq]
    omega
  rw [h] at hspace
  cases hspace

theorem grouped_of_digits {digits : List Char} (h : Double.Digits digits) : Grouped true digits digits := by
  induction digits with
  | nil => exact .nil
  | cons c rest ih =>
    obtain ⟨hc, hrest⟩ := List.forall_mem_cons.mp h
    exact .digit hc (ih hrest)

/-- Digits are a literal without a sign. -/
theorem exists_literal {left digits right : List Char} (hspace : ∀ c ∈ left ++ right, isIntSpace c = true)
    (hgrouped : Grouped false digits digits) (hlength : digits.length ≤ intMaxStrDigits) :
    ∃ l : Literal, l.text = left ++ digits ++ right ∧ l.value = digitsToNat digits := by
  refine ⟨⟨left, none, digits, digits, right, hspace, hgrouped, hlength⟩, ?_, ?_⟩
  · simp [Literal.text, Literal.signText]
  · simp [Literal.value]

/-- What `strip` leaves of the text is read. -/
theorem int?_of_readable {s : String} (hdigit : isdigit (strip s) = true) (h : Readable s) :
    int? s = some (digitsToNat (strip s).toList) := by
  obtain ⟨left, right, hs, hleft, hright⟩ := stripWith_split isSpace s.toList
  have hstrip : (strip s).toList = stripWith isSpace s.toList := String.toList_ofList
  have hspace : ∀ c ∈ left ++ right, isIntSpace c = true := by
    intro c hc
    have hmem : c ∈ s.toList := by
      rw [hs]
      rcases List.mem_append.mp hc with hc | hc <;> simp [hc]
    have hcspace : isSpace c = true := (List.forall_mem_append (p := fun c => isSpace c = true)).mpr ⟨hleft, hright⟩ c hc
    have hseparator := h.unseparated c hmem
    rw [isIntSpace, hcspace, Bool.true_and]
    rw [isSeparator] at hseparator
    rw [hseparator]
    rfl
  have hgrouped : Grouped false (strip s).toList (strip s).toList := by
    cases hdigits : (strip s).toList with
    | nil =>
      rw [isdigit, hdigits] at hdigit
      cases hdigit
    | cons c rest =>
      obtain ⟨hc, hrest⟩ := List.forall_mem_cons.mp (hdigits ▸ h.decimal)
      exact .digit hc (grouped_of_digits hrest)
  obtain ⟨l, htext, hvalue⟩ := exists_literal hspace hgrouped h.length_le
  refine int?_eq_some_iff.mpr ⟨l, ?_, hvalue.symm⟩
  rw [htext, hstrip, List.append_assoc]
  exact hs

namespace Literal

theorem char_text (l : Literal) : ∀ c ∈ l.text, isIntSpace c = true ∨ isDigit c = true ∨ c ∈ ['-', '+', '_'] := by
  intro c hc
  rcases List.mem_append.mp hc with hc | hc
  · rcases List.mem_append.mp hc with hc | hc
    · exact .inl (l.space c (List.mem_append_left _ hc))
    · exact .inr (l.char_core c hc)
  · exact .inl (l.space c (List.mem_append_right _ hc))

/-- The digits of the text are those of the literal. -/
theorem filter_text (l : Literal) : l.text.filter isDigit = l.digits := by
  have hspace : ∀ s : List Char, (∀ c ∈ s, isIntSpace c = true) → s.filter isDigit = [] := by
    intro s hs
    refine List.filter_eq_nil_iff.mpr fun c hc hdigit => ?_
    have hnot := isIntSpace_of_isSpace (isSpace_of_isDigit hdigit)
    rw [hs c hc] at hnot
    cases hnot
  have hsign : (signText l.sign).filter isDigit = [] := by
    cases l.sign with
    | none => rfl
    | some negative => cases negative <;> decide
  have hbody : l.body.filter isDigit = l.digits := by
    rw [← l.grouped.filter_eq]
    refine List.filter_congr fun c hc => ?_
    rcases l.grouped.char c hc with hdigit | rfl
    · rw [hdigit, eq_comm, bne_iff_ne]
      rintro rfl
      exact absurd hdigit (by decide)
    · decide
  rw [text, List.filter_append, List.filter_append, List.filter_append,
    hspace _ fun c hc => l.space c (List.mem_append_left _ hc), hspace _ fun c hc => l.space c (List.mem_append_right _ hc),
    hsign, hbody, List.nil_append, List.nil_append, List.append_nil]

end Literal

/-- Of the texts that are digits for `isdigit`, `int` reads the readable ones. -/
theorem readable_iff {s : String} (hdigit : isdigit (strip s) = true) : (∃ n, int? s = some n) ↔ Readable s := by
  constructor
  · intro h
    obtain ⟨n, hn⟩ := h
    obtain ⟨l, hs, -⟩ := int?_eq_some_iff.mp hn
    have hstrip : (strip s).toList = stripWith isSpace s.toList := String.toList_ofList
    have hsublist : (strip s).toList.Sublist s.toList := by
      rw [hstrip]
      exact stripWith_sublist isSpace s.toList
    have hany : ∀ c ∈ (strip s).toList, isAnyDigit c = true := List.all_eq_true.mp ((Bool.and_eq_true _ _).mp hdigit).2
    have hdecimal : ∀ c ∈ (strip s).toList, isDigit c = true := by
      intro c hc
      rcases l.char_text c (hs ▸ hsublist.subset hc) with hspace | hdecimal | hmark
      · have hnot := isIntSpace_of_isSpace (isSpace_of_isAnyDigit (hany c hc))
        rw [hspace] at hnot
        cases hnot
      · exact hdecimal
      · have hnot := isAnyDigit_sign c hmark
        rw [hany c hc] at hnot
        cases hnot
    refine ⟨hdecimal, ?_, ?_⟩
    · have hfilter := hsublist.filter isDigit
      rw [List.filter_eq_self.mpr hdecimal, hs, l.filter_text] at hfilter
      exact hfilter.length_le.trans l.length_le
    · intro c hc
      rcases l.char_text c (hs ▸ hc) with hspace | hdecimal | hmark
      · rw [isIntSpace, Bool.and_eq_true, Bool.not_eq_true'] at hspace
        exact hspace.2
      · exact isSeparator_of_isSpace (isSpace_of_isDigit hdecimal)
      · exact isSeparator_of_isSpace (Literal.isSpace_sign c hmark)
  · exact fun h => ⟨_, int?_of_readable hdigit h⟩

end TravelMaker.Lib
