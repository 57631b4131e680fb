import TravelMaker.Lib.Language
import TravelMaker.Lib.Numeral
import TravelMaker.Place.Normalize

/-! Phone numbers as fixed points of `_clean_tel`.

A number that was written with hyphens is found again as it is. A bare one gets hyphens by
the length of its area code, and what stands between may be of any length: the expression
finds it again only where that is three or four digits (`tel_fixed_iff`). -/
namespace TravelMaker
open Lib (Regex)
open Lib.Text (isSpace isDigit strip digit?)

/-! ### Digits -/

theorem isDigit_ne {c d : Char} (h : isDigit c = true) (hd : isDigit d = false) : c ≠ d := by
  intro heq
  rw [heq, hd] at h
  cases h

/-- Between `least` and `most` digits. -/
def Digits (least most : Nat) (text : List Char) : Prop :=
  (∀ c ∈ text, isDigit c = true) ∧ least ≤ text.length ∧ text.length ≤ most

/-- Three groups of digits. -/
inductive ThreeGroups : List Char → Prop where
  | mk (area middle last : List Char) (harea : Digits 2 4 area) (hmiddle : Digits 3 4 middle) (hlast : Digits 4 4 last) :
      ThreeGroups (area ++ '-' :: (middle ++ '-' :: last))

/-- Two groups of digits. -/
inductive TwoGroups : List Char → Prop where
  | mk (first last : List Char) (hfirst : Digits 4 4 first) (hlast : Digits 4 4 last) : TwoGroups (first ++ '-' :: last)

/-- A number without hyphens. -/
inductive Bare : List Char → Prop where
  | mk (digits : List Char) (hdigits : Digits 8 11 digits) : Bare ('0' :: digits)

/-! ### What the expression finds -/

theorem yields_digitsRe {least most : Nat} {text : List Char} : (digitsRe least most).Yields text ↔ Digits least most text := by
  simp [digitsRe, Regex.Yields, Digits]

theorem noSpaces_of_digits {least most : Nat} {text : List Char} (h : Digits least most text) :
    text.filter (· != ' ') = text :=
  List.filter_eq_self.mpr fun c hc => bne_iff_ne.mpr (isDigit_ne (h.1 c hc) (by decide))

theorem noHyphen_of_digits {least most : Nat} {text : List Char} (h : Digits least most text) : '-' ∉ text :=
  fun hmem => isDigit_ne (h.1 '-' hmem) (by decide) rfl

/-- A hyphen without its spaces. -/
theorem noSpaces_hyphenRe {text : List Char} (h : hyphenRe.Yields text) : text.filter (· != ' ') = ['-'] := by
  obtain ⟨first, rest, rfl, hfirst, middle, last, rfl, hmiddle, hlast⟩ := h
  have hblank : ∀ {word : List Char}, (Regex.rep (· == ' ') 0 none).Yields word → word.filter (· != ' ') = [] := by
    intro word hword
    exact List.filter_eq_nil_iff.mpr fun c hc => by simpa using hword.1 c hc
  obtain ⟨c, rfl⟩ := List.length_eq_one_iff.mp (Nat.le_antisymm (hmiddle.2.2 1 rfl) hmiddle.2.1)
  obtain rfl : c = '-' := beq_iff_eq.mp (hmiddle.1 c (List.mem_singleton_self c))
  rw [List.filter_append, List.filter_append, hblank hfirst, hblank hlast]
  rfl

/-- The number that was found, without spaces. -/
theorem token_cases {text : List Char} (h : phoneRe.Yields text) :
    ThreeGroups (text.filter (· != ' ')) ∨ TwoGroups (text.filter (· != ' ')) ∨ (Bare text ∧ text.filter (· != ' ') = text) := by
  obtain ⟨ahead, number, rfl, rfl, h⟩ := h
  rw [List.nil_append]
  rcases h with h | h | h
  · obtain ⟨area, _, rfl, harea, hyphen, _, rfl, hhyphen, middle, _, rfl, hmiddle, hyphen', last, rfl, hhyphen', hlast⟩ := h
    rw [yields_digitsRe] at harea hmiddle hlast
    refine .inl ?_
    simp only [List.filter_append, noSpaces_of_digits harea, noSpaces_of_digits hmiddle, noSpaces_of_digits hlast,
      noSpaces_hyphenRe hhyphen, noSpaces_hyphenRe hhyphen', List.singleton_append]
    exact .mk area middle last harea hmiddle hlast
  · obtain ⟨first, _, rfl, hfirst, hyphen, last, rfl, hhyphen, hlast⟩ := h
    rw [yields_digitsRe] at hfirst hlast
    refine .inr (.inl ?_)
    simp only [List.filter_append, noSpaces_of_digits hfirst, noSpaces_of_digits hlast, noSpaces_hyphenRe hhyphen,
      List.singleton_append]
    exact .mk first last hfirst hlast
  · obtain ⟨zero, digits, rfl, hzero, hdigits⟩ := h
    rw [yields_digitsRe] at hdigits
    obtain ⟨c, rfl⟩ := List.length_eq_one_iff.mp (Nat.le_antisymm (hzero.2.2 1 rfl) hzero.2.1)
    obtain rfl : c = '0' := beq_iff_eq.mp (hzero.1 c (List.mem_singleton_self c))
    refine .inr (.inr ⟨.mk digits hdigits, ?_⟩)
    rw [List.filter_append, noSpaces_of_digits hdigits]
    rfl

/-! ### Numbers that are found again -/

theorem takes_digitsRe {least most : Nat} {text rest : List Char} (h : Digits least most text)
    (hrest : ∀ c ∈ rest.head?, isDigit c = false) : (digitsRe least most).Takes text rest :=
  Regex.takes_rep h.1 h.2.1 (fun _ hm => Option.mem_some.mp hm ▸ h.2.2) (.inr hrest)

theorem takes_hyphenRe {rest : List Char} (h : ∀ c ∈ rest.head?, isDigit c = true) : hyphenRe.Takes ['-'] rest := by
  have hnone : ∀ {rest : List Char}, (∀ c ∈ rest.head?, c ≠ ' ') → (Regex.rep (· == ' ') 0 none).Takes [] rest := by
    intro rest hrest
    refine Regex.takes_rep (fun _ hc => (List.not_mem_nil hc).elim) (Nat.le_refl 0) (fun _ hm => ?_) (.inr fun c hc => ?_)
    · cases hm
    · exact beq_false_of_ne (hrest c hc)
  have hopen : (Regex.rep (· == ' ') 0 none).Takes [] (['-'] ++ rest) := hnone fun c hc => by
    rw [← Option.some.inj hc]
    decide
  have hclose : (Regex.rep (· == ' ') 0 none).Takes [] rest := hnone fun c hc => isDigit_ne (h c hc) (by decide)
  exact hopen.seq ((Regex.takes_one rfl).seq hclose)

theorem head?_digits {least most : Nat} {text rest : List Char} (h : Digits (least + 1) most text) :
    ∀ c ∈ (text ++ rest).head?, isDigit c = true := by
  intro c hc
  obtain ⟨d, tail, rfl⟩ := List.exists_cons_of_length_pos (Nat.lt_of_lt_of_le (Nat.succ_pos least) h.2.1)
  rw [← Option.some.inj hc]
  exact h.1 d List.mem_cons_self

/-- A group of digits before a hyphen. -/
theorem hyphen_noDigit {rest : List Char} : ∀ c ∈ ('-' :: rest).head?, isDigit c = false := by
  intro c hc
  rw [← Option.some.inj hc]
  decide

theorem count_twoGroups {text : List Char} (h : TwoGroups text) : text.count '-' = 1 := by
  obtain ⟨first, last, hfirst, hlast⟩ := h
  simp [List.count_append, List.count_eq_zero_of_not_mem (noHyphen_of_digits hfirst),
    List.count_eq_zero_of_not_mem (noHyphen_of_digits hlast)]

/-- The alternatives of the expression. -/
def numberRe : Regex :=
  .alt
    (.seq (digitsRe 2 4) (.seq hyphenRe (.seq (digitsRe 3 4) (.seq hyphenRe (digitsRe 4 4)))))
    (.alt
      (.seq (digitsRe 4 4) (.seq hyphenRe (digitsRe 4 4)))
      (.seq (.one (· == '0')) (digitsRe 8 11)))

theorem phoneRe_matchAt (s : List Char) : phoneRe.matchAt none s = numberRe.matchAt none s := by
  show Option.map _ (List.flatMap _ [_]).head? = _
  rw [List.flatMap_singleton]
  rfl

theorem takes_threeGroups {text : List Char} (h : ThreeGroups text) : numberRe.Takes text [] := by
  obtain ⟨area, middle, last, harea, hmiddle, hlast⟩ := h
  have hend : (digitsRe 4 4).Takes last [] := takes_digitsRe hlast fun c hc => (Option.some_ne_none c hc.symm).elim
  have hbehind : (Regex.seq hyphenRe (digitsRe 4 4)).Takes (['-'] ++ last) [] :=
    (takes_hyphenRe (head?_digits hlast)).seq hend
  have hmost : (Regex.seq (digitsRe 3 4) (.seq hyphenRe (digitsRe 4 4))).Takes (middle ++ (['-'] ++ last)) [] :=
    (takes_digitsRe hmiddle hyphen_noDigit).seq hbehind
  have hrest : (Regex.seq hyphenRe (.seq (digitsRe 3 4) (.seq hyphenRe (digitsRe 4 4)))).Takes
      (['-'] ++ (middle ++ (['-'] ++ last))) [] := by
    refine (takes_hyphenRe ?_).seq hmost
    rw [List.append_nil]
    exact head?_digits hmiddle
  exact ((takes_digitsRe harea hyphen_noDigit).seq hrest).alt_left

theorem takes_twoGroups {text : List Char} (h : TwoGroups text) : numberRe.Takes text [] := by
  have hcount := count_twoGroups h
  obtain ⟨first, last, hfirst, hlast⟩ := h
  refine Regex.Takes.alt_right (fun word hword hstarts => ?_) (Regex.Takes.alt_left ?_)
  · obtain ⟨area, _, rfl, -, hyphen, _, rfl, hhyphen, middle, _, rfl, -, hyphen', last', rfl, hhyphen', -⟩ := hword
    have hone : ∀ {word : List Char}, hyphenRe.Yields word → 1 ≤ word.count '-' := by
      intro word hword
      refine List.count_pos_iff.mpr (List.mem_of_mem_filter (p := (· != ' ')) ?_)
      rw [noSpaces_hyphenRe hword]
      exact List.mem_singleton_self '-'
    have hle := hstarts.sublist.count_le '-'
    rw [List.append_nil, hcount] at hle
    simp only [List.count_append] at hle
    have := hone hhyphen
    have := hone hhyphen'
    omega
  · have hend : (digitsRe 4 4).Takes last [] := takes_digitsRe hlast fun c hc => (Option.some_ne_none c hc.symm).elim
    exact (takes_digitsRe hfirst hyphen_noDigit).seq ((takes_hyphenRe (head?_digits hlast)).seq hend)

/-- Digits and hyphens, with one hyphen at least. -/
def Hyphenated (token : List Char) : Prop := (∀ c ∈ token, isDigit c = true ∨ c = '-') ∧ '-' ∈ token

theorem hyphenated_groups {first rest : List Char} (hfirst : ∀ c ∈ first, isDigit c = true)
    (hrest : ∀ c ∈ rest, isDigit c = true ∨ c = '-') : Hyphenated (first ++ '-' :: rest) := by
  refine ⟨fun c hc => ?_, List.mem_append_right _ List.mem_cons_self⟩
  rcases List.mem_append.mp hc with hc | hc
  · exact .inl (hfirst c hc)
  · rcases List.mem_cons.mp hc with hc | hc
    · exact .inr hc
    · exact hrest c hc

theorem hyphenated_three {least most : Nat} {area middle last : List Char} (harea : Digits 2 4 area)
    (hmiddle : Digits least most middle) (hlast : Digits 4 4 last) : Hyphenated (area ++ '-' :: (middle ++ '-' :: last)) :=
  hyphenated_groups harea.1 (hyphenated_groups hmiddle.1 fun c hc => .inl (hlast.1 c hc)).1

theorem hyphenated_of_groups {token : List Char} (h : ThreeGroups token ∨ TwoGroups token) : Hyphenated token := by
  rcases h with ⟨area, middle, last, harea, hmiddle, hlast⟩ | ⟨first, last, hfirst, hlast⟩
  · exact hyphenated_three harea hmiddle hlast
  · exact hyphenated_groups hfirst.1 fun c hc => .inl (hlast.1 c hc)

/-- A found number as it is stored. -/
def storedTel (m : Regex.Match) : String :=
  let token := m.text.filter (· != ' ')
  .ofList (if '-' ∈ token then token else hyphenateBare token)

theorem cleanTel_str (s : String) : cleanTel (.str s) = (phoneRe.search (strip s).toList).map storedTel := by
  show (orNone (strip s)).bind _ = _
  unfold orNone
  split
  · rename_i hempty
    rw [hempty]
    rfl
  · rw [Option.bind_some]
    generalize phoneRe.search (strip s).toList = found
    rfl

theorem cleanTel_token {token : List Char} (h : Hyphenated token) :
    cleanTel (.str (.ofList token)) = (phoneRe.search token).map storedTel := by
  have hstrip : strip (.ofList token) = .ofList token := by
    unfold Lib.Text.strip
    rw [String.toList_ofList, Lib.Text.stripWith_eq_self fun c hc => ?_]
    rcases h.1 c hc with hc | rfl
    · exact Lib.isSpace_of_isDigit hc
    · decide
  rw [cleanTel_str, hstrip, String.toList_ofList]

/-- A number with hyphens is found as it is. -/
theorem cleanTel_hyphenated {token : List Char} (h : ThreeGroups token ∨ TwoGroups token) :
    cleanTel (.str (.ofList token)) = some (.ofList token) := by
  have hhyphenated := hyphenated_of_groups h
  have htakes : numberRe.Takes token [] := h.elim takes_threeGroups takes_twoGroups
  have hmatch : phoneRe.matchAt none token = some ⟨token, none⟩ := by
    rw [phoneRe_matchAt]
    simpa using htakes.matchAt none
  have hsearch : phoneRe.search token = some ⟨token, none⟩ := by
    unfold Regex.search
    cases token with
    | nil => exact hmatch
    | cons c rest =>
      unfold Regex.searchFrom
      rw [hmatch, Option.some_or]
  have hfilter : token.filter (· != ' ') = token := by
    refine List.filter_eq_self.mpr fun c hc => bne_iff_ne.mpr ?_
    rcases hhyphenated.1 c hc with hc | rfl
    · exact isDigit_ne hc (by decide)
    · decide
  rw [cleanTel_token hhyphenated, hsearch, Option.map_some]
  simp only [storedTel, hfilter, if_pos hhyphenated.2]

/-! ### Bare numbers -/

/-- How many digits are between the area code and the last four. -/
def middleLength (digits : List Char) : Nat := digits.length - areaLen digits - 4

theorem areaLen_bounds (digits : List Char) : 2 ≤ areaLen digits ∧ areaLen digits ≤ 4 := by
  unfold areaLen
  split
  · decide
  · split <;> decide

theorem Bare.length {text : List Char} (h : Bare text) : 9 ≤ text.length := by
  cases h with
  | mk digits hdigits => exact Nat.succ_le_succ hdigits.2.1

theorem Bare.noHyphen {text : List Char} (h : Bare text) : '-' ∉ text := by
  cases h with
  | mk digits hdigits => exact fun hmem => (List.mem_cons.mp hmem).elim (by decide) (noHyphen_of_digits hdigits)

/-- A bare number gets two hyphens. -/
theorem hyphenateBare_bare {text : List Char} (h : Bare text) : ∃ area middle last,
    hyphenateBare text = area ++ '-' :: (middle ++ '-' :: last) ∧ Digits 2 4 area ∧ Digits 1 6 middle ∧ Digits 4 4 last ∧
      middle.length = middleLength text := by
  obtain ⟨digits, hdigits⟩ := h
  obtain ⟨hall, hleast, hmost⟩ := hdigits
  have harea := areaLen_bounds ('0' :: digits)
  have hdigit : ∀ c ∈ '0' :: digits, isDigit c = true := List.forall_mem_cons.mpr ⟨by decide, hall⟩
  generalize htext : '0' :: digits = text at hdigit harea
  have hlength : text.length = digits.length + 1 := by rw [← htext, List.length_cons]
  generalize hlen : areaLen text = n at harea
  have hbody : (text.drop n).length = text.length - n := List.length_drop
  refine ⟨text.take n, (text.drop n).take ((text.drop n).length - 4), (text.drop n).drop ((text.drop n).length - 4),
    ?_, ⟨fun c hc => hdigit c (List.mem_of_mem_take hc), ?_⟩,
    ⟨fun c hc => hdigit c (List.mem_of_mem_drop (List.mem_of_mem_take hc)), ?_⟩,
    ⟨fun c hc => hdigit c (List.mem_of_mem_drop (List.mem_of_mem_drop hc)), ?_⟩, ?_⟩
  · unfold hyphenateBare
    simp only [hlen]
    rw [if_neg (by omega)]
    simp
  · rw [List.length_take]
    omega
  · rw [List.length_take]
    omega
  · rw [List.length_drop]
    omega
  · rw [List.length_take, middleLength, hlen]
    omega

/-- What has no hyphen is on one side of a hyphen. -/
theorem infix_beside {word left right : List Char} (hword : '-' ∉ word) (h : word <:+: left ++ '-' :: right) :
    word <:+: left ∨ word <:+: right := by
  obtain ⟨before, after, h⟩ := h
  rw [List.append_assoc] at h
  rcases List.append_eq_append_iff.mp h with ⟨gap, hleft, hbehind⟩ | ⟨gap, hbefore, hbehind⟩
  · rcases List.append_eq_append_iff.mp hbehind with ⟨more, hgap, -⟩ | ⟨more, hlong, hmore⟩
    · exact .inl ⟨before, more, by rw [hleft, hgap, List.append_assoc]⟩
    · cases more with
      | nil =>
        rw [List.append_nil] at hlong
        exact .inl ⟨before, [], by rw [hleft, hlong, List.append_nil]⟩
      | cons c more =>
        rw [hlong, (List.cons.inj hmore).1] at hword
        exact (hword (List.mem_append_right _ List.mem_cons_self)).elim
  · cases gap with
    | nil =>
      cases word with
      | nil => exact .inl List.nil_infix
      | cons c word =>
        rw [← (List.cons.inj hbehind).1] at hword
        exact (hword List.mem_cons_self).elim
    | cons c gap =>
      refine .inr ⟨gap, after, ?_⟩
      rw [List.append_assoc]
      exact (List.cons.inj hbehind).2.symm

/-- The first hyphen cuts a text in one way. -/
theorem cut_inj {first first' rest rest' : List Char} (h : '-' ∉ first) (h' : '-' ∉ first')
    (heq : first ++ '-' :: rest = first' ++ '-' :: rest') : first = first' ∧ rest = rest' := by
  rcases List.append_eq_append_iff.mp heq with ⟨gap, hlong, hgap⟩ | ⟨gap, hlong, hgap⟩
  · cases gap with
    | nil => exact ⟨by simpa using hlong.symm, (List.cons.inj hgap).2⟩
    | cons c gap =>
      rw [hlong, ← (List.cons.inj hgap).1] at h'
      exact (h' (List.mem_append_right _ List.mem_cons_self)).elim
  · cases gap with
    | nil => exact ⟨by simpa using hlong, (List.cons.inj hgap).2.symm⟩
    | cons c gap =>
      rw [hlong, ← (List.cons.inj hgap).1] at h
      exact (h (List.mem_append_right _ List.mem_cons_self)).elim

/-- Three groups have three or four digits in the middle. -/
theorem middle_of_threeGroups {area middle last : List Char} {least most : Nat} (harea : Digits 2 4 area)
    (hmiddle : Digits least most middle) (h : ThreeGroups (area ++ '-' :: (middle ++ '-' :: last))) : Digits 3 4 middle := by
  generalize htext : area ++ '-' :: (middle ++ '-' :: last) = text at h
  obtain ⟨area', middle', last', harea', hmiddle', -⟩ := h
  have hbehind := (cut_inj (noHyphen_of_digits harea) (noHyphen_of_digits harea') htext).2
  rw [(cut_inj (noHyphen_of_digits hmiddle) (noHyphen_of_digits hmiddle') hbehind).1]
  exact hmiddle'

/-- A bare number is found again where its middle has three or four digits. -/
theorem cleanTel_hyphenateBare {text : List Char} (h : Bare text) :
    cleanTel (.str (.ofList (hyphenateBare text))) = some (.ofList (hyphenateBare text)) ↔
      3 ≤ middleLength text ∧ middleLength text ≤ 4 := by
  obtain ⟨area, middle, last, htoken, harea, hmiddle, hlast, hlength⟩ := hyphenateBare_bare h
  rw [htoken, ← hlength]
  constructor
  · intro hfixed
    rw [cleanTel_token (hyphenated_three harea hmiddle hlast)] at hfixed
    obtain ⟨m, hm, hstored⟩ := Option.map_eq_some_iff.mp hfixed
    obtain ⟨hinside, hyields⟩ := Regex.search_yields hm
    have hstored := congrArg String.toList hstored
    simp only [storedTel, String.toList_ofList] at hstored
    rcases token_cases hyields with hthree | htwo | ⟨hbare, -⟩
    · rw [if_pos (hyphenated_of_groups (.inl hthree)).2] at hstored
      rw [hstored] at hthree
      exact (middle_of_threeGroups harea hmiddle hthree).2
    · rw [if_pos (hyphenated_of_groups (.inr htwo)).2] at hstored
      rw [hstored] at htwo
      have hcount := count_twoGroups htwo
      simp [List.count_append] at hcount
      omega
    · -- one group is too short for a number without hyphens
      have hlong := hbare.length
      have hshort : m.text.length ≤ 6 := by
        rcases infix_beside hbare.noHyphen hinside with h | h
        · exact h.length_le.trans (harea.2.2.trans (by decide))
        · rcases infix_beside hbare.noHyphen h with h | h
          · exact h.length_le.trans hmiddle.2.2
          · exact h.length_le.trans (hlast.2.2.trans (by decide))
      omega
  · intro hbounds
    exact cleanTel_hyphenated (.inl (.mk area middle last harea ⟨hmiddle.1, hbounds⟩ hlast))

/-- Which numbers come out of a second cleaning as they went in. -/
theorem tel_fixed_iff (s : String) :
    (∀ tel, cleanTel (.str s) = some tel → cleanTel (.str tel) = some tel) ↔
      ∀ m, phoneRe.search (strip s).toList = some m → '-' ∉ m.text → 3 ≤ middleLength m.text ∧ middleLength m.text ≤ 4 := by
  rw [cleanTel_str]
  cases hsearch : phoneRe.search (strip s).toList with
  | none => simp
  | some m =>
    have hyields := (Regex.search_yields hsearch).2
    have hhyphen : '-' ∈ m.text.filter (· != ' ') ↔ '-' ∈ m.text := by simp [List.mem_filter]
    simp only [Option.map_some, Option.some.injEq, forall_eq']
    unfold storedTel
    simp only [hhyphen]
    by_cases hmem : '-' ∈ m.text
    · rw [if_pos hmem]
      have hgroups : ThreeGroups (m.text.filter (· != ' ')) ∨ TwoGroups (m.text.filter (· != ' ')) := by
        rcases token_cases hyields with h | h | ⟨hbare, -⟩
        exacts [.inl h, .inr h, (hbare.noHyphen hmem).elim]
      exact ⟨fun _ hnot => (hnot hmem).elim, fun _ => cleanTel_hyphenated hgroups⟩
    · rw [if_neg hmem]
      rcases token_cases hyields with h | h | ⟨hbare, hfilter⟩
      · exact (hmem (hhyphen.mp (hyphenated_of_groups (.inl h)).2)).elim
      · exact (hmem (hhyphen.mp (hyphenated_of_groups (.inr h)).2)).elim
      · rw [hfilter, cleanTel_hyphenateBare hbare]
        exact ⟨fun h _ => h, fun h => h hmem⟩

theorem tel_not_fixed : ¬ ∀ s tel, cleanTel (.str s) = some tel → cleanTel (.str tel) = some tel := by
  intro h
  have hfirst : cleanTel (.str "031234567") = some "031-23-4567" := by decide +kernel
  have hsecond : cleanTel (.str "031-23-4567") = none := by decide +kernel
  have hfixed := h _ _ hfirst
  rw [hsecond] at hfixed
  cases hfixed

end TravelMaker
