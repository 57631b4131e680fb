import TravelMaker.Lib.Regex

/-! The words of a regular expression, and which of them a match takes.

`Yields` is the language of an expression without its look around; every match is a word
of it (`search_yields`). `Takes` says that the first match here is this word. -/
namespace TravelMaker.Lib.Regex

/-! ### Words -/

/-- The word is one the expression can match somewhere. -/
def Yields : Regex → List Char → Prop
  | .rep class_ least most, text => (∀ c ∈ text, class_ c = true) ∧ least ≤ text.length ∧ ∀ m ∈ most, text.length ≤ m
  | .seq r s, text => ∃ first second, text = first ++ second ∧ r.Yields first ∧ s.Yields second
  | .alt r s, text => r.Yields text ∨ s.Yields text
  | .group r, text => r.Yields text
  | .ahead _, text => text = []
  | .notBehind _, text => text = []
  | .atEnd, text => text = []

theorem run_le_takeWhile (class_ : Char → Bool) (most : Option Nat) (s : List Char) :
    run class_ most s ≤ (s.takeWhile class_).length := by
  unfold run
  cases most with
  | none => exact Nat.le_refl _
  | some m => exact Nat.min_le_right _ _

theorem run_le_most {class_ : Char → Bool} {most : Option Nat} {s : List Char} {m : Nat} (h : m ∈ most) :
    run class_ most s ≤ m := by
  rw [Option.mem_def.mp h]
  exact Nat.min_le_left _ _

/-- Every match is a word. -/
theorem ends_yields {r : Regex} {p q : Pos} (h : q ∈ r.ends p) : ∃ text, p.rest = text ++ q.rest ∧ r.Yields text := by
  induction r generalizing p q with
  | rep class_ least most =>
    obtain ⟨i, hi, rfl⟩ := List.mem_map.mp h
    have hi : i < run class_ most p.rest + 1 - least := List.mem_range.mp hi
    have hlong := run_le_takeWhile class_ most p.rest
    have hwhole := (List.takeWhile_prefix class_ (l := p.rest)).length_le
    have hlength : (p.rest.take (run class_ most p.rest - i)).length = run class_ most p.rest - i := by
      rw [List.length_take]
      omega
    refine ⟨p.rest.take (run class_ most p.rest - i), (List.take_append_drop _ _).symm, fun c hc => ?_, ?_, fun m hm => ?_⟩
    · have hstarts : p.rest.take (run class_ most p.rest - i) <+: p.rest.takeWhile class_ :=
        List.prefix_of_prefix_length_le (List.take_prefix _ _) (List.takeWhile_prefix _) (by omega)
      exact List.mem_takeWhile_imp (hstarts.subset hc)
    · omega
    · have hle : run class_ most p.rest ≤ m := run_le_most hm
      omega
  | seq r s ihr ihs =>
    obtain ⟨m, hm, hq⟩ := List.mem_flatMap.mp h
    obtain ⟨first, hfirst, hr⟩ := ihr hm
    obtain ⟨second, hsecond, hs⟩ := ihs hq
    exact ⟨first ++ second, by rw [hfirst, hsecond, List.append_assoc], first, second, rfl, hr, hs⟩
  | alt r s ihr ihs =>
    rcases List.mem_append.mp h with h | h
    · obtain ⟨text, htext, hr⟩ := ihr h
      exact ⟨text, htext, .inl hr⟩
    · obtain ⟨text, htext, hs⟩ := ihs h
      exact ⟨text, htext, .inr hs⟩
  | group r ih =>
    obtain ⟨m, hm, rfl⟩ := List.mem_map.mp h
    exact ih (q := m) hm
  | ahead r =>
    simp only [ends] at h
    split at h
    · cases h
    · rw [List.mem_singleton.mp h]
      exact ⟨[], rfl, rfl⟩
  | notBehind class_ =>
    simp only [ends] at h
    split at h
    · cases h
    · rw [List.mem_singleton.mp h]
      exact ⟨[], rfl, rfl⟩
  | atEnd =>
    simp only [ends] at h
    split at h
    · rw [List.mem_singleton.mp h]
      exact ⟨[], rfl, rfl⟩
    · cases h

theorem upTo_eq {p q : Pos} {text : List Char} (h : p.rest = text ++ q.rest) : p.upTo q = text := by
  unfold Pos.upTo
  rw [h, List.length_append, Nat.add_sub_cancel, List.take_left' rfl]

theorem matchAt_yields {r : Regex} {before : Option Char} {s : List Char} {m : Match} (h : r.matchAt before s = some m) :
    m.text <+: s ∧ r.Yields m.text := by
  obtain ⟨q, hq, rfl⟩ := Option.map_eq_some_iff.mp h
  obtain ⟨text, htext, hyields⟩ := ends_yields (List.mem_of_head? hq)
  rw [upTo_eq htext]
  exact ⟨⟨q.rest, htext.symm⟩, hyields⟩

/-- What `search` finds is a word somewhere in the text. -/
theorem search_yields {r : Regex} {s : List Char} {m : Match} (h : r.search s = some m) : m.text <:+: s ∧ r.Yields m.text := by
  suffices hfrom : ∀ before, r.searchFrom before s = some m → m.text <:+: s ∧ r.Yields m.text from hfrom none h
  clear h
  induction s with
  | nil =>
    intro before h
    obtain ⟨hstarts, hyields⟩ := matchAt_yields h
    exact ⟨hstarts.isInfix, hyields⟩
  | cons c rest ih =>
    intro before h
    rcases Option.or_eq_some_iff.mp h with h | ⟨-, h⟩
    · obtain ⟨hstarts, hyields⟩ := matchAt_yields h
      exact ⟨hstarts.isInfix, hyields⟩
    · obtain ⟨hinside, hyields⟩ := ih _ h
      exact ⟨hinside.trans (List.suffix_cons c rest).isInfix, hyields⟩

/-! ### The first match -/

/-- In front of `rest`, the first match takes `text`. -/
def Takes (r : Regex) (text rest : List Char) : Prop :=
  ∀ before captured, ∃ before', (r.ends ⟨before, text ++ rest, captured⟩).head? = some ⟨before', rest, captured⟩

section
variable {r s : Regex} {text first second rest : List Char}

theorem takes_rep {class_ : Char → Bool} {least : Nat} {most : Option Nat} (hall : ∀ c ∈ text, class_ c = true)
    (hleast : least ≤ text.length) (hmost : ∀ m ∈ most, text.length ≤ m)
    (hnext : most = some text.length ∨ ∀ c ∈ rest.head?, class_ c = false) : Takes (.rep class_ least most) text rest := by
  intro before captured
  have hlongest : run class_ most (text ++ rest) = text.length := by
    have htaken : text.length ≤ ((text ++ rest).takeWhile class_).length := by
      rw [List.takeWhile_append_of_pos hall, List.length_append]
      exact Nat.le_add_right _ _
    unfold run
    rcases hnext with rfl | hnext
    · exact Nat.min_eq_left htaken
    · have hstops : rest.takeWhile class_ = [] := by
        cases rest with
        | nil => rfl
        | cons c rest => rw [List.takeWhile_cons, if_neg (by simp [hnext c rfl])]
      rw [List.takeWhile_append_of_pos hall, hstops, List.append_nil]
      cases most with
      | none => rfl
      | some m => exact Nat.min_eq_right (hmost m rfl)
  have hcount : 0 < text.length + 1 - least := by omega
  refine ⟨((text ++ rest).take text.length).getLast?.or before, ?_⟩
  unfold ends
  dsimp only
  rw [hlongest, List.head?_map, List.head?_range, if_neg hcount.ne', Option.map_some, Nat.sub_zero]
  unfold Pos.skip
  dsimp only
  rw [List.drop_left' rfl]

theorem takes_one {class_ : Char → Bool} {c : Char} (hc : class_ c = true) : Takes (one class_) [c] rest :=
  takes_rep (List.forall_mem_singleton.mpr hc) (Nat.le_refl 1) (fun _ hm => Option.mem_some.mp hm ▸ Nat.le_refl 1) (.inl rfl)

theorem Takes.seq (hr : Takes r first (second ++ rest)) (hs : Takes s second rest) : Takes (.seq r s) (first ++ second) rest := by
  intro before captured
  obtain ⟨before₁, h₁⟩ := hr before captured
  obtain ⟨before₂, h₂⟩ := hs before₁ captured
  refine ⟨before₂, ?_⟩
  obtain ⟨others, hends⟩ := List.head?_eq_some_iff.mp h₁
  unfold ends
  rw [List.append_assoc, hends, List.flatMap_cons, List.head?_append, h₂, Option.some_or]

theorem Takes.alt_left (hr : Takes r text rest) : Takes (.alt r s) text rest := by
  intro before captured
  obtain ⟨before', h⟩ := hr before captured
  refine ⟨before', ?_⟩
  unfold ends
  rw [List.head?_append, h, Option.some_or]

/-- Where the first alternative has no match. -/
theorem Takes.alt_right (hr : ∀ word, r.Yields word → ¬ word <+: text ++ rest) (hs : Takes s text rest) :
    Takes (.alt r s) text rest := by
  intro before captured
  obtain ⟨before', h⟩ := hs before captured
  have hnone : r.ends ⟨before, text ++ rest, captured⟩ = [] := by
    refine List.eq_nil_iff_forall_not_mem.mpr fun q hq => ?_
    obtain ⟨word, hword, hyields⟩ := ends_yields hq
    exact hr word hyields ⟨q.rest, hword.symm⟩
  refine ⟨before', ?_⟩
  unfold ends
  rw [hnone, List.nil_append, h]

theorem Takes.matchAt (h : Takes r text rest) (before : Option Char) : r.matchAt before (text ++ rest) = some ⟨text, none⟩ := by
  obtain ⟨before', hends⟩ := h before none
  unfold Regex.matchAt
  dsimp only
  rw [hends, Option.map_some, upTo_eq rfl]

end

/-! ### Remainders -/

/-- No part of the expression asks for the character before it. -/
def Forward : Regex → Prop
  | .seq r s | .alt r s => r.Forward ∧ s.Forward
  | .group r | .ahead r => r.Forward
  | .notBehind _ => False
  | .rep .. | .atEnd => True

/-- A match from `s` can leave `t`. -/
def Leaves : Regex → List Char → List Char → Prop
  | .rep class_ least most, s, t =>
    ∃ text, s = text ++ t ∧ (∀ c ∈ text, class_ c = true) ∧ least ≤ text.length ∧ ∀ m ∈ most, text.length ≤ m
  | .seq r s', s, t => ∃ between, r.Leaves s between ∧ s'.Leaves between t
  | .alt r s', s, t => r.Leaves s t ∨ s'.Leaves s t
  | .group r, s, t => r.Leaves s t
  | .ahead r, s, t => t = s ∧ ∃ u, r.Leaves s u
  | .notBehind _, _, _ => False
  | .atEnd, s, t => t = s ∧ (s = [] ∨ s = ['\n'])

theorem leaves_one {class_ : Char → Bool} {s t : List Char} : (one class_).Leaves s t ↔ ∃ c, s = c :: t ∧ class_ c = true := by
  constructor
  · intro h
    obtain ⟨text, hsplit, hall, hleast, hmost⟩ := h
    obtain ⟨c, rfl⟩ := List.length_eq_one_iff.mp (Nat.le_antisymm (hmost 1 rfl) hleast)
    exact ⟨c, hsplit, hall c (List.mem_singleton_self c)⟩
  · intro h
    obtain ⟨c, hsplit, hc⟩ := h
    exact ⟨[c], hsplit, List.forall_mem_singleton.mpr hc, Nat.le_refl 1, fun m hm => (Option.some.inj hm) ▸ Nat.le_refl 1⟩

/-- Nothing need be repeated. -/
theorem leaves_rep_zero (class_ : Char → Bool) (most : Option Nat) (s : List Char) : (Regex.rep class_ 0 most).Leaves s s :=
  ⟨[], rfl, fun _ hc => (List.not_mem_nil hc).elim, Nat.le_refl 0, fun m _ => Nat.zero_le m⟩

/-- Two characters, one after the other. -/
theorem leaves_text_pair {first second : Char} {fold : Bool} {s t : List Char} :
    (text (.ofList [first, second]) fold).Leaves s t ↔ ∃ c d, s = c :: d :: t ∧
      (c == first || (fold && c.toLower == first)) = true ∧ (d == second || (fold && d.toLower == second)) = true := by
  unfold text
  rw [String.toList_ofList]
  constructor
  · intro h
    obtain ⟨_, hfirst, _, hsecond, empty, rfl, hempty, -⟩ := h
    obtain ⟨c, rfl, hc⟩ := leaves_one.mp hfirst
    obtain ⟨d, hsplit, hd⟩ := leaves_one.mp hsecond
    cases empty with
    | nil => exact ⟨c, d, congrArg (c :: ·) hsplit, hc, hd⟩
    | cons e empty => exact (Bool.false_ne_true (hempty e List.mem_cons_self)).elim
  · intro h
    obtain ⟨c, d, rfl, hc, hd⟩ := h
    exact ⟨d :: t, leaves_one.mpr ⟨c, rfl, hc⟩, t, leaves_one.mpr ⟨d, rfl, hd⟩, leaves_rep_zero _ none t⟩

/-- The longest repetition, and each shorter one. -/
theorem le_run_iff {class_ : Char → Bool} {most : Option Nat} {s : List Char} {n : Nat} (hn : n ≤ s.length) :
    n ≤ run class_ most s ↔ (∀ c ∈ s.take n, class_ c = true) ∧ ∀ m ∈ most, n ≤ m := by
  have htaken : n ≤ (s.takeWhile class_).length ↔ ∀ c ∈ s.take n, class_ c = true := by
    constructor
    · intro hle c hc
      have hstarts : s.take n <+: s.takeWhile class_ :=
        List.prefix_of_prefix_length_le (List.take_prefix _ _) (List.takeWhile_prefix _) ((List.length_take_le _ _).trans hle)
      exact List.mem_takeWhile_imp (hstarts.subset hc)
    · intro hall
      have hwhole : (s.take n ++ s.drop n).takeWhile class_ = s.take n ++ (s.drop n).takeWhile class_ :=
        List.takeWhile_append_of_pos hall
      rw [List.take_append_drop] at hwhole
      rw [hwhole, List.length_append, List.length_take_of_le hn]
      exact Nat.le_add_right _ _
  unfold run
  cases most with
  | none => simp [htaken]
  | some m =>
    dsimp only
    rw [Nat.le_min, htaken, and_comm]
    simp

theorem ends_leaves {r : Regex} (h : r.Forward) {p : Pos} {t : List Char} :
    (∃ q ∈ r.ends p, q.rest = t) ↔ r.Leaves p.rest t := by
  induction r generalizing p t with
  | rep class_ least most =>
    constructor
    · intro hq
      obtain ⟨q, hq, rfl⟩ := hq
      obtain ⟨text, htext, hyields⟩ := ends_yields hq
      exact ⟨text, htext, hyields⟩
    · intro hleaves
      obtain ⟨text, htext, hall, hleast, hmost⟩ := hleaves
      have hrun : text.length ≤ run class_ most p.rest := by
        refine (le_run_iff (by simp [htext])).mpr ⟨?_, hmost⟩
        rwa [htext, List.take_left' rfl]
      refine ⟨p.skip text.length, List.mem_map.mpr ⟨run class_ most p.rest - text.length, List.mem_range.mpr (by omega), ?_⟩, ?_⟩
      · rw [Nat.sub_sub_self hrun]
      · show p.rest.drop text.length = t
        rw [htext, List.drop_left' rfl]
  | seq r s ihr ihs =>
    constructor
    · intro hq
      obtain ⟨q, hq, hrest⟩ := hq
      obtain ⟨m, hm, hq⟩ := List.mem_flatMap.mp hq
      exact ⟨m.rest, (ihr h.1).mp ⟨m, hm, rfl⟩, (ihs h.2).mp ⟨q, hq, hrest⟩⟩
    · intro hleaves
      obtain ⟨between, hr, hs⟩ := hleaves
      obtain ⟨m, hm, rfl⟩ := (ihr h.1).mpr hr
      obtain ⟨q, hq, hrest⟩ := (ihs h.2).mpr hs
      exact ⟨q, List.mem_flatMap.mpr ⟨m, hm, hq⟩, hrest⟩
  | alt r s ihr ihs =>
    refine Iff.trans ?_ (or_congr (ihr h.1) (ihs h.2))
    simp only [ends, List.mem_append, or_and_right, exists_or]
  | group r ih =>
    refine Iff.trans ?_ (ih h)
    simp [ends]
  | ahead r ih =>
    have hempty : (r.ends p).isEmpty = false ↔ ∃ u, r.Leaves p.rest u := by
      simp only [← ih h]
      rw [List.isEmpty_eq_false_iff_exists_mem]
      exact ⟨fun hq => hq.elim fun q hq => ⟨q.rest, q, hq, rfl⟩, fun hu => hu.elim fun u hq => hq.elim fun q hq => ⟨q, hq.1⟩⟩
    unfold ends Leaves
    rw [← hempty]
    cases (r.ends p).isEmpty <;> simp [eq_comm]
  | notBehind class_ => exact h.elim
  | atEnd =>
    unfold ends Leaves
    split
    · rename_i hend
      simp [hend, eq_comm]
    · rename_i hend
      simp [hend]

section
variable {r : Regex} (hforward : r.Forward)
include hforward

theorem matchAt_eq_none_iff {before : Option Char} {s : List Char} : r.matchAt before s = none ↔ ∀ t, ¬ r.Leaves s t := by
  unfold matchAt
  dsimp only
  rw [Option.map_eq_none_iff, List.head?_eq_none_iff, List.eq_nil_iff_forall_not_mem]
  constructor
  · intro hnone t hleaves
    obtain ⟨q, hq, -⟩ := (ends_leaves hforward (p := ⟨before, s, none⟩)).mpr hleaves
    exact hnone q hq
  · intro hnone q hq
    exact hnone q.rest ((ends_leaves hforward).mp ⟨q, hq, rfl⟩)

/-- Nothing is found where nothing matches at any place. -/
theorem search_eq_none_iff {s : List Char} : r.search s = none ↔ ∀ t, t <:+ s → r.matchAt none t = none := by
  have hany : ∀ before t, r.matchAt before t = none ↔ r.matchAt none t = none := fun before t => by
    rw [matchAt_eq_none_iff hforward, matchAt_eq_none_iff hforward]
  suffices hfrom : ∀ before, r.searchFrom before s = none ↔ ∀ t, t <:+ s → r.matchAt none t = none from hfrom none
  induction s with
  | nil => simp [searchFrom, hany]
  | cons c rest ih =>
    intro before
    unfold searchFrom
    rw [Option.or_eq_none_iff, hany, ih]
    simp only [List.suffix_cons_iff, or_imp, forall_and, forall_eq]

end
end TravelMaker.Lib.Regex
