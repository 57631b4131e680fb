import TravelMaker.Lib.Language

/-! What `re.sub` keeps.

`sub_induction` follows a replacement through the text: a character is kept, or the
text of a match gives way to the new one. -/
namespace TravelMaker.Lib.Regex

/-! ### The characters of a match -/

/-- Every match has characters of the class only. -/
def Within (r : Regex) (class_ : Char → Bool) : Prop :=
  ∀ p q, q ∈ r.ends p → ∃ text, p.rest = text ++ q.rest ∧ ∀ c ∈ text, class_ c = true

section
variable {r s : Regex} {class_ class' : Char → Bool}

theorem within_rep {least : Nat} {most : Option Nat} (hsub : ∀ c, class_ c = true → class' c = true) :
    Within (.rep class_ least most) class' := by
  intro p q hq
  obtain ⟨i, -, rfl⟩ := List.mem_map.mp hq
  refine ⟨p.rest.take (run class_ most p.rest - i), (List.take_append_drop _ _).symm, fun c hc => hsub c ?_⟩
  have hle : run class_ most p.rest - i ≤ (p.rest.takeWhile class_).length := by
    apply Nat.le_trans (Nat.sub_le _ _)
    unfold run
    cases most with
    | none => exact Nat.le_refl _
    | some m => exact Nat.min_le_right _ _
  have hstarts : p.rest.take (run class_ most p.rest - i) <+: p.rest.takeWhile class_ :=
    List.prefix_of_prefix_length_le (List.take_prefix _ _) (List.takeWhile_prefix _)
      (Nat.le_trans (List.length_take_le _ _) hle)
  exact List.mem_takeWhile_imp (hstarts.subset hc)

theorem Within.mono (h : Within r class_) (hsub : ∀ c, class_ c = true → class' c = true) : Within r class' := by
  intro p q hq
  obtain ⟨text, htext, hall⟩ := h p q hq
  exact ⟨text, htext, fun c hc => hsub c (hall c hc)⟩

theorem Within.seq (hr : Within r class_) (hs : Within s class_) : Within (.seq r s) class_ := by
  intro p q hq
  obtain ⟨m, hm, hq⟩ := List.mem_flatMap.mp hq
  obtain ⟨text, htext, hall⟩ := hr p m hm
  obtain ⟨text', htext', hall'⟩ := hs m q hq
  refine ⟨text ++ text', by rw [htext, htext', List.append_assoc], ?_⟩
  exact List.forall_mem_append.mpr ⟨hall, hall'⟩

theorem Within.alt (hr : Within r class_) (hs : Within s class_) : Within (.alt r s) class_ := by
  intro p q hq
  rcases List.mem_append.mp hq with hq | hq
  · exact hr p q hq
  · exact hs p q hq

theorem within_ahead : Within (.ahead r) class_ := by
  intro p q hq
  simp only [ends] at hq
  split at hq
  · cases hq
  · rw [List.mem_singleton.mp hq]
    exact ⟨[], rfl, fun _ hc => (List.not_mem_nil hc).elim⟩

theorem within_text {t : String} {fold : Bool}
    (h : ∀ c ∈ t.toList, ∀ x, (x == c || (fold && x.toLower == c)) = true → class_ x = true) :
    Within (.text t fold) class_ := by
  unfold text
  generalize t.toList = chars at h
  induction chars with
  | nil => exact within_rep fun _ hc => Bool.noConfusion hc
  | cons c rest ih =>
    exact (within_rep (h c List.mem_cons_self)).seq (ih fun d hd => h d (List.mem_cons_of_mem _ hd))

theorem Within.matchAt (h : Within r class_) {before : Option Char} {t : List Char} {m : Match}
    (hm : r.matchAt before t = some m) : ∃ rest, t = m.text ++ rest ∧ ∀ c ∈ m.text, class_ c = true := by
  obtain ⟨q, hq, rfl⟩ := Option.map_eq_some_iff.mp hm
  obtain ⟨text, htext, hall⟩ := h _ q (List.mem_of_head? hq)
  rw [upTo_eq htext]
  exact ⟨q.rest, htext, hall⟩

end

theorem within_true (r : Regex) : Within r fun _ => true := by
  intro p q hq
  obtain ⟨text, htext⟩ := ends_suffix hq
  exact ⟨text, htext.symm, fun _ _ => rfl⟩

/-- What may come first, and the rest. -/
theorem StartsWith.rep_seq {s : Regex} {class_ class' : Char → Bool} (h : StartsWith s class') {least : Nat} {most : Option Nat}
    (hsub : ∀ c, class_ c = true → class' c = true) : StartsWith (.seq (.rep class_ least most) s) class' := by
  intro p q hq
  obtain ⟨m, hm, hq⟩ := List.mem_flatMap.mp hq
  obtain ⟨text, htext, hall⟩ := within_rep hsub p m hm
  cases text with
  | nil =>
    rw [htext]
    exact h m q hq
  | cons c text =>
    refine ⟨c, text ++ m.rest, htext, hall c List.mem_cons_self, ?_⟩
    exact (ends_suffix hq).trans (List.suffix_append _ _)

/-! ### Greedy matches -/

/-- Behind a match comes no character of the class. -/
def Greedy (r : Regex) (class_ : Char → Bool) : Prop :=
  ∀ p q, (r.ends p).head? = some q → ∀ c ∈ q.rest.head?, class_ c = false

theorem greedy_rep (class_ : Char → Bool) (least : Nat) : Greedy (.rep class_ least none) class_ := by
  intro p q h c hc
  have hpositive : run class_ none p.rest + 1 - least ≠ 0 := by
    intro hzero
    simp [ends, hzero] at h
  obtain rfl : p.skip (run class_ none p.rest) = q := by
    simpa [ends, List.head?_range, hpositive] using h
  have hdrop : p.rest.drop (run class_ none p.rest) = p.rest.dropWhile class_ :=
    (congrArg (List.drop _) List.takeWhile_append_dropWhile.symm).trans List.drop_left
  have hnot := List.head?_dropWhile_not class_ p.rest
  rw [← hdrop, show (p.rest.drop (run class_ none p.rest)).head? = some c from hc] at hnot
  simpa using hnot

theorem Greedy.seq {r s : Regex} {class_ : Char → Bool} (h : Greedy s class_) : Greedy (.seq r s) class_ := by
  intro p q hq
  obtain ⟨m, -, hm⟩ : ∃ m ∈ r.ends p, (s.ends m).head? = some q := by
    unfold ends at hq
    generalize r.ends p = between at hq
    induction between with
    | nil => cases hq
    | cons m between ih =>
      rw [List.flatMap_cons, List.head?_append] at hq
      rcases Option.or_eq_some_iff.mp hq with hq | ⟨-, hq⟩
      · exact ⟨m, List.mem_cons_self, hq⟩
      · obtain ⟨m', hm', hq⟩ := ih hq
        exact ⟨m', List.mem_cons_of_mem m hm', hq⟩
  exact h m q hm

theorem Greedy.matchAt {r : Regex} {class_ : Char → Bool} (h : Greedy r class_) {before : Option Char} {text rest : List Char}
    {captured : Option (List Char)} (hm : r.matchAt before (text ++ rest) = some ⟨text, captured⟩) :
    ∀ c ∈ rest.head?, class_ c = false := by
  obtain ⟨q, hq, hmatch⟩ := Option.map_eq_some_iff.mp hm
  obtain ⟨word, hword, -⟩ := ends_yields (List.mem_of_head? hq)
  obtain rfl : word = text := (upTo_eq hword).symm.trans (congrArg Match.text hmatch)
  rw [List.append_cancel_left hword]
  exact h _ q hq

/-! ### Following a replacement -/

section
variable {r : Regex} {class_ : Char → Bool} {new : List Char}

variable (r new) in
/-- Inside a match nothing is kept. -/
theorem subFrom_inside (text rest : List Char) (before : Option Char) :
    ∃ before', r.subFrom new text.length before (text ++ rest) = r.subFrom new 0 before' rest := by
  induction text generalizing before with
  | nil => exact ⟨before, rfl⟩
  | cons c text ih => exact ih (some c)

theorem subFrom_nil {start : Char → Bool} (hstart : r.StartsWith start) (before : Option Char) :
    r.subFrom new 0 before [] = [] := by
  have hnone : r.matchAt before [] = none := by
    cases hm : r.matchAt before [] with
    | none => rfl
    | some m =>
      obtain ⟨c, text, htext, -⟩ := hstart.matchAt hm
      obtain ⟨rest, hrest, -⟩ := (within_true r).matchAt hm
      rw [htext] at hrest
      cases hrest
  rw [subFrom, hnone]
  rfl

/-- **Following a replacement**, where each match has a character at least. -/
theorem sub_induction {start : Char → Bool} (hstart : r.StartsWith start) (hwithin : Within r class_)
    {P : List Char → List Char → Prop} (nil : P [] []) (keep : ∀ before c rest out,
      r.matchAt before (c :: rest) = none → P rest out → P (c :: rest) (c :: out))
    (replace : ∀ before captured c text rest out, r.matchAt before (c :: text ++ rest) = some ⟨c :: text, captured⟩ →
      start c = true → (∀ d ∈ c :: text, class_ d = true) → P rest out → P (c :: text ++ rest) (new ++ out))
    (t : List Char) : P t (r.sub new t) := by
  suffices h : ∀ n before t, t.length ≤ n → P t (r.subFrom new 0 before t) from h t.length none t (Nat.le_refl _)
  intro n
  induction n with
  | zero =>
    intro before t hlength
    rw [List.length_eq_zero_iff.mp (Nat.le_zero.mp hlength), subFrom_nil hstart]
    exact nil
  | succ n ih =>
    intro before t hlength
    cases t with
    | nil =>
      rw [subFrom_nil hstart]
      exact nil
    | cons c rest =>
      have hrest : rest.length ≤ n := Nat.le_of_succ_le_succ hlength
      cases hm : r.matchAt before (c :: rest) with
      | none =>
        rw [subFrom, hm]
        exact keep before c rest _ hm (ih _ rest hrest)
      | some m =>
        obtain ⟨m, captured⟩ := m
        obtain ⟨d, text, htext, hd⟩ := hstart.matchAt hm
        obtain ⟨after, hsplit, hall⟩ := hwithin.matchAt hm
        dsimp only at htext hsplit hall
        subst htext
        obtain ⟨rfl, happend⟩ := List.cons.inj hsplit
        have happend : rest = text ++ after := happend
        subst happend
        rw [subFrom, hm]
        dsimp only
        obtain ⟨before', hinside⟩ := subFrom_inside r new text after (some c)
        rw [hinside]
        refine replace before captured c text after _ hm hd hall (ih _ after ?_)
        rw [List.length_append] at hrest
        omega

/-- What no match can start at is kept. -/
theorem sub_eq_self {start : Char → Bool} (hstart : r.StartsWith start) {t : List Char}
    (h : ∀ before c rest, c :: rest <:+ t → r.matchAt before (c :: rest) = none) : r.sub new t = t := by
  suffices hfrom : ∀ before, r.subFrom new 0 before t = t from hfrom none
  induction t with
  | nil => exact fun before => subFrom_nil hstart before
  | cons c rest ih =>
    intro before
    rw [subFrom, h before c rest List.suffix_rfl]
    exact congrArg (c :: ·) (ih (fun b d rest' hsuffix => h b d rest' (hsuffix.trans (List.suffix_cons _ _))) (some c))

/-! ### Words -/

/-- A word that has no character of the matches and none of the new text stays where it is. -/
theorem infix_sub {start : Char → Bool} (hstart : r.StartsWith start) (hwithin : Within r class_) (hnew : new ≠ [])
    {word : List Char} (hclass : ∀ c ∈ word, class_ c = false) (hword : ∀ c ∈ word, c ∉ new) (t : List Char) :
    word <:+: r.sub new t ↔ word <:+: t := by
  suffices h : (∀ w, (∀ c ∈ w, class_ c = false ∧ c ∉ new) → (w <+: r.sub new t ↔ w <+: t)) ∧
      (∀ w, (∀ c ∈ w, class_ c = false ∧ c ∉ new) → (w <:+: r.sub new t ↔ w <:+: t)) from
    h.2 word fun c hc => ⟨hclass c hc, hword c hc⟩
  obtain ⟨first, new, rfl⟩ := List.exists_cons_of_ne_nil hnew
  refine sub_induction (P := fun t out => (∀ w, (∀ c ∈ w, class_ c = false ∧ c ∉ first :: new) → (w <+: out ↔ w <+: t)) ∧
      (∀ w, (∀ c ∈ w, class_ c = false ∧ c ∉ first :: new) → (w <:+: out ↔ w <:+: t))) hstart hwithin ?_ ?_ ?_ t
  · exact ⟨fun _ _ => Iff.rfl, fun _ _ => Iff.rfl⟩
  · intro before c rest out _ ih
    have hstarts : ∀ w, (∀ c ∈ w, class_ c = false ∧ c ∉ first :: new) → (w <+: c :: out ↔ w <+: c :: rest) := by
      intro w hw
      cases w with
      | nil => exact iff_of_true List.nil_prefix List.nil_prefix
      | cons d w =>
        rw [List.cons_prefix_cons, List.cons_prefix_cons, ih.1 w fun e he => hw e (List.mem_cons_of_mem _ he)]
    refine ⟨hstarts, fun w hw => ?_⟩
    rw [List.infix_cons_iff, List.infix_cons_iff, hstarts w hw, ih.2 w hw]
  · intro _ _ c text rest out _ _ hall ih
    have hnone : ∀ w, (∀ c ∈ w, class_ c = false ∧ c ∉ first :: new) → w ≠ [] →
        ∀ d tail, (class_ d = true ∨ d ∈ first :: new) → ¬ w <+: d :: tail := by
      intro w hw hne d tail hd hstarts
      obtain ⟨e, w, rfl⟩ := List.exists_cons_of_ne_nil hne
      obtain ⟨rfl, -⟩ := List.cons_prefix_cons.mp hstarts
      obtain ⟨hclass, hmem⟩ := hw e List.mem_cons_self
      rcases hd with hd | hd
      · rw [hclass] at hd
        cases hd
      · exact hmem hd
    have hskip : ∀ w, (∀ c ∈ w, class_ c = false ∧ c ∉ first :: new) → w ≠ [] →
        ∀ gone tail, (∀ d ∈ gone, class_ d = true ∨ d ∈ first :: new) → (w <:+: gone ++ tail ↔ w <:+: tail) := by
      intro w hw hne gone tail hgone
      induction gone with
      | nil => exact Iff.rfl
      | cons d gone ihgone =>
        rw [List.cons_append, List.infix_cons_iff,
          or_iff_right (hnone w hw hne d _ (hgone d List.mem_cons_self)),
          ihgone fun e he => hgone e (List.mem_cons_of_mem _ he)]
    refine ⟨fun w hw => ?_, fun w hw => ?_⟩
    · by_cases hne : w = []
      · subst hne
        exact iff_of_true List.nil_prefix List.nil_prefix
      · exact iff_of_false (hnone w hw hne first _ (.inr List.mem_cons_self))
          (hnone w hw hne c _ (.inl (hall c List.mem_cons_self)))
    · by_cases hne : w = []
      · subst hne
        exact iff_of_true List.nil_infix List.nil_infix
      · rw [hskip w hw hne (first :: new) out fun d hd => .inr hd, hskip w hw hne (c :: text) rest fun d hd => .inl (hall d hd),
          ih.2 w hw]

end

/-! ### Cutting -/

/-- What is kept of a text, and `none` for each match; the next `inside` characters belong to the last one. -/
def cutFrom (r : Regex) : (inside : Nat) → (before : Option Char) → List Char → List (Option Char)
  | 0, before, [] => if (r.matchAt before []).isSome then [none] else []
  | _ + 1, _, [] => []
  | 0, before, c :: rest =>
    match r.matchAt before (c :: rest) with
    | none => some c :: cutFrom r 0 (some c) rest
    | some ⟨[], _⟩ => none :: some c :: cutFrom r 0 (some c) rest
    | some ⟨_ :: text, _⟩ => none :: cutFrom r text.length (some c) rest
  | inside + 1, _, c :: rest => cutFrom r inside (some c) rest

/-- A text cut at the matches `re.finditer` finds. -/
def cut (r : Regex) (s : List Char) : List (Option Char) := r.cutFrom 0 none s

/-- A replacement puts the new text where the cuts are. -/
theorem sub_eq_cut (r : Regex) (new s : List Char) : r.sub new s = (r.cut s).flatMap fun piece => piece.elim new ([·]) := by
  suffices hfrom : ∀ inside before, r.subFrom new inside before s =
      (r.cutFrom inside before s).flatMap fun piece => piece.elim new ([·]) from hfrom 0 none
  induction s with
  | nil =>
    intro inside before
    cases inside with
    | zero =>
      unfold subFrom cutFrom
      split <;> simp
    | succ inside => rfl
  | cons c rest ih =>
    intro inside before
    cases inside with
    | succ inside => exact ih inside (some c)
    | zero =>
      unfold subFrom cutFrom
      rcases r.matchAt before (c :: rest) with _ | ⟨_ | ⟨d, text⟩, captured⟩
      · simp [ih]
      · simp [ih]
      · simp [ih]

end TravelMaker.Lib.Regex
