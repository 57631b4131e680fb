import Mathlib.Data.List.Infix

/-! Texts put together without escaping, and taken apart from the right.

The parts are the parts again if none of the last ones can be mistaken: endings of which
none ends another one, a separator that what follows it does not have. -/
namespace TravelMaker.Lib.Delimited

/-! ### Endings -/

section
variable {α ι : Type} {ends : ι → List α} {family : List ι}

/-- No ending of the family is the end of another one. -/
def SuffixFree (ends : ι → List α) (family : List ι) : Prop := ∀ i ∈ family, ∀ j ∈ family, ends i <:+ ends j → i = j

instance [DecidableEq α] [DecidableEq ι] : Decidable (SuffixFree ends family) :=
  inferInstanceAs (Decidable (∀ i ∈ family, ∀ j ∈ family, ends i <:+ ends j → i = j))

/-- A text has one ending of the family. -/
theorem SuffixFree.unique (h : SuffixFree ends family) {i j : ι} (hi : i ∈ family) (hj : j ∈ family) {x y : List α}
    (heq : x ++ ends i = y ++ ends j) : x = y ∧ i = j := by
  have hij : i = j := by
    rcases List.suffix_or_suffix_of_suffix (List.suffix_append x (ends i)) ⟨y, heq.symm⟩ with hsuffix | hsuffix
    · exact h i hi j hj hsuffix
    · exact (h j hj i hi hsuffix).symm
  subst hij
  exact ⟨List.append_cancel_right heq, rfl⟩

end

/-! ### Separators -/

section
variable {α : Type} {sep : α}

/-- The last separator is where the texts differ or agree. -/
theorem append_sep_inj {x y a b : List α} (ha : sep ∉ a) (hb : sep ∉ b) : x ++ sep :: a = y ++ sep :: b ↔ x = y ∧ a = b := by
  have hinside : ∀ {a b : List α}, sep ∉ b → sep :: a <:+ sep :: b → a = b := by
    intro a b hb hsuffix
    rcases List.suffix_cons_iff.mp hsuffix with heq | hinside
    · exact List.tail_eq_of_cons_eq heq
    · exact absurd (hinside.subset List.mem_cons_self) hb
  constructor
  · intro h
    have hab : a = b := by
      rcases List.suffix_or_suffix_of_suffix (List.suffix_append x (sep :: a)) ⟨y, h.symm⟩ with hsuffix | hsuffix
      · exact hinside hb hsuffix
      · exact (hinside ha hsuffix).symm
    subst hab
    exact ⟨List.append_cancel_right h, rfl⟩
  · rintro ⟨rfl, rfl⟩
    rfl

theorem mem_intercalate {texts : List (List α)} {c : α} (hc : c ∈ List.intercalate [sep] texts) :
    (∃ text ∈ texts, c ∈ text) ∨ c = sep := by
  induction texts with
  | nil => exact absurd hc List.not_mem_nil
  | cons text rest ih =>
    cases rest with
    | nil =>
      rw [List.intercalate_singleton] at hc
      exact .inl ⟨text, List.mem_cons_self, hc⟩
    | cons next rest =>
      rw [List.intercalate_cons_cons, List.mem_append, List.mem_append, List.mem_singleton] at hc
      obtain (hc | hc) | hc := hc
      · exact .inl ⟨text, List.mem_cons_self, hc⟩
      · exact .inr hc
      · obtain ⟨found, hfound, hc⟩ | hc := ih hc
        · exact .inl ⟨found, List.mem_cons_of_mem _ hfound, hc⟩
        · exact .inr hc

/-- Texts that can be joined and told apart again. -/
def Joinable (sep : α) (texts : List (List α)) : Prop := ∀ text ∈ texts, text ≠ [] ∧ sep ∉ text

theorem intercalate_ne_nil {texts : List (List α)} (h : Joinable sep texts) (hne : texts ≠ []) :
    List.intercalate [sep] texts ≠ [] := by
  cases texts with
  | nil => exact absurd rfl hne
  | cons text rest =>
    have htext : text ≠ [] := (h text List.mem_cons_self).1
    cases rest with
    | nil => simpa using htext
    | cons next rest => simp [List.intercalate_cons_cons, htext]

/-- The joined text has the texts that it was joined from. -/
theorem intercalate_inj [BEq α] [LawfulBEq α] {as bs : List (List α)} (ha : Joinable sep as) (hb : Joinable sep bs) :
    List.intercalate [sep] as = List.intercalate [sep] bs ↔ as = bs := by
  constructor
  · intro h
    by_cases has : as = []
    · subst has
      by_contra hbs
      exact intercalate_ne_nil hb (fun h => hbs h.symm) h.symm
    · have hbs : bs ≠ [] := by
        intro hbs
        subst hbs
        exact intercalate_ne_nil ha has h
      have hsplit := congrArg (List.splitOn sep) h
      rwa [List.splitOn_intercalate sep (fun l hl => (ha l hl).2) has,
        List.splitOn_intercalate sep (fun l hl => (hb l hl).2) hbs] at hsplit
  · exact congrArg _

end
end TravelMaker.Lib.Delimited
