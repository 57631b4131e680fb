import TravelMaker.Lib.Text

/-! Regular expressions with backtracking, as `re` matches them.

An expression maps a position to the positions it can end at, in the order in
which backtracking would try them. The first one is the match; `search` takes the
leftmost position that has one. Repetitions are greedy and repeat one class of
characters, and there is at most one group. -/
namespace TravelMaker.Lib

inductive Regex where
  /-- Between `least` and `most` characters of a class, as many as possible. -/
  | rep (class_ : Char → Bool) (least : Nat) (most : Option Nat)
  | seq (r s : Regex)
  | alt (r s : Regex)
  /-- `(r)`: remember what `r` matched. -/
  | group (r : Regex)
  /-- `(?=r)`. -/
  | ahead (r : Regex)
  /-- `(?<!c)` for a class of characters. -/
  | notBehind (class_ : Char → Bool)
  /-- `$`: the end, or a newline at the end. -/
  | atEnd

namespace Regex

/-- A position: the character before it, what follows, and the group matched so far. -/
structure Pos where
  before : Option Char := none
  rest : List Char
  captured : Option (List Char) := none
deriving DecidableEq, Repr

/-- The position `n` characters on. -/
def Pos.skip (p : Pos) (n : Nat) : Pos :=
  {p with
    before := (p.rest.take n).getLast?.or p.before
    rest := p.rest.drop n }

/-- The characters between `p` and a later position `q`. -/
def Pos.upTo (p q : Pos) : List Char := p.rest.take (p.rest.length - q.rest.length)

/-- How many characters of the class follow, at most `most`. -/
def run (class_ : Char → Bool) (most : Option Nat) (s : List Char) : Nat :=
  let n := (s.takeWhile class_).length
  match most with
  | none => n
  | some m => min m n

/-- The positions where a match from `p` can end, in order of preference. -/
def ends : Regex → Pos → List Pos
  | .rep class_ least most, p =>
    let longest := run class_ most p.rest
    ((List.range (longest + 1 - least)).map fun i => p.skip (longest - i))
  | .seq r s, p => (r.ends p).flatMap s.ends
  | .alt r s, p => r.ends p ++ s.ends p
  | .group r, p => (r.ends p).map fun q => {q with captured := some (p.upTo q)}
  | .ahead r, p => if (r.ends p).isEmpty then [] else [p]
  | .notBehind class_, p => if p.before.any class_ then [] else [p]
  | .atEnd, p => if p.rest = [] ∨ p.rest = ['\n'] then [p] else []

/-- The text of a match and of its group. -/
structure Match where
  text : List Char
  captured : Option (List Char)
deriving DecidableEq, Repr

def matchAt (r : Regex) (before : Option Char) (s : List Char) : Option Match :=
  let p : Pos := {before := before, rest := s}
  (r.ends p).head?.map fun q => ⟨p.upTo q, q.captured⟩

def searchFrom (r : Regex) (before : Option Char) : List Char → Option Match
  | [] => r.matchAt before []
  | c :: rest => (r.matchAt before (c :: rest)).or (searchFrom r (some c) rest)

/-- `re.search`: the leftmost match. -/
def search (r : Regex) (s : List Char) : Option Match := r.searchFrom none s

/-- The text with its matches replaced; the next `inside` characters belong to a
match that is already replaced. -/
def subFrom (r : Regex) (new : List Char) : (inside : Nat) → (before : Option Char) → List Char → List Char
  | 0, before, [] => if (r.matchAt before []).isSome then new else []
  | _ + 1, _, [] => []
  | 0, before, c :: rest =>
    match r.matchAt before (c :: rest) with
    | none => c :: subFrom r new 0 (some c) rest
    | some ⟨[], _⟩ => new ++ c :: subFrom r new 0 (some c) rest
    | some ⟨_ :: text, _⟩ => new ++ subFrom r new text.length (some c) rest
  | inside + 1, _, c :: rest => subFrom r new inside (some c) rest

/-- `re.sub`: every match replaced, from left to right. -/
def sub (r : Regex) (new : List Char) (s : List Char) : List Char := r.subFrom new 0 none s

/-! ### Building expressions -/

/-- One character of a class. -/
def one (class_ : Char → Bool) : Regex := .rep class_ 1 (some 1)

/-- These characters, in either case if `fold`. -/
def text (s : String) (fold : Bool := false) : Regex :=
  (s.toList.map fun c => one fun x => x == c || (fold && x.toLower == c)).foldr .seq (.rep (fun _ => false) 0 none)

/-! ### Where a match can end -/

theorem ends_suffix {r : Regex} {p q : Pos} (h : q ∈ r.ends p) : q.rest <:+ p.rest := by
  induction r generalizing p q with
  | rep class_ least most =>
    obtain ⟨i, -, rfl⟩ := List.mem_map.mp h
    exact List.drop_suffix _ _
  | seq r s ihr ihs =>
    obtain ⟨m, hm, hq⟩ := List.mem_flatMap.mp h
    exact (ihs hq).trans (ihr hm)
  | alt r s ihr ihs =>
    rcases List.mem_append.mp h with h | h
    · exact ihr h
    · exact ihs h
  | group r ih =>
    obtain ⟨m, hm, rfl⟩ := List.mem_map.mp h
    exact ih (q := m) hm
  | ahead r =>
    simp only [ends] at h
    split at h
    · cases h
    · obtain rfl := List.mem_singleton.mp h
      exact List.suffix_rfl
  | notBehind class_ =>
    simp only [ends] at h
    split at h
    · cases h
    · obtain rfl := List.mem_singleton.mp h
      exact List.suffix_rfl
  | atEnd =>
    simp only [ends] at h
    split at h
    · obtain rfl := List.mem_singleton.mp h
      exact List.suffix_rfl
    · cases h

/-- Every match begins with a character of the class. -/
def StartsWith (r : Regex) (class_ : Char → Bool) : Prop :=
  ∀ p q, q ∈ r.ends p → ∃ c rest, p.rest = c :: rest ∧ class_ c = true ∧ q.rest <:+ rest

section
variable {r s : Regex} {class_ class' : Char → Bool}

theorem startsWith_rep {least : Nat} {most : Option Nat} (hleast : 0 < least)
    (hsub : ∀ c, class_ c = true → class' c = true) : StartsWith (.rep class_ least most) class' := by
  intro p q h
  obtain ⟨i, hi, rfl⟩ := List.mem_map.mp h
  have hn : i < run class_ most p.rest + 1 - least := List.mem_range.mp hi
  have hle : run class_ most p.rest ≤ (p.rest.takeWhile class_).length := by
    unfold run
    cases most with
    | none => exact Nat.le_refl _
    | some m => exact Nat.min_le_right _ _
  cases hrest : p.rest with
  | nil =>
    rw [hrest, List.takeWhile_nil] at hle
    simp only [hrest, List.length_nil] at hle hn
    omega
  | cons c rest =>
    have hc : class_ c = true := by
      by_contra hc
      rw [hrest, List.takeWhile_cons_of_neg hc] at hle
      simp only [hrest, List.length_nil] at hle hn
      omega
    refine ⟨c, rest, rfl, hsub c hc, ?_⟩
    show p.rest.drop _ <:+ rest
    rw [hrest]
    obtain ⟨k, hk⟩ : ∃ k, run class_ most p.rest - i = k + 1 :=
      Nat.exists_eq_succ_of_ne_zero (by omega)
    rw [hrest] at hk
    rw [hk, List.drop_succ_cons]
    exact List.drop_suffix _ _

theorem StartsWith.seq (h : StartsWith r class_) : StartsWith (.seq r s) class_ := by
  intro p q hq
  obtain ⟨m, hm, hq⟩ := List.mem_flatMap.mp hq
  obtain ⟨c, rest, hp, hc, hrest⟩ := h p m hm
  exact ⟨c, rest, hp, hc, (ends_suffix hq).trans hrest⟩

theorem StartsWith.alt (hr : StartsWith r class_) (hs : StartsWith s class_) :
    StartsWith (.alt r s) class_ := by
  intro p q hq
  rcases List.mem_append.mp hq with hq | hq
  · exact hr p q hq
  · exact hs p q hq

theorem StartsWith.notBehind (h : StartsWith r class_) : StartsWith (.seq (.notBehind class') r) class_ := by
  intro p q hq
  obtain ⟨m, hm, hq⟩ := List.mem_flatMap.mp hq
  simp only [ends] at hm
  split at hm
  · cases hm
  · rw [List.mem_singleton.mp hm] at hq
    exact h p q hq

theorem StartsWith.matchAt (h : StartsWith r class_) {before : Option Char} {t : List Char} {m : Match}
    (hm : r.matchAt before t = some m) : ∃ c rest, m.text = c :: rest ∧ class_ c = true := by
  obtain ⟨q, hq, rfl⟩ := Option.map_eq_some_iff.mp hm
  obtain ⟨c, rest, hp, hc, hrest⟩ := h _ q (List.mem_of_head? hq)
  have hlen := hrest.length_le
  obtain ⟨k, hk⟩ : ∃ k, (c :: rest).length - q.rest.length = k + 1 :=
    Nat.exists_eq_succ_of_ne_zero (by rw [List.length_cons]; omega)
  refine ⟨c, rest.take k, ?_, hc⟩
  show List.take _ t = _
  rw [show t = c :: rest from hp, hk, List.take_succ_cons]

/-- The text that `search` finds begins so. -/
theorem StartsWith.search (h : StartsWith r class_) {t : List Char} {m : Match}
    (hm : r.search t = some m) : ∃ c rest, m.text = c :: rest ∧ class_ c = true := by
  suffices hfrom : ∀ before, r.searchFrom before t = some m → ∃ c rest, m.text = c :: rest ∧ class_ c = true from
    hfrom none hm
  clear hm
  induction t with
  | nil => exact fun before hm => h.matchAt hm
  | cons c rest ih =>
    intro before hm
    rcases Option.or_eq_some_iff.mp hm with hm | ⟨-, hm⟩
    · exact h.matchAt hm
    · exact ih _ hm

end
end Regex
end TravelMaker.Lib
