import TravelMaker.Place.CleanInfo

/-! Line-break tags, as `_BR_RE` finds them.

`opensBreak` reads what stands behind a `<`, with gaps where a tag was cut out; it is the
expression itself (`brRe_matchAt`). White space may get narrower without opening or closing
a break (`hasBreak_squash`). -/
namespace TravelMaker
open Lib (Regex)
open Lib.Text (isSpace strip)

/-! ### Reading a break tag -/

/-- White space, or a place where something was cut out. -/
def isGap (piece : Option Char) : Bool := piece.all isSpace

def isLetter (lower : Char) (piece : Option Char) : Bool := piece.any (·.toLower == lower)

/-- What may stand behind `br`; the end of the text may too. -/
def isBoundary (piece : Option Char) : Bool := isGap piece || piece.any fun c => c == '/' || c == '<' || c == '>'

/-- `br` or `vr`, and not as the beginning of a longer word. -/
def breakName : List (Option Char) → Bool
  | first :: second :: rest => (isLetter 'b' first || isLetter 'v' first) && isLetter 'r' second && rest.head?.all isBoundary
  | _ => false

/-- Gaps, one slash at most, and the name. -/
def opensBreak (slash : Bool) : List (Option Char) → Bool
  | [] => false
  | piece :: rest =>
    if isGap piece then opensBreak slash rest
    else if piece = some '/' then !slash && opensBreak true rest
    else breakName (piece :: rest)

def hasBreak : List (Option Char) → Bool
  | [] => false
  | piece :: rest => (piece == some '<' && opensBreak false rest) || hasBreak rest

/-! ### Letters -/

/-- Both cases of a letter lie among the letters. -/
theorem letter_bounds {c : Char} (h : isLetter 'b' (some c) = true ∨ isLetter 'v' (some c) = true ∨ isLetter 'r' (some c) = true) :
    65 ≤ c.toNat ∧ c.toNat ≤ 122 := by
  have hlower : c.toLower = 'b' ∨ c.toLower = 'v' ∨ c.toLower = 'r' := by simpa [isLetter] using h
  unfold Char.toLower at hlower
  split at hlower
  · rename_i hupper
    have hlow : 65 ≤ c.val.toNat := UInt32.le_iff_toNat_le.mp hupper.1
    have hhigh : c.val.toNat ≤ 90 := UInt32.le_iff_toNat_le.mp hupper.2
    exact ⟨hlow, hhigh.trans (by decide)⟩
  · rcases hlower with rfl | rfl | rfl <;> decide

theorem letter_not_gap {c : Char} (h : 65 ≤ c.toNat ∧ c.toNat ≤ 122) : isGap (some c) = false ∧ c ≠ '/' := by
  refine ⟨?_, fun hslash => ?_⟩
  · simp [isGap, isSpace]
    omega
  · subst hslash
    exact absurd h.1 (by decide)

theorem gap_not_r {piece : Option Char} (h : isGap piece = true) : isLetter 'r' piece = false := by
  refine Bool.eq_false_iff.mpr fun hletter => ?_
  cases piece with
  | none => cases hletter
  | some c =>
    rw [(letter_not_gap (letter_bounds (.inr (.inr hletter)))).1] at h
    cases h

/-! ### The expression -/

theorem isSpace_toGap {c : Char} : isGap (some c) = isSpace c := rfl

theorem opensBreak_gaps {gaps pieces : List (Option Char)} (hgaps : ∀ piece ∈ gaps, isGap piece = true) (slash : Bool) :
    opensBreak slash (gaps ++ pieces) = opensBreak slash pieces := by
  induction gaps with
  | nil => rfl
  | cons piece gaps ih =>
    rw [List.forall_mem_cons] at hgaps
    rw [List.cons_append, opensBreak, if_pos hgaps.1, ih hgaps.2]

/-- A name is no gap and no slash. -/
theorem opensBreak_name {pieces : List (Option Char)} (h : breakName pieces = true) (slash : Bool) :
    opensBreak slash pieces = true := by
  unfold breakName at h
  split at h
  · rename_i first second rest
    cases first with
    | none => cases h
    | some c =>
      have hletter : isLetter 'b' (some c) = true ∨ isLetter 'v' (some c) = true := by
        simp only [Bool.and_eq_true, Bool.or_eq_true] at h
        exact h.1.1
      have hbounds := letter_bounds (c := c) (hletter.imp_right .inl)
      obtain ⟨hgap, hslash⟩ := letter_not_gap hbounds
      rw [opensBreak, if_neg (by simp [hgap]), if_neg (by simp [hslash])]
      exact h
  · cases h

/-- What `opensBreak` found. -/
theorem opensBreak_split {text : List Char} {slash : Bool} (h : opensBreak slash (text.map some) = true) :
    ∃ gaps rest, text = gaps ++ rest ∧ (∀ c ∈ gaps, isSpace c = true) ∧
      (breakName (rest.map some) = true ∨ slash = false ∧ ∃ rest', rest = '/' :: rest' ∧ opensBreak true (rest'.map some) = true) := by
  induction text with
  | nil => cases h
  | cons c text ih =>
    rw [List.map_cons, opensBreak] at h
    split at h
    · rename_i hgap
      obtain ⟨gaps, rest, rfl, hgaps, hfound⟩ := ih h
      exact ⟨c :: gaps, rest, rfl, List.forall_mem_cons.mpr ⟨hgap, hgaps⟩, hfound⟩
    · split at h
      · rename_i hslash
        obtain ⟨hfalse, hopens⟩ := (Bool.and_eq_true _ _).mp h
        refine ⟨[], c :: text, rfl, fun _ hc => (List.not_mem_nil hc).elim, .inr ⟨by simpa using hfalse, text, ?_, hopens⟩⟩
        rw [Option.some.inj hslash]
      · exact ⟨[], c :: text, rfl, fun _ hc => (List.not_mem_nil hc).elim, .inl h⟩

theorem isLetter_iff {lower c : Char} (h : lower.toLower = lower) :
    isLetter lower (some c) = true ↔ (c == lower || (true && c.toLower == lower)) = true := by
  simp only [isLetter, Option.any_some, Bool.true_and, Bool.or_eq_true, beq_iff_eq]
  exact ⟨.inr, fun hc => hc.elim (fun heq => by rw [heq, h]) id⟩

/-- `(?=[\s/<>]|$)`. -/
theorem leaves_boundary {s t : List Char} :
    (Regex.ahead (.alt (.one fun c => isSpace c || c == '/' || c == '<' || c == '>') .atEnd)).Leaves s t ↔
      t = s ∧ (s.map some).head?.all isBoundary = true := by
  refine and_congr_right fun _ => ?_
  constructor
  · intro h
    obtain ⟨u, h | h⟩ := h
    · obtain ⟨c, rfl, hc⟩ := Regex.leaves_one.mp h
      simpa [isBoundary, isGap, or_assoc] using hc
    · obtain ⟨-, rfl | rfl⟩ := h
      · rfl
      · decide
  · intro h
    cases s with
    | nil => exact ⟨[], .inr ⟨rfl, .inl rfl⟩⟩
    | cons c rest =>
      refine ⟨rest, .inl (Regex.leaves_one.mpr ⟨c, rfl, ?_⟩)⟩
      simpa [isBoundary, isGap, or_assoc] using h

/-- The name and what must follow it. -/
theorem leaves_name {tail : Regex} (htail : ∀ s, ∃ t, tail.Leaves s t) {s : List Char} :
    (∃ t, (Regex.seq (.alt (.text "br" true) (.text "vr" true)) (.seq
      (.ahead (.alt (.one fun c => isSpace c || c == '/' || c == '<' || c == '>') .atEnd)) tail)).Leaves s t) ↔
      breakName (s.map some) = true := by
  have hbr : "br" = .ofList ['b', 'r'] := rfl
  have hvr : "vr" = .ofList ['v', 'r'] := rfl
  have hb : ∀ c, isLetter 'b' (some c) = true ↔ (c == 'b' || (true && c.toLower == 'b')) = true := fun c =>
    isLetter_iff (by decide)
  have hv : ∀ c, isLetter 'v' (some c) = true ↔ (c == 'v' || (true && c.toLower == 'v')) = true := fun c =>
    isLetter_iff (by decide)
  have hr : ∀ c, isLetter 'r' (some c) = true ↔ (c == 'r' || (true && c.toLower == 'r')) = true := fun c =>
    isLetter_iff (by decide)
  constructor
  · intro h
    obtain ⟨t, between, hname, _, hbounded, -⟩ := h
    obtain ⟨rfl, hboundary⟩ := leaves_boundary.mp hbounded
    rw [hbr, hvr] at hname
    rcases hname with h | h
    · obtain ⟨c, d, rfl, hc, hd⟩ := Regex.leaves_text_pair.mp h
      simp only [List.map_cons, breakName, Bool.and_eq_true, Bool.or_eq_true]
      exact ⟨⟨.inl ((hb c).mpr hc), (hr d).mpr hd⟩, hboundary⟩
    · obtain ⟨c, d, rfl, hc, hd⟩ := Regex.leaves_text_pair.mp h
      simp only [List.map_cons, breakName, Bool.and_eq_true, Bool.or_eq_true]
      exact ⟨⟨.inr ((hv c).mpr hc), (hr d).mpr hd⟩, hboundary⟩
  · intro h
    rcases s with _ | ⟨c, _ | ⟨d, rest⟩⟩
    · cases h
    · cases h
    · simp only [List.map_cons, breakName, Bool.and_eq_true, Bool.or_eq_true] at h
      obtain ⟨t, ht⟩ := htail rest
      refine ⟨t, rest, ?_, rest, leaves_boundary.mpr ⟨rfl, h.2⟩, ht⟩
      rw [hbr, hvr]
      rcases h.1.1 with hc | hc
      · exact .inl (Regex.leaves_text_pair.mpr ⟨c, d, rfl, (hb c).mp hc, (hr d).mp h.1.2⟩)
      · exact .inr (Regex.leaves_text_pair.mpr ⟨c, d, rfl, (hv c).mp hc, (hr d).mp h.1.2⟩)

/-- What else a break tag takes. -/
def breakEndRe : Regex :=
  .seq (.rep isSpace 0 none) (.seq (.rep (· == '/') 0 (some 1))
    (.seq (.rep isSpace 0 none) (.rep (fun c => c == '<' || c == '>') 0 (some 1))))

/-- That may be nothing. -/
theorem leaves_breakEnd (s : List Char) : ∃ t, breakEndRe.Leaves s t :=
  ⟨s, s, Regex.leaves_rep_zero _ _ s, s, Regex.leaves_rep_zero _ _ s, s, Regex.leaves_rep_zero _ _ s,
    Regex.leaves_rep_zero _ _ s⟩

theorem brRe_forward : brRe.Forward := by
  simp [brRe, Regex.Forward, Regex.one, Regex.text]

theorem opensBreak_spaces {spaces text : List Char} (hspaces : ∀ c ∈ spaces, isSpace c = true) (slash : Bool) :
    opensBreak slash ((spaces ++ text).map some) = opensBreak slash (text.map some) := by
  rw [List.map_append]
  refine opensBreak_gaps (fun piece hpiece => ?_) slash
  obtain ⟨c, hc, rfl⟩ := List.mem_map.mp hpiece
  exact hspaces c hc

/-- Where `_BR_RE` matches. -/
theorem brRe_matchAt (before : Option Char) (c : Char) (rest : List Char) :
    brRe.matchAt before (c :: rest) = none ↔ ¬ (c = '<' ∧ opensBreak false (rest.map some) = true) := by
  rw [Regex.matchAt_eq_none_iff brRe_forward, ← not_exists, not_iff_not]
  constructor
  · intro h
    obtain ⟨t, _, hopen, _, ⟨gaps, rfl, hgaps, -⟩, _, ⟨slash, rfl, hslash, -, hone⟩, name, ⟨gaps', rfl, hgaps', -⟩, hname⟩ := h
    obtain ⟨_, hsplit, hc⟩ := Regex.leaves_one.mp hopen
    obtain ⟨rfl, rfl⟩ := List.cons.inj hsplit
    refine ⟨beq_iff_eq.mp hc, ?_⟩
    have hfound : breakName (name.map some) = true := (leaves_name leaves_breakEnd).mp ⟨t, hname⟩
    rw [opensBreak_spaces hgaps]
    rcases slash with _ | ⟨d, _ | ⟨e, slash⟩⟩
    · rw [List.nil_append, opensBreak_spaces hgaps']
      exact opensBreak_name hfound false
    · obtain rfl : d = '/' := beq_iff_eq.mp (hslash d List.mem_cons_self)
      have hslash : ∀ pieces, opensBreak false (some '/' :: pieces) = opensBreak true pieces := fun _ => rfl
      rw [List.singleton_append, List.map_cons, hslash, opensBreak_spaces hgaps']
      exact opensBreak_name hfound true
    · exact absurd (hone 1 rfl) (by simp)
  · intro h
    obtain ⟨rfl, hopens⟩ := h
    obtain ⟨gaps, after, rfl, hgaps, hfound⟩ := opensBreak_split hopens
    obtain ⟨slash, gaps', name, rfl, hslash, hone, hgaps', hname⟩ : ∃ slash gaps' name, after = slash ++ (gaps' ++ name) ∧
        (∀ c ∈ slash, (c == '/') = true) ∧ slash.length ≤ 1 ∧ (∀ c ∈ gaps', isSpace c = true) ∧
        breakName (name.map some) = true := by
      rcases hfound with hname | ⟨-, behind, rfl, hbehind⟩
      · exact ⟨[], [], after, rfl, fun _ hc => (List.not_mem_nil hc).elim, Nat.zero_le 1,
          fun _ hc => (List.not_mem_nil hc).elim, hname⟩
      · obtain ⟨gaps', name, hsplit, hgaps', hname | ⟨hfalse, -⟩⟩ := opensBreak_split hbehind
        · exact ⟨['/'], gaps', name, congrArg ('/' :: ·) hsplit, List.forall_mem_singleton.mpr rfl, Nat.le_refl 1, hgaps', hname⟩
        · cases hfalse
    obtain ⟨t, ht⟩ := (leaves_name leaves_breakEnd).mpr hname
    exact ⟨t, _, Regex.leaves_one.mpr ⟨'<', rfl, rfl⟩, _, ⟨gaps, rfl, hgaps, Nat.zero_le _, fun _ hm => by cases hm⟩, _,
      ⟨slash, rfl, hslash, Nat.zero_le _, fun m hm => (Option.some.inj hm) ▸ hone⟩, _,
      ⟨gaps', rfl, hgaps', Nat.zero_le _, fun _ hm => by cases hm⟩, ht⟩

/-- Where `_BR_RE` finds nothing. -/
theorem brRe_search (s : List Char) : brRe.search s = none ↔ hasBreak (s.map some) = false := by
  rw [Regex.search_eq_none_iff brRe_forward]
  induction s with
  | nil =>
    have hnil : brRe.matchAt none [] = none := by decide
    simp [hnil, hasBreak]
  | cons c rest ih =>
    simp only [List.suffix_cons_iff, or_imp, forall_and, forall_eq, ih, brRe_matchAt, List.map_cons, hasBreak]
    cases hasBreak (rest.map some) <;> simp

/-! ### White space -/

/-- A gap before some pieces, unless there is one already. -/
def addGap : List (Option Char) → List (Option Char)
  | none :: pieces => none :: pieces
  | pieces => none :: pieces

/-- A text with one gap for each run of white space. -/
def squash : List Char → List (Option Char)
  | [] => []
  | c :: rest => if isSpace c then addGap (squash rest) else some c :: squash rest

theorem addGap_addGap (pieces : List (Option Char)) : addGap (addGap pieces) = addGap pieces := by
  rcases pieces with _ | ⟨_ | c, pieces⟩ <;> rfl

theorem squash_spaces {c : Char} {spaces rest : List Char} (h : ∀ d ∈ c :: spaces, isSpace d = true) :
    squash (c :: spaces ++ rest) = addGap (squash rest) := by
  induction spaces generalizing c with
  | nil =>
    rw [List.singleton_append, squash, if_pos (h c List.mem_cons_self)]
  | cons d spaces ih =>
    rw [List.forall_mem_cons] at h
    show squash (c :: (d :: spaces ++ rest)) = _
    rw [squash, if_pos h.1, ih h.2, addGap_addGap]

/-- White space for white space leaves the rest of the text as it is. -/
theorem squash_sub {r : Regex} (hstart : r.StartsWith isSpace) (hwithin : r.Within isSpace) {c : Char}
    (hc : isSpace c = true) (s : List Char) : squash (r.sub [c] s) = squash s := by
  refine Regex.sub_induction (P := fun s out => squash out = squash s) hstart hwithin rfl ?_ ?_ s
  · intro before d rest out _ ih
    unfold squash
    rw [ih]
  · intro _ _ d text rest out _ _ hall ih
    rw [squash_spaces hall, ← ih]
    exact squash_spaces (List.forall_mem_singleton.mpr hc)

theorem opensBreak_addGap (slash : Bool) (pieces : List (Option Char)) :
    opensBreak slash (addGap pieces) = opensBreak slash pieces := by
  rcases pieces with _ | ⟨_ | c, pieces⟩ <;> rfl

theorem hasBreak_addGap (pieces : List (Option Char)) : hasBreak (addGap pieces) = hasBreak pieces := by
  rcases pieces with _ | ⟨_ | c, pieces⟩ <;> rfl

theorem head?_addGap (pieces : List (Option Char)) : (addGap pieces).head? = some none := by
  rcases pieces with _ | ⟨_ | c, pieces⟩ <;> rfl

theorem boundary_squash (s : List Char) : (squash s).head?.all isBoundary = (s.map some).head?.all isBoundary := by
  cases s with
  | nil => rfl
  | cons c rest =>
    unfold squash
    by_cases hc : isSpace c = true
    · rw [if_pos hc, head?_addGap]
      simp [isBoundary, isGap, hc]
    · rw [if_neg hc]
      rfl

theorem breakName_squash (piece : Option Char) (s : List Char) : breakName (piece :: squash s) = breakName (piece :: s.map some) := by
  cases s with
  | nil => rfl
  | cons c rest =>
    unfold squash
    by_cases hc : isSpace c = true
    · have hletter : isLetter 'r' (some c) = false := gap_not_r hc
      obtain ⟨pieces, hpieces⟩ := List.head?_eq_some_iff.mp (head?_addGap (squash rest))
      have hnone : isLetter 'r' none = false := rfl
      rw [if_pos hc, hpieces, List.map_cons]
      simp only [breakName, hletter, hnone, Bool.and_false, Bool.false_and]
    · rw [if_neg hc, List.map_cons]
      simp only [breakName, boundary_squash]

theorem opensBreak_squash (slash : Bool) (s : List Char) : opensBreak slash (squash s) = opensBreak slash (s.map some) := by
  induction s generalizing slash with
  | nil => rfl
  | cons c rest ih =>
    unfold squash
    by_cases hc : isSpace c = true
    · rw [if_pos hc, opensBreak_addGap, ih, List.map_cons, opensBreak, isSpace_toGap, if_pos hc]
    · rw [if_neg hc, List.map_cons, opensBreak, opensBreak, ih, ih, breakName_squash]

theorem hasBreak_squash (s : List Char) : hasBreak (squash s) = hasBreak (s.map some) := by
  induction s with
  | nil => rfl
  | cons c rest ih =>
    unfold squash
    by_cases hc : isSpace c = true
    · have hopen : (some c == some '<') = false := beq_false_of_ne fun h => by
        rw [Option.some.inj h] at hc
        exact absurd hc (by decide)
      rw [if_pos hc, hasBreak_addGap, ih, List.map_cons, hasBreak, hopen, Bool.false_and, Bool.false_or]
    · rw [if_neg hc, List.map_cons, hasBreak, hasBreak, ih, opensBreak_squash]

theorem hasBreak_gaps {gaps pieces : List (Option Char)} (hgaps : ∀ piece ∈ gaps, isGap piece = true) :
    hasBreak (gaps ++ pieces) = hasBreak pieces := by
  induction gaps with
  | nil => rfl
  | cons piece gaps ih =>
    rw [List.forall_mem_cons] at hgaps
    have hopen : (piece == some '<') = false := beq_false_of_ne fun h => by
      rw [h] at hgaps
      exact absurd hgaps.1 (by decide)
    rw [List.cons_append, hasBreak, hopen, Bool.false_and, Bool.false_or, ih hgaps.2]

/-- Gaps at the end open nothing. -/
theorem opensBreak_append_gaps {gaps : List (Option Char)} (hgaps : ∀ piece ∈ gaps, isGap piece = true) (slash : Bool)
    (pieces : List (Option Char)) : opensBreak slash (pieces ++ gaps) = opensBreak slash pieces := by
  have hbounded : gaps.head?.all isBoundary = true := by
    cases gaps with
    | nil => rfl
    | cons gap gaps => simp [isBoundary, hgaps gap List.mem_cons_self]
  have hname : ∀ piece (pieces : List (Option Char)), breakName (piece :: (pieces ++ gaps)) = breakName (piece :: pieces) := by
    intro piece pieces
    rcases pieces with _ | ⟨second, _ | ⟨third, pieces⟩⟩
    · cases gaps with
      | nil => rfl
      | cons gap gaps => simp [breakName, gap_not_r (hgaps gap List.mem_cons_self)]
    · simp only [breakName, List.cons_append, List.nil_append, hbounded]
      rfl
    · rfl
  induction pieces generalizing slash with
  | nil => simpa [opensBreak] using @opensBreak_gaps gaps [] hgaps slash
  | cons piece pieces ih => rw [List.cons_append, opensBreak, opensBreak, ih, ih, hname]

theorem hasBreak_append_gaps {gaps : List (Option Char)} (hgaps : ∀ piece ∈ gaps, isGap piece = true)
    (pieces : List (Option Char)) : hasBreak (pieces ++ gaps) = hasBreak pieces := by
  induction pieces with
  | nil => simpa [hasBreak] using @hasBreak_gaps gaps [] hgaps
  | cons piece pieces ih => rw [List.cons_append, hasBreak, hasBreak, ih, opensBreak_append_gaps hgaps]

theorem hasBreak_strip (s : List Char) : hasBreak ((Lib.Text.stripWith isSpace s).map some) = hasBreak (s.map some) := by
  have hgaps : ∀ {spaces : List Char}, (∀ c ∈ spaces, isSpace c = true) → ∀ piece ∈ spaces.map some, isGap piece = true := by
    intro spaces hspaces piece hpiece
    obtain ⟨c, hc, rfl⟩ := List.mem_map.mp hpiece
    exact hspaces c hc
  obtain ⟨left, right, hsplit, hleft, hright⟩ := Lib.Text.stripWith_split isSpace s
  generalize Lib.Text.stripWith isSpace s = kept at hsplit
  rw [hsplit, List.map_append, List.map_append, hasBreak_gaps (hgaps hleft), hasBreak_append_gaps (hgaps hright)]

end TravelMaker
