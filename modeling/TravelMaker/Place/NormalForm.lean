import Mathlib.Data.List.Chain
import TravelMaker.Place.Breaks

/-! Cleaned texts that are cleaned again.

A cleaned text has no tag and single white space, so a second cleaning can find nothing but
a break tag. One is left where a break tag stands inside another (`hasBreak_clean`). -/
namespace TravelMaker
open Lib (Regex Txn)
open Lib.Text (isSpace strip)

variable {V : Type}

/-! ### Single white space -/

/-- What the clean-up of lines works on. -/
def isLine (c : Char) : Bool := isBlank c || c == '\n'

/-- No two of these characters are next to each other. -/
def Tidy (s : List Char) : Prop := s.IsChain fun c d => ¬ (isLine c = true ∧ isLine d = true)

/-- No newline has one of them next to it. -/
def TidyLines (s : List Char) : Prop :=
  s.IsChain fun c d => ¬ (isLine c = true ∧ isLine d = true ∧ (c = '\n' ∨ d = '\n'))

theorem isLine_of_isBlank {c : Char} (h : isBlank c = true) : isLine c = true := by
  unfold isLine
  rw [h, Bool.true_or]

theorem isLine_newline : isLine '\n' = true := by decide

theorem isBlank_of_isLine {c : Char} (h : isLine c = true) (hc : c ≠ '\n') : isBlank c = true :=
  ((Bool.or_eq_true _ _).mp h).resolve_right fun hnewline => hc (beq_iff_eq.mp hnewline)

theorem wsLineRe_forward : wsLineRe.Forward := by simp [wsLineRe, Regex.Forward, Regex.one]

theorem multispaceRe_forward : multispaceRe.Forward := trivial

/-- Where `_WS_LINE_RE` can match. -/
theorem wsLineRe_leaves {s : List Char} : (∃ t, wsLineRe.Leaves s t) ↔
    ∃ blanks rest, s = blanks ++ '\n' :: rest ∧ ∀ c ∈ blanks, isBlank c = true := by
  constructor
  · intro h
    obtain ⟨t, _, ⟨blanks, rfl, hblanks, -⟩, _, hnewline, -⟩ := h
    obtain ⟨c, rfl, hc⟩ := Regex.leaves_one.mp hnewline
    obtain rfl : c = '\n' := beq_iff_eq.mp hc
    exact ⟨blanks, _, rfl, hblanks⟩
  · intro h
    obtain ⟨blanks, rest, rfl, hblanks⟩ := h
    exact ⟨rest, _, ⟨blanks, rfl, hblanks, Nat.zero_le _, fun _ hm => by cases hm⟩, _,
      Regex.leaves_one.mpr ⟨'\n', rfl, rfl⟩, Regex.leaves_rep_zero _ _ rest⟩

theorem wsLineRe_line : wsLineRe.StartsWith isLine ∧ wsLineRe.Within isLine := by
  have hnewline : ∀ c, (c == '\n') = true → isLine c = true := fun c hc => by
    rw [beq_iff_eq.mp hc]
    exact isLine_newline
  refine ⟨Regex.StartsWith.rep_seq (Regex.startsWith_rep Nat.one_pos hnewline).seq fun c hc => isLine_of_isBlank hc, ?_⟩
  exact (Regex.within_rep fun c hc => isLine_of_isBlank hc).seq ((Regex.within_rep hnewline).seq
    (Regex.within_rep fun c hc => hc))

theorem wsLineRe_greedy : wsLineRe.Greedy isLine := (Regex.greedy_rep _ 0).seq.seq

/-- Where it matches, there is a newline behind blanks. -/
theorem wsLineRe_matchAt {before : Option Char} {s : List Char} : wsLineRe.matchAt before s = none ↔
    ¬ ∃ blanks rest, s = blanks ++ '\n' :: rest ∧ ∀ c ∈ blanks, isBlank c = true := by
  rw [Regex.matchAt_eq_none_iff wsLineRe_forward, ← not_exists, wsLineRe_leaves]

/-- `_WS_LINE_RE.sub` leaves nothing next to a newline. -/
theorem tidyLines_wsLineRe (s : List Char) : TidyLines (wsLineRe.sub ['\n'] s) := by
  refine (Regex.sub_induction (P := fun s out => (out.head?.any isLine = true → s.head?.any isLine = true) ∧
    (out.head? = some '\n' → wsLineRe.matchAt none s ≠ none) ∧ TidyLines out)
    wsLineRe_line.1 wsLineRe_line.2 ?_ ?_ ?_ s).2.2
  · exact ⟨id, fun h => (Option.some_ne_none _ h.symm).elim, .nil⟩
  · intro before c rest out hnone ih
    obtain ⟨-, hnewline, hout⟩ := ih
    have hc : c ≠ '\n' := fun heq =>
      wsLineRe_matchAt.mp hnone ⟨[], rest, by rw [heq]; rfl, fun _ hd => (List.not_mem_nil hd).elim⟩
    refine ⟨id, fun h => (hc (Option.some.inj h)).elim, List.isChain_cons.mpr ⟨fun d hd hboth => ?_, hout⟩⟩
    obtain ⟨hline, -, hor⟩ := hboth
    obtain rfl : d = '\n' := hor.resolve_left hc
    have hrest := hnewline hd
    rw [ne_eq, wsLineRe_matchAt, not_not] at hrest
    obtain ⟨blanks, rest', rfl, hblanks⟩ := hrest
    exact wsLineRe_matchAt.mp hnone ⟨c :: blanks, rest', rfl,
      List.forall_mem_cons.mpr ⟨isBlank_of_isLine hline hc, hblanks⟩⟩
  · intro before captured c text rest out hm hc _ ih
    obtain ⟨hhead, -, hout⟩ := ih
    refine ⟨fun _ => hc, fun _ hnone => ?_, List.isChain_cons.mpr ⟨fun d hd hboth => ?_, hout⟩⟩
    · rw [wsLineRe_matchAt, ← @wsLineRe_matchAt before, hm] at hnone
      cases hnone
    · have hdline : out.head?.any isLine = true := by
        rw [show out.head? = some d from hd]
        exact hboth.2.1
      obtain ⟨e, he, hline⟩ := (Option.any_eq_true _ _).mp (hhead hdline)
      rw [wsLineRe_greedy.matchAt hm e he] at hline
      cases hline

/-! ### Blanks -/

/-- Where `_MULTISPACE_RE` matches. -/
theorem multispaceRe_matchAt {before : Option Char} {c d : Char} {rest : List Char} (hc : isBlank c = true)
    (hd : isBlank d = true) : multispaceRe.matchAt before (c :: d :: rest) ≠ none := by
  rw [ne_eq, Regex.matchAt_eq_none_iff multispaceRe_forward]
  exact fun h => h rest ⟨[c, d], rfl, by simp [hc, hd], Nat.le_refl 2, fun _ hm => by cases hm⟩

theorem multispaceRe_blank : multispaceRe.StartsWith isBlank ∧ multispaceRe.Within isBlank :=
  ⟨Regex.startsWith_rep (by decide) fun _ hc => hc, Regex.within_rep fun _ hc => hc⟩

/-- `_MULTISPACE_RE.sub` leaves single white space. -/
theorem tidy_multispaceRe {s : List Char} (h : TidyLines s) : Tidy (multispaceRe.sub [' '] s) := by
  refine (Regex.sub_induction (P := fun s out => TidyLines s → (out.head?.any isBlank = true → s.head?.any isBlank = true) ∧
    (out.head? = some '\n' → s.head? = some '\n') ∧ Tidy out)
    multispaceRe_blank.1 multispaceRe_blank.2 ?_ ?_ ?_ s h).2.2
  · exact fun _ => ⟨id, id, .nil⟩
  · intro before c rest out hnone ih hs
    obtain ⟨hbefore, hrest⟩ := List.isChain_cons.mp hs
    obtain ⟨hblank, hnewline, hout⟩ := ih hrest
    refine ⟨id, id, List.isChain_cons.mpr ⟨fun d hd hboth => ?_, hout⟩⟩
    by_cases hdn : d = '\n'
    · exact hbefore d (hdn ▸ hnewline (hdn ▸ hd)) ⟨hboth.1, hboth.2, .inr hdn⟩
    · have hdblank : out.head?.any isBlank = true := by
        rw [hd]
        exact isBlank_of_isLine hboth.2 hdn
      obtain ⟨e, he, heblank⟩ := (Option.any_eq_true _ _).mp (hblank hdblank)
      by_cases hcn : c = '\n'
      · exact hbefore e he ⟨hboth.1, isLine_of_isBlank heblank, .inl hcn⟩
      · obtain ⟨rest', rfl⟩ := List.head?_eq_some_iff.mp he
        exact multispaceRe_matchAt (isBlank_of_isLine hboth.1 hcn) heblank hnone
  · intro before captured c text rest out hm hc hall ih hs
    have hgreedy := (Regex.greedy_rep isBlank 2).matchAt hm
    obtain ⟨-, hrest, hjoint⟩ := List.isChain_append.mp hs
    obtain ⟨hblank, hnewline, hout⟩ := ih hrest
    refine ⟨fun _ => hc, fun hhead => ?_, List.isChain_cons.mpr ⟨fun d hd hboth => ?_, hout⟩⟩
    · exact absurd (Option.some.inj hhead) (by decide)
    · by_cases hdn : d = '\n'
      · have hlast := List.getLast?_eq_some_getLast (List.cons_ne_nil c text)
        refine hjoint _ hlast d (hdn ▸ hnewline (hdn ▸ hd)) ⟨isLine_of_isBlank (hall _ (List.getLast_mem _)), hboth.2, .inr hdn⟩
      · have hdblank : out.head?.any isBlank = true := by
          rw [show out.head? = some d from hd]
          exact isBlank_of_isLine hboth.2 hdn
        obtain ⟨e, he, heblank⟩ := (Option.any_eq_true _ _).mp (hblank hdblank)
        rw [hgreedy e he] at heblank
        cases heblank

/-! ### Single white space stays -/

theorem Tidy.part {s t : List Char} (h : Tidy t) (hpart : s <:+: t) : Tidy s := List.IsChain.infix h hpart

theorem tidy_head {c d : Char} {rest : List Char} (h : Tidy (c :: d :: rest)) (hc : isLine c = true) : isLine d = false :=
  Bool.eq_false_iff.mpr fun hd => (List.isChain_cons_cons.mp h).1 ⟨hc, hd⟩

theorem wsLineRe_tidy {s : List Char} (h : Tidy s) : wsLineRe.sub ['\n'] s = s := by
  refine Regex.sub_induction (P := fun s out => Tidy s → out = s) wsLineRe_line.1 wsLineRe_line.2 (fun _ => rfl) ?_ ?_ s h
  · intro before c rest out _ ih hs
    rw [ih (hs.part (List.suffix_cons c rest).isInfix)]
  · intro before captured c text rest out hm hc hall ih hs
    have hshort : text = [] := by
      cases text with
      | nil => rfl
      | cons d text =>
        rw [List.forall_mem_cons, List.forall_mem_cons] at hall
        rw [tidy_head hs hc] at hall
        cases hall.2.1
    subst hshort
    obtain ⟨first, others, hword, -, newline, last, rfl, hnewline, -⟩ := (Regex.matchAt_yields hm).2
    have hmem : '\n' ∈ [c] := by
      rw [show [c] = first ++ (newline ++ last) from hword]
      obtain ⟨e, rfl⟩ := List.length_eq_one_iff.mp (Nat.le_antisymm (hnewline.2.2 1 rfl) hnewline.2.1)
      rw [← beq_iff_eq.mp (hnewline.1 e (List.mem_singleton_self e))]
      simp
    rw [← List.mem_singleton.mp hmem, ih (hs.part (List.suffix_append _ rest).isInfix)]

theorem multispaceRe_tidy {s : List Char} (h : Tidy s) : multispaceRe.sub [' '] s = s := by
  refine Regex.sub_induction (P := fun s out => Tidy s → out = s) multispaceRe_blank.1 multispaceRe_blank.2 (fun _ => rfl)
    ?_ ?_ s h
  · intro before c rest out _ ih hs
    rw [ih (hs.part (List.suffix_cons c rest).isInfix)]
  · intro before captured c text rest out hm hc hall _ hs
    cases text with
    | nil =>
      have htwo : 2 ≤ [c].length := (Regex.matchAt_yields hm).2.2.1
      exact absurd htwo (by simp)
    | cons d text =>
      rw [List.forall_mem_cons, List.forall_mem_cons] at hall
      have hline := tidy_head hs (isLine_of_isBlank hc)
      rw [isLine_of_isBlank hall.2.1] at hline
      cases hline

/-! ### Break tags that are left -/

/-- Behind a tag. -/
theorem suffix_of_append_cons {z init rest : List Char} {d : Char} (h : z <:+ init ++ d :: rest) : z <:+ rest ∨ d ∈ z := by
  induction init with
  | nil =>
    rcases List.suffix_cons_iff.mp h with rfl | h
    · exact .inr List.mem_cons_self
    · exact .inl h
  | cons a init ih =>
    rcases List.suffix_cons_iff.mp h with rfl | h
    · exact .inr (List.mem_append_right (a :: init) List.mem_cons_self)
    · exact ih h

/-- A tag ends with its `>`. -/
theorem tagRe_yields {text : List Char} (h : tagRe.Yields text) : ∃ init, text = init ++ ['>'] := by
  obtain ⟨first, _, rfl, -, inner, last, rfl, -, hlast⟩ := h
  obtain ⟨e, rfl⟩ := List.length_eq_one_iff.mp (Nat.le_antisymm (hlast.2.2 1 rfl) hlast.2.1)
  obtain rfl : e = '>' := beq_iff_eq.mp (hlast.1 e (List.mem_singleton_self e))
  exact ⟨first ++ inner, by rw [List.append_assoc]⟩

/-- What `_TAG_RE.sub` keeps behind a `<` without a `>`. -/
theorem suffix_tagRe (s y : List Char) (hy : '>' ∉ y) : '<' :: y <:+ tagRe.sub [] s ↔ '<' :: y <:+ s := by
  refine (Regex.sub_induction (P := fun s out => ('>' ∉ s → out = s) ∧ (s.head? = some '>' → out.head? = some '>') ∧
    ('<' :: y <:+ out ↔ '<' :: y <:+ s)) tagRe_startsWith (Regex.within_true tagRe) ?_ ?_ ?_ s).2.2
  · exact ⟨fun _ => rfl, id, Iff.rfl⟩
  · intro before c rest out hnone ih
    obtain ⟨hsame, hhead, hsuffix⟩ := ih
    have hkept : '>' ∉ c :: rest → c :: out = c :: rest := fun hs =>
      congrArg (c :: ·) (hsame fun hmem => hs (List.mem_cons_of_mem c hmem))
    refine ⟨hkept, id, ?_⟩
    rw [List.suffix_cons_iff, List.suffix_cons_iff, hsuffix]
    refine or_congr ⟨fun heq => ?_, fun heq => ?_⟩ Iff.rfl
    · obtain ⟨rfl, rfl⟩ := List.cons.inj heq
      rcases (tagRe_matchAt before '<' rest).mp hnone rfl with hgt | hgt
      · exact (hy (List.mem_of_mem_head? (hhead hgt))).elim
      · rw [hsame hgt]
    · obtain ⟨rfl, rfl⟩ := List.cons.inj heq
      rw [hsame hy]
  · intro before captured c text rest out hm hc _ ih
    obtain ⟨init, htext⟩ := tagRe_yields (Regex.matchAt_yields hm).2
    have hsplit : c :: text ++ rest = init ++ '>' :: rest := by
      rw [show c :: text = init ++ ['>'] from htext, List.append_assoc]
      rfl
    have hgt : '>' ∈ c :: text ++ rest := hsplit ▸ List.mem_append_right init List.mem_cons_self
    refine ⟨fun hnot => (hnot hgt).elim, fun hhead => ?_, ih.2.2.trans ⟨fun h => h.trans (List.suffix_append _ rest), fun h => ?_⟩⟩
    · rw [Option.some.inj hhead] at hc
      exact absurd hc (by decide)
    · rw [hsplit] at h
      refine (suffix_of_append_cons h).resolve_right fun hmem => hy ?_
      exact (List.mem_cons.mp hmem).resolve_left (by decide)

/-- Where there is a break tag. -/
theorem hasBreak_iff {pieces : List (Option Char)} :
    hasBreak pieces = true ↔ ∃ rest, some '<' :: rest <:+ pieces ∧ opensBreak false rest = true := by
  induction pieces with
  | nil => simp [hasBreak]
  | cons piece pieces ih =>
    simp only [hasBreak, Bool.or_eq_true, Bool.and_eq_true, beq_iff_eq, ih, List.suffix_cons_iff, or_and_right, exists_or]
    refine or_congr ⟨fun h => ⟨pieces, by rw [h.1], h.2⟩, fun h => ?_⟩ Iff.rfl
    obtain ⟨rest, heq, hopens⟩ := h
    obtain ⟨rfl, rfl⟩ := List.cons.inj heq
    exact ⟨rfl, hopens⟩

theorem hasBreak_text {s : List Char} :
    hasBreak (s.map some) = true ↔ ∃ y, '<' :: y <:+ s ∧ opensBreak false (y.map some) = true := by
  rw [hasBreak_iff]
  constructor
  · intro h
    obtain ⟨rest, hsuffix, hopens⟩ := h
    obtain ⟨z, hz, hmap⟩ := List.suffix_map_iff.mp hsuffix
    obtain ⟨c, y, rfl, hc, rfl⟩ := List.map_eq_cons_iff.mp hmap.symm
    rw [Option.some.inj hc] at hz
    exact ⟨y, hz, hopens⟩
  · intro h
    obtain ⟨y, hsuffix, hopens⟩ := h
    exact ⟨y.map some, List.suffix_map_iff.mpr ⟨_, hsuffix, rfl⟩, hopens⟩

/-- A break tag that a `>` follows at once is a tag. -/
theorem opensBreak_gt (slash : Bool) (rest : List (Option Char)) : opensBreak slash (some '>' :: rest) = false := by
  cases rest <;> rfl

/-- What is left of the break tags when the other tags are gone. -/
theorem hasBreak_tagRe (s : List Char) : hasBreak ((tagRe.sub [] s).map some) = true ↔
    ∃ y, '<' :: y <:+ s ∧ '>' ∉ y ∧ opensBreak false (y.map some) = true := by
  rw [hasBreak_text]
  constructor
  · intro h
    obtain ⟨y, hsuffix, hopens⟩ := h
    have hy : '>' ∉ y := by
      rcases ((untagged_tagRe s).suffix hsuffix).1 rfl with hhead | hy
      · obtain ⟨rest, rfl⟩ := List.head?_eq_some_iff.mp hhead
        rw [List.map_cons, opensBreak_gt] at hopens
        cases hopens
      · exact hy
    exact ⟨y, (suffix_tagRe s y hy).mp hsuffix, hy, hopens⟩
  · intro h
    obtain ⟨y, hsuffix, hy, hopens⟩ := h
    exact ⟨y, (suffix_tagRe s y hy).mpr hsuffix, hopens⟩

/-! ### Cut texts -/

/-- A newline for what was cut out. -/
def fill (piece : Option Char) : Char := piece.getD '\n'

theorem sub_brRe (s : List Char) : brRe.sub ['\n'] s = (brRe.cut s).map fill := by
  rw [Regex.sub_eq_cut, ← List.flatMap_singleton' ((brRe.cut s).map fill), List.flatMap_map]
  refine congrArg (List.flatMap · (brRe.cut s)) (funext fun piece => ?_)
  cases piece <;> rfl

theorem isGap_fill (piece : Option Char) : isGap (some (fill piece)) = isGap piece := by
  cases piece with
  | none => decide
  | some c => rfl

theorem isBoundary_fill (piece : Option Char) : isBoundary (some (fill piece)) = isBoundary piece := by
  cases piece with
  | none => decide
  | some c => rfl

theorem isLetter_fill {lower : Char} (h : lower ≠ '\n') (piece : Option Char) :
    isLetter lower (some (fill piece)) = isLetter lower piece := by
  cases piece with
  | none => exact beq_false_of_ne fun heq => h (heq.symm.trans (by decide))
  | some c => rfl

theorem fill_eq_iff {piece : Option Char} {c : Char} (h : c ≠ '\n') : fill piece = c ↔ piece = some c := by
  cases piece with
  | none => exact iff_of_false (fun heq => h heq.symm) (Option.some_ne_none c ∘ Eq.symm)
  | some d => exact Option.some_inj.symm

theorem breakName_fill (pieces : List (Option Char)) : breakName ((pieces.map fill).map some) = breakName pieces := by
  have hb : ∀ piece, isLetter 'b' (some (fill piece)) = isLetter 'b' piece := isLetter_fill (by decide)
  have hv : ∀ piece, isLetter 'v' (some (fill piece)) = isLetter 'v' piece := isLetter_fill (by decide)
  have hr : ∀ piece, isLetter 'r' (some (fill piece)) = isLetter 'r' piece := isLetter_fill (by decide)
  rcases pieces with _ | ⟨first, _ | ⟨second, _ | ⟨third, rest⟩⟩⟩
  · rfl
  · rfl
  · simp only [breakName, List.map_cons, List.map_nil, hb, hv, hr, List.head?_nil]
  · simp only [breakName, List.map_cons, hb, hv, hr, List.head?_cons, Option.all_some, isBoundary_fill]

theorem opensBreak_fill (slash : Bool) (pieces : List (Option Char)) :
    opensBreak slash ((pieces.map fill).map some) = opensBreak slash pieces := by
  induction pieces generalizing slash with
  | nil => rfl
  | cons piece pieces ih =>
    have hslash : some (fill piece) = some '/' ↔ piece = some '/' := Option.some_inj.trans (fill_eq_iff (by decide))
    have hname := breakName_fill (piece :: pieces)
    rw [List.map_cons, List.map_cons] at hname ⊢
    simp only [opensBreak, isGap_fill, hslash, ih, hname]

/-- Outside the break tags, a `<` without a `>` behind it opens a break over them. -/
def HidesBreak (s : List Char) : Prop :=
  ∃ rest, some '<' :: rest <:+ brRe.cut s ∧ some '>' ∉ rest ∧ opensBreak false rest = true

theorem hasBreak_sub (s : List Char) : hasBreak ((tagRe.sub [] (brRe.sub ['\n'] s)).map some) = true ↔ HidesBreak s := by
  have hgt : ∀ rest : List (Option Char), '>' ∈ rest.map fill ↔ some '>' ∈ rest := by
    intro rest
    simp only [List.mem_map, fill_eq_iff (c := '>') (by decide), exists_eq_right]
  rw [hasBreak_tagRe, sub_brRe]
  constructor
  · intro h
    obtain ⟨y, hsuffix, hy, hopens⟩ := h
    obtain ⟨z, hz, hmap⟩ := List.suffix_map_iff.mp hsuffix
    obtain ⟨piece, rest, rfl, hpiece, rfl⟩ := List.map_eq_cons_iff.mp hmap.symm
    rw [(fill_eq_iff (by decide)).mp hpiece] at hz
    exact ⟨rest, hz, fun hmem => hy ((hgt rest).mpr hmem), by rwa [opensBreak_fill] at hopens⟩
  · intro h
    obtain ⟨rest, hsuffix, hrest, hopens⟩ := h
    refine ⟨rest.map fill, List.suffix_map_iff.mpr ⟨_, hsuffix, rfl⟩, fun hmem => hrest ((hgt rest).mp hmem), ?_⟩
    rwa [opensBreak_fill]

/-! ### Cleaned texts -/

theorem isSpace_of_isLine {c : Char} (h : isLine c = true) : isSpace c = true := by
  rcases (Bool.or_eq_true _ _).mp h with h | h
  · exact isSpace_of_isBlank h
  · rw [beq_iff_eq.mp h]
    decide

/-- **A break tag is left in a cleaned text where one was hidden.** -/
theorem hasBreak_clean (s : List Char) : hasBreak ((cleanChars s).map some) = true ↔ HidesBreak s := by
  have hlines := fun t => squash_sub wsLineRe_startsWith (wsLineRe_line.2.mono fun c => isSpace_of_isLine) (c := '\n') (by decide) t
  have hspaces := fun t =>
    squash_sub multispaceRe_startsWith (multispaceRe_blank.2.mono fun c => isSpace_of_isBlank) (c := ' ') (by decide) t
  rw [← hasBreak_sub, cleanChars, hasBreak_strip, ← hasBreak_squash, hspaces, hlines, hasBreak_squash]

theorem tidy_clean (s : List Char) : Tidy (cleanChars s) :=
  (tidy_multispaceRe (tidyLines_wsLineRe _)).part
    ((List.rdropWhile_prefix isSpace _).isInfix.trans (List.dropWhile_suffix isSpace).isInfix)

/-- A cleaned text without a break tag stays as it is. -/
theorem cleanChars_clean {s : List Char} (h : ¬ HidesBreak s) : cleanChars (cleanChars s) = cleanChars s := by
  have hbreaks : brRe.sub ['\n'] (cleanChars s) = cleanChars s := by
    refine Regex.sub_eq_self brRe_startsWith fun before c rest hsuffix => (brRe_matchAt before c rest).mpr fun hopens => h ?_
    exact (hasBreak_clean s).mp (hasBreak_text.mpr ⟨rest, hopens.1 ▸ hsuffix, hopens.2⟩)
  show Lib.Text.stripWith isSpace (multispaceRe.sub [' '] (wsLineRe.sub ['\n'] (tagRe.sub [] (brRe.sub ['\n'] (cleanChars s))))) = _
  rw [hbreaks, tagRe_untagged (untagged_cleanChars s), wsLineRe_tidy (tidy_clean s), multispaceRe_tidy (tidy_clean s)]
  exact Lib.Text.stripWith_stripWith isSpace _

/-! ### Brackets -/

theorem count_sub_le {r : Regex} {start : Char → Bool} (hstart : r.StartsWith start) {new : List Char} (hnew : '<' ∉ new)
    (s : List Char) : (r.sub new s).count '<' ≤ s.count '<' := by
  refine Regex.sub_induction (P := fun s out => out.count '<' ≤ s.count '<') hstart (Regex.within_true r) (Nat.le_refl _) ?_ ?_ s
  · intro before c rest out _ ih
    rw [List.count_cons, List.count_cons]
    exact Nat.add_le_add_right ih _
  · intro _ _ c text rest out _ _ _ ih
    rw [List.count_append, List.count_append, List.count_eq_zero_of_not_mem hnew, Nat.zero_add]
    exact ih.trans (Nat.le_add_left _ _)

/-- A break tag takes its bracket with it. -/
theorem count_brRe {s : List Char} (h : hasBreak (s.map some) = true) : (brRe.sub ['\n'] s).count '<' < s.count '<' := by
  refine (Regex.sub_induction (P := fun s out => out.count '<' ≤ s.count '<' ∧
    (hasBreak (s.map some) = true → out.count '<' < s.count '<')) brRe_startsWith (Regex.within_true brRe) ?_ ?_ ?_ s).2 h
  · exact ⟨Nat.le_refl _, fun h => by cases h⟩
  · intro before c rest out hnone ih
    rw [List.count_cons, List.count_cons]
    refine ⟨Nat.add_le_add_right ih.1 _, fun hbreak => Nat.add_lt_add_right (ih.2 ?_) _⟩
    rw [List.map_cons, hasBreak, Bool.or_eq_true, Bool.and_eq_true, beq_iff_eq, Option.some_inj] at hbreak
    exact hbreak.resolve_left ((brRe_matchAt before c rest).mp hnone)
  · intro _ _ c text rest out _ hc _ ih
    obtain rfl : c = '<' := beq_iff_eq.mp hc
    have hlt : (['\n'] ++ out).count '<' < ('<' :: text ++ rest).count '<' := by
      rw [List.count_append, List.count_append, List.count_cons_self, show (['\n'] : List Char).count '<' = 0 by decide]
      have := ih.1
      omega
    exact ⟨hlt.le, fun _ => hlt⟩

/-- A text with a break tag in it does not stay as it is. -/
theorem cleanChars_ne {s : List Char} (h : hasBreak (s.map some) = true) : cleanChars s ≠ s := by
  intro heq
  have hsub := (Lib.Text.stripWith_sublist isSpace
    (multispaceRe.sub [' '] (wsLineRe.sub ['\n'] (tagRe.sub [] (brRe.sub ['\n'] s))))).count_le '<'
  rw [show Lib.Text.stripWith isSpace _ = s from heq] at hsub
  have hspaces := @count_sub_le _ _ multispaceRe_startsWith [' '] (by decide)
    (wsLineRe.sub ['\n'] (tagRe.sub [] (brRe.sub ['\n'] s)))
  have hlines := @count_sub_le _ _ wsLineRe_startsWith ['\n'] (by decide) (tagRe.sub [] (brRe.sub ['\n'] s))
  have htags := @count_sub_le _ _ tagRe_startsWith [] List.not_mem_nil (brRe.sub ['\n'] s)
  have hbreaks := count_brRe h
  omega

end TravelMaker
