import Mathlib.Algebra.BigOperators.Group.List.Basic
import Mathlib.Algebra.GroupWithZero.Nat
import Mathlib.Data.List.Dedup

/-! Windows over joined rows.

A join repeats a row once for each match (`expand`). Reading a window of the joined rows
and dropping repetitions gives the rows that the window gets to (`firsts_take_expand`);
`le_reach_iff` says how wide it has to be to get to the first `n`. -/
namespace TravelMaker.Lib.Window

variable {α : Type}

/-- The values in the order of their first occurrence, without those seen before. -/
def firsts [DecidableEq α] (seen : List α) : List α → List α
  | [] => []
  | a :: rest => if a ∈ seen then firsts seen rest else a :: firsts (a :: seen) rest

def expand (mult : α → Nat) (l : List α) : List α := l.flatMap fun a => List.replicate (mult a) a

/-! ### Joined rows -/

section
variable {β : Type} {mult : α → Nat} {l l' : List α}

theorem mem_expand {a : α} : a ∈ expand mult l ↔ a ∈ l ∧ 0 < mult a := by
  simp only [expand, List.mem_flatMap, List.mem_replicate]
  constructor
  · intro h
    obtain ⟨b, hb, hne, rfl⟩ := h
    exact ⟨hb, Nat.pos_of_ne_zero hne⟩
  · intro h
    obtain ⟨ha, hpos⟩ := h
    exact ⟨a, ha, Nat.ne_of_gt hpos, rfl⟩

theorem expand_one (l : List α) : expand (fun _ => 1) l = l := List.flatMap_pure_eq_map id l |>.trans (List.map_id l)

/-- Two joins multiply. -/
theorem expand_expand (mult' : α → Nat) : expand mult' (expand mult l) = expand (fun a => mult a * mult' a) l := by
  have hone : ∀ (a : α) (n : Nat), expand mult' (List.replicate n a) = List.replicate (n * mult' a) a := by
    intro a n
    induction n with
    | zero => rw [Nat.zero_mul]; rfl
    | succ n ih =>
      rw [List.replicate_succ, expand, List.flatMap_cons, ← expand, ih, List.replicate_append_replicate, Nat.succ_mul,
        Nat.add_comm]
  unfold expand
  rw [List.flatMap_assoc]
  exact List.flatMap_congr fun a _ => hone a (mult a)

theorem map_expand (f : α → β) (mult : β → Nat) (l : List α) :
    (expand (fun a => mult (f a)) l).map f = expand mult (l.map f) := by
  unfold expand
  rw [List.map_flatMap, List.flatMap_map]
  exact List.flatMap_congr fun a _ => List.map_replicate

theorem expand_perm (h : l.Perm l') : (expand mult l).Perm (expand mult l') := h.flatMap_right _

/-- A row without a match is not there. -/
theorem expand_filter (l : List α) : expand mult (l.filter fun a => 0 < mult a) = expand mult l := by
  induction l with
  | nil => rfl
  | cons a rest ih =>
    rw [List.filter_cons]
    split
    · exact congrArg (List.replicate (mult a) a ++ ·) ih
    · rename_i hzero
      have hnone : mult a = 0 := by simpa using hzero
      rw [ih]
      show _ = List.replicate (mult a) a ++ expand mult rest
      rw [hnone]
      rfl

theorem pairwise_expand {r : α → α → Prop} (hrefl : ∀ a, r a a) (h : l.Pairwise r) : (expand mult l).Pairwise r := by
  refine List.pairwise_flatMap.mpr ⟨fun a _ => List.pairwise_replicate.mpr (.inr (hrefl a)), ?_⟩
  refine h.imp fun hab x hx y hy => ?_
  rw [(List.mem_replicate.mp hx).2, (List.mem_replicate.mp hy).2]
  exact hab

theorem length_dedup_expand [DecidableEq α] (hl : l.Nodup) (hmult : ∀ a ∈ l, 0 < mult a) :
    (expand mult l).dedup.length = l.length := by
  refine List.Perm.length_eq ((List.perm_ext_iff_of_nodup (List.nodup_dedup _) hl).mpr fun a => ?_)
  rw [List.mem_dedup, mem_expand]
  exact and_iff_left_of_imp (hmult a)

end

/-! ### Windows -/

/-- How many rows a window of `width` joined rows gets to. -/
def reach (mult : α → Nat) : List α → (width : Nat) → Nat
  | _, 0 => 0
  | [], _ => 0
  | a :: rest, width => reach mult rest (width - mult a) + 1

section
variable {mult : α → Nat}

@[simp] theorem reach_zero (l : List α) : reach mult l 0 = 0 := by
  cases l <;> rfl

theorem reach_cons {width : Nat} (hwidth : 0 < width) (a : α) (rest : List α) :
    reach mult (a :: rest) width = reach mult rest (width - mult a) + 1 := by
  cases width with
  | zero => cases hwidth
  | succ w => rfl

/-- A window gets to the `n`-th row if the rows before it do not fill it. -/
theorem lt_reach_iff (l : List α) (width n : Nat) : n < reach mult l width ↔
    n < l.length ∧ ((l.take n).map mult).sum < width := by
  induction l generalizing width n with
  | nil =>
    cases width <;> exact iff_of_false (Nat.not_lt_zero n) fun h => Nat.not_lt_zero n h.1
  | cons a rest ih =>
    by_cases hwidth : 0 < width
    · rw [reach_cons hwidth]
      cases n with
      | zero => exact iff_of_true (Nat.succ_pos _) ⟨Nat.succ_pos _, hwidth⟩
      | succ n =>
        rw [Nat.succ_lt_succ_iff, ih, List.length_cons, List.take_succ_cons, List.map_cons, List.sum_cons]
        apply and_congr Nat.succ_lt_succ_iff.symm
        omega
    · rw [Nat.eq_zero_of_not_pos hwidth, reach_zero]
      exact iff_of_false (Nat.not_lt_zero n) fun h => Nat.not_lt_zero _ h.2

variable [DecidableEq α]

theorem firsts_replicate (seen : List α) (a : α) (n : Nat) (rest : List α) (ha : a ∈ seen) :
    firsts seen (List.replicate n a ++ rest) = firsts seen rest := by
  induction n with
  | zero => rfl
  | succ n ih =>
    rw [List.replicate_succ, List.cons_append, firsts, if_pos ha]
    exact ih

theorem mem_firsts {seen l : List α} {a : α} : a ∈ firsts seen l ↔ a ∈ l ∧ a ∉ seen := by
  induction l generalizing seen with
  | nil => simp [firsts]
  | cons b rest ih =>
    rw [firsts]
    split
    · rename_i hb
      rw [ih, List.mem_cons]
      constructor
      · exact fun h => ⟨.inr h.1, h.2⟩
      · intro h
        obtain ⟨rfl | hrest, hseen⟩ := h
        · exact absurd hb hseen
        · exact ⟨hrest, hseen⟩
    · rename_i hb
      rw [List.mem_cons, ih, List.mem_cons, List.mem_cons]
      constructor
      · intro h
        obtain rfl | ⟨hrest, hseen⟩ := h
        · exact ⟨.inl rfl, hb⟩
        · exact ⟨.inr hrest, fun h => hseen (.inr h)⟩
      · intro h
        obtain ⟨rfl | hrest, hseen⟩ := h
        · exact .inl rfl
        · by_cases hab : a = b
          · exact .inl hab
          · exact .inr ⟨hrest, fun h => h.elim hab hseen⟩

omit [DecidableEq α] in
theorem notMem_cons_of_nodup {a : α} {rest seen : List α} (ha : a ∉ rest) (hseen : ∀ b ∈ a :: rest, b ∉ seen) :
    ∀ b ∈ rest, b ∉ a :: seen := by
  intro b hb hmem
  rcases List.mem_cons.mp hmem with rfl | hmem
  · exact ha hb
  · exact hseen b (List.mem_cons_of_mem _ hb) hmem

theorem firsts_expand {seen l : List α} (hl : l.Nodup) (hseen : ∀ a ∈ l, a ∉ seen) (hmult : ∀ a ∈ l, 0 < mult a) :
    firsts seen (expand mult l) = l := by
  induction l generalizing seen with
  | nil => rfl
  | cons a rest ih =>
    rw [List.nodup_cons] at hl
    obtain ⟨m, hm⟩ := Nat.exists_eq_succ_of_ne_zero (Nat.ne_of_gt (hmult a List.mem_cons_self))
    have hexpand : expand mult (a :: rest) = a :: (List.replicate m a ++ expand mult rest) := by
      show List.replicate (mult a) a ++ expand mult rest = _
      rw [hm, List.replicate_succ, List.cons_append]
    rw [hexpand, firsts, if_neg (hseen a List.mem_cons_self), firsts_replicate _ _ _ _ List.mem_cons_self,
      ih hl.2 (notMem_cons_of_nodup hl.1 hseen) fun b hb => hmult b (List.mem_cons_of_mem _ hb)]

/-- **What a window gets to.** -/
theorem firsts_take_expand {seen l : List α} (hl : l.Nodup) (hseen : ∀ a ∈ l, a ∉ seen) (hmult : ∀ a ∈ l, 0 < mult a)
    (width : Nat) : firsts seen ((expand mult l).take width) = l.take (reach mult l width) := by
  induction l generalizing seen width with
  | nil => simp [expand, firsts]
  | cons a rest ih =>
    have hexpand : expand mult (a :: rest) = List.replicate (mult a) a ++ expand mult rest := rfl
    rw [List.nodup_cons] at hl
    obtain ⟨m, hm⟩ := Nat.exists_eq_succ_of_ne_zero (Nat.ne_of_gt (hmult a List.mem_cons_self))
    cases width with
    | zero => simp [firsts]
    | succ width =>
      have htake : (expand mult (a :: rest)).take (width + 1) =
          a :: (List.replicate (min width m) a ++ (expand mult rest).take (width - m)) := by
        rw [hexpand, hm, List.replicate_succ, List.cons_append, List.take_succ_cons, List.take_append,
          List.take_replicate, List.length_replicate]
      rw [htake, firsts, if_neg (hseen a List.mem_cons_self), firsts_replicate _ _ _ _ List.mem_cons_self,
        ih hl.2 (notMem_cons_of_nodup hl.1 hseen) fun b hb => hmult b (List.mem_cons_of_mem _ hb), reach_cons (Nat.succ_pos width), List.take_succ_cons,
        hm, Nat.succ_sub_succ_eq_sub]

end

/-! ### Pages -/

/-- The parts of a list of `p` each, up to the `count`-th. -/
theorem flatMap_range_parts (l : List α) (p count : Nat) :
    ((List.range count).flatMap fun k => (l.drop (k * p)).take p) = l.take (count * p) := by
  induction count with
  | zero => simp
  | succ count ih =>
    rw [List.range_succ, List.flatMap_append, ih, List.flatMap_singleton, Nat.succ_mul, List.take_add]

end TravelMaker.Lib.Window
