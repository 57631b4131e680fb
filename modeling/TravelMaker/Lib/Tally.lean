import Mathlib.Algebra.BigOperators.Group.List.Basic
import Mathlib.Tactic

/-! Sums of rows, and votes.

Rows are added up column by column (`getElem?_tally`). Where a column holds votes, its sum is
what is for less what is against. -/
namespace TravelMaker.Lib.Tally

/-- The rows added to the totals, each to its column. -/
def tally (totals : List ℤ) (rows : List (List ℤ)) : List ℤ := rows.foldl (List.zipWith (· + ·)) totals

variable {totals : List ℤ} {rows : List (List ℤ)} {width : ℕ}

theorem length_tally (htotals : totals.length = width) (hrows : ∀ row ∈ rows, row.length = width) :
    (tally totals rows).length = width := by
  induction rows generalizing totals with
  | nil => exact htotals
  | cons row rest ih =>
    refine ih ?_ fun r hr => hrows r (List.mem_cons_of_mem _ hr)
    simp [htotals, hrows row List.mem_cons_self]

theorem getElem?_tally (htotals : totals.length = width) (hrows : ∀ row ∈ rows, row.length = width) {i : ℕ} (hi : i < width) :
    (tally totals rows)[i]? = some (totals.getD i 0 + (rows.map (·.getD i 0)).sum) := by
  induction rows generalizing totals with
  | nil => simp [tally, htotals, hi]
  | cons row rest ih =>
    have hrow : row.length = width := hrows row List.mem_cons_self
    have hsum : (List.zipWith (· + ·) totals row).getD i 0 = totals.getD i 0 + row.getD i 0 := by
      simp [List.getD_eq_getElem?_getD, htotals, hrow, hi]
    have hlen : (List.zipWith (· + ·) totals row).length = width := by simp [htotals, hrow]
    rw [tally, List.foldl_cons, ← tally, ih hlen fun r hr => hrows r (List.mem_cons_of_mem _ hr), hsum, List.map_cons,
      List.sum_cons, add_assoc]

/-! ### Votes -/

/-- For, against, or neither. -/
def IsVote (v : ℤ) : Prop := v = -1 ∨ v = 0 ∨ v = 1

section
variable {votes : List ℤ} (h : ∀ v ∈ votes, IsVote v)
include h

theorem sum_eq_count_sub : votes.sum = votes.count 1 - votes.count (-1) := by
  induction votes with
  | nil => rfl
  | cons v rest ih =>
    have hrest := ih fun w hw => h w (List.mem_cons_of_mem _ hw)
    obtain rfl | rfl | rfl := h v List.mem_cons_self <;> simp [hrest] <;> ring

theorem count_add_count : votes.count 1 + votes.count (-1) = votes.countP (· != 0) := by
  induction votes with
  | nil => rfl
  | cons v rest ih =>
    have hrest := ih fun w hw => h w (List.mem_cons_of_mem _ hw)
    obtain rfl | rfl | rfl := h v List.mem_cons_self <;> simp <;> omega

end

/-- Votes turned around. -/
theorem count_neg (votes : List ℤ) (v : ℤ) : (votes.map (- ·)).count v = votes.count (-v) := by
  rw [List.count_eq_countP, List.count_eq_countP, List.countP_map]
  refine List.countP_congr fun w _ => ?_
  simp only [Function.comp_apply, beq_iff_eq]
  exact neg_eq_iff_eq_neg

end TravelMaker.Lib.Tally
