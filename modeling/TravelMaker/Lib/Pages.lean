import Mathlib.Algebra.Order.Group.Nat
import Mathlib.Data.List.Basic

/-! A list read page by page.

Pages are counted from 1. A reader that stops at the first page that is not full asks for
`pageCount` of them: where the length is a multiple of the page size, the last one is empty. -/
namespace TravelMaker.Lib.Pages

variable {α : Type} {n k : Nat} {items : List α}

def page (n : Nat) (items : List α) (k : Nat) : List α := (items.drop ((k - 1) * n)).take n

def pageCount (n : Nat) (items : List α) : Nat := items.length / n + 1

/-- Pages put together. -/
theorem flatMap_page (n : Nat) (items : List α) (m : Nat) : (List.range' 1 m).flatMap (page n items) = items.take (m * n) := by
  induction m with
  | zero => rw [Nat.zero_mul]; rfl
  | succ m ih =>
    rw [List.range'_1_concat, List.flatMap_append, ih, List.flatMap_singleton, page, Nat.add_sub_cancel_left, Nat.succ_mul,
      List.take_add]

theorem flatMap_pageCount (hn : 0 < n) (items : List α) : (List.range' 1 (pageCount n items)).flatMap (page n items) = items := by
  rw [flatMap_page, List.take_of_length_le]
  have hlt := Nat.lt_div_mul_add hn (a := items.length)
  rw [pageCount, Nat.succ_mul]
  exact hlt.le

theorem flatMap_slices (items : List α) (start m : Nat) :
    (List.range' start m n).flatMap (fun start => (items.drop start).take n) = (items.drop start).take (m * n) := by
  induction m generalizing start with
  | zero => rw [Nat.zero_mul]; rfl
  | succ m ih => rw [List.range'_succ, List.flatMap_cons, ih, ← List.drop_drop, ← List.take_add, Nat.succ_mul, Nat.add_comm]

/-- `xs[start : start + n]` for `start` in `range(0, len(xs), n)`: every item once. -/
theorem flatMap_range' (hn : 0 < n) (items : List α) :
    (List.range' 0 ((items.length + n - 1) / n) n).flatMap (fun start => (items.drop start).take n) = items := by
  rw [flatMap_slices, List.drop_zero, List.take_of_length_le]
  have hlt := Nat.lt_div_mul_add hn (a := items.length + n - 1)
  omega

/-- The last page is the first that is not full. -/
theorem eq_pageCount_iff (hn : 0 < n) (hk : 0 < k) (hbefore : (k - 1) * n ≤ items.length) :
    k = pageCount n items ↔ (page n items k).length < n := by
  have hlength : (page n items k).length < n ↔ items.length < (k - 1) * n + n := by
    rw [page, List.length_take, List.length_drop]
    omega
  have hdiv : items.length / n = k - 1 ↔ (k - 1) * n ≤ items.length ∧ items.length < (k - 1) * n + n := by
    rw [Nat.div_eq_iff hn]
    omega
  rw [hlength, pageCount]
  constructor
  · intro h
    exact (hdiv.mp (by omega)).2
  · intro h
    have hquotient := hdiv.mpr ⟨hbefore, h⟩
    omega

/-- A full page has all its items before the next one. -/
theorem next_le (hk : 0 < k) (hbefore : (k - 1) * n ≤ items.length) (hfull : ¬ (page n items k).length < n) :
    (k + 1 - 1) * n ≤ items.length := by
  rw [page, List.length_take, List.length_drop] at hfull
  have hnext : (k + 1 - 1) * n = (k - 1) * n + n := by
    rw [← Nat.succ_mul]
    congr 1
    omega
  omega

end TravelMaker.Lib.Pages
