import Mathlib.Algebra.BigOperators.Group.List.Basic
import Mathlib.Algebra.BigOperators.Group.Finset.Piecewise
import Mathlib.Algebra.Order.BigOperators.Group.Finset
import Mathlib.Algebra.Order.Group.Defs

/-! Gains by position.

Each position has a gain, less than that of the position before. Of all sets of at most
`m` positions the first `m` have the largest sum, and no other set has it. -/
namespace TravelMaker.Lib.Gains

section
variable {M : Type} [AddCommGroup M] [LinearOrder M] [IsOrderedAddMonoid M]
variable {gain : ℕ → M} {positions : Finset ℕ} {m i : ℕ}

/-- A set that misses one of the first positions: what it has instead lies behind them. -/
theorem sum_lt_sum_range (hgain : StrictAnti gain) (hpos : 0 ≤ gain m) (hcard : positions.card ≤ m) (hi : i < m)
    (hmissing : i ∉ positions) : ∑ j ∈ positions, gain j < ∑ j ∈ Finset.range m, gain j := by
  have hbehind : ∑ j ∈ positions \ Finset.range m, gain j ≤ (positions \ Finset.range m).card • gain m := by
    apply Finset.sum_le_card_nsmul
    intro j hj
    simp only [Finset.mem_sdiff, Finset.mem_range, not_lt] at hj
    exact hgain.antitone hj.2
  have hfewer : (positions \ Finset.range m).card ≤ (Finset.range m \ positions).card := by
    apply (Finset.card_sdiff_le_card_sdiff_iff).mpr
    rwa [Finset.card_range]
  have hinstead : (Finset.range m \ positions).card • gain m < ∑ j ∈ Finset.range m \ positions, gain j := by
    rw [← Finset.sum_const]
    have hnonempty : (Finset.range m \ positions).Nonempty :=
      ⟨i, Finset.mem_sdiff.mpr ⟨Finset.mem_range.mpr hi, hmissing⟩⟩
    apply Finset.sum_lt_sum_of_nonempty hnonempty
    intro j hj
    exact hgain (Finset.mem_range.mp (Finset.mem_sdiff.mp hj).1)
  calc ∑ j ∈ positions, gain j
      = ∑ j ∈ positions ∩ Finset.range m, gain j + ∑ j ∈ positions \ Finset.range m, gain j :=
        (Finset.sum_inter_add_sum_sdiff ..).symm
    _ ≤ ∑ j ∈ positions ∩ Finset.range m, gain j + (Finset.range m \ positions).card • gain m :=
        add_le_add le_rfl (hbehind.trans (nsmul_le_nsmul_left hpos hfewer))
    _ < ∑ j ∈ positions ∩ Finset.range m, gain j + ∑ j ∈ Finset.range m \ positions, gain j :=
        add_lt_add_of_le_of_lt le_rfl hinstead
    _ = ∑ j ∈ Finset.range m, gain j := by
        rw [Finset.inter_comm]
        exact Finset.sum_inter_add_sum_sdiff ..

theorem eq_range (hcard : positions.card ≤ m) (h : ∀ i < m, i ∈ positions) : positions = Finset.range m := by
  symm
  apply Finset.eq_of_subset_of_card_le
  · exact fun i hi => h i (Finset.mem_range.mp hi)
  · rwa [Finset.card_range]

theorem sum_eq_sum_range_iff (hgain : StrictAnti gain) (hpos : 0 ≤ gain m) (hcard : positions.card ≤ m) :
    ∑ j ∈ positions, gain j = ∑ j ∈ Finset.range m, gain j ↔ ∀ i < m, i ∈ positions := by
  constructor
  · intro heq i hi
    by_contra hmissing
    exact (sum_lt_sum_range hgain hpos hcard hi hmissing).ne heq
  · intro h
    rw [eq_range hcard h]

theorem sum_le_sum_range (hgain : StrictAnti gain) (hpos : 0 ≤ gain m) (hcard : positions.card ≤ m) :
    ∑ j ∈ positions, gain j ≤ ∑ j ∈ Finset.range m, gain j := by
  by_cases h : ∀ i < m, i ∈ positions
  · exact ((sum_eq_sum_range_iff hgain hpos hcard).mpr h).le
  · push Not at h
    obtain ⟨i, hi, hmissing⟩ := h
    exact (sum_lt_sum_range hgain hpos hcard hi hmissing).le

end

/-! ### The positions of a list -/

section
variable {α : Type} {p : α → Bool} {xs : List α} {i : ℕ}

/-- The positions of the elements with `p`. -/
def hits (p : α → Bool) (xs : List α) : List ℕ := (xs.zipIdx.filter fun x => p x.1).map (·.2)

theorem mem_hits : i ∈ hits p xs ↔ ∃ x, xs[i]? = some x ∧ p x := by
  simp only [hits, List.mem_map, List.mem_filter, Prod.exists, List.mem_zipIdx_iff_getElem?]
  aesop

theorem hits_nodup (p : α → Bool) (xs : List α) : (hits p xs).Nodup := by
  have hsub : (hits p xs).Sublist (xs.zipIdx.map (·.2)) := List.filter_sublist.map _
  rw [List.zipIdx_map_snd] at hsub
  exact hsub.nodup List.nodup_range'

theorem length_hits (p : α → Bool) (xs : List α) : (hits p xs).length = (xs.filter p).length := by
  have hfst : (xs.zipIdx.filter fun x => p x.1).map (·.1) = xs.filter p := by
    have hmap := List.filter_map (f := fun x : α × ℕ => x.1) (p := p) (l := xs.zipIdx)
    rw [List.zipIdx_map_fst] at hmap
    exact hmap.symm
  rw [hits, List.length_map, ← hfst, List.length_map]

/-- The first `m` positions are hits. -/
theorem forall_mem_hits {m : ℕ} : (∀ i < m, i ∈ hits p xs) ↔ m ≤ xs.length ∧ ∀ x ∈ xs.take m, p x := by
  simp only [mem_hits]
  constructor
  · intro h
    refine ⟨?_, fun x hx => ?_⟩
    · by_contra hshort
      obtain ⟨x, hx, -⟩ := h xs.length (not_le.mp hshort)
      rw [List.getElem?_eq_none le_rfl] at hx
      cases hx
    · obtain ⟨i, hi, rfl⟩ := List.mem_iff_getElem.mp hx
      rw [List.length_take] at hi
      obtain ⟨x, hx, hpx⟩ := h i (lt_of_lt_of_le hi (min_le_left ..))
      rw [List.getElem?_eq_getElem (lt_of_lt_of_le hi (min_le_right ..))] at hx
      rw [List.getElem_take, Option.some.inj hx]
      exact hpx
  · rintro ⟨hlong, h⟩ i hi
    have hin : i < xs.length := lt_of_lt_of_le hi hlong
    refine ⟨xs[i], List.getElem?_eq_getElem hin, h _ ?_⟩
    apply List.mem_take_iff_getElem.mpr
    exact ⟨i, lt_min hi hin, rfl⟩

end
end TravelMaker.Lib.Gains
