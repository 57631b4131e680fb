import Mathlib.Algebra.Order.Field.Rat
import Mathlib.Analysis.SpecialFunctions.Log.Base
import TravelMaker.Lib.Gains

/-! The ranking metrics of `eval_service`, without rounding errors.

A hit at a position is worth less than one before it, so the sum over the hits of a list
is at most the sum over as many positions at the start: the ideal list, of which
`compute_ndcg_at_k` gives the share. -/
namespace TravelMaker
open Lib.Gains

def computeRecallAtK (recommended : List Int) (relevant : Finset Int) (k : Nat) : ℚ :=
  if relevant = ∅ then 0
  else
    let hits := ((recommended.take k).toFinset ∩ relevant).card
    hits / relevant.card

/-- What a hit at position `i` adds. -/
noncomputable def gainAt (i : Nat) : ℝ := 1 / Real.logb 2 (i + 2)

noncomputable def computeNdcgAtK (recommended : List Int) (relevant : Finset Int) (k : Nat) : ℝ :=
  if relevant = ∅ then 0
  else
    let dcg := ((hits (fun placeId => decide (placeId ∈ relevant)) (recommended.take k)).map gainAt).sum
    let idealHits := min relevant.card k
    let idcg := ((List.range idealHits).map gainAt).sum
    if idcg = 0 then 0 else dcg / idcg

/-! ### The gains -/

theorem logb_pos (i : Nat) : 0 < Real.logb 2 (i + 2) := by
  apply Real.logb_pos one_lt_two
  have hi : (0 : ℝ) ≤ i := Nat.cast_nonneg i
  linarith

theorem gainAt_pos (i : Nat) : 0 < gainAt i := one_div_pos.mpr (logb_pos i)

theorem gainAt_strictAnti : StrictAnti gainAt := by
  intro i j hij
  have hlog : Real.logb 2 (i + 2) < Real.logb 2 (j + 2) := by
    apply Real.logb_lt_logb one_lt_two (by positivity)
    have hcast : (i : ℝ) < j := Nat.cast_lt.mpr hij
    linarith
  exact one_div_lt_one_div_of_lt (logb_pos i) hlog

/-! ### The hits -/

section
variable {recommended : List Int} {relevant : Finset Int} {k : Nat}

/-- The positions of the hits among the first `k`. -/
def hitsAtK (recommended : List Int) (relevant : Finset Int) (k : Nat) : Finset ℕ :=
  (hits (fun placeId => decide (placeId ∈ relevant)) (recommended.take k)).toFinset

theorem sum_hitsAtK : ((hits (fun placeId => decide (placeId ∈ relevant)) (recommended.take k)).map gainAt).sum =
    ∑ i ∈ hitsAtK recommended relevant k, gainAt i :=
  (List.sum_toFinset gainAt (hits_nodup _ _)).symm

/-- A relevant item is hit once. -/
theorem card_hitsAtK_le (hnodup : recommended.Nodup) : (hitsAtK recommended relevant k).card ≤ min relevant.card k := by
  rw [hitsAtK, List.toFinset_card_of_nodup (hits_nodup _ _), length_hits]
  apply le_min
  · rw [← List.toFinset_card_of_nodup (hnodup.take.filter _)]
    apply Finset.card_le_card
    intro placeId hmem
    simpa using (List.mem_filter.mp (List.mem_toFinset.mp hmem)).2
  · exact (List.length_filter_le ..).trans (List.length_take_le ..)

/-- The first positions are all hit. -/
theorem forall_mem_hitsAtK : (∀ i < min relevant.card k, i ∈ hitsAtK recommended relevant k) ↔
    min relevant.card k ≤ recommended.length ∧ ∀ placeId ∈ recommended.take (min relevant.card k), placeId ∈ relevant := by
  have hlength : min relevant.card k ≤ (recommended.take k).length ↔ min relevant.card k ≤ recommended.length := by
    rw [List.length_take]
    omega
  have htake : (recommended.take k).take (min relevant.card k) = recommended.take (min relevant.card k) := by
    rw [List.take_take, min_eq_left (min_le_right ..)]
  simp only [hitsAtK, List.mem_toFinset, forall_mem_hits, hlength, htake, decide_eq_true_eq]

/-- The ideal gain is there as soon as one hit is possible. -/
theorem idcg_pos (hrelevant : relevant.Nonempty) (hk : 1 ≤ k) : 0 < ∑ i ∈ Finset.range (min relevant.card k), gainAt i := by
  apply Finset.sum_pos
  · exact fun i _ => gainAt_pos i
  · rw [Finset.nonempty_range_iff]
    have hcard := hrelevant.card_pos
    omega

theorem computeNdcgAtK_eq (hrelevant : relevant.Nonempty) (hk : 1 ≤ k) : computeNdcgAtK recommended relevant k =
    (∑ i ∈ hitsAtK recommended relevant k, gainAt i) / ∑ i ∈ Finset.range (min relevant.card k), gainAt i := by
  have hidcg : ((List.range (min relevant.card k)).map gainAt).sum = ∑ i ∈ Finset.range (min relevant.card k), gainAt i := by
    rw [← List.toFinset_range, List.sum_toFinset gainAt List.nodup_range]
  unfold computeNdcgAtK
  dsimp only
  rw [if_neg hrelevant.ne_empty, hidcg, if_neg (idcg_pos hrelevant hk).ne', sum_hitsAtK]

theorem ndcg_bounds (hnodup : recommended.Nodup) (hrelevant : relevant.Nonempty) (hk : 1 ≤ k) :
    0 ≤ computeNdcgAtK recommended relevant k ∧ computeNdcgAtK recommended relevant k ≤ 1 := by
  have hideal := idcg_pos hrelevant hk
  rw [computeNdcgAtK_eq hrelevant hk]
  constructor
  · exact div_nonneg (Finset.sum_nonneg fun i _ => (gainAt_pos i).le) hideal.le
  · rw [div_le_one hideal]
    exact sum_le_sum_range gainAt_strictAnti (gainAt_pos _).le (card_hitsAtK_le hnodup)

theorem ndcg_eq_one_iff (hnodup : recommended.Nodup) (hrelevant : relevant.Nonempty) (hk : 1 ≤ k) :
    computeNdcgAtK recommended relevant k = 1 ↔ min relevant.card k ≤ recommended.length ∧
      ∀ placeId ∈ recommended.take (min relevant.card k), placeId ∈ relevant := by
  rw [computeNdcgAtK_eq hrelevant hk, div_eq_one_iff_eq (idcg_pos hrelevant hk).ne',
    sum_eq_sum_range_iff gainAt_strictAnti (gainAt_pos _).le (card_hitsAtK_le hnodup), forall_mem_hitsAtK]

/-! ### Recall -/

theorem computeRecallAtK_eq (hrelevant : relevant.Nonempty) : computeRecallAtK recommended relevant k =
    (((recommended.take k).toFinset ∩ relevant).card : ℚ) / relevant.card := by
  rw [computeRecallAtK, if_neg hrelevant.ne_empty]

theorem recall_bounds (recommended : List Int) (hrelevant : relevant.Nonempty) (k : Nat) :
    0 ≤ computeRecallAtK recommended relevant k ∧ computeRecallAtK recommended relevant k ≤ 1 := by
  rw [computeRecallAtK_eq hrelevant]
  have hcard : (0 : ℚ) < relevant.card := Nat.cast_pos.mpr hrelevant.card_pos
  constructor
  · positivity
  · rw [div_le_one hcard, Nat.cast_le]
    exact Finset.card_le_card Finset.inter_subset_right

theorem recall_mono (hrelevant : relevant.Nonempty) : Monotone (computeRecallAtK recommended relevant) := by
  intro k k' hk
  have hsub : (recommended.take k).toFinset ⊆ (recommended.take k').toFinset := by
    intro placeId hmem
    rw [List.mem_toFinset] at hmem ⊢
    exact (List.take_sublist_take_left hk).subset hmem
  rw [computeRecallAtK_eq hrelevant, computeRecallAtK_eq hrelevant]
  gcongr

/-- **The metrics are well formed**: both lie between 0 and 1; `ndcg` is 1 for the lists that
begin with as many relevant items as they could, and `recall` does not fall with `k`. -/
theorem metrics_well_formed (hnodup : recommended.Nodup) (hrelevant : relevant.Nonempty) (hk : 1 ≤ k) :
    (0 ≤ computeNdcgAtK recommended relevant k ∧ computeNdcgAtK recommended relevant k ≤ 1 ∧
      (computeNdcgAtK recommended relevant k = 1 ↔ min k relevant.card ≤ recommended.length ∧
        ∀ placeId ∈ recommended.take (min k relevant.card), placeId ∈ relevant)) ∧
    0 ≤ computeRecallAtK recommended relevant k ∧ computeRecallAtK recommended relevant k ≤ 1 ∧
      ∀ k', k ≤ k' → computeRecallAtK recommended relevant k ≤ computeRecallAtK recommended relevant k' := by
  obtain ⟨hnonneg, hle⟩ := ndcg_bounds hnodup hrelevant hk
  obtain ⟨hrecall, hrecall'⟩ := recall_bounds recommended hrelevant k
  rw [min_comm]
  exact ⟨⟨hnonneg, hle, ndcg_eq_one_iff hnodup hrelevant hk⟩, hrecall, hrecall', fun k' h => recall_mono hrelevant h⟩

/-- The relevant one of two items comes second. -/
theorem metrics_well_formed_second :
    (0 ≤ computeNdcgAtK [1, 2] {2} 2 ∧ computeNdcgAtK [1, 2] {2} 2 ≤ 1 ∧
      (computeNdcgAtK [1, 2] {2} 2 = 1 ↔ min 2 1 ≤ [1, 2].length ∧ ∀ placeId ∈ [1, 2].take (min 2 1), placeId ∈ ({2} : Finset Int))) ∧
    0 ≤ computeRecallAtK [1, 2] {2} 2 ∧ computeRecallAtK [1, 2] {2} 2 ≤ 1 ∧
      ∀ k', 2 ≤ k' → computeRecallAtK [1, 2] {2} 2 ≤ computeRecallAtK [1, 2] {2} k' :=
  metrics_well_formed (by decide) (Finset.singleton_nonempty 2) (by decide)

end
end TravelMaker
