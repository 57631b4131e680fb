import Mathlib.Analysis.Normed.Module.Basic

/-! Vectors that are moved and brought back to length one.

`move` adds a weighted term and rescales; what is too short is dropped. The result is a
sum of all terms since the vector was last dropped, each with a positive coefficient:
`PositiveSum` is kept by a rescaling and by one more term. -/
namespace TravelMaker.Lib.Renormalized

variable {E : Type} [NormedAddCommGroup E] [NormedSpace ℝ E]

/-- The vector of length one in this direction, unless there is next to nothing. -/
noncomputable def rescale (least : ℝ) (total : E) : Option E :=
  if ‖total‖ < least then none else some (‖total‖⁻¹ • total)

noncomputable def move (least : ℝ) (current : Option E) (weight : ℝ) (v : E) : Option E :=
  rescale least (current.getD 0 + weight • v)

/-- `vector` is the sum of the terms, each a weight and a vector, with positive coefficients. -/
def PositiveSum (terms : List (ℝ × E)) (vector : E) : Prop :=
  ∃ coefficients : List ℝ, coefficients.length = terms.length ∧ (∀ c ∈ coefficients, 0 < c) ∧
    vector = (List.zipWith (fun c term => c • term.1 • term.2) coefficients terms).sum

variable {terms : List (ℝ × E)} {vector total v : E} {least weight c : ℝ} {current : Option E}

theorem positiveSum_nil : PositiveSum [] (0 : E) := ⟨[], rfl, fun _ hc => (List.not_mem_nil hc).elim, rfl⟩

theorem PositiveSum.append (h : PositiveSum terms vector) (weight : ℝ) (v : E) :
    PositiveSum (terms ++ [(weight, v)]) (vector + weight • v) := by
  obtain ⟨coefficients, hlength, hpos, rfl⟩ := h
  refine ⟨coefficients ++ [1], by simp [hlength], ?_, ?_⟩
  · simpa [or_imp, forall_and] using hpos
  · rw [List.zipWith_append hlength]
    simp

theorem PositiveSum.smul (h : PositiveSum terms vector) (hc : 0 < c) : PositiveSum terms (c • vector) := by
  obtain ⟨coefficients, hlength, hpos, rfl⟩ := h
  refine ⟨coefficients.map (c * ·), by simp [hlength], ?_, ?_⟩
  · intro a ha
    obtain ⟨b, hb, rfl⟩ := List.mem_map.mp ha
    exact mul_pos hc (hpos b hb)
  · rw [List.zipWith_map_left, List.smul_sum, List.map_zipWith]
    simp only [smul_smul, mul_assoc]

/-- What is left of a rescaling has length one. -/
theorem rescale_eq_some (hleast : 0 < least) (h : rescale least total = some vector) :
    ‖vector‖ = 1 ∧ ∃ c : ℝ, 0 < c ∧ vector = c • total := by
  unfold rescale at h
  split at h
  · cases h
  · rename_i hlong
    obtain rfl := Option.some.inj h
    have hpos : 0 < ‖total‖ := lt_of_lt_of_le hleast (not_lt.mp hlong)
    refine ⟨?_, ‖total‖⁻¹, inv_pos.mpr hpos, rfl⟩
    rw [norm_smul, norm_inv, norm_norm, inv_mul_cancel₀ hpos.ne']

/-- Rescaling does not see a positive factor, other than in what is too short. -/
theorem rescale_smul {vector' : E} (hc : 0 < c) (h : rescale least total = some vector)
    (h' : rescale least (c • total) = some vector') : vector' = vector := by
  unfold rescale at h h'
  split at h
  · cases h
  · split at h'
    · cases h'
    · rw [← Option.some.inj h, ← Option.some.inj h', norm_smul, Real.norm_of_nonneg hc.le, mul_inv, smul_smul, mul_right_comm,
        inv_mul_cancel₀ hc.ne', one_mul]

/-- One more term, after the vector was there or from nothing. -/
theorem PositiveSum.move (hleast : 0 < least) (hcurrent : PositiveSum terms (current.getD 0))
    (h : move least current weight v = some vector) :
    ‖vector‖ = 1 ∧ PositiveSum (terms ++ [(weight, v)]) vector := by
  obtain ⟨hnorm, c, hc, rfl⟩ := rescale_eq_some hleast h
  exact ⟨hnorm, (hcurrent.append weight v).smul hc⟩

end TravelMaker.Lib.Renormalized
