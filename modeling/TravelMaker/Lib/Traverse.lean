import Mathlib.Data.List.Forall2

/-! Traversals that stop at the first exception. -/
namespace TravelMaker.Lib.Traverse

variable {α β E : Type} {f : α → Except E β}

theorem bind_ok {x : Except E α} {b : β} (h : x >>= f = .ok b) : ∃ a, x = .ok a ∧ f a = .ok b := by
  cases x with
  | error e => cases h
  | ok a => exact ⟨a, rfl, h⟩

/-- A traversal returns what its steps return, one by one. -/
theorem mapM_ok_iff {xs : List α} {ys : List β} : xs.mapM f = .ok ys ↔ List.Forall₂ (fun x y => f x = .ok y) xs ys := by
  induction xs generalizing ys with
  | nil =>
    rw [List.mapM_nil, List.forall₂_nil_left_iff]
    exact ⟨fun h => (Except.ok.inj h).symm, fun h => congrArg Except.ok h.symm⟩
  | cons x xs ih =>
    rw [List.mapM_cons, List.forall₂_cons_left_iff]
    simp only [← ih]
    rcases f x with e | y
    · simp [bind, Except.bind]
    · rcases xs.mapM f with e | rest
      · simp [bind, Except.bind]
      · simp [bind, Except.bind, pure, Except.pure, eq_comm]

theorem mem_of_mapM {xs : List α} {ys : List β} (h : xs.mapM f = .ok ys) {y : β} (hy : y ∈ ys) : ∃ x ∈ xs, f x = .ok y := by
  have hsteps := mapM_ok_iff.mp h
  clear h
  induction hsteps with
  | nil => cases hy
  | cons hstep _ ih =>
    rcases List.mem_cons.mp hy with rfl | hy
    · exact ⟨_, List.mem_cons_self, hstep⟩
    · obtain ⟨x, hx, hstep⟩ := ih hy
      exact ⟨x, List.mem_cons_of_mem _ hx, hstep⟩

/-- It returns where each step does. -/
theorem exists_mapM_ok {xs : List α} : (∃ ys, xs.mapM f = .ok ys) ↔ ∀ x ∈ xs, ∃ y, f x = .ok y := by
  simp only [mapM_ok_iff]
  induction xs with
  | nil => simp
  | cons x xs ih => simp [List.forall₂_cons_left_iff, ← ih]

/-- Its exception is that of a step. -/
theorem mapM_error {xs : List α} {e : E} (h : xs.mapM f = .error e) : ∃ x ∈ xs, f x = .error e := by
  induction xs with
  | nil => cases h
  | cons x xs ih =>
    rw [List.mapM_cons] at h
    cases hx : f x with
    | error e' =>
      rw [hx] at h
      exact ⟨x, List.mem_cons_self, hx.trans (congrArg Except.error (Except.error.inj h))⟩
    | ok y =>
      cases hxs : xs.mapM f with
      | error e' =>
        rw [hx, hxs] at h
        obtain ⟨z, hz, hstep⟩ := ih (hxs.trans (congrArg Except.error (Except.error.inj h)))
        exact ⟨z, List.mem_cons_of_mem x hz, hstep⟩
      | ok ys =>
        rw [hx, hxs] at h
        cases h

end TravelMaker.Lib.Traverse
