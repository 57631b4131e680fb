import TravelMaker.User.UnitVector

/-! The content vector of a list of logs, at two times.

Between two times at or after every log all the terms shrink by the same factor, so their
sum keeps its direction and only its length changes. What is left of that is whether the
sum is too short to be a vector. -/
namespace TravelMaker
open Lib (Txn)
open Lib.Renormalized
open Lib.Txn (Base)

/-! ### The sum -/

/-- What the service reads of a log: its weight, its time and the vector of its place. -/
structure VectorLog where
  weight : ℝ
  createdAt : Instant
  contentVector : Option ContentVector

/-- `_decay`. -/
noncomputable def decayBy (lam : ℝ) (createdAt now : Instant) : ℝ :=
  let days : ℝ := ((now - createdAt : Int) : ℝ) / timedeltaDays 1
  Real.exp (-lam * max days 0)

/-- The body of the loop. -/
noncomputable def addLog (applyDecay : Bool) (now : Instant) (lam : ℝ) (total : ContentVector) (log : VectorLog) : ContentVector :=
  match log.contentVector with
  | none => total
  | some contentVector =>
    let weight := if applyDecay then log.weight * decayBy lam log.createdAt now else log.weight
    total + weight • contentVector

noncomputable def computeUserContentVector (logs : List VectorLog) (applyDecay : Bool) (now : Instant) (lam : ℝ) :
    Option ContentVector := rescale zeroVectorNormEpsilon (logs.foldl (addLog applyDecay now lam) 0)

section
variable {lam : ℝ} {now now₁ now₂ : Instant} {logs logs' : List VectorLog} {applyDecay : Bool}

/-- The term of a log. -/
noncomputable def VectorLog.term (applyDecay : Bool) (now : Instant) (lam : ℝ) (log : VectorLog) : ContentVector :=
  addLog applyDecay now lam 0 log

theorem addLog_eq (total : ContentVector) (log : VectorLog) :
    addLog applyDecay now lam total log = total + log.term applyDecay now lam := by
  unfold VectorLog.term addLog
  cases log.contentVector with
  | none => exact (add_zero total).symm
  | some v => simp

/-- The loop sums up the terms. -/
theorem foldl_addLog (total : ContentVector) :
    logs.foldl (addLog applyDecay now lam) total = total + (logs.map (VectorLog.term applyDecay now lam)).sum := by
  induction logs generalizing total with
  | nil => exact (add_zero total).symm
  | cons log rest ih => rw [List.foldl_cons, ih, addLog_eq, List.map_cons, List.sum_cons, add_assoc]

theorem computeUserContentVector_eq : computeUserContentVector logs applyDecay now lam =
    rescale zeroVectorNormEpsilon (logs.map (VectorLog.term applyDecay now lam)).sum := by
  rw [computeUserContentVector, foldl_addLog, zero_add]

/-- The order of the logs does not matter. -/
theorem computeUserContentVector_perm (h : logs.Perm logs') (applyDecay : Bool) (now : Instant) (lam : ℝ) :
    computeUserContentVector logs applyDecay now lam = computeUserContentVector logs' applyDecay now lam := by
  rw [computeUserContentVector_eq, computeUserContentVector_eq, (h.map _).sum_eq]

/-! ### Two times -/

/-- How much everything shrinks between two times. -/
noncomputable def shrink (lam : ℝ) (now₁ now₂ : Instant) : ℝ :=
  Real.exp (-lam * (((now₂ - now₁ : Int) : ℝ) / timedeltaDays 1))

theorem shrink_pos : 0 < shrink lam now₁ now₂ := Real.exp_pos _

theorem timedeltaDays_one_pos : (0 : ℝ) < timedeltaDays 1 := Int.cast_pos.mpr (by decide)

theorem max_days {createdAt : Instant} (h : createdAt ≤ now) :
    max (((now - createdAt : Int) : ℝ) / timedeltaDays 1) 0 = ((now - createdAt : Int) : ℝ) / timedeltaDays 1 := by
  have hage : (0 : ℝ) ≤ ((now - createdAt : Int) : ℝ) := by exact_mod_cast sub_nonneg.mpr h
  exact max_eq_left (div_nonneg hage timedeltaDays_one_pos.le)

/-- From a time at or after the log, its age grows by the time that goes by. -/
theorem decayBy_later {createdAt : Instant} (h₁ : createdAt ≤ now₁) (h₂ : now₁ ≤ now₂) :
    decayBy lam createdAt now₂ = shrink lam now₁ now₂ * decayBy lam createdAt now₁ := by
  have hage : ((now₂ - createdAt : Int) : ℝ) = ((now₂ - now₁ : Int) : ℝ) + ((now₁ - createdAt : Int) : ℝ) := by
    push_cast
    ring
  unfold decayBy shrink
  dsimp only
  rw [max_days h₁, max_days (h₁.trans h₂), hage, ← Real.exp_add]
  congr 1
  ring

theorem term_later {log : VectorLog} (h₁ : log.createdAt ≤ now₁) (h₂ : now₁ ≤ now₂) :
    log.term true now₂ lam = shrink lam now₁ now₂ • log.term true now₁ lam := by
  unfold VectorLog.term addLog
  cases log.contentVector with
  | none => exact (smul_zero _).symm
  | some v =>
    dsimp only
    rw [if_pos rfl, if_pos rfl, zero_add, zero_add, decayBy_later h₁ h₂, smul_smul, mul_left_comm]

/-- The sum keeps its direction. -/
theorem sum_later (h₁ : ∀ log ∈ logs, log.createdAt ≤ now₁) (h₂ : now₁ ≤ now₂) :
    (logs.map (VectorLog.term true now₂ lam)).sum = shrink lam now₁ now₂ • (logs.map (VectorLog.term true now₁ lam)).sum := by
  rw [List.smul_sum, List.map_map]
  exact congrArg List.sum (List.map_congr_left fun log hlog => term_later (h₁ log hlog) h₂)

theorem computeUserContentVector_later {v₁ v₂ : ContentVector} (h₁ : ∀ log ∈ logs, log.createdAt ≤ now₁) (h₂ : now₁ ≤ now₂)
    (hv₁ : computeUserContentVector logs true now₁ lam = some v₁) (hv₂ : computeUserContentVector logs true now₂ lam = some v₂) :
    v₁ = v₂ := by
  rw [computeUserContentVector_eq] at hv₁ hv₂
  rw [sum_later h₁ h₂] at hv₂
  exact (rescale_smul shrink_pos hv₁ hv₂).symm

/-! ### The batch -/

/-- What the batch reads for a user. -/
def Db.vectorLogs (d : Db ContentVector) (weight : UserActionLog → ℝ) (userId : Int) (now : Instant) : List VectorLog :=
  (d.actionLogs.filter fun log =>
    log.userId == userId && decide (now - timedeltaDays behaviorLookbackDays ≤ log.createdAt)).map
      fun log => ⟨weight log, log.createdAt, d.contentVector? log.placeId⟩

theorem decay_eq (createdAt now : Instant) : decay createdAt now = decayBy defaultDecayLambda createdAt now := by
  have hday : ((timedeltaDays 1 : Int) : ℝ) = 86400 * 10 ^ 6 := by norm_num [timedeltaDays]
  unfold decay decayBy
  rw [hday]

/-- The logs without a vector may be left out before. -/
theorem sum_embedded (weight : UserActionLog → ℝ) (f : UserActionLog → Option ContentVector) (rows : List UserActionLog) :
    ((rows.filterMap fun log => (f log).map fun v => (log, v)).map fun x : UserActionLog × ContentVector =>
      (weight x.1 * decay x.1.createdAt now) • x.2).sum =
    ((rows.map fun log => (⟨weight log, log.createdAt, f log⟩ : VectorLog)).map
      (VectorLog.term true now defaultDecayLambda)).sum := by
  induction rows with
  | nil => rfl
  | cons log rest ih =>
    rw [List.map_cons, List.map_cons, List.sum_cons, ← ih, List.filterMap_cons]
    cases hv : f log with
    | none => simp [VectorLog.term, addLog]
    | some v => simp [VectorLog.term, addLog, decay_eq]

theorem computeUserContentVectorForUser_exact (weight : UserActionLog → ℝ) (now : Instant) (d : Db ContentVector)
    (userId : Int) : computeUserContentVectorForUser (exactOps weight) now d userId =
      computeUserContentVector (d.vectorLogs weight userId now) true now defaultDecayLambda := by
  rw [computeUserContentVector_eq]
  exact congrArg (rescale zeroVectorNormEpsilon) (sum_embedded weight (d.contentVector? ·.placeId) _)

end

section
variable {V : Type} {ops : VectorOps V} {now : Instant}

/-- One round of the loop. -/
def Db.recomputed (ops : VectorOps V) (now : Instant) (d : Db V) (userId : Int) : Db V :=
  d.saveContentVector userId (computeUserContentVectorForUser ops now d userId)

/-- No round changes what the others read. -/
theorem preference?_recomputed (userIds : List Int) (d : Db V) (u : Int) :
    (userIds.foldl (Db.recomputed ops now) d).preference? u =
      if u ∈ userIds then
        (d.preference? u).map fun p => {p with contentVector := computeUserContentVectorForUser ops now d u}
      else d.preference? u := by
  induction userIds generalizing d with
  | nil => simp
  | cons w rest ih =>
    have hsame : computeUserContentVectorForUser ops now (d.recomputed ops now w) u =
        computeUserContentVectorForUser ops now d u := rfl
    rw [List.foldl_cons, ih, hsame, Db.recomputed, Db.preference?_saveContentVector]
    by_cases hw : u = w
    · subst hw
      cases d.preference? u <;> simp
    · simp [hw]

theorem recomputeEach_eval {preferences : List (UserPreference V)} {d : Db V} {n : Nat}
    (h : ∀ p ∈ preferences, d.preferences.any (·.userId == p.userId) = true) :
    (recomputeEach ops now preferences).eval d n =
      .ok ((), (preferences.map (·.userId)).foldl (Db.recomputed ops now) d, n) := by
  induction preferences generalizing d with
  | nil => rfl
  | cons p rest ih =>
    obtain ⟨hp, hrest⟩ := List.forall_mem_cons.mp h
    have hkept : ∀ q ∈ rest, (d.recomputed ops now p.userId).preferences.any (·.userId == q.userId) = true := by
      intro q hq
      rw [← hrest q hq, Db.recomputed, Db.saveContentVector, List.any_map]
      congr 1
      funext x
      dsimp only [Function.comp_apply]
      split <;> rfl
    rw [List.map_cons, List.foldl_cons, ← ih hkept]
    simp only [recomputeEach, Txn.read_bind, Txn.put_bind, Txn.orRaise_bind, Txn.commitNow_bind, Txn.eval, if_pos hp]
    rfl

/-- The batch replaces the vector of every user who is over the threshold. -/
theorem recomputeUserContentVectorsBatch_vector {b : Base (Db V)} {userId : Int} {p : UserPreference V}
    (hp : b.db.preference? userId = some p) (hcount : s3ActionCountThreshold ≤ p.actionCount) :
    (((recomputeUserContentVectorsBatch ops now).perform b).2.db.preferenceD userId).contentVector =
      computeUserContentVectorForUser ops now b.db userId := by
  have heval : (recomputeUserContentVectorsBatch ops now).eval b.db b.seq = .ok ((), _, b.seq) :=
    recomputeEach_eval fun q hq => List.any_eq_true.mpr ⟨q, (List.mem_filter.mp hq).1, beq_self_eq_true _⟩
  have hmem : userId ∈ (b.db.preferences.filter fun p => decide (p.actionCount ≥ s3ActionCountThreshold)).map (·.userId) :=
    List.mem_map.mpr ⟨p, List.mem_filter.mpr ⟨List.mem_of_find?_eq_some hp, decide_eq_true hcount⟩, Db.preference?_some hp⟩
  rw [Txn.perform_of_eval_ok heval]
  show ((Db.preference? _ userId).getD _).contentVector = _
  rw [preference?_recomputed, if_pos hmem, hp]
  rfl

end

/-- **Recomputing later does not turn the vector.** -/
theorem recompute_later_same {logs : List VectorLog} {now₁ now₂ : Instant} (h₁ : ∀ log ∈ logs, log.createdAt ≤ now₁)
    (h₂ : now₁ ≤ now₂) :
    (∀ lam v₁ v₂, computeUserContentVector logs true now₁ lam = some v₁ →
      computeUserContentVector logs true now₂ lam = some v₂ → v₁ = v₂) ∧
    (∀ logs' applyDecay now lam, logs.Perm logs' →
      computeUserContentVector logs applyDecay now lam = computeUserContentVector logs' applyDecay now lam) ∧
    ∀ (weight : UserActionLog → ℝ) (b₁ b₂ : Base (Db ContentVector)) (userId : Int) (p₁ p₂ : UserPreference ContentVector),
      b₁.db.preference? userId = some p₁ → s3ActionCountThreshold ≤ p₁.actionCount →
      b₂.db.preference? userId = some p₂ → s3ActionCountThreshold ≤ p₂.actionCount →
      logs.Perm (b₁.db.vectorLogs weight userId now₁) → logs.Perm (b₂.db.vectorLogs weight userId now₂) →
      ∀ v₁ v₂,
        (((recomputeUserContentVectorsBatch (exactOps weight) now₁).perform b₁).2.db.preferenceD userId).contentVector = some v₁ →
        (((recomputeUserContentVectorsBatch (exactOps weight) now₂).perform b₂).2.db.preferenceD userId).contentVector = some v₂ →
        v₁ = v₂ := by
  refine ⟨fun lam v₁ v₂ => computeUserContentVector_later h₁ h₂,
    fun logs' applyDecay now lam h => computeUserContentVector_perm h applyDecay now lam, ?_⟩
  intro weight b₁ b₂ userId p₁ p₂ hp₁ hcount₁ hp₂ hcount₂ hlogs₁ hlogs₂ v₁ v₂ hv₁ hv₂
  rw [recomputeUserContentVectorsBatch_vector hp₁ hcount₁, computeUserContentVectorForUser_exact,
    ← computeUserContentVector_perm hlogs₁] at hv₁
  rw [recomputeUserContentVectorsBatch_vector hp₂ hcount₂, computeUserContentVectorForUser_exact,
    ← computeUserContentVector_perm hlogs₂] at hv₂
  exact computeUserContentVector_later h₁ h₂ hv₁ hv₂

/-- A log of a place on the axis, and one of a place without a vector. -/
noncomputable def twoLogs : List VectorLog := [⟨1, 0, some axis⟩, ⟨-1, 0, none⟩]

/-- Within the first day the logs have a vector. -/
theorem twoLogs_vector {now : Instant} (h : now ≤ timedeltaDays 1) :
    ∃ v, computeUserContentVector twoLogs true now defaultDecayLambda = some v := by
  have hage : max (((now - 0 : Int) : ℝ) / timedeltaDays 1) 0 ≤ 1 := by
    have hnow : ((now - 0 : Int) : ℝ) ≤ timedeltaDays 1 := Int.cast_le.mpr ((sub_zero now).trans_le h)
    exact max_le ((div_le_one timedeltaDays_one_pos).mpr hnow) zero_le_one
  have hdecay : zeroVectorNormEpsilon ≤ decayBy defaultDecayLambda 0 now := by
    have hexp := Real.add_one_le_exp (-defaultDecayLambda * max (((now - 0 : Int) : ℝ) / timedeltaDays 1) 0)
    have hlam : defaultDecayLambda * max (((now - 0 : Int) : ℝ) / timedeltaDays 1) 0 ≤ 1 / 100 := by
      unfold defaultDecayLambda
      linarith
    have heps : zeroVectorNormEpsilon ≤ 1 - 1 / 100 := by
      unfold zeroVectorNormEpsilon
      norm_num
    unfold decayBy
    linarith
  have hnorm : ‖axis‖ = 1 := by simp [axis]
  have hsum : (twoLogs.map (VectorLog.term true now defaultDecayLambda)).sum = decayBy defaultDecayLambda 0 now • axis := by
    simp [twoLogs, VectorLog.term, addLog]
  have hlong : ¬ ‖decayBy defaultDecayLambda 0 now • axis‖ < zeroVectorNormEpsilon := by
    rw [norm_smul, hnorm, mul_one, Real.norm_eq_abs]
    exact not_lt.mpr (hdecay.trans (le_abs_self _))
  rw [computeUserContentVector_eq, hsum, rescale, if_neg hlong]
  exact ⟨_, rfl⟩

theorem recompute_later_same_twoLogs :
    ∃ v, computeUserContentVector twoLogs true 0 defaultDecayLambda = some v ∧
      computeUserContentVector twoLogs true (timedeltaDays 1) defaultDecayLambda = some v := by
  obtain ⟨v₁, hv₁⟩ := twoLogs_vector (show (0 : Instant) ≤ timedeltaDays 1 by decide)
  obtain ⟨v₂, hv₂⟩ := twoLogs_vector (le_refl (timedeltaDays 1))
  have hcreated : ∀ log ∈ twoLogs, log.createdAt ≤ 0 := by simp [twoLogs]
  have hsame := (recompute_later_same hcreated (by decide)).1 defaultDecayLambda v₁ v₂ hv₁ hv₂
  exact ⟨v₁, hv₁, by rw [hsame, hv₂]⟩

end TravelMaker
