import Mathlib.Analysis.InnerProductSpace.PiL2
import Mathlib.Analysis.SpecialFunctions.Exp
import TravelMaker.Lib.Renormalized
import TravelMaker.Place.Recommend
import TravelMaker.User.PreferenceRow

/-! The content vector over the reals, log by log.

Runs of `update_user_content_vector_incremental` for the logs of one user, one after the
other. The vector comes and goes: it is there from the threshold on, once an embedded place
gives it a direction, and is dropped when the terms cancel. `content_vector_shape` says
what it is made of in between. -/
namespace TravelMaker
open Lib (Txn)
open Lib.Renormalized
open Lib.Txn (Base)

/-! ### The arithmetic -/

/-- `ZERO_VECTOR_NORM_EPSILON`. -/
noncomputable def zeroVectorNormEpsilon : ℝ := 1 / 10 ^ 8

noncomputable def defaultDecayLambda : ℝ := 1 / 100

theorem zeroVectorNormEpsilon_pos : 0 < zeroVectorNormEpsilon := by
  unfold zeroVectorNormEpsilon
  positivity

abbrev ContentVector := EuclideanSpace ℝ (Fin 1024)

noncomputable def decay (createdAt now : Instant) : ℝ :=
  Real.exp (-defaultDecayLambda * max (((now - createdAt : Int) : ℝ) / (86400 * 10 ^ 6)) 0)

/-- `user_content_vector_service` without rounding errors, for any weights of the logs. -/
noncomputable def exactOps (weight : UserActionLog → ℝ) : VectorOps ContentVector where
  applyIncrementalUpdate current log v := move zeroVectorNormEpsilon current (weight log) v
  computeUserContentVector now logs := rescale zeroVectorNormEpsilon
    (logs.map fun (log, v) => (weight log * decay log.createdAt now) • v).sum

/-! ### Runs -/

section
variable {V : Type}

/-- The runs of the task for these logs, one after the other. -/
def runLogs (ops : VectorOps V) (userId : Int) (b : Base (Db V)) (logIds : List Int) : Base (Db V) :=
  logIds.foldl (fun b logId => ((updateUserContentVectorIncremental ops userId logId).perform b).2) b

def vectorAfter (ops : VectorOps V) (userId : Int) (b : Base (Db V)) (logIds : List Int) : Option V :=
  ((runLogs ops userId b logIds).db.preferenceD userId).contentVector

/-- The runs of `since` found no vector, and each of them left one. -/
structure SinceNone (ops : VectorOps V) (userId : Int) (b : Base (Db V)) (before since : List Int) : Prop where
  start : vectorAfter ops userId b before = none
  kept : ∀ part, part <+: since → part ≠ [] → vectorAfter ops userId b (before ++ part) ≠ none

/-- The weight of a log and the vector of its place, if the place is embedded. -/
def Db.termOf (d : Db V) (weight : UserActionLog → ℝ) (logId : Int) : Option (ℝ × V) :=
  (d.unprocessedLog? logId).bind fun log => (d.contentVector? log.placeId).map fun v => (weight log, v)

end

/-- The preference of the user after the runs for these logs. -/
structure Shaped (weight : UserActionLog → ℝ) (userId : Int) (b : Base (Db ContentVector)) (logIds : List Int)
    (preference : UserPreference ContentVector) : Prop where
  count : preference.actionCount = logIds.length
  early : preference.actionCount < s3ActionCountThreshold → preference.contentVector = none
  vector : ∀ v, preference.contentVector = some v → ‖v‖ = 1 ∧ ∃ before since, logIds = before ++ since ∧
    SinceNone (exactOps weight) userId b before since ∧ PositiveSum (since.filterMap (b.db.termOf weight)) v

/-! ### One run -/

section
variable {V : Type} {ops : VectorOps V} {userId logId : Int} {b : Base (Db V)} {log : UserActionLog}

/-- A run for a log that is not processed yet. -/
theorem incremental_perform (ops : VectorOps V) (userId : Int) (h : b.db.unprocessedLog? logId = some log) :
    (updateUserContentVectorIncremental ops userId logId).perform b =
      (.ok (), ⟨((b.db.ensurePreference userId).savePreference
        ((b.db.preferenceD userId).incremented ops log (b.db.contentVector? log.placeId))).markProcessed logId, b.seq⟩) := by
  obtain ⟨hmem, hid, -⟩ := Db.unprocessedLog?_some h
  have hlogs : ∀ p, ((b.db.ensurePreference userId).savePreference p).actionLogs = b.db.actionLogs := by
    intro p
    unfold Db.savePreference Db.ensurePreference
    split <;> rfl
  have hthere : ∀ p, ((b.db.ensurePreference userId).savePreference p).actionLogs.any (·.id == logId) = true := by
    intro p
    rw [hlogs]
    exact List.any_eq_true.mpr ⟨log, hmem, beq_iff_eq.mpr hid⟩
  apply Txn.perform_of_eval_ok (r := ((), _, b.seq))
  simp only [updateUserContentVectorIncremental, Txn.read_bind, Txn.eval, h, getOrCreatePreference, Txn.put_bind,
    Txn.write_bind, Txn.pure_eq, Txn.ret_bind, Txn.orRaise, if_pos (hthere _)]
  rfl

/-- What a run leaves: the log applied to the preference, and marked. -/
structure RunsTo (ops : VectorOps V) (userId logId : Int) (log : UserActionLog) (b b' : Base (Db V)) : Prop where
  preference : b'.db.preferenceD userId =
    (b.db.preferenceD userId).incremented ops log (b.db.contentVector? log.placeId)
  logs : ∀ id, b'.db.unprocessedLog? id = if id = logId then none else b.db.unprocessedLog? id
  features : b'.db.placeFeatures = b.db.placeFeatures

theorem incremental_runsTo (ops : VectorOps V) (userId : Int) (h : b.db.unprocessedLog? logId = some log) :
    RunsTo ops userId logId log b ((updateUserContentVectorIncremental ops userId logId).perform b).2 := by
  rw [incremental_perform ops userId h]
  refine ⟨?_, fun id => ?_, ?_⟩
  · show (((b.db.ensurePreference userId).savePreference _).preference? userId).getD _ = _
    rw [Db.preference?_savePreference, incremented_userId, preferenceD_userId, if_pos rfl, Db.preference?_ensurePreference,
      if_pos rfl]
    rfl
  · show (((b.db.ensurePreference userId).savePreference _).markProcessed logId).unprocessedLog? id = _
    rw [Db.unprocessedLog?_markProcessed]
    congr 1
    show (b.db.ensurePreference userId).unprocessedLog? id = _
    unfold Db.ensurePreference
    split <;> rfl
  · show (b.db.ensurePreference userId).placeFeatures = _
    unfold Db.ensurePreference
    split <;> rfl

theorem incremented_contentVector (log : UserActionLog) (placeVector : Option V) (p : UserPreference V) :
    (p.incremented ops log placeVector).contentVector =
      if s3ActionCountThreshold ≤ p.actionCount + 1 then
        placeVector.elim p.contentVector (ops.applyIncrementalUpdate p.contentVector log)
      else p.contentVector := by
  unfold UserPreference.incremented shouldBeS3
  by_cases hcount : s3ActionCountThreshold ≤ p.actionCount + 1
  · cases placeVector <;> simp [hcount]
  · simp [hcount]

/-! ### Several runs -/

theorem runLogs_append (ops : VectorOps V) (userId : Int) (b : Base (Db V)) (logIds : List Int) (logId : Int) :
    runLogs ops userId b (logIds ++ [logId]) =
      ((updateUserContentVectorIncremental ops userId logId).perform (runLogs ops userId b logIds)).2 := by
  simp [runLogs]

/-- Distinct logs of the user that are not processed yet. -/
structure Unprocessed (d : Db V) (userId : Int) (logIds : List Int) : Prop where
  nodup : logIds.Nodup
  found : ∀ logId ∈ logIds, ∃ log, d.unprocessedLog? logId = some log ∧ log.userId = userId

theorem Unprocessed.before {d : Db V} {logIds : List Int} {logId : Int} (h : Unprocessed d userId (logIds ++ [logId])) :
    Unprocessed d userId logIds :=
  ⟨h.nodup.of_append_left, fun id hid => h.found id (List.mem_append_left _ hid)⟩

theorem Unprocessed.notMem {d : Db V} {logIds : List Int} {logId : Int} (h : Unprocessed d userId (logIds ++ [logId])) : logId ∉ logIds :=
  fun hmem => List.disjoint_of_nodup_append h.nodup hmem (List.mem_singleton_self _)

/-- The logs that were run are processed, the others are as they were. -/
theorem runLogs_logs (ops : VectorOps V) {logIds : List Int} (h : Unprocessed b.db userId logIds) :
    (∀ id, (runLogs ops userId b logIds).db.unprocessedLog? id = if id ∈ logIds then none else b.db.unprocessedLog? id) ∧
      (runLogs ops userId b logIds).db.placeFeatures = b.db.placeFeatures := by
  induction logIds using List.reverseRecOn with
  | nil => exact ⟨fun id => by simp [runLogs], rfl⟩
  | append_singleton logIds logId ih =>
    obtain ⟨hlogs, hfeatures⟩ := ih h.before
    obtain ⟨log, hlog, -⟩ := h.found logId (List.mem_append_right _ (List.mem_singleton_self _))
    have hnew := h.notMem
    have hfound : (runLogs ops userId b logIds).db.unprocessedLog? logId = some log := by rw [hlogs, if_neg hnew, hlog]
    have hrun := incremental_runsTo ops userId hfound
    rw [runLogs_append]
    refine ⟨fun id => ?_, hrun.features.trans hfeatures⟩
    rw [hrun.logs, hlogs]
    by_cases hid : id = logId <;> simp [hid]

/-- One more run. -/
theorem runLogs_preference (ops : VectorOps V) {logIds : List Int} (h : Unprocessed b.db userId (logIds ++ [logId])) :
    ∃ log, b.db.unprocessedLog? logId = some log ∧ (runLogs ops userId b (logIds ++ [logId])).db.preferenceD userId =
      ((runLogs ops userId b logIds).db.preferenceD userId).incremented ops log (b.db.contentVector? log.placeId) := by
  obtain ⟨hlogs, hfeatures⟩ := runLogs_logs ops h.before
  obtain ⟨log, hlog, -⟩ := h.found logId (List.mem_append_right _ (List.mem_singleton_self _))
  have hnew := h.notMem
  have hfound : (runLogs ops userId b logIds).db.unprocessedLog? logId = some log := by rw [hlogs, if_neg hnew, hlog]
  have hrun := incremental_runsTo ops userId hfound
  have hvector : (runLogs ops userId b logIds).db.contentVector? log.placeId = b.db.contentVector? log.placeId := by
    unfold Db.contentVector?
    rw [hfeatures]
  refine ⟨log, hlog, ?_⟩
  rw [runLogs_append, hrun.preference, hvector]

/-- A vector that was there stays there through one more run. -/
theorem SinceNone.append {before since : List Int} (h : SinceNone ops userId b before since)
    (hvector : vectorAfter ops userId b (before ++ (since ++ [logId])) ≠ none) :
    SinceNone ops userId b before (since ++ [logId]) := by
  refine ⟨h.start, fun part hpart hne => ?_⟩
  rcases List.prefix_concat_iff.mp hpart with rfl | hpart
  · exact hvector
  · exact h.kept part hpart hne

end

/-! ### The shape of the vector -/

section
variable {weight : UserActionLog → ℝ} {userId logId : Int} {b : Base (Db ContentVector)} {logIds : List Int}

theorem vectorAfter_eq (ops : VectorOps ContentVector) : vectorAfter ops userId b logIds =
    ((runLogs ops userId b logIds).db.preferenceD userId).contentVector := rfl

/-- A log that moves the vector is the first term of a new one, or one more term. -/
theorem Shaped.moved {p : UserPreference ContentVector} (h : Shaped weight userId b logIds p)
    (hp : (runLogs (exactOps weight) userId b logIds).db.preferenceD userId = p) {log : UserActionLog}
    (hlog : b.db.unprocessedLog? logId = some log) {placeVector v : ContentVector}
    (hplace : b.db.contentVector? log.placeId = some placeVector)
    (hafter : vectorAfter (exactOps weight) userId b (logIds ++ [logId]) = some v)
    (hv : (exactOps weight).applyIncrementalUpdate p.contentVector log placeVector = some v) :
    ‖v‖ = 1 ∧ ∃ before since, logIds ++ [logId] = before ++ since ∧ SinceNone (exactOps weight) userId b before since ∧
      PositiveSum (since.filterMap (b.db.termOf weight)) v := by
  have hterm : b.db.termOf weight logId = some (weight log, placeVector) := by
    rw [Db.termOf, hlog, Option.bind_some, hplace, Option.map_some]
  have hsome : vectorAfter (exactOps weight) userId b (logIds ++ [logId]) ≠ none := by simp [hafter]
  cases hvector : p.contentVector with
  | none =>
    have hstart : vectorAfter (exactOps weight) userId b logIds = none := by rw [vectorAfter_eq, hp, hvector]
    have hsince : SinceNone (exactOps weight) userId b logIds [] :=
      ⟨hstart, fun part hpart hne => absurd (List.prefix_nil.mp hpart) hne⟩
    rw [hvector] at hv
    have hnothing : PositiveSum [] ((none : Option ContentVector).getD 0) := positiveSum_nil
    obtain ⟨hnorm, hsum⟩ := hnothing.move zeroVectorNormEpsilon_pos hv
    refine ⟨hnorm, logIds, [logId], rfl, hsince.append hsome, ?_⟩
    simpa [hterm] using hsum
  | some vector =>
    obtain ⟨-, before, since, heq, hsince, hsum⟩ := h.vector vector hvector
    rw [hvector] at hv
    obtain ⟨hnorm, hmoved⟩ := PositiveSum.move zeroVectorNormEpsilon_pos (show PositiveSum _ ((some vector).getD 0) from hsum) hv
    have hsplit : logIds ++ [logId] = before ++ (since ++ [logId]) := by rw [heq, List.append_assoc]
    refine ⟨hnorm, before, since ++ [logId], hsplit, hsince.append (hsplit ▸ hsome), ?_⟩
    rw [List.filterMap_append]
    simpa [hterm] using hmoved

/-- A log of a place without a vector adds no term. -/
theorem Shaped.skipped {p : UserPreference ContentVector} (h : Shaped weight userId b logIds p) {log : UserActionLog}
    (hlog : b.db.unprocessedLog? logId = some log) (hplace : b.db.contentVector? log.placeId = none) {v : ContentVector}
    (hafter : vectorAfter (exactOps weight) userId b (logIds ++ [logId]) = some v) (hv : p.contentVector = some v) :
    ‖v‖ = 1 ∧ ∃ before since, logIds ++ [logId] = before ++ since ∧ SinceNone (exactOps weight) userId b before since ∧
      PositiveSum (since.filterMap (b.db.termOf weight)) v := by
  have hterm : b.db.termOf weight logId = none := by
    rw [Db.termOf, hlog, Option.bind_some, hplace, Option.map_none]
  have hsome : vectorAfter (exactOps weight) userId b (logIds ++ [logId]) ≠ none := by simp [hafter]
  obtain ⟨hnorm, before, since, heq, hsince, hsum⟩ := h.vector v hv
  have hsplit : logIds ++ [logId] = before ++ (since ++ [logId]) := by rw [heq, List.append_assoc]
  refine ⟨hnorm, before, since ++ [logId], hsplit, hsince.append (hsplit ▸ hsome), ?_⟩
  rw [List.filterMap_append]
  simpa [hterm] using hsum

theorem shaped_runLogs (weight : UserActionLog → ℝ) (hnew : b.db.preference? userId = none) (h : Unprocessed b.db userId logIds) :
    Shaped weight userId b logIds ((runLogs (exactOps weight) userId b logIds).db.preferenceD userId) := by
  induction logIds using List.reverseRecOn with
  | nil =>
    have hdefault : (runLogs (exactOps weight) userId b []).db.preferenceD userId = {userId := userId} := by
      show (b.db.preference? userId).getD _ = _
      rw [hnew, Option.getD_none]
    rw [hdefault]
    exact ⟨rfl, fun _ => rfl, fun v hv => (Option.some_ne_none v hv.symm).elim⟩
  | append_singleton logIds logId ih =>
    have hshaped := ih h.before
    obtain ⟨log, hlog, hnext⟩ := runLogs_preference (exactOps weight) h
    generalize hp : (runLogs (exactOps weight) userId b logIds).db.preferenceD userId = p at hshaped hnext
    have hcount : ((runLogs (exactOps weight) userId b (logIds ++ [logId])).db.preferenceD userId).actionCount =
        (logIds ++ [logId]).length := by
      rw [hnext, incremented_actionCount, hshaped.count, List.length_append, List.length_singleton]
    have hvector := hnext ▸ incremented_contentVector log (b.db.contentVector? log.placeId) p
    refine ⟨hcount, fun hearly => ?_, fun v hafter => ?_⟩
    · have hbefore : p.actionCount + 1 < s3ActionCountThreshold := by
        rw [← incremented_actionCount log (b.db.contentVector? log.placeId) p, ← hnext]
        exact hearly
      rw [hvector, if_neg (not_le.mpr hbefore)]
      exact hshaped.early (Nat.lt_of_succ_lt hbefore)
    · have hleft : vectorAfter (exactOps weight) userId b (logIds ++ [logId]) = some v := hafter
      rw [hvector] at hafter
      split at hafter
      · cases hplace : b.db.contentVector? log.placeId with
        | none =>
          rw [hplace, Option.elim_none] at hafter
          exact hshaped.skipped hlog hplace hleft hafter
        | some placeVector =>
          rw [hplace, Option.elim_some] at hafter
          exact hshaped.moved hp hlog hplace hleft hafter
      · rename_i hearly
        rw [hshaped.early (by omega)] at hafter
        cases hafter

end

theorem determineStage_s3 {V : Type} (c : Catalog V) (userId : Int) : c.determineStage (some userId) = .s3 ↔
    s3ActionCountThreshold ≤ (c.db.preferenceD userId).actionCount ∧ (c.db.preferenceD userId).contentVector ≠ none := by
  have hstage : ∀ reached : Prop, [Decidable reached] →
      ((if reached then Stage.s3 else if c.testResults.any (·.userId == userId) then .s2 else .s1) = .s3 ↔ reached) := by
    intro reached _
    split_ifs <;> simp_all
  unfold Catalog.determineStage Db.preferenceD
  simp only [hstage]
  cases c.db.preference? userId with
  | none => simp [s3ActionCountThreshold]
  | some p => simp [Option.isSome_iff_ne_none]

/-- **The shape of the incremental vector**, after the runs for any distinct logs of a new
user: all of them count, and the vector has length one and is a sum with positive
coefficients over the embedded logs since it was last missing. -/
theorem content_vector_shape (weight : UserActionLog → ℝ) (userId : Int) (b : Base (Db ContentVector))
    (hnew : b.db.preference? userId = none) (logIds : List Int) (h : Unprocessed b.db userId logIds) :
    (∀ logId ∈ logIds, (runLogs (exactOps weight) userId b logIds).db.unprocessedLog? logId = none) ∧
      Shaped weight userId b logIds ((runLogs (exactOps weight) userId b logIds).db.preferenceD userId) ∧
      ∀ c : Catalog ContentVector, c.db = (runLogs (exactOps weight) userId b logIds).db →
        (c.determineStage (some userId) = .s3 ↔
          s3ActionCountThreshold ≤ ((runLogs (exactOps weight) userId b logIds).db.preferenceD userId).actionCount ∧
            ((runLogs (exactOps weight) userId b logIds).db.preferenceD userId).contentVector ≠ none) := by
  refine ⟨fun logId hmem => ?_, shaped_runLogs weight hnew h, fun c hc => ?_⟩
  · rw [(runLogs_logs (exactOps weight) h).1, if_pos hmem]
  · rw [determineStage_s3, hc]

/-- Twelve logs of one user, of three places in turn. -/
def readerLogs : List UserActionLog := (List.range' 1 12).map fun i =>
  {id := i, userId := 1, placeId := i % 3, actionType := .bookmark, weight := ⟨bookmarkWeight, 10⟩, createdAt := i}

/-- The first axis. -/
noncomputable def axis : ContentVector := EuclideanSpace.single 0 1

/-- Two of the places are embedded, in different directions. -/
noncomputable def Db.newReader : Db ContentVector where
  actionLogs := readerLogs
  placeFeatures := [{placeId := 1, contentVector := some axis},
    {placeId := 2, contentVector := some (EuclideanSpace.single 1 1)}]

def readLogs (n : Nat) : List Int := (readerLogs.take n).map (·.id)

theorem readLogs_succ : ∀ n < 12, readLogs (n + 1) = readLogs n ++ [((n + 1 : Nat) : Int)] := by decide

theorem newReader_log : ∀ n < 12, (Db.newReader.unprocessedLog? (n + 1 : Nat)).map (fun log => (log.userId, log.placeId)) =
    some (1, ((n + 1 : Nat) : Int) % 3) := by decide

theorem readLogs_unprocessed {n : Nat} (hn : n ≤ 12) : Unprocessed Db.newReader 1 (readLogs n) := by
  have hall : ∀ logId ∈ readLogs 12, ∃ n < 12, logId = ((n + 1 : Nat) : Int) := by decide
  have hpart : (readLogs n).Sublist (readLogs 12) := (List.take_sublist_take_left hn).map _
  refine ⟨(show (readLogs 12).Nodup by decide).sublist hpart, fun logId hmem => ?_⟩
  obtain ⟨i, hi, rfl⟩ := hall logId (hpart.subset hmem)
  obtain ⟨log, hlog, hkeys⟩ := Option.map_eq_some_iff.mp (newReader_log i hi)
  exact ⟨log, hlog, congrArg Prod.fst hkeys⟩

/-- The vector after the first `n` of the logs. -/
noncomputable def readVector (n : Nat) : Option ContentVector :=
  vectorAfter (exactOps fun _ => 1) 1 ⟨Db.newReader, 1⟩ (readLogs n)

theorem readVector_succ {n : Nat} (hn : n < 12) : readVector (n + 1) =
    if s3ActionCountThreshold ≤ n + 1 then
      (Db.newReader.contentVector? (((n + 1 : Nat) : Int) % 3)).elim (readVector n)
        (move zeroVectorNormEpsilon (readVector n) 1)
    else readVector n := by
  have hshaped := shaped_runLogs (b := ⟨Db.newReader, 1⟩) (fun _ => 1) rfl (readLogs_unprocessed hn.le)
  have hlength : (readLogs n).length = n := by
    rw [readLogs, List.length_map, List.length_take]
    exact Nat.min_eq_left hn.le
  obtain ⟨log, hlog, hpreference⟩ := runLogs_preference (b := ⟨Db.newReader, 1⟩) (exactOps fun _ => 1)
    (readLogs_succ n hn ▸ readLogs_unprocessed hn)
  have hkeys := newReader_log n hn
  rw [hlog, Option.map_some] at hkeys
  have hplace : log.placeId = ((n + 1 : Nat) : Int) % 3 := congrArg Prod.snd (Option.some.inj hkeys)
  rw [readVector, vectorAfter_eq, readLogs_succ n hn, hpreference, incremented_contentVector, hshaped.count, hlength, hplace]
  rfl

/-- The embedded logs from the threshold on leave a vector. -/
theorem readVector_ne_none : readVector 12 ≠ none := by
  have hsmall : zeroVectorNormEpsilon < 1 := by
    unfold zeroVectorNormEpsilon
    norm_num
  have hnine : readVector 9 = none := by
    have hshaped := shaped_runLogs (b := ⟨Db.newReader, 1⟩) (fun _ => 1) rfl (readLogs_unprocessed (n := 9) (by decide))
    apply hshaped.early
    rw [hshaped.count]
    decide
  have hten : readVector 10 = some axis := by
    rw [readVector_succ (by decide), if_pos (by decide), hnine]
    show rescale zeroVectorNormEpsilon (0 + (1 : ℝ) • axis) = _
    rw [zero_add, one_smul, rescale, if_neg]
    · simp [axis]
    · simpa [axis] using hsmall.le
  have heleven : readVector 11 ≠ none := by
    rw [readVector_succ (by decide), if_pos (by decide), hten]
    show rescale zeroVectorNormEpsilon (axis + (1 : ℝ) • (EuclideanSpace.single 1 1 : ContentVector)) ≠ none
    have hlong := PiLp.norm_apply_le (axis + (1 : ℝ) • (EuclideanSpace.single 1 1 : ContentVector)) 0
    have hfirst : (axis + (1 : ℝ) • EuclideanSpace.single 1 1 : ContentVector).ofLp 0 = 1 := by simp [axis]
    rw [hfirst, norm_one] at hlong
    rw [rescale, if_neg (not_lt.mpr (hsmall.le.trans hlong))]
    exact Option.some_ne_none _
  rw [readVector_succ (by decide), if_pos (by decide)]
  exact heleven

theorem content_vector_shape_newReader :
    readVector 12 ≠ none ∧
    (∀ logId ∈ readLogs 12, (runLogs (exactOps fun _ => 1) 1 ⟨Db.newReader, 1⟩ (readLogs 12)).db.unprocessedLog? logId = none) ∧
      Shaped (fun _ => 1) 1 ⟨Db.newReader, 1⟩ (readLogs 12)
        ((runLogs (exactOps fun _ => 1) 1 ⟨Db.newReader, 1⟩ (readLogs 12)).db.preferenceD 1) ∧
      ∀ c : Catalog ContentVector, c.db = (runLogs (exactOps fun _ => 1) 1 ⟨Db.newReader, 1⟩ (readLogs 12)).db →
        (c.determineStage (some 1) = .s3 ↔
          s3ActionCountThreshold ≤
              ((runLogs (exactOps fun _ => 1) 1 ⟨Db.newReader, 1⟩ (readLogs 12)).db.preferenceD 1).actionCount ∧
            ((runLogs (exactOps fun _ => 1) 1 ⟨Db.newReader, 1⟩ (readLogs 12)).db.preferenceD 1).contentVector ≠ none) := by
  refine ⟨readVector_ne_none, ?_⟩
  exact content_vector_shape (fun _ => 1) 1 ⟨Db.newReader, 1⟩ rfl (readLogs 12) (readLogs_unprocessed (Nat.le_refl 12))

end TravelMaker
