import Mathlib.Data.List.Dedup
import TravelMaker.User.ActionLog

/-! The content vector of a user: `user_content_vector_service` and the two tasks
that write it.

`update_user_content_vector_incremental` applies one behaviour log under the row
lock of the user's preference; `recompute_user_content_vectors_batch` replaces the
vector by one computed from the logs it reads, without that lock. The arithmetic
on the vectors is a parameter. -/
namespace TravelMaker
open Lib (Txn)

variable {V : Type}

def s3ActionCountThreshold : Nat := 10
def behaviorLookbackDays : Int := 90

/-- The vector arithmetic of the service. -/
structure VectorOps (V : Type) where
  /-- Add the log, by its weight, to the vector. -/
  applyIncrementalUpdate : Option V → UserActionLog → V → Option V
  /-- The vector of the logs whose place is embedded, decayed up to a time. -/
  computeUserContentVector : Instant → List (UserActionLog × V) → Option V

def shouldBeS3 (actionCount : Nat) : Bool := actionCount ≥ s3ActionCountThreshold

/-! ### Rows -/

namespace Db

/-- `get(id=…, processed=False)`. -/
def unprocessedLog? (d : Db V) (id : Int) : Option UserActionLog :=
  d.actionLogs.find? fun log => log.id == id && !log.processed

/-- The row of the user is created where it is missing. -/
def ensurePreference (userId : Int) (d : Db V) : Db V :=
  match d.preference? userId with
  | some _ => d
  | none => {d with preferences := d.preferences ++ [{userId := userId}]}

def savePreference (preference : UserPreference V) (d : Db V) : Db V :=
  {d with preferences := d.preferences.map fun p =>
    if p.userId = preference.userId then preference else p}

def saveContentVector (userId : Int) (vector : Option V) (d : Db V) : Db V :=
  {d with preferences := d.preferences.map fun p =>
    if p.userId = userId then {p with contentVector := vector} else p}

def markProcessed (logId : Int) (d : Db V) : Db V :=
  {d with actionLogs := d.actionLogs.map fun log =>
    if log.id = logId then {log with processed := true} else log}

/-- The row of the user, or the one that would be created. -/
def preferenceD (d : Db V) (userId : Int) : UserPreference V :=
  (d.preference? userId).getD {userId := userId}

end Db

/-! ### The incremental task -/

/-- The instance after one log: it counts, and from the threshold on its embedded
place moves the vector. -/
def UserPreference.incremented (ops : VectorOps V) (log : UserActionLog) (placeContentVector : Option V)
    (preference : UserPreference V) : UserPreference V :=
  let preference := {preference with actionCount := preference.actionCount + 1}
  match shouldBeS3 preference.actionCount, placeContentVector with
  | true, some v =>
    {preference with contentVector := ops.applyIncrementalUpdate preference.contentVector log v}
  | _, _ => preference

/-- `select_for_update().get_or_create(…)`: the row is taken, or inserted; an insert
that meets the one of another transaction waits for it on the unique index and then
takes that row. -/
def getOrCreatePreference (userId : Int) : Service V (UserPreference V) := do
  let d ← Txn.put (.preference userId) (Db.ensurePreference userId)
  return d.preferenceD userId

def updateUserContentVectorIncremental (ops : VectorOps V) (userId logId : Int) : Service V Unit := do
  let d ← Txn.read
  match d.unprocessedLog? logId with
  | none => return ()
  | some log =>
    let preference ← getOrCreatePreference userId
    let _ ← Txn.put (.preference userId)
      (Db.savePreference (preference.incremented ops log (d.contentVector? log.placeId)))
    let d ← Txn.put (.actionLog logId) (Db.markProcessed logId)
    Txn.orRaise (d.actionLogs.any (·.id == logId)) .databaseError

/-! ### The nightly batch -/

/-- The logs that enter the vector of a user: recent, and of an embedded place. -/
def Db.recentLogs (d : Db V) (userId : Int) (now : Instant) : List (UserActionLog × V) :=
  (d.actionLogs.filter fun log =>
    log.userId == userId && decide (now - timedeltaDays behaviorLookbackDays ≤ log.createdAt)).filterMap
      fun log => (d.contentVector? log.placeId).map fun v => (log, v)

def computeUserContentVectorForUser (ops : VectorOps V) (now : Instant) (d : Db V) (userId : Int) :
    Option V :=
  ops.computeUserContentVector now (d.recentLogs userId now)

/-- The loop of the batch, in autocommit: each statement commits by itself. -/
def recomputeEach (ops : VectorOps V) (now : Instant) : List (UserPreference V) → Service V Unit
  | [] => pure ()
  | preference :: rest => do
    let d ← Txn.read
    let vector := computeUserContentVectorForUser ops now d preference.userId
    let d ← Txn.put (.preference preference.userId) (Db.saveContentVector preference.userId vector)
    Txn.orRaise (d.preferences.any (·.userId == preference.userId)) .databaseError
    Txn.commitNow
    recomputeEach ops now rest

def recomputeUserContentVectorsBatch (ops : VectorOps V) (now : Instant) : Service V Unit := do
  let d ← Txn.read
  recomputeEach ops now (d.preferences.filter fun p => decide (p.actionCount ≥ s3ActionCountThreshold))

/-! ### What the statements do to a preference and a log -/

namespace Db

theorem preference?_some {d : Db V} {userId : Int} {p : UserPreference V}
    (h : d.preference? userId = some p) : p.userId = userId := by
  simpa using List.find?_some h

theorem preference?_ensurePreference (w u : Int) (d : Db V) :
    (d.ensurePreference w).preference? u =
      if u = w then some (d.preferenceD w) else d.preference? u := by
  have hadded (h : d.preference? w = none) : d.ensurePreference w =
      {d with preferences := d.preferences ++ [{userId := w}]} := by
    simp only [ensurePreference, h]
  have hkept {p : UserPreference V} (h : d.preference? w = some p) : d.ensurePreference w = d := by
    simp only [ensurePreference, h]
  by_cases huw : u = w
  · subst huw
    rw [if_pos rfl]
    cases hp : d.preference? u with
    | some p => rw [hkept hp, hp, preferenceD, hp, Option.getD_some]
    | none =>
      have hnone : d.preferences.find? (·.userId == u) = none := hp
      rw [hadded hp, preferenceD, hp]
      simp [preference?, List.find?_append, hnone]
  · rw [if_neg huw]
    cases hp : d.preference? w with
    | some p => rw [hkept hp]
    | none =>
      have hne : (w == u) = false := beq_false_of_ne fun h => huw h.symm
      rw [hadded hp]
      simp [preference?, List.find?_append, hne]

theorem preference?_map {d : Db V} {f : UserPreference V → UserPreference V}
    (hf : ∀ p, (f p).userId = p.userId) (u : Int) :
    ({d with preferences := d.preferences.map f} : Db V).preference? u = (d.preference? u).map f := by
  simp only [preference?, List.find?_map, Function.comp_def, hf]

theorem preference?_savePreference (x : UserPreference V) (u : Int) (d : Db V) :
    (d.savePreference x).preference? u =
      if u = x.userId then (d.preference? u).map fun _ => x else d.preference? u := by
  rw [savePreference, preference?_map (fun p => by split <;> simp_all)]
  cases hp : d.preference? u with
  | none => simp
  | some p =>
    have hu := preference?_some hp
    subst hu
    split <;> simp_all

theorem preference?_saveContentVector (w u : Int) (vector : Option V) (d : Db V) :
    (d.saveContentVector w vector).preference? u =
      if u = w then (d.preference? u).map fun p => {p with contentVector := vector}
      else d.preference? u := by
  rw [saveContentVector, preference?_map (fun p => by split <;> rfl)]
  cases hp : d.preference? u with
  | none => simp
  | some p =>
    have hu := preference?_some hp
    subst hu
    split <;> simp_all

theorem unprocessedLog?_some {d : Db V} {id : Int} {log : UserActionLog}
    (h : d.unprocessedLog? id = some log) : log ∈ d.actionLogs ∧ log.id = id ∧ log.processed = false := by
  refine ⟨List.mem_of_find?_eq_some h, ?_⟩
  simpa using List.find?_some h

/-- A marked log is not found again; the others are as they were. -/
theorem unprocessedLog?_markProcessed (logId id : Int) (d : Db V) :
    (d.markProcessed logId).unprocessedLog? id =
      if id = logId then none else d.unprocessedLog? id := by
  simp only [markProcessed, unprocessedLog?]
  induction d.actionLogs with
  | nil => simp
  | cons log rest ih =>
    rw [List.map_cons, List.find?_cons, ih, List.find?_cons]
    by_cases hlog : log.id = logId
    · by_cases hid : id = logId
      · simp [hlog, hid]
      · have hne : (logId == id) = false := beq_false_of_ne fun h => hid h.symm
        simp [hlog, hid, hne]
    · by_cases hid : id = logId
      · have hne : (log.id == logId) = false := beq_false_of_ne hlog
        simp [hlog, hid, hne]
      · simp [hlog, hid]

end Db
end TravelMaker
