import TravelMaker.Database

/-! Behaviour signals: `action_weight_service` and `action_log_service`.

The services that bookmark, review or plan a route call `record_action` inside
their own transaction. -/
namespace TravelMaker
open Lib (Txn)

variable {V : Type}

def reviewWeightByRating (rating : Rating) : ℚ :=
  match rating.value with
  | 5 => 1
  | 4 => 1 / 2
  | 3 => 0
  | _ => -1 / 2

def bookmarkWeight : ℚ := 8 / 10
def unbookmarkWeight : ℚ := -1 / 10
def routeAddWeight : ℚ := 8 / 10
def popularityLogOffset : Nat := 10

/-- `compute_explicit_weight`; a review without its rating is refused. -/
def computeExplicitWeight : ActionType → Option Rating → Except Exc ℚ
  | .review, none => .error (.valueError "review action requires rating")
  | .review, some rating => .ok (reviewWeightByRating rating)
  | .bookmark, _ => .ok bookmarkWeight
  | .unbookmark, _ => .ok unbookmarkWeight
  | .routeAdd, _ => .ok routeAddWeight

/-- The number whose `log10` divides the weight in `compute_popularity_factor`. -/
def computePopularityFactor (d : Db V) (place : Place) : Nat :=
  place.ratingCount + (d.bookmarks.filter (·.placeId == place.id)).length + popularityLogOffset

def computeFinalWeight (actionType : ActionType) (d : Db V) (place : Place)
    (rating : Option Rating) : Except Exc Weight :=
  (computeExplicitWeight actionType rating).map fun a => ⟨a, computePopularityFactor d place⟩

namespace Db

def addActionLogs (logs : List UserActionLog) (d : Db V) : Db V :=
  {d with actionLogs := d.actionLogs ++ logs}

def insertActionLog (log : UserActionLog) (d : Db V) : Db V := d.addActionLogs [log]

@[simp] theorem addActionLogs_nil (d : Db V) : d.addActionLogs [] = d := by
  simp [addActionLogs]

@[simp] theorem addActionLogs_addActionLogs (logs logs' : List UserActionLog) (d : Db V) :
    (d.addActionLogs logs).addActionLogs logs' = d.addActionLogs (logs ++ logs') := by
  simp [addActionLogs]

end Db

def recordAction (now : Instant) (userId : Int) (place : Place) (actionType : ActionType)
    (rating : Option Rating) : Service V UserActionLog := do
  let d ← Txn.read
  match computeFinalWeight actionType d place rating with
  | .error e => Txn.raise e
  | .ok weight =>
    let id ← Txn.fresh
    let log : UserActionLog := {
      id := id
      userId := userId
      placeId := place.id
      actionType := actionType
      weight := weight
      createdAt := now }
    let _ ← Txn.put (.actionLog id) (Db.insertActionLog log)
    return log

/-- Any action but an unrated review has a weight. -/
theorem computeFinalWeight_ok (actionType : ActionType) (d : Db V) (place : Place)
    (rating : Option Rating) (h : actionType = .review → rating.isSome = true) :
    ∃ a, computeFinalWeight actionType d place rating = .ok ⟨a, computePopularityFactor d place⟩ := by
  cases actionType with
  | review =>
    obtain ⟨r, rfl⟩ := Option.isSome_iff_exists.mp (h rfl)
    exact ⟨_, rfl⟩
  | bookmark => exact ⟨_, rfl⟩
  | unbookmark => exact ⟨_, rfl⟩
  | routeAdd => exact ⟨_, rfl⟩

/-- The weight never divides by zero: `log10` of at least 10. -/
theorem popularity_ge_ten (d : Db V) (place : Place) : 10 ≤ computePopularityFactor d place :=
  Nat.le_add_left ..

end TravelMaker
