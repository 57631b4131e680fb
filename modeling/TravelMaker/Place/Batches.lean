import TravelMaker.Place.BackfillRun

/-! Runs of `backfill_details` with a `limit`, one after the other.

A place whose answer has no phone number stays a target, and the next run takes it again:
`batched_iff` says how far the runs get. -/
namespace TravelMaker
open Lib (Worklist)

variable {V : Type}

/-- How many runs of `n` targets each cover `count` targets. -/
def runsFor (count n : Nat) : Nat := (count + n - 1) / n

section
variable (answers : Int → Int → Option Item) (contentTypeId : Option Int) (n : Nat)

/-- One run with `limit=n`: the tables and the ids it leaves. -/
def limitedRun (start : Db V × Nat) : Db V × Nat :=
  let w := (backfillDetails (answering answers) contentTypeId (some n) false false (World.fresh start.1 start.2)).2
  (w.db, w.seq)

/-- As many runs with `limit=n` as the targets take do what one run without a limit does. -/
structure Batched (db : Db V) (seq : Nat) : Prop where
  tel : ∀ id, (((limitedRun answers contentTypeId n)^[runsFor (db.backfillTargets contentTypeId none).length n]
      (db, seq)).1.place? id).bind (·.tel) =
    ((backfillDetails (answering answers) contentTypeId none false false (World.fresh db seq)).2.db.place? id).bind (·.tel)
  info : ∀ id, ((limitedRun answers contentTypeId n)^[runsFor (db.backfillTargets contentTypeId none).length n]
      (db, seq)).1.placeInfo? id =
    (backfillDetails (answering answers) contentTypeId none false false (World.fresh db seq)).2.db.placeInfo? id

/-- How many of the targets `r` runs get to: each run takes again the targets before whose
answers have no phone number. -/
def targetsReached (targets : List BackfillTarget) : Nat → Nat
  | 0 => 0
  | r + 1 => targetsReached targets r +
      (n - ((targets.take (targetsReached targets r)).filter fun target => (telOf answers target).isNone).length)

end

/-- The answer for the target has nothing new. -/
def Db.nothingFor (d : Db V) (answers : Int → Int → Option Item) (target : BackfillTarget) : Prop :=
  telOf answers target = none ∧ (infoOf answers target = none ∨ (d.placeInfo? target.id).isSome = true)

section
variable {answers : Int → Int → Option Item} {contentTypeId : Option Int} {n : Nat} {db : Db V} {seq : Nat}

/-! ### A finished target -/

theorem finish_target {columns : List BackfillTarget} {target : BackfillTarget} {x : Details}
    (hrow : rowOf columns target.id = some target)
    (hpending : (backfillWork answers contentTypeId columns).pending target.id x = true) :
    (backfillWork answers contentTypeId columns).finish target.id x = ⟨(telOf answers target).or x.tel,
      x.info.or ((infoOf answers target).map fun defaults => defaults.foldl PlaceInfo.set {placeId := target.id})⟩ := by
  rw [Worklist.finish, if_pos hpending, steps_of_row _ _ hrow, after_targetSteps]

/-- It is a target again if its answer has no phone number. -/
theorem pending_finish {columns : List BackfillTarget} {target : BackfillTarget} {x : Details}
    (hrow : rowOf columns target.id = some target)
    (hpending : (backfillWork answers contentTypeId columns).pending target.id x = true) :
    (backfillWork answers contentTypeId columns).pending target.id
      ((backfillWork answers contentTypeId columns).finish target.id x) = (telOf answers target).isNone := by
  rw [finish_target hrow hpending]
  cases htel : telOf answers target with
  | some tel => exact not_pending rfl (telOf_ne_empty htel)
  | none => exact hpending

/-- A pending place has no phone number. -/
theorem tel_of_pending {columns : List BackfillTarget} {id : Int} {x : Details}
    (hpending : (backfillWork answers contentTypeId columns).pending id x = true) {tel : String} (htel : x.tel = some tel) :
    tel = "" := by
  by_contra hne
  rw [not_pending htel hne] at hpending
  cases hpending

theorem finish_eq_self_iff {target : BackfillTarget} (hrow : rowOf db.columns target.id = some target)
    (hpending : (backfillWork answers contentTypeId db.columns).pending target.id (db.details target.id) = true) :
    (backfillWork answers contentTypeId db.columns).finish target.id (db.details target.id) = db.details target.id ↔
      db.nothingFor answers target := by
  rw [finish_target hrow hpending, Details.mk.injEq, Db.nothingFor]
  refine and_congr ?_ ?_
  · cases htel : telOf answers target with
    | none => exact iff_of_true rfl rfl
    | some tel =>
      refine iff_of_false (fun h => telOf_ne_empty htel ?_) fun h => nomatch h
      exact tel_of_pending hpending h.symm
  · show (db.placeInfo? target.id).or _ = db.placeInfo? target.id ↔ _
    cases db.placeInfo? target.id with
    | some info => exact iff_of_true rfl (.inr rfl)
    | none => cases infoOf answers target <;> simp

/-! ### Runs -/

variable (hids : (db.columns.map (·.id)).Nodup)
include hids

variable (answers contentTypeId n seq) in
theorem limitedRuns_details (r : Nat) :
    ((limitedRun answers contentTypeId n)^[r] (db, seq)).1.details =
        ((backfillWork answers contentTypeId db.columns).batch n (keysOf db.columns))^[r] db.details ∧
      ((limitedRun answers contentTypeId n)^[r] (db, seq)).1.columns = db.columns := by
  induction r with
  | zero => exact ⟨rfl, rfl⟩
  | succ r ih =>
    obtain ⟨hdetails, hcolumns⟩ := ih
    rw [Function.iterate_succ_apply', Function.iterate_succ_apply', ← hdetails]
    generalize (limitedRun answers contentTypeId n)^[r] (db, seq) = start at hcolumns
    have hids' : (start.1.columns.map (·.id)).Nodup := hcolumns ▸ hids
    rw [← hcolumns]
    exact ⟨backfillDetails_batch hids' n, (backfillDetails_answering hids').2.2⟩

theorem pending_of_mem {target : BackfillTarget} (htarget : target ∈ db.backfillTargets contentTypeId none) :
    (backfillWork answers contentTypeId db.columns).pending target.id (db.details target.id) = true :=
  ((backfillWork answers contentTypeId db.columns).mem_targets.mp
    (backfillTargets_ids hids answers contentTypeId ▸ List.mem_map_of_mem htarget)).2

theorem reached_eq (r : Nat) :
    (backfillWork answers contentTypeId db.columns).reached n db.details
        ((backfillWork answers contentTypeId db.columns).targets (keysOf db.columns) db.details) r =
      targetsReached answers n (db.backfillTargets contentTypeId none) r := by
  have htargets := targetsOk hids contentTypeId none
  have hlist := backfillTargets_ids hids answers contentTypeId
  induction r with
  | zero => rfl
  | succ r ih =>
    rw [Worklist.reached, ih, ← hlist, targetsReached, ← List.map_take, List.filter_map, List.length_map]
    congr 3
    refine List.filter_congr fun target htarget => ?_
    have hmem := List.mem_of_mem_take htarget
    exact pending_finish (htargets.rows target hmem) (pending_of_mem hids hmem)

theorem batched_iff_details : Batched answers contentTypeId n db seq ↔
    ((backfillWork answers contentTypeId db.columns).batch n
        (keysOf db.columns))^[runsFor (db.backfillTargets contentTypeId none).length n] db.details =
      (backfillWork answers contentTypeId db.columns).run (keysOf db.columns) db.details := by
  rw [← (limitedRuns_details answers contentTypeId n seq hids _).1, ← backfillDetails_run contentTypeId seq hids]
  constructor
  · intro h
    funext id
    exact congrArg₂ Details.mk (h.tel id) (h.info id)
  · intro h
    exact ⟨fun id => congrArg Details.tel (congrFun h id), fun id => congrArg Details.info (congrFun h id)⟩

theorem batched_iff_finish : Batched answers contentTypeId n db seq ↔
    ∀ target ∈ (db.backfillTargets contentTypeId none).drop (targetsReached answers n
        (db.backfillTargets contentTypeId none) (runsFor (db.backfillTargets contentTypeId none).length n)),
      (backfillWork answers contentTypeId db.columns).finish target.id (db.details target.id) = db.details target.id := by
  rw [batched_iff_details hids, Worklist.batches_iff _ (nodup_keysOf hids) backfill_finish, reached_eq hids,
    ← backfillTargets_ids hids answers contentTypeId, ← List.map_drop, List.forall_mem_map]

/-- **When limited runs do what one run does**: there is nothing for the targets they do
not reach. -/
theorem batched_iff : Batched answers contentTypeId n db seq ↔
    ∀ target ∈ (db.backfillTargets contentTypeId none).drop (targetsReached answers n
        (db.backfillTargets contentTypeId none) (runsFor (db.backfillTargets contentTypeId none).length n)),
      db.nothingFor answers target := by
  rw [batched_iff_finish hids]
  refine forall₂_congr fun target htarget => ?_
  have hmem := List.mem_of_mem_drop htarget
  exact finish_eq_self_iff ((targetsOk hids contentTypeId none).rows target hmem) (pending_of_mem hids hmem)

end

/-! ### A place that stays in front -/

/-- Two places of culture without a phone number. -/
def twoUnphoned : Db Unit where
  places := [{id := 1, contentId := 1006, contentTypeId := 14}, {id := 2, contentId := 1007, contentTypeId := 14}]

theorem nodup_twoUnphoned : (twoUnphoned.columns.map (·.id)).Nodup := by decide

/-- There is a phone number for one of them. -/
def onlyAnswer (contentId : Int) (other _ : Int) : Option Item :=
  if other = contentId then some [("infocenterculture", .str "02-123-4567")] else none

theorem batched_iff_twoUnphoned : Batched (onlyAnswer 1006) none 1 twoUnphoned 3 ↔
    ∀ target ∈ (twoUnphoned.backfillTargets none none).drop (targetsReached (onlyAnswer 1006) 1
        (twoUnphoned.backfillTargets none none) (runsFor (twoUnphoned.backfillTargets none none).length 1)),
      twoUnphoned.nothingFor (onlyAnswer 1006) target :=
  batched_iff nodup_twoUnphoned

/-- The first place never gets a phone number, and the second is never reached. -/
theorem phoneless_blocks_window : ¬ Batched (onlyAnswer 1007) none 1 twoUnphoned 3 := by
  intro h
  rw [batched_iff_finish nodup_twoUnphoned] at h
  have hfinish := h ⟨2, 1007, 14⟩ (by decide)
  rw [finish_eq_self_iff (by decide) (by decide)] at hfinish
  have htel := hfinish.1
  revert htel
  decide

end TravelMaker
