import TravelMaker.Place.Details

/-! A run of `backfill_details` as a run of its work list. -/
namespace TravelMaker
open Lib (Txn Worklist)

variable {V : Type}

/-! ### The targets -/

/-- The places, by id. -/
def keysOf (columns : List BackfillTarget) : List Int := (columns.map (·.id)).insertionSort (· ≤ ·)

theorem nodup_keysOf {columns : List BackfillTarget} (hids : (columns.map (·.id)).Nodup) : (keysOf columns).Nodup :=
  (List.perm_insertionSort _ _).nodup_iff.mpr hids

section
variable {d : Db V} (hids : (d.columns.map (·.id)).Nodup)
include hids

theorem place?_eq_of_mem {place : Place} (hplace : place ∈ d.places) : d.place? place.id = some place := by
  rw [Db.columns, List.map_map] at hids
  exact Db.place?_of_mem hids hplace

theorem rowOf_of_mem {place : Place} (hplace : place ∈ d.places) : rowOf d.columns place.id = some place.target := by
  rw [rowOf_columns, place?_eq_of_mem hids hplace, Option.map_some]

omit hids in
theorem mem_backfillTargets {contentTypeId : Option Int} {limit : Option Nat} {target : BackfillTarget}
    (h : target ∈ d.backfillTargets contentTypeId limit) :
    ∃ place ∈ d.places, place.lacksTel contentTypeId = true ∧ place.target = target := by
  have hall : target ∈ d.backfillTargets contentTypeId none := by
    cases limit with
    | none => exact h
    | some n => exact List.mem_of_mem_take h
  obtain ⟨place, hplace, rfl⟩ := List.mem_map.mp hall
  obtain ⟨hmem, hlacks⟩ := List.mem_filter.mp ((List.mem_insertionSort _).mp hplace)
  exact ⟨place, hmem, hlacks, rfl⟩

omit hids in
/-- A target is of a type with a phone key. -/
theorem key_of_mem_backfillTargets {contentTypeId : Option Int} {limit : Option Nat} {target : BackfillTarget}
    (h : target ∈ d.backfillTargets contentTypeId limit) : (infocenterKey target.contentTypeId).isSome = true := by
  obtain ⟨place, -, hlacks, rfl⟩ := mem_backfillTargets h
  rw [Place.lacksTel, Bool.and_eq_true, Bool.and_eq_true] at hlacks
  exact hlacks.1.1

theorem targetsOk (contentTypeId : Option Int) (limit : Option Nat) :
    TargetsOk d.columns (d.backfillTargets contentTypeId limit) := by
  refine ⟨fun target htarget => ?_, fun _ => key_of_mem_backfillTargets⟩
  obtain ⟨place, hplace, -, rfl⟩ := mem_backfillTargets htarget
  exact rowOf_of_mem hids hplace

/-- The targets are what is pending. -/
theorem backfillTargets_ids (answers : Int → Int → Option Item) (contentTypeId : Option Int) :
    (d.backfillTargets contentTypeId none).map (·.id) =
      (backfillWork answers contentTypeId d.columns).targets (keysOf d.columns) d.details := by
  have hpending : ∀ place ∈ d.places, (backfillWork answers contentTypeId d.columns).pending place.id
      (d.details place.id) = place.lacksTel contentTypeId := by
    intro place hplace
    show (rowOf d.columns place.id).any _ = _
    rw [rowOf_of_mem hids hplace, Option.any_some, Db.details, place?_eq_of_mem hids hplace]
    rfl
  have hids : d.columns.map (·.id) = d.places.map (·.id) := List.map_map
  show (List.map _ _).map _ = ((d.columns.map _).insertionSort _).filter _
  rw [List.map_map, hids]
  exact Lib.keys_sorted_filter Place.id hpending

end

/-- No target comes twice. -/
theorem nodup_backfillTargets_ids {d : Db V} (hids : (d.places.map (·.id)).Nodup) (contentTypeId : Option Int)
    (limit : Option Nat) : ((d.backfillTargets contentTypeId limit).map (·.id)).Nodup := by
  have hall : ((d.backfillTargets contentTypeId none).map (·.id)).Nodup := by
    have hperm : ((d.backfillTargets contentTypeId none).map (·.id)).Perm
        ((d.places.filter (·.lacksTel contentTypeId)).map (·.id)) := by
      show ((List.map _ _).map _).Perm _
      rw [List.map_map]
      exact (List.perm_insertionSort _ _).map _
    exact hperm.nodup_iff.mpr (hids.sublist (List.filter_sublist.map _))
  cases limit with
  | none => exact hall
  | some n => exact hall.sublist ((List.take_sublist n _).map _)

/-! ### Runs -/

/-- A run begins. -/
def World.fresh (db : Db V) (seq : Nat) : World V DetailBackfillSummary := {db := db, seq := seq, summary := {}}

section
variable {out : Outside} {answers : Int → Int → Option Item} {contentTypeId : Option Int} {limit : Option Nat} {db : Db V}
  {seq : Nat}

/-- The ids of the places that have a `PlaceInfo`, as a run reads them. -/
def Db.hasInfo (d : Db V) (targets : List BackfillTarget) : List Int :=
  (d.placeInfos.map (·.placeId)).filter ((targets.map (·.id)).contains ·)

theorem hasInfo_contains (d : Db V) {targets : List BackfillTarget} {target : BackfillTarget} (h : target ∈ targets) :
    (d.hasInfo targets).contains target.id = (d.details target.id).info.isSome := by
  rw [Bool.eq_iff_iff, List.contains_iff_mem, Db.hasInfo, List.mem_filter, List.mem_map]
  constructor
  · intro h
    obtain ⟨⟨info, hinfo, hid⟩, -⟩ := h
    exact List.find?_isSome.mpr ⟨info, hinfo, by simpa using hid⟩
  · intro hsome
    obtain ⟨info, hinfo, hid⟩ := List.find?_isSome.mp hsome
    refine ⟨⟨info, hinfo, by simpa using hid⟩, ?_⟩
    rw [List.contains_iff_mem]
    exact List.mem_map_of_mem h

/-- The writes of a run are those of its work list. -/
theorem targetWrites_eq {d : Db V} {targets all : List BackfillTarget} (htargets : TargetsOk d.columns targets)
    (hsub : ∀ target ∈ targets, target ∈ all) : targetWrites answers (d.hasInfo all) targets =
      (backfillWork answers contentTypeId d.columns).writes d.details (targets.map (·.id)) := by
  unfold targetWrites Worklist.writes
  rw [List.flatMap_map]
  refine List.flatMap_congr fun target htarget => ?_
  rw [hasInfo_contains d (hsub target htarget), steps_of_row _ _ (htargets.rows target htarget)]

variable (contentTypeId limit db seq) in
/-- After its two queries a run is its loop. -/
theorem backfillDetails_loop (refreshInfo : Bool) (h₀ : out.fault 0 = none) (h₁ : out.fault 1 = none) :
    ∃ w : World V DetailBackfillSummary, w.db = db ∧ w.calls = [] ∧ w.transactions = 2 ∧
      backfillDetails out contentTypeId limit false refreshInfo (World.fresh db seq) =
        backfillLoop out false refreshInfo (db.hasInfo (db.backfillTargets contentTypeId limit))
          (db.backfillTargets contentTypeId limit) w := by
  have hread : (Txn.read : Service V (Db V)).Atomic := fun _ => trivial
  refine ⟨{
    db := db
    seq := seq
    past := [db, db]
    summary := {target := (db.backfillTargets contentTypeId limit).length} }, rfl, rfl, rfl, ?_⟩
  unfold backfillDetails
  simp only [bind_run, Collect.tally, Collect.query]
  rw [atomic_ok (w := World.fresh db seq) h₀ hread rfl]
  dsimp only
  rw [atomic_ok h₁ hread rfl]
  rfl

variable (contentTypeId limit seq) in
/-- What a run leaves whose calls are answered and whose writes fail after the first `m`. -/
theorem backfillDetails_writes (hids : (db.columns.map (·.id)).Nodup) (hget : ∀ t c, out.get t c = .ok (listed answers c))
    (h₀ : out.fault 0 = none) (h₁ : out.fault 1 = none) {m : Nat} {ws : List (Int × (Details → Details))}
    (hws : ws = (backfillWork answers contentTypeId db.columns).writes db.details
      ((db.backfillTargets contentTypeId limit).map (·.id)))
    (hstop : StopsAfter out 2 m ws.length) :
    (backfillDetails out contentTypeId limit false false (World.fresh db seq)).2.db.details =
        Worklist.apply (ws.take m) db.details ∧
      (backfillDetails out contentTypeId limit false false (World.fresh db seq)).2.db.columns = db.columns ∧
      (ws.length ≤ m → (backfillDetails out contentTypeId limit false false (World.fresh db seq)).1 = .ok ()) := by
  obtain ⟨w, hdb, -, htransactions, hrun⟩ := backfillDetails_loop contentTypeId limit db seq false h₀ h₁
  have htargets := targetsOk hids contentTypeId limit
  rw [← targetWrites_eq htargets fun _ h => h] at hws
  obtain ⟨hdetails, hcolumns, hok⟩ := writes_backfillLoop htargets hget w m (congrArg Db.columns hdb)
    (htransactions.symm ▸ hws ▸ hstop)
  rw [hdb] at hdetails
  rw [hrun, hws]
  refine ⟨hdetails, hcolumns, fun hm => ?_⟩
  rw [if_pos hm] at hok
  exact hok.1

end

/-- A client that answers every call, and a database that does not fail. -/
def answering (answers : Int → Int → Option Item) : Outside where
  get _ c := .ok (listed answers c)
  fault _ := none
  column _ := .ok 0
  lastPage := 0
  finite _ c items hc h := by
    cases c with
    | areaBasedList | areaBasedSyncList => exact (Except.ok.inj h).symm
    | detailCommon | detailImage | detailIntro => cases hc

theorem answering_get (answers : Int → Int → Option Item) (t : Nat) (c : Call) :
    (answering answers).get t c = .ok (listed answers c) := rfl

section
variable {answers : Int → Int → Option Item} {contentTypeId : Option Int} {limit : Option Nat} {db : Db V} {seq : Nat}
  (hids : (db.columns.map (·.id)).Nodup)
include hids

/-- A run to completion. -/
theorem backfillDetails_answering :
    (backfillDetails (answering answers) contentTypeId limit false false (World.fresh db seq)).1 = .ok () ∧
      (backfillDetails (answering answers) contentTypeId limit false false (World.fresh db seq)).2.db.details =
        Worklist.apply ((backfillWork answers contentTypeId db.columns).writes db.details
          ((db.backfillTargets contentTypeId limit).map (·.id))) db.details ∧
      (backfillDetails (answering answers) contentTypeId limit false false (World.fresh db seq)).2.db.columns =
        db.columns := by
  obtain ⟨hdetails, hcolumns, hok⟩ := backfillDetails_writes contentTypeId limit seq hids
    (answering_get answers) rfl rfl rfl ⟨fun _ _ => rfl, .inl le_rfl⟩
  rw [List.take_length] at hdetails
  exact ⟨hok le_rfl, hdetails, hcolumns⟩

variable (contentTypeId seq) in
theorem backfillDetails_run :
    (backfillDetails (answering answers) contentTypeId none false false (World.fresh db seq)).2.db.details =
      (backfillWork answers contentTypeId db.columns).run (keysOf db.columns) db.details := by
  rw [(backfillDetails_answering hids).2.1, backfillTargets_ids hids answers]
  rfl

theorem backfillDetails_batch (n : Nat) :
    (backfillDetails (answering answers) contentTypeId (some n) false false (World.fresh db seq)).2.db.details =
      (backfillWork answers contentTypeId db.columns).batch n (keysOf db.columns) db.details := by
  have htargets : (db.backfillTargets contentTypeId (some n)).map (·.id) =
      ((backfillWork answers contentTypeId db.columns).targets (keysOf db.columns) db.details).take n := by
    rw [← backfillTargets_ids hids answers, ← List.map_take]
    rfl
  rw [(backfillDetails_answering hids).2.1, htargets]
  rfl

end
end TravelMaker
