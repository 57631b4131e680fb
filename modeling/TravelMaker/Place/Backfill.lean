import Mathlib.Data.List.Sort
import TravelMaker.Place.Sync

/-! Backfill of phone numbers and `PlaceInfo`: `backfill_details`.

A target is asked for once and written in two transactions, first the phone number. -/
namespace TravelMaker
open Lib (Txn)

variable {V : Type}

structure DetailBackfillSummary where
  target : Nat := 0
  processed : Nat := 0
  telUpdated : Nat := 0
  telMissing : Nat := 0
  infoCreated : Nat := 0
  infoRefreshed : Nat := 0
  errors : Nat := 0
  aborted : Bool := false
deriving DecidableEq, Repr

structure BackfillTarget where
  id : Int
  contentId : Int
  contentTypeId : Int
deriving DecidableEq, Repr

def Place.target (place : Place) : BackfillTarget := ⟨place.id, place.contentId, place.contentTypeId⟩

/-- The place has no phone number, and a type whose intro may have one. -/
def Place.lacksTel (place : Place) (contentTypeId : Option Int) : Bool :=
  (infocenterKey place.contentTypeId).isSome && (place.tel == none || place.tel == some "") &&
    contentTypeId.all (· == place.contentTypeId)

def Db.backfillTargets (d : Db V) (contentTypeId : Option Int) (limit : Option Nat) : List BackfillTarget :=
  let targets := ((d.places.filter (·.lacksTel contentTypeId)).insertionSort (·.id ≤ ·.id)).map Place.target
  match limit with
  | none => targets
  | some n => targets.take n

def Place.withTel (tel : String) (place : Place) : Place := {place with tel := some tel}

/-- `Place.objects.filter(pk=…).update(tel=…)`. -/
def setTel (id : Int) (tel : String) : Service V Unit := do
  let _ ← Txn.put (.place id) (Db.updatePlace id (Place.withTel tel))

/-- `if not dry_run`. -/
def unlessDry {S : Type} (dryRun : Bool) (x : Collect V S Unit) : Collect V S Unit := if dryRun then pure () else x

section
variable (out : Outside) (dryRun refreshInfo : Bool) (hasInfo : List Int)

def backfillTel (target : BackfillTarget) (intro : Option Item) : Collect V DetailBackfillSummary Unit := do
  let key ← Collect.ofExcept (match infocenterKey target.contentTypeId with
    | some key => .ok key
    | none => .error (.keyError (toString target.contentTypeId)))
  match cleanTel ((intro.getD []).get key) with
  | none => Collect.tally fun s => {s with telMissing := s.telMissing + 1}
  | some tel =>
    unlessDry dryRun (Collect.atomic out (setTel target.id tel))
    Collect.tally fun s => {s with telUpdated := s.telUpdated + 1}

/-- A missing `PlaceInfo` is made, one that is there is refreshed if asked for. -/
def backfillInfo (target : BackfillTarget) (intro : Option Item) : Collect V DetailBackfillSummary Unit :=
  match intro with
  | none => pure ()
  | some item =>
    let infoExists := hasInfo.contains target.id
    if !infoExists || refreshInfo then
      match buildPlaceInfoDefaults target.contentTypeId item with
      | none => pure ()
      | some defaults => do
        unlessDry dryRun (Collect.atomic out (updateOrCreateInfo target.id defaults))
        Collect.tally fun s =>
          if infoExists then {s with infoRefreshed := s.infoRefreshed + 1}
          else {s with infoCreated := s.infoCreated + 1}
    else pure ()

def backfillTarget (target : BackfillTarget) (intro : Option Item) : Collect V DetailBackfillSummary Unit := do
  Collect.tally fun s => {s with processed := s.processed + 1}
  backfillTel out dryRun target intro
  backfillInfo out dryRun refreshInfo hasInfo target intro

/-- The targets one after the other: a failed call skips its target, exhausted keys end the loop. -/
def backfillLoop : List BackfillTarget → Collect V DetailBackfillSummary Unit
  | [] => pure ()
  | target :: rest => do
    match ← Collect.attempt (Collect.detailIntro out target.contentId target.contentTypeId) with
    | .error .allKeysExhaustedError => Collect.tally fun s => {s with aborted := true}
    | .error .tourApiError =>
      Collect.tally fun s => {s with errors := s.errors + 1}
      backfillLoop rest
    | .error e => Collect.raise e
    | .ok intro =>
      backfillTarget out dryRun refreshInfo hasInfo target intro
      backfillLoop rest

end

/-- Where the type has a phone key. -/
theorem backfillTel_eq (out : Outside) {target : BackfillTarget} {key : String}
    (hkey : infocenterKey target.contentTypeId = some key) (intro : Option Item) :
    backfillTel (V := V) out false target intro =
      (cleanTel ((intro.getD []).get key)).elim (Collect.tally fun s => {s with telMissing := s.telMissing + 1})
        fun tel => Collect.atomic out (setTel target.id tel) >>= fun _ =>
          Collect.tally fun s => {s with telUpdated := s.telUpdated + 1} := by
  unfold backfillTel
  rw [hkey]
  cases htel : cleanTel ((intro.getD []).get key) with
  | none =>
    funext w
    simp only [bind_run, Collect.ofExcept, htel]
    rfl
  | some tel =>
    funext w
    simp only [bind_run, Collect.ofExcept, htel]
    rfl

def backfillDetails (out : Outside) (contentTypeId : Option Int) (limit : Option Nat) (dryRun refreshInfo : Bool) :
    Collect V DetailBackfillSummary Unit := do
  let d ← Collect.query out
  let targets := d.backfillTargets contentTypeId limit
  Collect.tally fun s => {s with target := targets.length}
  let d ← Collect.query out
  let hasInfo := (d.placeInfos.map (·.placeId)).filter ((targets.map (·.id)).contains ·)
  backfillLoop out dryRun refreshInfo hasInfo targets

end TravelMaker
