import Mathlib.Data.String.Basic
import TravelMaker.Place.Normalize
import TravelMaker.Place.Tagging

/-! Collection of places: `sync_all` and `sync_incremental`.

An item is stored in one transaction: the place, its images, its `PlaceInfo` and
its deterministic tags. -/
namespace TravelMaker
open Lib (Txn Decimal)

variable {V : Type}

/-! ### Statements -/

def upsertImage (image : PlaceImage) (images : List PlaceImage) : List PlaceImage :=
  if images.any fun i => i.placeId == image.placeId && i.imageUrl == image.imageUrl then
    images.map fun i => if i.placeId = image.placeId ∧ i.imageUrl = image.imageUrl then image else i
  else images ++ [image]

def upsertInfo (placeId : Int) (defaults : List InfoDefault) (infos : List PlaceInfo) : List PlaceInfo :=
  if infos.any (·.placeId == placeId) then
    infos.map fun info => if info.placeId = placeId then defaults.foldl PlaceInfo.set info else info
  else infos ++ [defaults.foldl PlaceInfo.set {placeId := placeId}]

namespace Db

def placeOf? (d : Db V) (contentId : Int) : Option Place := d.places.find? (·.contentId == contentId)

def insertPlace (place : Place) (d : Db V) : Db V := {d with places := d.places ++ [place]}

/-- `UPDATE places … WHERE id`. -/
def updatePlace (id : Int) (f : Place → Place) (d : Db V) : Db V :=
  {d with places := d.places.map fun p => if p.id = id then f p else p}

/-- Insert the image, or update the row with its url. -/
def saveImage (image : PlaceImage) (d : Db V) : Db V :=
  {d with placeImages := upsertImage image d.placeImages}

/-- Insert the row of the place, or set its fields. -/
def saveInfo (placeId : Int) (defaults : List InfoDefault) (d : Db V) : Db V :=
  {d with placeInfos := upsertInfo placeId defaults d.placeInfos}

end Db

/-! ### Storing one item -/

/-- The columns set on a row, the coordinates converted. -/
def PlaceDefaults.apply (defaults : PlaceDefaults) (latitude longitude : Option ℚ) (place : Place) : Place :=
  {place with
    placeName := defaults.placeName
    contentTypeId := defaults.contentTypeId
    latitude := latitude
    longitude := longitude
    addressPrimary := defaults.addressPrimary
    addressDetail := defaults.addressDetail
    tel := defaults.tel
    zipcode := defaults.zipcode
    lclsSystm1 := defaults.lclsSystm1
    lclsSystm2 := defaults.lclsSystm2
    lclsSystm3 := defaults.lclsSystm3
    description := defaults.description
    homepage := defaults.homepage
    sourceModifiedAt := defaults.sourceModifiedAt
    isActive := defaults.isActive }

def toColumn (column : Decimal → Except DbExc ℚ) : Option Decimal → Except Exc (Option ℚ)
  | none => .ok none
  | some x =>
    match column x with
    | .ok q => .ok (some q)
    | .error e => .error e

/-- `Place.objects.update_or_create`: the row, and whether it is new. -/
def updateOrCreatePlace (column : Decimal → Except DbExc ℚ) (contentId : Int) (defaults : PlaceDefaults) :
    Service V (Place × Bool) := do
  let d ← Txn.read
  match d.placeOf? contentId with
  | none =>
    let latitude ← Txn.lift (toColumn column defaults.latitude)
    let longitude ← Txn.lift (toColumn column defaults.longitude)
    let id ← Txn.fresh
    let place := defaults.apply latitude longitude
      {id := id, contentId := contentId, contentTypeId := defaults.contentTypeId}
    let _ ← Txn.put (.place id) (Db.insertPlace place)
    return (place, true)
  | some place =>
    let _ ← Txn.forUpdate (.place place.id)
    let latitude ← Txn.lift (toColumn column defaults.latitude)
    let longitude ← Txn.lift (toColumn column defaults.longitude)
    let _ ← Txn.put (.place place.id) (Db.updatePlace place.id (defaults.apply latitude longitude))
    return (defaults.apply latitude longitude place, false)

/-- The image and thumbnail urls to store. -/
def imageRows (imageItems : List Item) (firstimage : Option String) (firstimage2 : Scalar) :
    List (String × Option String) :=
  if imageItems ≠ [] then
    imageItems.filterMap fun item =>
      let small := blankToNone (item.get "smallimageurl")
      ((blankToNone (item.get "originimgurl")).or small).map fun imageUrl => (imageUrl, small)
  else
    match firstimage with
    | none => []
    | some firstimage => if firstimage = "" then [] else [(firstimage, blankToNone firstimage2)]

def saveImageRows (placeId : Int) : (order : Nat) → List (String × Option String) → Service V Unit
  | _, [] => return ()
  | order, (imageUrl, thumbnailUrl) :: rest => do
    let _ ← Txn.read
    let _ ← Txn.put (.placeImage placeId imageUrl) (Db.saveImage {
      placeId := placeId
      imageUrl := imageUrl
      thumbnailUrl := thumbnailUrl
      isMain := order == 0
      order := order })
    saveImageRows placeId (order + 1) rest

def saveImages (placeId : Int) (imageItems : List Item) (firstimage : Option String) (firstimage2 : Scalar) :
    Service V Nat := do
  let rows := imageRows imageItems firstimage firstimage2
  saveImageRows placeId 0 rows
  return rows.length

/-- `PlaceInfo.objects.update_or_create`. -/
def updateOrCreateInfo (placeId : Int) (defaults : List InfoDefault) : Service V Unit := do
  let _ ← Txn.read
  let _ ← Txn.put (.placeInfo placeId) (Db.saveInfo placeId defaults)

/-- What a stored item counts: a new row, images, `PlaceInfo` rows. -/
structure Saved where
  created : Bool
  imagesSaved : Nat
  infoSaved : Nat
deriving DecidableEq, Repr

/-- The transaction of `_process_list_item`. -/
def saveListItem (column : Decimal → Except DbExc ℚ) (contentTypeId contentId : Int) (listItem : Item)
    (firstimage : String) (common : Option Item) (images : List Item) (intro : Option Item) :
    Service V Saved := do
  let defaults ← Txn.lift (buildPlaceDefaults listItem common intro)
  let (place, created) ← updateOrCreatePlace column contentId defaults
  let imagesSaved ← saveImages place.id images (some firstimage) (listItem.get "firstimage2")
  let infoSaved ← match intro with
    | none => pure 0
    | some item => do
      updateOrCreateInfo place.id ((buildPlaceInfoDefaults contentTypeId item).getD [])
      pure 1
  assignDeterministicTags place.id place.addressPrimary
  return ⟨created, imagesSaved, infoSaved⟩

/-! ### Runs -/

structure SyncSummary where
  fetched : Nat := 0
  skippedNoImage : Nat := 0
  skippedExisting : Nat := 0
  created : Nat := 0
  updated : Nat := 0
  imagesSaved : Nat := 0
  infoSaved : Nat := 0
  deactivated : Nat := 0
  skippedUnchanged : Nat := 0
  skippedDetailFailed : Nat := 0
  skippedSaveFailed : Nat := 0
deriving DecidableEq, Repr

def SyncSummary.add (s other : SyncSummary) : SyncSummary where
  fetched := s.fetched + other.fetched
  skippedNoImage := s.skippedNoImage + other.skippedNoImage
  skippedExisting := s.skippedExisting + other.skippedExisting
  created := s.created + other.created
  updated := s.updated + other.updated
  imagesSaved := s.imagesSaved + other.imagesSaved
  infoSaved := s.infoSaved + other.infoSaved
  deactivated := s.deactivated + other.deactivated
  skippedUnchanged := s.skippedUnchanged + other.skippedUnchanged
  skippedDetailFailed := s.skippedDetailFailed + other.skippedDetailFailed
  skippedSaveFailed := s.skippedSaveFailed + other.skippedSaveFailed

def SyncSummary.addSaved (s : SyncSummary) (saved : Saved) : SyncSummary :=
  {s with
    created := s.created + if saved.created then 1 else 0
    updated := s.updated + if saved.created then 0 else 1
    imagesSaved := s.imagesSaved + saved.imagesSaved
    infoSaved := s.infoSaved + saved.infoSaved }

/-- A part of a run with a summary of its own, added to the total when it is done. -/
def withSummary (x : Collect V SyncSummary Unit) : Collect V SyncSummary Unit := fun w =>
  match x {w with summary := {}} with
  | (.ok (), w') => (.ok (), {w' with summary := w.summary.add w'.summary})
  | (.error e, w') => (.error e, {w' with summary := w.summary})

section
variable (out : Outside)

/-- The detail calls of an item: common, images, and intro for the types with a field table. -/
def detailsOf {S : Type} (contentId contentTypeId : Int) :
    Collect V S (Option Item × List Item × Option Item) := do
  let common ← Collect.detailCommon out contentId
  let images ← Collect.detailImage out contentId
  let intro ← if (placeInfoFieldMap contentTypeId).isSome then Collect.detailIntro out contentId contentTypeId
    else pure none
  return (common, images, intro)

def processListItem (contentTypeId : Int) (listItem : Item) (dryRun : Bool) (skipExisting : Bool := false)
    (existingIds : Option (List Int) := none) : Collect V SyncSummary Unit := do
  Collect.tally fun s => {s with fetched := s.fetched + 1}
  match blankToNone (listItem.get "firstimage") with
  | none => Collect.tally fun s => {s with skippedNoImage := s.skippedNoImage + 1}
  | some firstimage =>
    let contentId ← Collect.ofExcept (listItem.intAt "contentid")
    if skipExisting && existingIds.any (·.contains contentId) then
      Collect.tally fun s => {s with skippedExisting := s.skippedExisting + 1}
    else if dryRun then pure ()
    else
      match ← Collect.attempt (detailsOf out contentId contentTypeId) with
      | .error .tourApiError =>
        Collect.tally fun s => {s with skippedDetailFailed := s.skippedDetailFailed + 1}
      | .error e => Collect.raise e
      | .ok (common, images, intro) =>
        match ← Collect.attempt (Collect.atomic out
          (saveListItem out.column contentTypeId contentId listItem firstimage common images intro)) with
        | .error e =>
          if e.isDatabaseError then
            Collect.tally fun s => {s with skippedSaveFailed := s.skippedSaveFailed + 1}
          else Collect.raise e
        | .ok saved => Collect.tally (·.addSaved saved)

/-- The pages of a listing, until an empty page, a short one or `maxPages`. The fuel
covers the pages of a finite listing. -/
def forPages {S : Type} (numOfRows : Nat) (maxPages : Option Nat) (fetch : Nat → Collect V S (List Item))
    (body : Item → Collect V S Unit) : (fuel page : Nat) → Collect V S Unit
  | 0, _ => pure ()
  | fuel + 1, page =>
    if maxPages.any (· < page) then pure ()
    else do
      let listItems ← fetch page
      if listItems = [] then pure ()
      else
        Collect.forEach body listItems
        if listItems.length < numOfRows then pure ()
        else forPages numOfRows maxPages fetch body fuel (page + 1)

/-- A failed list call ends its type; exhausted keys end the run. -/
def safeList {S : Type} (x : Collect V S (List Item)) : Collect V S (List Item) := do
  match ← Collect.attempt x with
  | .ok items => return items
  | .error .tourApiError => return []
  | .error e => Collect.raise e

def safeAreaBasedList {S : Type} (contentTypeId : Int) (numOfRows pageNo : Nat) (arrange : Option String) :
    Collect V S (List Item) :=
  safeList (Collect.areaBasedList out contentTypeId none numOfRows pageNo arrange)

def safeAreaBasedSyncList {S : Type} (contentTypeId : Int) (numOfRows pageNo : Nat) :
    Collect V S (List Item) :=
  safeList (Collect.areaBasedSyncList out contentTypeId numOfRows pageNo)

/-- The content ids stored under a type. -/
def Db.contentIds (d : Db V) (contentTypeId : Int) : List Int :=
  (d.places.filter (·.contentTypeId == contentTypeId)).map (·.contentId)

def syncAll (contentTypeIds : List Int) (numOfRows : Nat) (maxPages : Option Nat) (skipExisting dryRun : Bool)
    (arrange : Option String) : Collect V SyncSummary Unit :=
  contentTypeIds |> Collect.forEach fun contentTypeId => do
    let existingIds ← if skipExisting then do
        let d ← Collect.query out
        pure (some (d.contentIds contentTypeId))
      else pure none
    withSummary (forPages numOfRows maxPages
      (fun page => safeAreaBasedList out contentTypeId numOfRows page arrange)
      (fun listItem => processListItem out contentTypeId listItem dryRun skipExisting existingIds)
      (out.lastPage + 1) 1)

/-- `{content_id: source_modified_at}` of the places stored under a type. -/
abbrev Existing := List (Int × Option String)

def Db.existing (d : Db V) (contentTypeId : Int) : Existing :=
  (d.places.filter (·.contentTypeId == contentTypeId)).map fun p => (p.contentId, p.sourceModifiedAt)

def Place.deactivate (place : Place) : Place := {place with isActive := false}

/-- `Place.objects.filter(content_id=…).update(is_active=False)`. -/
def deactivatePlace (contentId : Int) : Service V Unit := do
  let d ← Txn.read
  match d.placeOf? contentId with
  | none => return ()
  | some place =>
    let _ ← Txn.put (.place place.id) (Db.updatePlace place.id Place.deactivate)

/-- The stored time is missing or older than the new one. -/
def changed (newMtime stored : Option String) : Bool :=
  match newMtime, stored with
  | none, _ => false
  | some _, none => true
  | some new, some stored => decide (stored < new)

def processSyncItem (contentTypeId : Int) (existing : Existing) (dryRun : Bool) (listItem : Item) :
    Collect V SyncSummary Unit := do
  let contentId ← Collect.ofExcept (listItem.intAt "contentid")
  if blankToNone (listItem.get "showflag") = some "0" then
    if (existing.lookup contentId).isSome then
      if !dryRun then Collect.atomic out (deactivatePlace contentId)
      Collect.tally fun s => {s with deactivated := s.deactivated + 1}
  else
    match existing.lookup contentId with
    | none => processListItem out contentTypeId listItem dryRun
    | some stored =>
      if changed (blankToNone (listItem.get "modifiedtime")) stored then
        processListItem out contentTypeId listItem dryRun
      else Collect.tally fun s => {s with skippedUnchanged := s.skippedUnchanged + 1}

def syncIncremental (contentTypeIds : List Int) (numOfRows : Nat) (maxPages : Option Nat) (dryRun : Bool) :
    Collect V SyncSummary Unit :=
  contentTypeIds |> Collect.forEach fun contentTypeId => do
    let d ← Collect.query out
    withSummary (forPages numOfRows maxPages
      (fun page => safeAreaBasedSyncList out contentTypeId numOfRows page)
      (processSyncItem out contentTypeId (d.existing contentTypeId) dryRun)
      (out.lastPage + 1) 1)

end
end TravelMaker
