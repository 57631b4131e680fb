import TravelMaker.Lib.History
import TravelMaker.Place.Images
import TravelMaker.Review.Service

/-! Places in the hands of administrators: `admin_place_service`.

An update writes the place, its tags and its images in one transaction; a deletion goes through
every table that refers to places. `Board` is what that is for: a card for each place, and nothing
said about places that have none. `admin_refines`: over any history the tables answer as the board
does, show its cards, and have lost exactly the rows of the places that were deleted. -/
namespace TravelMaker
open Lib (Txn)
open Lib.Txn (Base)
open Lib.History (answers)

variable {V : Type}

/-! ### Serializers -/

/-- What `AdminPlaceUpdateSerializer` lets through. A list that is not sent is empty. -/
structure AdminPlaceUpdateData where
  placeName : String
  /-- `none` if it is not sent. -/
  description : Option (Option String) := none
  latitude : ℚ
  longitude : ℚ
  tagIds : List Int := []
  imageUrls : List String := []
  placeName_length : 1 ≤ placeName.length ∧ placeName.length ≤ 100

/-- What `AdminPlaceCreateSerializer` lets through. -/
structure AdminPlaceCreateData extends AdminPlaceUpdateData where
  contentId : Option Int := none

/-! ### Rows -/

namespace Db

def deleteImages (placeId : Int) (d : Db V) : Db V := {d with placeImages := d.placeImages.filter (·.placeId != placeId)}

def insertImage (image : PlaceImage) (d : Db V) : Db V := {d with placeImages := d.placeImages ++ [image]}

/-- `place.delete()`: everything that refers to the place goes with it. -/
def deletePlace (placeId : Int) (d : Db V) : Db V :=
  {d with
    places := d.places.filter (·.id != placeId)
    placeTags := d.placeTags.filter (·.1 != placeId)
    placeImages := d.placeImages.filter (·.placeId != placeId)
    placeInfos := d.placeInfos.filter (·.placeId != placeId)
    placeFeatures := d.placeFeatures.filter (·.placeId != placeId)
    routes := d.routes.map fun route => {route with
      days := route.days.map fun day => {day with dayPlaces := day.dayPlaces.filter (·.placeId != placeId)}}
    reviews := d.reviews.filter (·.placeId != placeId)
    bookmarks := d.bookmarks.filter (·.placeId != placeId)
    actionLogs := d.actionLogs.filter (·.placeId != placeId)}

end Db

/-! ### Services -/

def adminPlaceNotFound : Exc := .api 404 "존재하지 않는 장소입니다."

/-- `place.tags.set(Tag.objects.filter(id__in=…))`. -/
def setPlaceTags (placeId : Int) (tagIds : List Int) : Service V Unit := do
  let d ← Txn.read
  let chosen := d.tagIdsIn tagIds
  let d ← Txn.read
  let old := (d.placeTags.filter (·.1 == placeId)).map (·.2)
  let _ ← Txn.put (.placeTags placeId) (Db.removePlaceTags placeId (old.filter fun tagId => !chosen.contains tagId))
  let _ ← Txn.put (.placeTags placeId) (Db.addPlaceTags placeId chosen)

/-- `max_length` of `image_url`, and the largest value of the column `order`. -/
def imageUrlMaxLength : Nat := 500
def imageOrderMax : Nat := 32767

def adminImage (placeId : Int) (order : Nat) (imageUrl : String) : PlaceImage where
  placeId := placeId
  imageUrl := imageUrl
  isMain := order == 0
  order := order

/-- The loop over the urls; a row must fit its columns, and its url must be new for the place. -/
def createImages (placeId : Int) : (order : Nat) → List String → Service V Unit
  | _, [] => return ()
  | order, imageUrl :: rest => do
    let d ← Txn.put (.placeImage placeId imageUrl) (Db.insertImage (adminImage placeId order imageUrl))
    Txn.orRaise (imageUrl.length ≤ imageUrlMaxLength ∧ order ≤ imageOrderMax) .databaseError
    Txn.orRaise (d.placeImages.all fun image => !(image.placeId == placeId && image.imageUrl == imageUrl)) .integrityError
    createImages placeId (order + 1) rest

/-- The numbers of the column `content_id`. -/
def ContentIdFits (contentId : Int) : Prop := -2147483648 ≤ contentId ∧ contentId ≤ 2147483647

instance : DecidablePred ContentIdFits := fun _ => inferInstanceAs (Decidable (_ ∧ _))

/-- `Place.objects.create(**data)`. Neither `content_id` nor `content_type_id` may be null. -/
def createPlaceRow (data : AdminPlaceCreateData) (contentTypeId : Option Int) : Service V Place := do
  Txn.orRaise (∀ contentId ∈ data.contentId, ContentIdFits contentId) .databaseError
  let id ← Txn.fresh
  match data.contentId, contentTypeId with
  | some contentId, some contentTypeId =>
    let place : Place := {
      id := id
      contentId := contentId
      contentTypeId := contentTypeId
      placeName := data.placeName
      latitude := some data.latitude
      longitude := some data.longitude
      description := data.description.join }
    let d ← Txn.put (.place id) (Db.insertPlace place)
    Txn.orRaise (d.places.all (·.contentId != contentId)) .integrityError
    return place
  | _, _ => Txn.raise .integrityError

/-- The data have no content type. -/
def adminCreatePlace (data : AdminPlaceCreateData) : Service V Place := do
  let place ← createPlaceRow data none
  if data.tagIds ≠ [] then setPlaceTags place.id data.tagIds
  createImages place.id 0 data.imageUrls
  return place

/-- The instance after `setattr` of the fields that were sent. -/
def AdminPlaceUpdateData.assign (data : AdminPlaceUpdateData) (place : Place) : Place :=
  {place with
    placeName := data.placeName
    description := data.description.getD place.description
    latitude := some data.latitude
    longitude := some data.longitude}

def adminUpdatePlace (placeId : Int) (data : AdminPlaceUpdateData) : Service V Place := do
  let d ← Txn.read
  match d.place? placeId with
  | none => Txn.raise adminPlaceNotFound
  | some place =>
    let place := data.assign place
    let _ ← Txn.put (.place placeId) (Db.updatePlace placeId fun _ => place)
    setPlaceTags placeId data.tagIds
    let _ ← Txn.put (.place placeId) (Db.deleteImages placeId)
    createImages placeId 0 data.imageUrls
    return place

/-- `delete` is atomic by itself. -/
def adminDeletePlace (placeId : Int) : Service V Unit := do
  let d ← Txn.read
  match d.place? placeId with
  | none => Txn.raise adminPlaceNotFound
  | some _ =>
    let _ ← Txn.put (.place placeId) (Db.deletePlace placeId)
    return ()

/-! ### Views -/

inductive AdminPlaceCall where
  | create (data : AdminPlaceCreateData)
  | update (placeId : Int) (data : AdminPlaceUpdateData)
  | delete (placeId : Int)

inductive AdminPlaceAnswer where
  | created (id : Int) (placeName : String)
  | updated (id : Int) (placeName : String)
  | deleted (message : String)
deriving DecidableEq, Repr

def placeDeleted : AdminPlaceAnswer := .deleted "장소가 삭제되었습니다."

def serveAdminPlace (b : Base (Db V)) : AdminPlaceCall → Except Exc AdminPlaceAnswer × Base (Db V)
  | .create data =>
    let (result, b') := (adminCreatePlace data).perform b
    (result.map fun place => .created place.id place.placeName, b')
  | .update placeId data =>
    let (result, b') := (adminUpdatePlace placeId data).perform b
    (result.map fun place => .updated place.id place.placeName, b')
  | .delete placeId =>
    let (result, b') := (adminDeletePlace placeId).perform b
    (result.map fun _ => placeDeleted, b')

/-! ### The board -/

/-- A place with its tags and its images. -/
structure PlaceCard where
  place : Place
  tagIds : Finset Int
  images : List PlaceImage
deriving DecidableEq

abbrev Board := Int → Option PlaceCard

/-- Why the urls are no images of a place: the first that does not fit, or comes again. -/
def imagesRefusal : (seen : List String) → List String → Option Exc
  | _, [] => none
  | seen, imageUrl :: rest =>
    if imageUrlMaxLength < imageUrl.length ∨ imageOrderMax < seen.length then some .databaseError
    else if imageUrl ∈ seen then some .integrityError
    else imagesRefusal (seen ++ [imageUrl]) rest

/-- The urls are stored if they are short enough, all different and not too many. -/
theorem imagesRefusal_eq_none {seen imageUrls : List String} : imagesRefusal seen imageUrls = none ↔
    (∀ url ∈ imageUrls, url.length ≤ imageUrlMaxLength ∧ url ∉ seen) ∧ imageUrls.Nodup ∧
      (imageUrls = [] ∨ seen.length + imageUrls.length ≤ imageOrderMax + 1) := by
  induction imageUrls generalizing seen with
  | nil => simp [imagesRefusal]
  | cons imageUrl rest ih =>
    rw [imagesRefusal]
    by_cases hfits : imageUrlMaxLength < imageUrl.length ∨ imageOrderMax < seen.length
    · rw [if_pos hfits]
      refine iff_of_false (nomatch ·) fun ⟨hall, _, hcount⟩ => ?_
      have hlength := (hall imageUrl List.mem_cons_self).1
      simp only [reduceCtorEq, List.length_cons, false_or] at hcount
      omega
    · rw [if_neg hfits]
      by_cases hmem : imageUrl ∈ seen
      · rw [if_pos hmem]
        exact iff_of_false (nomatch ·) fun ⟨hall, _, _⟩ => (hall imageUrl List.mem_cons_self).2 hmem
      · rw [if_neg hmem, ih, List.forall_mem_cons, List.nodup_cons]
        have hlater : (∀ url ∈ rest, url.length ≤ imageUrlMaxLength ∧ url ∉ seen ++ [imageUrl]) ↔
            imageUrl ∉ rest ∧ ∀ url ∈ rest, url.length ≤ imageUrlMaxLength ∧ url ∉ seen := by
          constructor
          · intro h
            exact ⟨fun hrest => (h imageUrl hrest).2 (by simp), fun url hurl => ⟨(h url hurl).1, fun hseen => (h url hurl).2 (by simp [hseen])⟩⟩
          · rintro ⟨hrest, h⟩ url hurl
            refine ⟨(h url hurl).1, fun hseen => ?_⟩
            rcases List.mem_append.mp hseen with hseen | hlast
            · exact (h url hurl).2 hseen
            · exact hrest (List.mem_singleton.mp hlast ▸ hurl)
        have hcount : (rest = [] ∨ (seen ++ [imageUrl]).length + rest.length ≤ imageOrderMax + 1) ↔
            seen.length + (imageUrl :: rest).length ≤ imageOrderMax + 1 := by
          rw [List.length_append, List.length_singleton, List.length_cons]
          constructor
          · rintro (rfl | h)
            · rw [List.length_nil]
              omega
            · omega
          · exact fun h => .inr (by omega)
        have hurl : imageUrl.length ≤ imageUrlMaxLength := by omega
        simp only [hlater, hcount, hurl, hmem, reduceCtorEq, not_false_eq_true, true_and, false_or, and_true]
        tauto

/-- The images in their order, the first as the main one. -/
def imagesFrom (placeId : Int) (imageUrls : List String) : List PlaceImage :=
  imageUrls.mapIdx (adminImage placeId)

/-- Why no place is created: there is no content type. -/
def AdminPlaceCreateData.refusal (data : AdminPlaceCreateData) : Exc :=
  if ∀ contentId ∈ data.contentId, ContentIdFits contentId then .integrityError else .databaseError

/-- A request on the board; `tagsIn` are the tags that there are among some ids. -/
def Board.serve (tagsIn : List Int → Finset Int) (board : Board) : AdminPlaceCall → Except Exc AdminPlaceAnswer × Board
  | .create data => (.error data.refusal, board)
  | .update placeId data =>
    match board placeId with
    | none => (.error adminPlaceNotFound, board)
    | some card =>
      match imagesRefusal [] data.imageUrls with
      | some e => (.error e, board)
      | none =>
        (.ok (.updated placeId data.placeName), Function.update board placeId
          (some ⟨data.assign card.place, tagsIn data.tagIds, imagesFrom placeId data.imageUrls⟩))
  | .delete placeId =>
    if (board placeId).isSome then (.ok placeDeleted, Function.update board placeId none) else (.error adminPlaceNotFound, board)

/-! ### Tables and board -/

namespace Db

def placeTagIds (d : Db V) (placeId : Int) : Finset Int := ((d.placeTags.filter (·.1 == placeId)).map (·.2)).toFinset

def placeCard? (d : Db V) (placeId : Int) : Option PlaceCard :=
  (d.place? placeId).map fun place => ⟨place, d.placeTagIds placeId, d.imagesOf placeId⟩

/-- The tables without the rows about other places. -/
def onlyPlaces (kept : Int → Bool) (d : Db V) : Db V :=
  {d with
    placeInfos := d.placeInfos.filter fun info => kept info.placeId
    placeFeatures := d.placeFeatures.filter fun feature => kept feature.placeId
    routes := d.routes.map fun route => {route with
      days := route.days.map fun day => {day with dayPlaces := day.dayPlaces.filter fun dayPlace => kept dayPlace.placeId}}
    reviews := d.reviews.filter fun review => kept review.placeId
    bookmarks := d.bookmarks.filter fun bookmark => kept bookmark.placeId
    actionLogs := d.actionLogs.filter fun log => kept log.placeId}

/-- The tables that are not on the board. -/
def besidesPlaces (d : Db V) : Db V := {d with places := [], placeTags := [], placeImages := []}

end Db

/-- The tables `d` show the cards of the board, and have of the others in `d₀` the rows about places on it. -/
structure Posted (d₀ : Db V) (board : Board) (d : Db V) : Prop where
  ids : (d.places.map (·.id)).Nodup
  cards : d.placeCard? = board
  /-- No tag or image is without its place. -/
  tags : ∀ row ∈ d.placeTags, (board row.1).isSome
  images : ∀ image ∈ d.placeImages, (board image.placeId).isSome
  rest : d.besidesPlaces = (d₀.onlyPlaces fun id => (board id).isSome).besidesPlaces

/-! ### What a call leaves -/

/-- The tables after `setPlaceTags`. -/
def Db.retagged (placeId : Int) (tagIds : List Int) (d : Db V) : Db V :=
  (d.removePlaceTags placeId (((d.placeTags.filter (·.1 == placeId)).map (·.2)).filter fun tagId =>
    !(d.tagIdsIn tagIds).contains tagId)).addPlaceTags placeId (d.tagIdsIn tagIds)

theorem setPlaceTags_eval (placeId : Int) (tagIds : List Int) (d : Db V) (n : Nat) :
    (setPlaceTags placeId tagIds).eval d n = .ok ((), d.retagged placeId tagIds, n) := rfl

theorem mem_retagged {placeId other tagId : Int} {tagIds : List Int} {d : Db V} :
    (other, tagId) ∈ (d.retagged placeId tagIds).placeTags ↔
      if other = placeId then tagId ∈ d.tagIdsIn tagIds else (other, tagId) ∈ d.placeTags := by
  rw [Db.retagged, Db.mem_addPlaceTags, Db.mem_removePlaceTags]
  by_cases hother : other = placeId
  · subst hother
    simp only [true_and, if_true, List.mem_filter, List.mem_map, Bool.not_eq_true', List.contains_eq_mem, decide_eq_false_iff_not]
    constructor
    · rintro (⟨hmem, hnot⟩ | hmem)
      · by_contra hno
        exact hnot ⟨⟨(other, tagId), ⟨hmem, beq_self_eq_true _⟩, rfl⟩, hno⟩
      · exact hmem
    · exact .inr
  · simp [hother]

theorem mem_placeTagIds {d : Db V} {placeId tagId : Int} : tagId ∈ d.placeTagIds placeId ↔ (placeId, tagId) ∈ d.placeTags := by
  simp [Db.placeTagIds]

theorem placeTagIds_retagged (placeId other : Int) (tagIds : List Int) (d : Db V) :
    (d.retagged placeId tagIds).placeTagIds other =
      if other = placeId then (d.tagIdsIn tagIds).toFinset else d.placeTagIds other := by
  ext tagId
  rw [mem_placeTagIds, mem_retagged]
  split <;> simp [mem_placeTagIds]

/-- The images of the urls that are left, numbered from `order`. -/
def imagesOnward (placeId : Int) (order : Nat) (imageUrls : List String) : List PlaceImage :=
  imageUrls.mapIdx fun i imageUrl => adminImage placeId (order + i) imageUrl

theorem createImages_eval (placeId : Int) (imageUrls seen : List String) (d : Db V) (n : Nat)
    (hseen : ∀ url, (d.placeImages.any fun image => image.placeId == placeId && image.imageUrl == url) = seen.contains url) :
    (createImages placeId seen.length imageUrls).eval d n =
      match imagesRefusal seen imageUrls with
      | some e => .error e
      | none => .ok ((), {d with placeImages := d.placeImages ++ imagesOnward placeId seen.length imageUrls}, n) := by
  induction imageUrls generalizing seen d with
  | nil => simp [createImages, imagesRefusal, imagesOnward, Txn.eval]
  | cons imageUrl rest ih =>
    have hnew : d.placeImages.all (fun image => !(image.placeId == placeId && image.imageUrl == imageUrl)) =
        !seen.contains imageUrl := by
      rw [← hseen, List.not_any_eq_all_not]
    have hnext : ∀ url, ((d.insertImage (adminImage placeId seen.length imageUrl)).placeImages.any fun image =>
        image.placeId == placeId && image.imageUrl == url) = (seen ++ [imageUrl]).contains url := by
      intro url
      rw [Db.insertImage, List.any_append, hseen, List.contains_append]
      simp [adminImage, eq_comm, Bool.beq_eq_decide_eq]
    have hrow := ih (seen ++ [imageUrl]) _ hnext
    rw [List.length_append, List.length_singleton] at hrow
    simp only [createImages, Txn.put_bind, Txn.eval, Txn.orRaise_bind, hnew, imagesRefusal]
    by_cases hfits : imageUrl.length ≤ imageUrlMaxLength ∧ seen.length ≤ imageOrderMax
    · have hfit : ¬ (imageUrlMaxLength < imageUrl.length ∨ imageOrderMax < seen.length) := by omega
      rw [if_pos hfits, if_neg hfit]
      by_cases hmem : imageUrl ∈ seen
      · have hcontains : (!seen.contains imageUrl) = false := by simp [hmem]
        rw [hcontains, if_neg Bool.false_ne_true, if_pos hmem]
        rfl
      · have hcontains : (!seen.contains imageUrl) = true := by simp [hmem]
        rw [hcontains, if_pos rfl, if_neg hmem, hrow]
        cases imagesRefusal (seen ++ [imageUrl]) rest with
        | some e => rfl
        | none => simp [Db.insertImage, imagesOnward, List.mapIdx_cons, Nat.add_assoc, Nat.add_comm 1]
    · have hfit : imageUrlMaxLength < imageUrl.length ∨ imageOrderMax < seen.length := by omega
      rw [if_neg hfits, if_pos hfit]
      rfl

theorem atomic_createImages (placeId : Int) (order : Nat) (imageUrls : List String) :
    (createImages (V := V) placeId order imageUrls).Atomic := by
  induction imageUrls generalizing order with
  | nil => trivial
  | cons imageUrl rest ih =>
    intro d
    refine (Txn.atomic_orRaise _ _).bind fun _ => (Txn.atomic_orRaise _ _).bind fun _ => ih (order + 1)

theorem atomic_adminUpdatePlace (placeId : Int) (data : AdminPlaceUpdateData) : (adminUpdatePlace (V := V) placeId data).Atomic := by
  simp only [adminUpdatePlace, Txn.read_bind, Txn.put_bind]
  intro d
  dsimp only
  split
  · trivial
  · exact fun _ _ _ _ _ _ => (atomic_createImages placeId 0 data.imageUrls).bind fun _ => trivial

/-- The tables after an update that is not refused. -/
def Db.reposted (placeId : Int) (data : AdminPlaceUpdateData) (place : Place) (d : Db V) : Db V :=
  let d' := ((d.updatePlace placeId fun _ => data.assign place).retagged placeId data.tagIds).deleteImages placeId
  {d' with placeImages := d'.placeImages ++ imagesFrom placeId data.imageUrls}

theorem adminUpdatePlace_perform (placeId : Int) (data : AdminPlaceUpdateData) (b : Base (Db V)) :
    match b.db.place? placeId with
    | none => (adminUpdatePlace placeId data).perform b = (.error adminPlaceNotFound, b)
    | some place =>
      match imagesRefusal [] data.imageUrls with
      | some e => ∃ m, (adminUpdatePlace placeId data).perform b = (.error e, ⟨b.db, m⟩)
      | none => (adminUpdatePlace placeId data).perform b = (.ok (data.assign place), ⟨b.db.reposted placeId data place, b.seq⟩) := by
  cases hp : b.db.place? placeId with
  | none => simp [adminUpdatePlace, Txn.perform, Txn.run, hp]
  | some place =>
    have heval : (adminUpdatePlace placeId data).eval b.db b.seq =
        match imagesRefusal [] data.imageUrls with
        | some e => .error e
        | none => .ok (data.assign place, b.db.reposted placeId data place, b.seq) := by
      have hnone : ∀ url, ((((b.db.updatePlace placeId fun _ => data.assign place).retagged placeId data.tagIds).deleteImages
          placeId).placeImages.any fun image => image.placeId == placeId && image.imageUrl == url) = ([] : List String).contains url := by
        intro url
        simp only [Db.deleteImages, List.any_filter, List.contains_nil, List.any_eq_false]
        intro image _ h
        simp only [Bool.and_eq_true, bne_iff_ne, beq_iff_eq] at h
        exact h.1 h.2.1
      have himages := createImages_eval placeId data.imageUrls [] _ b.seq hnone
      rw [List.length_nil] at himages
      simp only [adminUpdatePlace, Txn.read_bind, Txn.put_bind, Txn.eval, hp, Txn.eval_bind_ok (setPlaceTags_eval ..)]
      cases hrefusal : imagesRefusal [] data.imageUrls with
      | some e =>
        rw [hrefusal] at himages
        exact Txn.eval_bind_error himages _
      | none =>
        rw [hrefusal] at himages
        rw [Txn.eval_bind_ok himages]
        simp [Txn.eval, Db.reposted, imagesOnward, imagesFrom]
    cases hrefusal : imagesRefusal [] data.imageUrls with
    | some e =>
      rw [hrefusal] at heval
      obtain ⟨m, -, hm⟩ := (atomic_adminUpdatePlace placeId data).perform_error heval
      exact ⟨m, hm⟩
    | none =>
      rw [hrefusal] at heval
      exact (atomic_adminUpdatePlace placeId data).perform_ok heval

theorem adminDeletePlace_perform (placeId : Int) (b : Base (Db V)) :
    (adminDeletePlace placeId).perform b =
      match b.db.place? placeId with
      | none => (.error adminPlaceNotFound, b)
      | some _ => (.ok (), ⟨b.db.deletePlace placeId, b.seq⟩) := by
  cases hp : b.db.place? placeId with
  | none => simp [adminDeletePlace, Txn.perform, Txn.run, hp]
  | some place => simp [adminDeletePlace, Txn.perform, Txn.run, hp]

/-- No place is made without a content type. -/
theorem adminCreatePlace_perform (data : AdminPlaceCreateData) (b : Base (Db V)) :
    ∃ m, (adminCreatePlace data).perform b = (.error data.refusal, ⟨b.db, m⟩) := by
  by_cases hfits : ∀ contentId ∈ data.contentId, ContentIdFits contentId
  · refine ⟨b.seq + 1, ?_⟩
    rw [AdminPlaceCreateData.refusal, if_pos hfits]
    cases hid : data.contentId with
    | none => simp [adminCreatePlace, createPlaceRow, Txn.perform, Txn.run, Txn.orRaise, hid]
    | some contentId =>
      have hfit : ContentIdFits contentId := hfits contentId hid
      simp [adminCreatePlace, createPlaceRow, Txn.perform, Txn.run, Txn.orRaise, hid, hfit]
  · refine ⟨b.seq, ?_⟩
    rw [AdminPlaceCreateData.refusal, if_neg hfits]
    simp only [adminCreatePlace, createPlaceRow, Txn.orRaise, if_neg hfits]
    simp [Txn.perform, Txn.run]

/-! ### One call -/

section
variable {d₀ d : Db V} {board : Board}

theorem Posted.card (h : Posted d₀ board d) (id : Int) : board id = d.placeCard? id := by rw [h.cards]

theorem Posted.place? (h : Posted d₀ board d) (id : Int) : d.place? id = (board id).map (·.place) := by
  rw [h.card, Db.placeCard?, Option.map_map]
  exact (Option.map_id' ..).symm

theorem place?_replaced {place : Place} {placeId : Int} (hid : place.id = placeId) (other : Int) :
    (d.updatePlace placeId fun _ => place).place? other =
      if other = placeId then (d.place? placeId).map fun _ => place else d.place? other := by
  have hsame : ((·.id == other) ∘ fun p : Place => if p.id = placeId then place else p) = (·.id == other) := by
    funext p
    simp only [Function.comp_apply]
    split
    · rename_i hp
      rw [hid, hp]
    · rfl
  rw [Db.place?, Db.updatePlace, List.find?_map, hsame]
  by_cases hother : other = placeId
  · rw [if_pos hother, hother]
    cases hfind : d.places.find? (·.id == placeId) with
    | none => simp [Db.place?, hfind]
    | some p =>
      have hp : p.id = placeId := by simpa using List.find?_some hfind
      simp [Db.place?, hfind, hp]
  · rw [if_neg hother]
    cases hfind : d.places.find? (·.id == other) with
    | none => simp [Db.place?, hfind]
    | some p =>
      have hp : p.id = other := by simpa using List.find?_some hfind
      simp [Db.place?, hfind, hp, hother]

theorem imagesOf_reposted (placeId other : Int) (data : AdminPlaceUpdateData) (place : Place) :
    (d.reposted placeId data place).imagesOf other =
      if other = placeId then imagesFrom placeId data.imageUrls else d.imagesOf other := by
  have hnew : ∀ image ∈ imagesFrom placeId data.imageUrls, image.placeId = placeId := by
    intro image himage
    obtain ⟨i, _, rfl⟩ := List.mem_mapIdx.mp himage
    rfl
  show (d.placeImages.filter (·.placeId != placeId) ++ imagesFrom placeId data.imageUrls).filter (·.placeId == other) = _
  rw [List.filter_append, List.filter_filter]
  by_cases hother : other = placeId
  · rw [if_pos hother, hother]
    have hold : (d.placeImages.filter fun image => image.placeId == placeId && image.placeId != placeId) = [] :=
      List.filter_eq_nil_iff.mpr fun image _ h => by simp at h
    rw [hold, List.nil_append, List.filter_eq_self]
    exact fun image himage => beq_iff_eq.mpr (hnew image himage)
  · rw [if_neg hother]
    have hnone : (imagesFrom placeId data.imageUrls).filter (·.placeId == other) = [] :=
      List.filter_eq_nil_iff.mpr fun image himage h => hother ((beq_iff_eq.mp h).symm.trans (hnew image himage))
    rw [hnone, List.append_nil]
    refine List.filter_congr fun image _ => ?_
    by_cases himage : image.placeId = other <;> simp [himage, hother]

theorem Posted.update (h : Posted d₀ board d) {placeId : Int} {card : PlaceCard} (hcard : board placeId = some card)
    (data : AdminPlaceUpdateData) :
    Posted d₀ (Function.update board placeId (some ⟨data.assign card.place, (d.tagIdsIn data.tagIds).toFinset,
      imagesFrom placeId data.imageUrls⟩)) (d.reposted placeId data card.place) := by
  have hplace : d.place? placeId = some card.place := by rw [h.place?, hcard]; rfl
  have hid : (data.assign card.place).id = placeId := (Db.place?_some hplace).2
  have hkept : ∀ id, ((Function.update board placeId (some (⟨data.assign card.place, (d.tagIdsIn data.tagIds).toFinset,
      imagesFrom placeId data.imageUrls⟩ : PlaceCard))) id).isSome = (board id).isSome := by
    intro id
    by_cases hother : id = placeId
    · rw [hother, Function.update_self, hcard]
      rfl
    · rw [Function.update_of_ne hother]
  constructor
  · have hids : (d.reposted placeId data card.place).places.map (·.id) = d.places.map (·.id) := by
      show (d.places.map fun p => if p.id = placeId then data.assign card.place else p).map (·.id) = _
      rw [List.map_map]
      refine List.map_congr_left fun p _ => ?_
      simp only [Function.comp_apply]
      split
      · rename_i hp
        rw [hid, hp]
      · rfl
    rw [hids]
    exact h.ids
  · funext id
    have hcards : (d.reposted placeId data card.place).placeCard? id =
        ((d.updatePlace placeId fun _ => data.assign card.place).place? id).map fun place =>
          ⟨place, ((d.updatePlace placeId fun _ => data.assign card.place).retagged placeId data.tagIds).placeTagIds id,
            (d.reposted placeId data card.place).imagesOf id⟩ := rfl
    rw [hcards, place?_replaced hid, placeTagIds_retagged, imagesOf_reposted]
    by_cases hother : id = placeId
    · subst hother
      rw [if_pos rfl, if_pos rfl, if_pos rfl, Function.update_self, hplace]
      rfl
    · rw [if_neg hother, if_neg hother, if_neg hother, Function.update_of_ne hother, h.card]
      rfl
  · intro row hrow
    rw [hkept]
    obtain ⟨other, tagId⟩ := row
    have hrow : (other, tagId) ∈ ((d.updatePlace placeId fun _ => data.assign card.place).retagged placeId data.tagIds).placeTags := hrow
    rw [mem_retagged] at hrow
    by_cases hother : other = placeId
    · rw [hother, hcard]
      rfl
    · rw [if_neg hother] at hrow
      exact h.tags (other, tagId) hrow
  · intro image himage
    rw [hkept]
    rcases List.mem_append.mp himage with hold | hnew
    · exact h.images image (List.mem_filter.mp hold).1
    · obtain ⟨i, _, rfl⟩ := List.mem_mapIdx.mp hnew
      show (board placeId).isSome
      rw [hcard]
      rfl
  · have hsame : (fun id => ((Function.update board placeId (some (⟨data.assign card.place, (d.tagIdsIn data.tagIds).toFinset,
        imagesFrom placeId data.imageUrls⟩ : PlaceCard))) id).isSome) = fun id => (board id).isSome := funext hkept
    rw [hsame]
    exact h.rest

theorem onlyPlaces_deletePlace (kept : Int → Bool) (placeId : Int) (d : Db V) :
    (d.onlyPlaces kept).besidesPlaces.deletePlace placeId = (d.onlyPlaces fun id => id != placeId && kept id).besidesPlaces := by
  simp [Db.onlyPlaces, Db.besidesPlaces, Db.deletePlace, List.filter_filter, Function.comp_def]

theorem Posted.delete (h : Posted d₀ board d) (placeId : Int) :
    Posted d₀ (Function.update board placeId none) (d.deletePlace placeId) := by
  constructor
  · exact h.ids.sublist (List.filter_sublist.map _)
  · funext id
    by_cases hother : id = placeId
    · have hnone : (d.deletePlace placeId).place? id = none :=
        List.find?_eq_none.mpr fun place hplace heq => by
          have hne := bne_iff_ne.mp (List.mem_filter.mp hplace).2
          exact hne ((beq_iff_eq.mp heq).trans hother)
      rw [Db.placeCard?, hnone, hother, Function.update_self]
      rfl
    · have hplace : (d.deletePlace placeId).place? id = d.place? id := by
        rw [Db.place?, Db.deletePlace, List.find?_filter]
        refine congrArg (List.find? · d.places) (funext fun place => ?_)
        by_cases hid : place.id = id <;> simp [hid, hother]
      have htags : (d.deletePlace placeId).placeTagIds id = d.placeTagIds id := by
        ext tagId
        rw [mem_placeTagIds, mem_placeTagIds, Db.deletePlace, List.mem_filter]
        exact and_iff_left (bne_iff_ne.mpr hother)
      have himages : (d.deletePlace placeId).imagesOf id = d.imagesOf id := by
        rw [Db.imagesOf, Db.deletePlace, List.filter_filter]
        refine List.filter_congr fun image _ => ?_
        by_cases himage : image.placeId = id <;> simp [himage, hother]
      rw [Function.update_of_ne hother, h.card, Db.placeCard?, Db.placeCard?, hplace, htags, himages]
  · intro row hrow
    obtain ⟨hrow, hne⟩ := List.mem_filter.mp hrow
    rw [Function.update_of_ne (bne_iff_ne.mp hne)]
    exact h.tags row hrow
  · intro image himage
    obtain ⟨himage, hne⟩ := List.mem_filter.mp himage
    rw [Function.update_of_ne (bne_iff_ne.mp hne)]
    exact h.images image himage
  · have hrest : (d.deletePlace placeId).besidesPlaces = d.besidesPlaces.deletePlace placeId := rfl
    have hkept : (fun id => (Function.update board placeId none id).isSome) = fun id => id != placeId && (board id).isSome := by
      funext id
      by_cases hother : id = placeId
      · simp [hother]
      · simp [hother]
    rw [hrest, h.rest, hkept]
    exact onlyPlaces_deletePlace _ placeId d₀

end

/-- The tags that there are among some ids. -/
def Db.tagIdSet (d : Db V) (ids : List Int) : Finset Int := (d.tagIdsIn ids).toFinset

/-- **One call**: the tables answer as the board does, and go on showing its cards. -/
theorem Posted.serve {d₀ : Db V} {board : Board} {b : Base (Db V)} (h : Posted d₀ board b.db) (call : AdminPlaceCall) :
    (serveAdminPlace b call).1 = (board.serve d₀.tagIdSet call).1 ∧
      Posted d₀ (board.serve d₀.tagIdSet call).2 (serveAdminPlace b call).2.db := by
  have htags : b.db.tagIdSet = d₀.tagIdSet := by
    have hrows : b.db.besidesPlaces.tags = d₀.tags := by
      rw [h.rest]
      rfl
    exact congrArg (fun (tags : List Tag) (ids : List Int) => ((tags.filter fun t => ids.contains t.id).map (·.id)).toFinset) hrows
  cases call with
  | create data =>
    obtain ⟨m, hm⟩ := adminCreatePlace_perform data b
    rw [serveAdminPlace, hm]
    exact ⟨rfl, h⟩
  | update placeId data =>
    have hperform := adminUpdatePlace_perform placeId data b
    rw [h.place?] at hperform
    simp only [serveAdminPlace, Board.serve]
    cases hcard : board placeId with
    | none =>
      rw [hcard] at hperform
      dsimp only [Option.map_none] at hperform
      rw [hperform]
      exact ⟨rfl, h⟩
    | some card =>
      rw [hcard] at hperform
      dsimp only [Option.map_some] at hperform
      cases hrefusal : imagesRefusal [] data.imageUrls with
      | some e =>
        rw [hrefusal] at hperform
        obtain ⟨m, hm⟩ := hperform
        rw [hm]
        exact ⟨rfl, h⟩
      | none =>
        rw [hrefusal] at hperform
        dsimp only at hperform
        rw [hperform, ← htags]
        refine ⟨?_, h.update hcard data⟩
        have hid : card.place.id = placeId := by
          have hplace := h.place? placeId
          rw [hcard] at hplace
          exact (Db.place?_some hplace).2
        simp [Except.map, AdminPlaceUpdateData.assign, hid]
  | delete placeId =>
    have hperform := adminDeletePlace_perform placeId b
    rw [h.place?] at hperform
    simp only [serveAdminPlace, Board.serve]
    cases hcard : board placeId with
    | none =>
      rw [hcard] at hperform
      dsimp only [Option.map_none] at hperform
      rw [hperform]
      exact ⟨rfl, h⟩
    | some card =>
      rw [hcard] at hperform
      dsimp only [Option.map_some] at hperform
      rw [hperform]
      exact ⟨rfl, h.delete placeId⟩

/-! ### Histories -/

/-- Nothing in the tables is about a place that is not there. -/
structure PlacesReferred (d : Db V) : Prop where
  ids : (d.places.map (·.id)).Nodup
  tags : ∀ row ∈ d.placeTags, (d.place? row.1).isSome
  images : ∀ image ∈ d.placeImages, (d.place? image.placeId).isSome
  others : d.onlyPlaces (fun id => (d.place? id).isSome) = d

/-- **The tables answer as the board does**, and in the end they show what it does, without a row
about a place that was deleted. -/
theorem admin_refines (b : Base (Db V)) (hrefs : PlacesReferred b.db) (calls : List AdminPlaceCall) :
    answers serveAdminPlace b calls = answers (Board.serve b.db.tagIdSet) b.db.placeCard? calls ∧
      Posted b.db (calls.foldl (fun board call => (board.serve b.db.tagIdSet call).2) b.db.placeCard?)
        (calls.foldl (fun b call => (serveAdminPlace b call).2) b).db := by
  have hstart : Posted b.db b.db.placeCard? b.db := by
    have hkept : (fun id => (b.db.placeCard? id).isSome) = fun id => (b.db.place? id).isSome := by
      funext id
      simp [Db.placeCard?]
    refine ⟨hrefs.ids, rfl, fun row hrow => ?_, fun image himage => ?_, ?_⟩
    · exact (congrFun hkept row.1).trans (hrefs.tags row hrow)
    · exact (congrFun hkept image.placeId).trans (hrefs.images image himage)
    · rw [hkept, hrefs.others]
  exact Lib.History.answers_refine serveAdminPlace (Board.serve b.db.tagIdSet) (fun board b' => Posted b.db board b'.db)
    (fun board b' call h => h.serve call) hstart calls

/-- Two places, one of them with a tag and a review. -/
def Db.twoPosted : Db Unit where
  users := [{id := 1}]
  tags := [⟨1, "지역", "서울"⟩]
  places := [{id := 1, contentId := 1, contentTypeId := 12}, {id := 2, contentId := 2, contentTypeId := 12}]
  placeTags := [(1, 1)]
  reviews := [{id := 1, userId := 1, placeId := 1, rating := ⟨4, by decide, by decide⟩, content := "좋아요"}]

def AdminPlaceUpdateData.withImages (imageUrls : List String) : AdminPlaceUpdateData where
  placeName := "남산"
  latitude := 37
  longitude := 127
  imageUrls := imageUrls
  placeName_length := by decide

/-- An update is refused for an image that comes twice, one is accepted, and the first place is deleted. -/
def adminDay : List AdminPlaceCall :=
  [.create {AdminPlaceUpdateData.withImages [] with}, .update 2 (.withImages ["a", "a"]), .update 2 (.withImages ["a", "b"]), .delete 1]

theorem admin_refines_day :
    answers serveAdminPlace ⟨Db.twoPosted, 1⟩ adminDay = answers (Board.serve Db.twoPosted.tagIdSet) Db.twoPosted.placeCard? adminDay ∧
      Posted Db.twoPosted (adminDay.foldl (fun board call => (board.serve Db.twoPosted.tagIdSet call).2) Db.twoPosted.placeCard?)
        (adminDay.foldl (fun b call => (serveAdminPlace b call).2) (⟨Db.twoPosted, 1⟩ : Base (Db Unit))).db :=
  admin_refines ⟨Db.twoPosted, 1⟩ ⟨by decide, by decide, by decide, rfl⟩ adminDay

end TravelMaker
