import TravelMaker.Lib.Upsert
import TravelMaker.Place.Sync

/-! What the transaction of one item leaves.

Each block of statements is given as a function on the tables; `saveListItem_eval`
puts them together, and `storedAs_saved` says what the tables hold of the place then. -/
namespace TravelMaker
open Lib (Txn Decimal)

variable {V : Type}

/-! ### The blocks as functions -/

/-- The images of a place after `rows` are stored, numbered from `order`. -/
def upsertImages (placeId : Int) : (order : Nat) → List (String × Option String) → List PlaceImage →
    List PlaceImage
  | _, [], images => images
  | order, (imageUrl, thumbnailUrl) :: rest, images =>
    upsertImages placeId (order + 1) rest (upsertImage {
      placeId := placeId
      imageUrl := imageUrl
      thumbnailUrl := thumbnailUrl
      isMain := order == 0
      order := order } images)

namespace Db

def saveImageRows (placeId : Int) (rows : List (String × Option String)) (d : Db V) : Db V :=
  {d with placeImages := upsertImages placeId 0 rows d.placeImages}

/-- The fields of `PlaceInfo`, if the item has an intro. -/
def saveIntro (placeId contentTypeId : Int) (intro : Option Item) (d : Db V) : Db V :=
  match intro with
  | none => d
  | some item => d.saveInfo placeId ((buildPlaceInfoDefaults contentTypeId item).getD [])

/-- The row to write: the stored one, or a new one. -/
def rowFor (d : Db V) (n : Nat) (contentId : Int) (defaults : PlaceDefaults) : Place :=
  (d.placeOf? contentId).getD {id := n, contentId := contentId, contentTypeId := defaults.contentTypeId}

/-- The row of `contentId` written, with its columns set by `f`. -/
def writePlace (n : Nat) (contentId : Int) (defaults : PlaceDefaults) (f : Place → Place) (d : Db V) : Db V :=
  match d.placeOf? contentId with
  | none => d.insertPlace (f (d.rowFor n contentId defaults))
  | some place => d.updatePlace place.id f

/-! What each block leaves alone. -/

section
variable (placeId contentTypeId : Int) (rows : List (String × Option String)) (intro : Option Item)
  (addressPrimary : Option String) (d : Db V)

theorem saveImageRows_places : (d.saveImageRows placeId rows).places = d.places := rfl

theorem saveImageRows_placeInfo? : (d.saveImageRows placeId rows).placeInfo? = d.placeInfo? := rfl

theorem saveImageRows_tags : (d.saveImageRows placeId rows).tags = d.tags := rfl

theorem saveImageRows_placeTags : (d.saveImageRows placeId rows).placeTags = d.placeTags := rfl

theorem saveIntro_places : (d.saveIntro placeId contentTypeId intro).places = d.places := by
  cases intro <;> rfl

theorem saveIntro_placeImages : (d.saveIntro placeId contentTypeId intro).placeImages = d.placeImages := by
  cases intro <;> rfl

theorem saveIntro_tags : (d.saveIntro placeId contentTypeId intro).tags = d.tags := by
  cases intro <;> rfl

theorem saveIntro_placeTags : (d.saveIntro placeId contentTypeId intro).placeTags = d.placeTags := by
  cases intro <;> rfl

theorem retag_places : (d.retag placeId addressPrimary).places = d.places := rfl

theorem retag_placeImages : (d.retag placeId addressPrimary).placeImages = d.placeImages := rfl

theorem retag_placeInfo? : (d.retag placeId addressPrimary).placeInfo? = d.placeInfo? := rfl

theorem retag_tags : (d.retag placeId addressPrimary).tags = d.tags := rfl

theorem writePlace_tables (n : Nat) (contentId : Int) (defaults : PlaceDefaults) (f : Place → Place) :
    (d.writePlace n contentId defaults f).placeInfos = d.placeInfos ∧ (d.writePlace n contentId defaults f).tags = d.tags ∧
      (d.writePlace n contentId defaults f).placeTags = d.placeTags := by
  unfold writePlace
  split <;> exact ⟨rfl, rfl, rfl⟩

end

end Db

theorem saveImageRows_eval (placeId : Int) (order : Nat) (rows : List (String × Option String)) (d : Db V)
    (n : Nat) : (saveImageRows placeId order rows).eval d n =
      .ok ((), {d with placeImages := upsertImages placeId order rows d.placeImages}, n) := by
  induction rows generalizing order d with
  | nil => rfl
  | cons row rest ih => exact ih (order + 1) _

theorem saveImages_eval (placeId : Int) (images : List Item) (firstimage : Option String)
    (firstimage2 : Scalar) (d : Db V) (n : Nat) :
    (saveImages placeId images firstimage firstimage2).eval d n =
      .ok ((imageRows images firstimage firstimage2).length,
        d.saveImageRows placeId (imageRows images firstimage firstimage2), n) := by
  unfold saveImages
  rw [Txn.eval_bind_ok (saveImageRows_eval ..)]
  rfl

/-- The coordinates as columns, if both convert. -/
def coordinates (column : Decimal → Except DbExc ℚ) (defaults : PlaceDefaults) :
    Except Exc (Option ℚ × Option ℚ) := do
  let latitude ← toColumn column defaults.latitude
  let longitude ← toColumn column defaults.longitude
  return (latitude, longitude)

theorem updateOrCreatePlace_eval (column : Decimal → Except DbExc ℚ) (contentId : Int) (defaults : PlaceDefaults)
    (d : Db V) (n : Nat) : (updateOrCreatePlace column contentId defaults).eval d n =
      (coordinates column defaults).map fun c =>
        ((defaults.apply c.1 c.2 (d.rowFor n contentId defaults), (d.placeOf? contentId).isNone),
          d.writePlace n contentId defaults (defaults.apply c.1 c.2),
          if (d.placeOf? contentId).isNone then n + 1 else n) := by
  unfold updateOrCreatePlace coordinates Db.rowFor Db.writePlace
  simp only [Txn.read_bind, Txn.eval]
  cases hplace : d.placeOf? contentId with
  | none =>
    cases toColumn column defaults.latitude with
    | error e => rfl
    | ok latitude =>
      cases toColumn column defaults.longitude with
      | error e => rfl
      | ok longitude =>
        show Except.ok _ = Except.ok _
        rw [Db.rowFor, hplace]
        rfl
  | some place =>
    cases toColumn column defaults.latitude with
    | error e => rfl
    | ok latitude =>
      cases toColumn column defaults.longitude with
      | error e => rfl
      | ok longitude => rfl

/-- The tables after the transaction: the row, its images, its `PlaceInfo`, its tags. -/
def Db.saved (d : Db V) (n : Nat) (contentTypeId contentId : Int) (listItem : Item) (firstimage : String)
    (images : List Item) (intro : Option Item) (defaults : PlaceDefaults) (f : Place → Place) : Db V :=
  let place := f (d.rowFor n contentId defaults)
  (((d.writePlace n contentId defaults f).saveImageRows place.id
    (imageRows images (some firstimage) (listItem.get "firstimage2"))).saveIntro place.id contentTypeId
      intro).retag place.id place.addressPrimary

/-- What the transaction counts. -/
def savedCounts (d : Db V) (contentId : Int) (listItem : Item) (firstimage : String) (images : List Item)
    (intro : Option Item) : Saved where
  created := (d.placeOf? contentId).isNone
  imagesSaved := (imageRows images (some firstimage) (listItem.get "firstimage2")).length
  infoSaved := if intro.isSome then 1 else 0

theorem saveListItem_eval (column : Decimal → Except DbExc ℚ) (contentTypeId contentId : Int) (listItem : Item)
    (firstimage : String) (common : Option Item) (images : List Item) (intro : Option Item) (d : Db V) (n : Nat) :
    (saveListItem column contentTypeId contentId listItem firstimage common images intro).eval d n =
      (do
        let defaults ← buildPlaceDefaults listItem common intro
        let c ← coordinates column defaults
        return (savedCounts d contentId listItem firstimage images intro,
          d.saved n contentTypeId contentId listItem firstimage images intro defaults (defaults.apply c.1 c.2),
          if (d.placeOf? contentId).isNone then n + 1 else n)) := by
  unfold saveListItem
  cases buildPlaceDefaults listItem common intro with
  | error e => rfl
  | ok defaults =>
    simp only [Txn.lift_ok, Txn.ret_bind]
    have hplace := updateOrCreatePlace_eval column contentId defaults d n
    cases hc : coordinates column defaults with
    | error e =>
      rw [hc] at hplace
      rw [Txn.eval_bind_error hplace]
      show _ = (coordinates column defaults).bind _
      rw [hc]
      rfl
    | ok c =>
      rw [hc] at hplace
      rw [Txn.eval_bind_ok hplace, Txn.eval_bind_ok (saveImages_eval ..)]
      show _ = (coordinates column defaults).bind _
      rw [hc]
      cases intro with
      | none =>
        simp only [Txn.pure_eq, Txn.ret_bind]
        rw [Txn.eval_bind_ok (assignDeterministicTags_eval ..)]
        rfl
      | some item =>
        simp only [updateOrCreateInfo, Txn.read_bind, Txn.put_bind, Txn.pure_eq, Txn.ret_bind, Txn.query_bind,
          Txn.write_bind, Txn.eval]
        rw [Txn.eval_bind_ok (assignDeterministicTags_eval ..)]
        rfl

/-! ### The transaction is one -/

theorem atomic_saveImageRows (placeId : Int) (order : Nat) (rows : List (String × Option String)) :
    (saveImageRows (V := V) placeId order rows).Atomic := by
  induction rows generalizing order with
  | nil => trivial
  | cons row rest ih => exact fun _ _ => ih (order + 1)

theorem atomic_saveImages (placeId : Int) (images : List Item) (firstimage : Option String)
    (firstimage2 : Scalar) : (saveImages (V := V) placeId images firstimage firstimage2).Atomic := by
  unfold saveImages
  exact (atomic_saveImageRows ..).bind fun _ => trivial

theorem atomic_updateOrCreatePlace (column : Decimal → Except DbExc ℚ) (contentId : Int)
    (defaults : PlaceDefaults) : (updateOrCreatePlace (V := V) column contentId defaults).Atomic := by
  unfold updateOrCreatePlace
  simp only [Txn.read_bind]
  intro d
  dsimp only
  cases d.placeOf? contentId with
  | none =>
    exact (Txn.atomic_lift _).bind fun _ => (Txn.atomic_lift _).bind fun _ => fun _ _ => trivial
  | some place =>
    exact fun _ => (Txn.atomic_lift _).bind fun _ => (Txn.atomic_lift _).bind fun _ => fun _ => trivial

theorem atomic_saveListItem (column : Decimal → Except DbExc ℚ) (contentTypeId contentId : Int) (listItem : Item)
    (firstimage : String) (common : Option Item) (images : List Item) (intro : Option Item) :
    (saveListItem (V := V) column contentTypeId contentId listItem firstimage common images intro).Atomic := by
  have htags : ∀ (place : Place) (saved : Saved), (do
      assignDeterministicTags place.id place.addressPrimary
      return saved : Service V Saved).Atomic := by
    intro place saved
    exact (atomic_assignDeterministicTags place.id place.addressPrimary).bind fun _ => trivial
  refine (Txn.atomic_lift _).bind fun defaults => (atomic_updateOrCreatePlace column contentId defaults).bind ?_
  intro h
  obtain ⟨place, created⟩ := h
  refine (atomic_saveImages ..).bind fun imagesSaved => ?_
  cases intro with
  | none => exact htags place _
  | some item => exact fun _ _ => htags place _

/-- Coordinates that do not convert raise before the row is written: after the lookup,
and after the lock if the row exists. -/
theorem saveListItem_length {column : Decimal → Except DbExc ℚ} {contentTypeId contentId : Int} {listItem : Item}
    {firstimage : String} {common : Option Item} {images : List Item} {intro : Option Item} {d : Db V}
    {n : Nat} {defaults : PlaceDefaults} {e : Exc} (hdefaults : buildPlaceDefaults listItem common intro = .ok defaults)
    (hc : coordinates column defaults = .error e) :
    (saveListItem column contentTypeId contentId listItem firstimage common images intro).length d n =
      if (d.placeOf? contentId).isNone then 1 else 2 := by
  have herror : (updateOrCreatePlace column contentId defaults).eval d n = .error e := by
    rw [updateOrCreatePlace_eval, hc]
    rfl
  unfold saveListItem
  rw [hdefaults, Txn.lift_ok, Txn.ret_bind, Txn.length_bind_error herror]
  unfold updateOrCreatePlace
  simp only [Txn.read_bind, Txn.length]
  unfold coordinates at hc
  cases hplace : d.placeOf? contentId with
  | none =>
    cases hlat : toColumn column defaults.latitude with
    | error e' => rfl
    | ok latitude =>
      cases hlon : toColumn column defaults.longitude with
      | error e' => rfl
      | ok longitude =>
        rw [hlat, hlon] at hc
        cases hc
  | some place =>
    cases hlat : toColumn column defaults.latitude with
    | error e' => rfl
    | ok latitude =>
      cases hlon : toColumn column defaults.longitude with
      | error e' => rfl
      | ok longitude =>
        rw [hlat, hlon] at hc
        cases hc

/-! ### What the tables hold then -/

/-- The place is stored with its images, its `PlaceInfo` and its deterministic tags. -/
structure StoredAs (place : Place) (rows : List (String × Option String))
    (info : Option (List InfoDefault)) (d : Db V) : Prop where
  row : d.placeOf? place.contentId = some place
  images : ∀ i imageUrl thumbnailUrl, rows[i]? = some (imageUrl, thumbnailUrl) →
    (∀ j t, i < j → rows[j]? ≠ some (imageUrl, t)) →
    {placeId := place.id, imageUrl := imageUrl, thumbnailUrl := thumbnailUrl, isMain := i == 0, order := i} ∈
      d.placeImages
  info : ∀ defaults, info = some defaults →
    ∃ before, d.placeInfo? place.id = some (defaults.foldl PlaceInfo.set before)
  tags : ∀ tag ∈ d.tags, tag.tagType ∈ deterministicTagTypes →
    ((place.id, tag.id) ∈ d.placeTags ↔ HasTag place.addressPrimary (d.placeInfo? place.id) tag)

theorem mem_upsertImage_self (image : PlaceImage) (images : List PlaceImage) : image ∈ upsertImage image images := by
  unfold upsertImage
  split
  · rename_i h
    obtain ⟨i, hi, hkey⟩ := List.any_eq_true.mp h
    exact List.mem_map.mpr ⟨i, hi, if_pos (by simpa using hkey)⟩
  · exact List.mem_append_right _ (List.mem_singleton_self _)

theorem mem_upsertImage_of_ne {image i : PlaceImage} {images : List PlaceImage} (hi : i ∈ images)
    (hne : i.imageUrl ≠ image.imageUrl) : i ∈ upsertImage image images := by
  unfold upsertImage
  split
  · exact List.mem_map.mpr ⟨i, hi, if_neg fun h => hne h.2⟩
  · exact List.mem_append_left _ hi

theorem mem_upsertImages_of_ne {placeId : Int} {order : Nat} {rows : List (String × Option String)}
    {images : List PlaceImage} {image : PlaceImage} (hi : image ∈ images)
    (hne : ∀ row ∈ rows, row.1 ≠ image.imageUrl) : image ∈ upsertImages placeId order rows images := by
  induction rows generalizing order images with
  | nil => exact hi
  | cons row rest ih =>
    refine ih (mem_upsertImage_of_ne hi ?_) fun r hr => hne r (List.mem_cons_of_mem _ hr)
    exact Ne.symm (hne row List.mem_cons_self)

/-- Each row is stored, unless a later one has the same url. -/
theorem mem_upsertImages {placeId : Int} {order i : Nat} {rows : List (String × Option String)}
    {images : List PlaceImage} {imageUrl : String} {thumbnailUrl : Option String}
    (hrow : rows[i]? = some (imageUrl, thumbnailUrl))
    (hlast : ∀ j t, i < j → rows[j]? ≠ some (imageUrl, t)) :
    {placeId := placeId, imageUrl := imageUrl, thumbnailUrl := thumbnailUrl, isMain := order + i == 0,
      order := order + i} ∈ upsertImages placeId order rows images := by
  induction rows generalizing order i images with
  | nil => cases hrow
  | cons row rest ih =>
    cases i with
    | zero =>
      cases hrow
      show _ ∈ upsertImages placeId (order + 1) rest (upsertImage _ images)
      refine mem_upsertImages_of_ne (mem_upsertImage_self _ _) fun r hr hurl => ?_
      obtain ⟨j, hj⟩ := List.mem_iff_getElem?.mp hr
      exact hlast (j + 1) r.2 (Nat.succ_pos j) (by
        rw [List.getElem?_cons_succ, hj]
        exact congrArg (fun url => some (url, r.2)) hurl)
    | succ i =>
      have horder : order + (i + 1) = order + 1 + i := by omega
      rw [horder]
      exact ih hrow fun j t hij => hlast (j + 1) t (Nat.succ_lt_succ hij)

@[simp] theorem set_placeId (info : PlaceInfo) (x : InfoDefault) : (info.set x).placeId = info.placeId := by
  cases x with
  | text f v => cases f <;> rfl
  | flag f v => cases f <;> rfl

@[simp] theorem foldl_set_placeId (defaults : List InfoDefault) (info : PlaceInfo) :
    (defaults.foldl PlaceInfo.set info).placeId = info.placeId := by
  induction defaults generalizing info with
  | nil => rfl
  | cons x rest ih => rw [List.foldl_cons, ih, set_placeId]

theorem find?_upsertInfo (id : Int) (defaults : List InfoDefault) (infos : List PlaceInfo) (other : Int) :
    (upsertInfo id defaults infos).find? (·.placeId == other) =
      if other = id then
        some (defaults.foldl PlaceInfo.set ((infos.find? (·.placeId == id)).getD {placeId := id}))
      else infos.find? (·.placeId == other) := by
  have hset := Lib.Upsert.find?_setOrInsert PlaceInfo.placeId _ (defaults.foldl PlaceInfo.set {placeId := id})
    (foldl_set_placeId defaults) (foldl_set_placeId defaults _) infos other
  apply hset.trans
  cases infos.find? (·.placeId == id) <;> rfl

theorem placeInfo?_saveInfo (placeId : Int) (defaults : List InfoDefault) (d : Db V) :
    ∃ before, (d.saveInfo placeId defaults).placeInfo? placeId = some (defaults.foldl PlaceInfo.set before) :=
  ⟨_, (find?_upsertInfo placeId defaults d.placeInfos placeId).trans (if_pos rfl)⟩

theorem Db.placeOf?_some {d : Db V} {contentId : Int} {place : Place} (h : d.placeOf? contentId = some place) :
    place ∈ d.places ∧ place.contentId = contentId :=
  ⟨List.mem_of_find?_eq_some h, by simpa using List.find?_some h⟩

/-- An update that keeps the content id is found under it. -/
theorem Db.placeOf?_updatePlace {f : Place → Place} (hf : ∀ p, (f p).contentId = p.contentId) (d : Db V)
    (id contentId : Int) : (d.updatePlace id f).placeOf? contentId =
      (d.placeOf? contentId).map fun p => if p.id = id then f p else p := by
  unfold Db.updatePlace Db.placeOf?
  exact Lib.Upsert.find?_modify hf d.places contentId

theorem rowFor_contentId (d : Db V) (n : Nat) (contentId : Int) (defaults : PlaceDefaults) :
    (d.rowFor n contentId defaults).contentId = contentId := by
  unfold Db.rowFor
  cases hplace : d.placeOf? contentId with
  | none => rfl
  | some place => exact (Db.placeOf?_some hplace).2

/-- The row that `writePlace` leaves. -/
theorem placeOf?_writePlace {n : Nat} {contentId : Int} {defaults : PlaceDefaults} {f : Place → Place}
    (hf : ∀ p, (f p).contentId = p.contentId) (d : Db V) :
    (d.writePlace n contentId defaults f).placeOf? contentId = some (f (d.rowFor n contentId defaults)) := by
  unfold Db.writePlace
  cases hplace : d.placeOf? contentId with
  | none =>
    have hrow : ((f (d.rowFor n contentId defaults)).contentId == contentId) = true := by
      rw [hf, rowFor_contentId]
      exact beq_self_eq_true _
    show (d.places ++ [_]).find? _ = _
    rw [List.find?_append, show d.places.find? _ = none from hplace, Option.none_or]
    exact List.find?_cons_of_pos hrow
  | some place =>
    dsimp only
    rw [Db.placeOf?_updatePlace hf, hplace, Option.map_some, if_pos rfl, Db.rowFor, hplace, Option.getD_some]

/-- **What a stored item leaves.** -/
theorem storedAs_saved {d : Db V} (hok : TagsOk d.tags) {n : Nat} {contentTypeId contentId : Int} {listItem : Item}
    {firstimage : String} {images : List Item} {intro : Option Item} {defaults : PlaceDefaults}
    {f : Place → Place} (hf : ∀ p, (f p).contentId = p.contentId) :
    StoredAs (f (d.rowFor n contentId defaults)) (imageRows images (some firstimage) (listItem.get "firstimage2"))
      (intro.map fun item => (buildPlaceInfoDefaults contentTypeId item).getD [])
      (d.saved n contentTypeId contentId listItem firstimage images intro defaults f) := by
  have hid : (f (d.rowFor n contentId defaults)).contentId = contentId := by rw [hf, rowFor_contentId]
  have hrow : (d.writePlace n contentId defaults f).placeOf? contentId = _ := placeOf?_writePlace hf d
  unfold Db.saved
  dsimp only
  generalize f (d.rowFor n contentId defaults) = place at hid hrow
  obtain ⟨-, htags, -⟩ := Db.writePlace_tables d n contentId defaults f
  generalize d.writePlace n contentId defaults f = d' at hrow htags
  constructor
  · rw [hid, Db.placeOf?, Db.retag_places, Db.saveIntro_places, Db.saveImageRows_places]
    exact hrow
  · intro i imageUrl thumbnailUrl hi hlast
    rw [Db.retag_placeImages, Db.saveIntro_placeImages, ← Nat.zero_add i]
    exact mem_upsertImages hi hlast
  · intro x hx
    cases intro with
    | none => cases hx
    | some item =>
      cases hx
      rw [Db.retag_placeInfo?]
      exact placeInfo?_saveInfo place.id _ _
  · intro tag htag htype
    rw [Db.retag_placeInfo?]
    rw [Db.retag_tags] at htag
    refine mem_retag ?_ htag htype place.id place.addressPrimary
    rw [Db.saveIntro_tags, Db.saveImageRows_tags, htags]
    exact hok

end TravelMaker
