import TravelMaker.Lib.Mirror
import TravelMaker.Place.Process

/-! Places as rows of `Lib.Mirror`, and items as its entries. -/
namespace TravelMaker
open Lib (Txn Decimal)
open Lib.Mirror (Row Entry stamp)

variable {V : Type}

/-! ### Places as rows, items as entries -/

def Place.row (place : Place) : Row Int String := ⟨place.contentTypeId, stamp place.sourceModifiedAt, place.isActive⟩

def Db.row (d : Db V) (contentId : Int) : Option (Row Int String) := (d.placeOf? contentId).map Place.row

def Item.entry (item : Item) : Entry String where
  hidden := decide (blankToNone (item.get "showflag") = some "0")
  complete := (blankToNone (item.get "firstimage")).isSome
  time := stamp (blankToNone (item.get "modifiedtime"))

def Item.contentId? (item : Item) : Option Int := (item.intAt "contentid").toOption

/-- The entries of a content id. -/
def entriesOf (contentId : Int) (items : List Item) : List (Entry String) :=
  (items.filter (·.contentId? == some contentId)).map Item.entry

def Existing.known (existing : Existing) (contentId : Int) : Option (WithBot String) :=
  (existing.lookup contentId).map stamp

/-- The unique columns of the places, and a sequence that is ahead of them. -/
structure PlacesOk (d : Db V) (seq : Nat) : Prop where
  ids : (d.places.map (·.id)).Nodup
  contentIds : (d.places.map (·.contentId)).Nodup
  fresh : ∀ place ∈ d.places, place.id < seq

theorem PlacesOk.mono {d : Db V} {n m : Nat} (h : PlacesOk d n) (hle : n ≤ m) : PlacesOk d m := by
  refine ⟨h.ids, h.contentIds, fun place hplace => ?_⟩
  have hlt := h.fresh place hplace
  omega

/-- Both ids and the coordinates convert, and the item is of the type it is listed under. -/
structure WellFormed (column : Decimal → Except DbExc ℚ) (contentTypeId : Int) (item : Item) : Prop where
  contentId : ∃ contentId, item.intAt "contentid" = .ok contentId
  contentType : item.intAt "contenttypeid" = .ok contentTypeId
  coordinates : ∃ c, itemCoordinates column item = .ok c

/-- Every call and every statement succeeds. -/
structure Succeeds (out : Outside) : Prop where
  answers : ∀ t c, ∃ items, out.get t c = .ok items
  faultless : ∀ t, out.fault t = none

theorem changed_eq (newMtime stored : Option String) :
    changed newMtime stored = decide (stamp stored < stamp newMtime) := by
  cases newMtime with
  | none => exact (decide_eq_false not_lt_bot).symm
  | some new =>
    cases stored with
    | none => exact (decide_eq_true (WithBot.bot_lt_coe new)).symm
    | some old => exact decide_eq_decide.mpr WithBot.coe_lt_coe.symm

theorem placeOf?_eq_of_mem {d : Db V} (h : (d.places.map (·.contentId)).Nodup) {place : Place}
    (hplace : place ∈ d.places) : d.placeOf? place.contentId = some place := by
  have hsome : (d.placeOf? place.contentId).isSome = true :=
    List.find?_isSome.mpr ⟨place, hplace, beq_self_eq_true _⟩
  obtain ⟨found, hfound⟩ := Option.isSome_iff_exists.mp hsome
  obtain ⟨hmem, hid⟩ := Db.placeOf?_some hfound
  rw [hfound, List.inj_on_of_nodup_map h hmem hplace hid]

theorem lookup_existing {places : List Place} (h : (places.map (·.contentId)).Nodup) (contentTypeId contentId : Int) :
    ((places.filter (·.contentTypeId == contentTypeId)).map fun p => (p.contentId, p.sourceModifiedAt)).lookup
        contentId = (places.find? (·.contentId == contentId)).bind fun p =>
      if p.contentTypeId = contentTypeId then some p.sourceModifiedAt else none := by
  induction places with
  | nil => rfl
  | cons p rest ih =>
    rw [List.map_cons, List.nodup_cons] at h
    by_cases hid : p.contentId = contentId
    · rw [List.find?_cons_of_pos (by simpa using hid), Option.bind_some]
      by_cases htype : p.contentTypeId = contentTypeId
      · rw [List.filter_cons_of_pos (by simpa using htype), List.map_cons, List.lookup_cons, hid,
          beq_self_eq_true, if_pos htype]
      · have hnone : rest.find? (·.contentId == contentId) = none := by
          refine List.find?_eq_none.mpr fun q hq heq => h.1 ?_
          rw [hid, ← beq_iff_eq.mp heq]
          exact List.mem_map_of_mem hq
        rw [List.filter_cons_of_neg (by simpa using htype), ih h.2, hnone, if_neg htype, Option.bind_none]
    · rw [List.find?_cons_of_neg (by simpa using hid), ← ih h.2]
      by_cases htype : p.contentTypeId = contentTypeId
      · rw [List.filter_cons_of_pos (by simpa using htype), List.map_cons, List.lookup_cons,
          beq_eq_false_iff_ne.mpr (Ne.symm hid)]
      · rw [List.filter_cons_of_neg (by simpa using htype)]

/-- What the snapshot of a type has of a content id. -/
theorem existing_known {d : Db V} (h : (d.places.map (·.contentId)).Nodup) (contentTypeId contentId : Int) :
    (d.existing contentTypeId).known contentId = Lib.Mirror.known contentTypeId (d.row contentId) := by
  unfold Existing.known Db.existing Db.row Db.placeOf? Lib.Mirror.known
  rw [lookup_existing h]
  cases d.places.find? (·.contentId == contentId) with
  | none => rfl
  | some p =>
    rw [Option.bind_some, Option.map_some, Option.bind_some]
    show _ = if p.contentTypeId = contentTypeId then _ else _
    split <;> rfl

/-! ### Rows after a write -/

theorem eq_of_id {d : Db V} {seq : Nat} (hok : PlacesOk d seq) {p q : Place} (hp : p ∈ d.places) (hq : q ∈ d.places)
    (h : p.id = q.id) : p = q :=
  List.inj_on_of_nodup_map hok.ids hp hq h

/-- A write to the row of one content id leaves those of the others. -/
theorem placeOf?_updatePlace_ne {d : Db V} {seq : Nat} (hok : PlacesOk d seq) {f : Place → Place}
    (hf : ∀ p, (f p).contentId = p.contentId) {contentId other : Int} {place : Place}
    (hplace : d.placeOf? contentId = some place) (hne : other ≠ contentId) :
    (d.updatePlace place.id f).placeOf? other = d.placeOf? other := by
  rw [Db.placeOf?_updatePlace hf]
  cases hp : d.placeOf? other with
  | none => rfl
  | some p =>
    obtain ⟨hmem, hid⟩ := Db.placeOf?_some hplace
    obtain ⟨hmem', hid'⟩ := Db.placeOf?_some hp
    rw [Option.map_some, if_neg]
    intro heq
    rw [eq_of_id hok hmem' hmem heq] at hid'
    exact hne (hid'.symm.trans hid)

theorem placesOk_updatePlace {d : Db V} {seq : Nat} (hok : PlacesOk d seq) (id : Int) {f : Place → Place}
    (hf : ∀ p, (f p).id = p.id ∧ (f p).contentId = p.contentId) : PlacesOk (d.updatePlace id f) seq := by
  have hkeep : ∀ p : Place, (if p.id = id then f p else p).id = p.id ∧
      (if p.id = id then f p else p).contentId = p.contentId := by
    intro p
    split
    · exact hf p
    · exact ⟨rfl, rfl⟩
  constructor
  · show ((d.places.map _).map _).Nodup
    rw [List.map_map, show Place.id ∘ (fun p => if p.id = id then f p else p) = Place.id from
      funext fun p => (hkeep p).1]
    exact hok.ids
  · show ((d.places.map _).map _).Nodup
    rw [List.map_map, show Place.contentId ∘ (fun p => if p.id = id then f p else p) = Place.contentId from
      funext fun p => (hkeep p).2]
    exact hok.contentIds
  · intro place hplace
    obtain ⟨p, hp, rfl⟩ := List.mem_map.mp hplace
    rw [(hkeep p).1]
    exact hok.fresh p hp

theorem placeOf?_writePlace_ne {d : Db V} {n : Nat} (hok : PlacesOk d n) {f : Place → Place}
    (hf : ∀ p, (f p).contentId = p.contentId) {contentId other : Int} {defaults : PlaceDefaults}
    (hne : other ≠ contentId) : (d.writePlace n contentId defaults f).placeOf? other = d.placeOf? other := by
  unfold Db.writePlace
  cases hplace : d.placeOf? contentId with
  | none =>
    show (d.places ++ [_]).find? _ = d.places.find? _
    rw [List.find?_append, List.find?_cons_of_neg, List.find?_nil, Option.or_none]
    rw [hf, rowFor_contentId]
    simpa using Ne.symm hne
  | some place => exact placeOf?_updatePlace_ne hok hf hplace hne

theorem placesOk_writePlace {d : Db V} {n : Nat} (hok : PlacesOk d n) {f : Place → Place}
    (hf : ∀ p, (f p).id = p.id ∧ (f p).contentId = p.contentId) (contentId : Int) (defaults : PlaceDefaults) :
    PlacesOk (d.writePlace n contentId defaults f) (if (d.placeOf? contentId).isNone then n + 1 else n) := by
  unfold Db.writePlace Db.rowFor
  cases hplace : d.placeOf? contentId with
  | some place => exact placesOk_updatePlace hok place.id hf
  | none =>
    have hnew : ∀ p ∈ d.places, p.contentId ≠ contentId := by
      intro p hp heq
      rw [← heq, placeOf?_eq_of_mem hok.contentIds hp] at hplace
      cases hplace
    constructor
    · show ((d.places ++ [_]).map _).Nodup
      rw [List.map_append, List.nodup_append_comm]
      refine List.nodup_cons.mpr ⟨fun hmem => ?_, hok.ids⟩
      obtain ⟨p, hp, hid⟩ := List.mem_map.mp hmem
      have hlt := hok.fresh p hp
      rw [show p.id = (n : Int) from hid.trans (hf _).1] at hlt
      exact absurd hlt (Int.lt_irrefl _)
    · show ((d.places ++ [_]).map _).Nodup
      rw [List.map_append, List.nodup_append_comm]
      refine List.nodup_cons.mpr ⟨fun hmem => ?_, hok.contentIds⟩
      obtain ⟨p, hp, hid⟩ := List.mem_map.mp hmem
      exact hnew p hp (hid.trans (hf _).2)
    · intro place hmem
      rcases List.mem_append.mp hmem with hmem | hmem
      · have hlt := hok.fresh place hmem
        show place.id < ((n + 1 : Nat) : Int)
        omega
      · rw [List.mem_singleton.mp hmem, (hf _).1]
        show (n : Int) < ((n + 1 : Nat) : Int)
        omega

end TravelMaker
