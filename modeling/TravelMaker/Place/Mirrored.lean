import TravelMaker.Place.SyncRun

/-! What `sync_incremental` leaves of a listing that has every content id once.

`mirrored_iff`: the store mirrors the listing exactly if no shown item stands for a
place that is inactive and already has the item's time or a later one. -/
namespace TravelMaker
open Lib.Mirror (Row Entry stamp)

variable {V : Type}

/-- What a shown item with an image and a time asks for. -/
structure Shown (item : Item) (modifiedtime : String) : Prop where
  showflag : blankToNone (item.get "showflag") ≠ some "0"
  firstimage : blankToNone (item.get "firstimage") ≠ none
  modifiedtime : blankToNone (item.get "modifiedtime") = some modifiedtime

/-- Hidden items stored are inactive, shown ones are stored, active and up to date. -/
structure Mirrored (listing : Int → List Item) (contentTypeIds : List Int) (d : Db V) : Prop where
  hidden : ∀ contentTypeId ∈ contentTypeIds, ∀ item ∈ listing contentTypeId, ∀ contentId place,
    item.contentId? = some contentId → blankToNone (item.get "showflag") = some "0" →
    d.placeOf? contentId = some place → place.isActive = false
  shown : ∀ contentTypeId ∈ contentTypeIds, ∀ item ∈ listing contentTypeId, ∀ contentId modifiedtime,
    item.contentId? = some contentId → Shown item modifiedtime →
    ∃ place stored, d.placeOf? contentId = some place ∧ place.isActive = true ∧
      place.sourceModifiedAt = some stored ∧ modifiedtime ≤ stored

/-- Every content id is listed once, and under the type it is stored with. -/
structure ListedOnce (listing : Int → List Item) (contentTypeIds : List Int) (d : Db V) : Prop where
  once : ((contentTypeIds.flatMap listing).map Item.contentId?).Nodup
  stored : ∀ contentTypeId ∈ contentTypeIds, ∀ item ∈ listing contentTypeId, ∀ contentId place,
    item.contentId? = some contentId → d.placeOf? contentId = some place → place.contentTypeId = contentTypeId

/-- The item stands for a place taken down earlier that is not older. -/
def TakenDown (d : Db V) (item : Item) : Prop :=
  ∃ contentId modifiedtime place stored, item.contentId? = some contentId ∧ Shown item modifiedtime ∧
    d.placeOf? contentId = some place ∧ place.isActive = false ∧ place.sourceModifiedAt = some stored ∧
    modifiedtime ≤ stored

/-! ### One item of a content id -/

theorem run_of_none {listing : Int → List Item} {contentId : Int} {contentTypeIds : List Int}
    (h : ∀ item ∈ contentTypeIds.flatMap listing, item.contentId? ≠ some contentId) (r : Option (Row Int String)) :
    Lib.Mirror.run (listings listing contentId contentTypeIds) r = r := by
  have hnone : ∀ l ∈ listings listing contentId contentTypeIds, l.2 = [] := by
    intro l hl
    obtain ⟨contentTypeId, hmem, rfl⟩ := List.mem_map.mp hl
    exact entriesOf_eq_nil fun item hitem => h item (List.mem_flatMap.mpr ⟨contentTypeId, hmem, hitem⟩)
  have hresting : Lib.Mirror.Resting r (listings listing contentId contentTypeIds) := by
    intro l hl e he
    rw [hnone l hl] at he
    cases he
  rw [Lib.Mirror.run_resting hresting, if_neg]
  rw [List.any_eq_true]
  intro h
  obtain ⟨l, hl, h⟩ := h
  rw [hnone l hl, List.any_nil, Bool.and_false] at h
  cases h

/-- A content id listed once is stepped once. -/
theorem run_of_once {listing : Int → List Item} {contentTypeIds : List Int}
    (honce : ((contentTypeIds.flatMap listing).map Item.contentId?).Nodup) {contentTypeId : Int}
    (htype : contentTypeId ∈ contentTypeIds) {item : Item} (hitem : item ∈ listing contentTypeId) {contentId : Int}
    (hid : item.contentId? = some contentId) (r : Option (Row Int String)) :
    Lib.Mirror.run (listings listing contentId contentTypeIds) r =
      Lib.Mirror.step contentTypeId (Lib.Mirror.known contentTypeId r) r item.entry := by
  obtain ⟨before, after, rfl⟩ := List.append_of_mem htype
  obtain ⟨earlier, later, hlisting⟩ := List.append_of_mem hitem
  have hsplit : (before ++ contentTypeId :: after).flatMap listing =
      (before.flatMap listing ++ earlier) ++ item :: (later ++ after.flatMap listing) := by
    rw [List.flatMap_append, List.flatMap_cons, hlisting]
    simp only [List.append_assoc, List.cons_append]
  rw [hsplit, List.map_append, List.map_cons, List.nodup_middle, List.nodup_cons, ← List.map_append] at honce
  have hother : ∀ i ∈ (before.flatMap listing ++ earlier) ++ (later ++ after.flatMap listing),
      i.contentId? ≠ some contentId := by
    intro i hi heq
    refine honce.1 (List.mem_map.mpr ⟨i, hi, ?_⟩)
    rw [heq, hid]
  have hentries : entriesOf contentId (listing contentTypeId) = [item.entry] := by
    have hearlier : entriesOf contentId earlier = [] := entriesOf_eq_nil fun i hi => hother i (by simp [hi])
    have hlater : entriesOf contentId later = [] := entriesOf_eq_nil fun i hi => hother i (by simp [hi])
    rw [hlisting, show earlier ++ item :: later = earlier ++ ([item] ++ later) from rfl, entriesOf_append,
      entriesOf_append, hearlier, hlater, entriesOf_singleton hid]
    rfl
  have hbefore : Lib.Mirror.run (listings listing contentId before) r = r :=
    run_of_none (fun i hi => hother i (List.mem_append_left _ (List.mem_append_left _ hi))) r
  rw [listings, List.map_append, List.map_cons, Lib.Mirror.run_append]
  show Lib.Mirror.run _ (Lib.Mirror.run (listings listing contentId before) r) = _
  rw [hbefore]
  show Lib.Mirror.run (listings listing contentId after) (Lib.Mirror.follow contentTypeId _
    (entriesOf contentId (listing contentTypeId)) r) = _
  rw [hentries]
  exact run_of_none (fun i hi => hother i (List.mem_append_right _ (List.mem_append_right _ hi))) _

section
variable {d d' : Db V} {contentTypeId contentId : Int} {item : Item}
  (hstored : ∀ place, d.placeOf? contentId = some place → place.contentTypeId = contentTypeId)
  (hrow : d'.row contentId = Lib.Mirror.step contentTypeId (Lib.Mirror.known contentTypeId (d.row contentId))
    (d.row contentId) item.entry)
include hstored hrow

/-- A hidden item leaves no active place. -/
theorem inactive_of_hidden (hflag : blankToNone (item.get "showflag") = some "0") {place : Place}
    (hplace : d'.placeOf? contentId = some place) : place.isActive = false := by
  have hhidden : item.entry.hidden = true := decide_eq_true hflag
  have hnot : ∀ k, item.entry.collected k = false := fun k =>
    Lib.Mirror.collected_of_storable (by rw [Entry.storable, hhidden]; rfl) k
  rw [Lib.Mirror.step_of_not (hnot _), hhidden, Bool.true_and, Db.row, hplace] at hrow
  cases hold : d.placeOf? contentId with
  | none =>
    rw [Db.row, hold] at hrow
    cases hrow
  | some old =>
    rw [Db.row, hold] at hrow
    have hknown : Lib.Mirror.known contentTypeId ((some old).map Place.row) = some old.row.time :=
      if_pos (hstored old hold)
    rw [hknown, if_pos (by rfl)] at hrow
    exact congrArg Row.live (Option.some.inj hrow)

/-- A shown item leaves an active place, unless it was taken down and is not older. -/
theorem shown_iff {modifiedtime : String} (hshown : Shown item modifiedtime) :
    (∃ place stored, d'.placeOf? contentId = some place ∧ place.isActive = true ∧
        place.sourceModifiedAt = some stored ∧ modifiedtime ≤ stored) ↔
      ¬ ∃ place stored, d.placeOf? contentId = some place ∧ place.isActive = false ∧
        place.sourceModifiedAt = some stored ∧ modifiedtime ≤ stored := by
  have hhidden : item.entry.hidden = false := decide_eq_false hshown.showflag
  have hstorable : item.entry.storable = true := by
    rw [Entry.storable, hhidden]
    exact Option.isSome_iff_ne_none.mpr hshown.firstimage
  have htime : item.entry.time = stamp (some modifiedtime) := congrArg stamp hshown.modifiedtime
  cases hc : item.entry.collected (Lib.Mirror.known contentTypeId (d.row contentId)) with
  | true =>
    rw [Lib.Mirror.step_collected hc, htime] at hrow
    obtain ⟨place, hplace, hplaceRow⟩ := Option.map_eq_some_iff.mp hrow
    have hle := (congrArg Row.time hplaceRow).ge
    obtain ⟨stored, hsource, hmodified⟩ := Lib.Mirror.stamp_le.mp hle
    refine iff_of_true ⟨place, stored, hplace, congrArg Row.live hplaceRow, hsource, hmodified⟩ ?_
    intro h
    obtain ⟨old, oldStored, hold, -, holdSource, hnotOlder⟩ := h
    have hknown : Lib.Mirror.known contentTypeId (d.row contentId) = some (stamp (some oldStored)) := by
      rw [Db.row, hold, Option.map_some, ← holdSource]
      exact if_pos (hstored old hold)
    rw [hknown, Entry.collected, hstorable, Bool.true_and, Option.all_some, htime] at hc
    exact not_lt.mpr (Lib.Mirror.stamp_le.mpr ⟨oldStored, rfl, hnotOlder⟩) (of_decide_eq_true hc)
  | false =>
    rw [Lib.Mirror.step_of_not hc, hhidden, Bool.false_and, if_neg Bool.false_ne_true] at hrow
    obtain ⟨t, ht, hle⟩ := Lib.Mirror.known_of_storable hstorable hc
    obtain ⟨row, hsome, -, rfl⟩ := Lib.Mirror.known_some ht
    rw [hsome] at hrow
    obtain ⟨old, hold, rfl⟩ := Option.map_eq_some_iff.mp hsome
    obtain ⟨place, hplace, hplaceRow⟩ := Option.map_eq_some_iff.mp hrow
    rw [htime] at hle
    obtain ⟨oldStored, holdSource, hnotOlder⟩ := Lib.Mirror.stamp_le.mp hle
    have hlive : place.isActive = old.isActive := congrArg Row.live hplaceRow
    obtain ⟨stored, hsource, hmodified⟩ := Lib.Mirror.stamp_le.mp (hle.trans (congrArg Row.time hplaceRow).ge)
    constructor
    · intro h h'
      obtain ⟨place', _, hplace', hactive, -, -⟩ := h
      obtain ⟨old', _, hold', hinactive, -, -⟩ := h'
      rw [hplace] at hplace'
      rw [hold] at hold'
      cases hplace'
      cases hold'
      rw [hlive, hinactive] at hactive
      cases hactive
    · intro hnot
      refine ⟨place, stored, hplace, ?_, hsource, hmodified⟩
      rw [hlive]
      by_contra hinactive
      exact hnot ⟨old, oldStored, hold, Bool.eq_false_iff.mpr hinactive, holdSource, hnotOlder⟩

end

/-- **When the store mirrors the listing.** -/
theorem mirrored_iff {out : Outside} {numOfRows : Nat} {listing : Int → List Item} {contentTypeIds : List Int}
    {db : Db V} {seq : Nat} (hup : Upstream out numOfRows listing) (hok : PlacesOk db seq)
    (h : ListedOnce listing contentTypeIds db) :
    ((syncIncremental out contentTypeIds numOfRows none false (World.start db seq)).1 = .ok () ∧
        Mirrored listing contentTypeIds
          (syncIncremental out contentTypeIds numOfRows none false (World.start db seq)).2.db) ↔
      ¬ ∃ contentTypeId ∈ contentTypeIds, ∃ item ∈ listing contentTypeId, TakenDown db item := by
  obtain ⟨w, hrun, hreads⟩ := syncIncremental_reads hup contentTypeIds (World.start db seq) hok
  rw [hrun, and_iff_right rfl]
  have hrow : ∀ contentTypeId ∈ contentTypeIds, ∀ item ∈ listing contentTypeId, ∀ contentId,
      item.contentId? = some contentId → w.db.row contentId = Lib.Mirror.step contentTypeId
        (Lib.Mirror.known contentTypeId (db.row contentId)) (db.row contentId) item.entry := by
    intro contentTypeId htype item hitem contentId hid
    rw [(hreads.follows contentId).row]
    exact run_of_once h.once htype hitem hid _
  constructor
  · intro hmirrored h
    obtain ⟨contentTypeId, htype, item, hitem, contentId, modifiedtime, place, stored, hid, hshown, htaken⟩ := h
    refine (shown_iff (fun place => h.stored _ htype item hitem contentId place hid)
      (hrow _ htype item hitem contentId hid) hshown).mp ?_ ⟨place, stored, htaken⟩
    exact hmirrored.shown _ htype item hitem contentId modifiedtime hid hshown
  · intro hnone
    constructor
    · intro contentTypeId htype item hitem contentId place hid hflag hplace
      exact inactive_of_hidden (fun place => h.stored _ htype item hitem contentId place hid)
        (hrow _ htype item hitem contentId hid) hflag hplace
    · intro contentTypeId htype item hitem contentId modifiedtime hid hshown
      refine (shown_iff (fun place => h.stored _ htype item hitem contentId place hid)
        (hrow _ htype item hitem contentId hid) hshown).mpr ?_
      intro h
      obtain ⟨place, stored, htaken⟩ := h
      exact hnone ⟨contentTypeId, htype, item, hitem, contentId, modifiedtime, place, stored, hid, hshown, htaken⟩

/-! ### A place taken down -/

theorem visited_listedOnce (time sourceModifiedAt : String) (isActive : Bool) :
    ListedOnce (visits [time]) [14] (visited sourceModifiedAt isActive) := by
  refine ⟨List.nodup_singleton _, ?_⟩
  intro contentTypeId htype _ _ contentId place _ hplace
  rw [List.mem_singleton.mp htype]
  obtain ⟨hmem, -⟩ := Db.placeOf?_some hplace
  rw [List.mem_singleton.mp hmem]

theorem mirrored_iff_visits :
    ((syncIncremental (visitsUpstream ["20260101000000"]) [14] 1 none false
          (World.start (visited "20250101000000" false) 2)).1 = .ok () ∧
        Mirrored (visits ["20260101000000"]) [14]
          (syncIncremental (visitsUpstream ["20260101000000"]) [14] 1 none false
            (World.start (visited "20250101000000" false) 2)).2.db) ↔
      ¬ ∃ contentTypeId ∈ [14], ∃ item ∈ visits ["20260101000000"] contentTypeId,
        TakenDown (visited "20250101000000" false) item :=
  mirrored_iff (visits_upstream _) (visited_ok _ _) (visited_listedOnce _ _ _)

/-- The place was taken down after its last change, and is shown again with that time: it stays inactive. -/
theorem taken_down_stays_down :
    ¬ ((syncIncremental (visitsUpstream ["20260101000000"]) [14] 1 none false
          (World.start (visited "20260101000000" false) 2)).1 = .ok () ∧
        Mirrored (visits ["20260101000000"]) [14]
          (syncIncremental (visitsUpstream ["20260101000000"]) [14] 1 none false
            (World.start (visited "20260101000000" false) 2)).2.db) := by
  intro h
  obtain ⟨-, hmirrored⟩ := h
  obtain ⟨w, hrun, hreads⟩ := syncIncremental_reads (visits_upstream ["20260101000000"]) [14]
    (World.start (visited "20260101000000" false) 2) (visited_ok _ _)
  rw [hrun] at hmirrored
  have honce := visited_listedOnce "20260101000000" "20260101000000" false
  have htype : (14 : Int) ∈ [14] := List.mem_singleton_self _
  have hitem : visitedAt "20260101000000" ∈ visits ["20260101000000"] 14 := List.mem_singleton_self _
  have hid : (visitedAt "20260101000000").contentId? = some 1006 := rfl
  have hshown : Shown (visitedAt "20260101000000") "20260101000000" := ⟨by decide, by decide, by decide⟩
  have hrow := (hreads.follows 1006).row
  rw [run_of_once honce.once htype hitem hid] at hrow
  refine (shown_iff (fun place => honce.stored _ htype _ hitem _ place hid) hrow hshown).mp
    (hmirrored.shown _ htype _ hitem _ _ hid hshown) ?_
  exact ⟨_, _, rfl, rfl, rfl, le_rfl⟩

end TravelMaker
