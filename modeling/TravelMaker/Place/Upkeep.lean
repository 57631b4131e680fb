import TravelMaker.Lib.History
import TravelMaker.Place.BackfillRun
import TravelMaker.Place.CleanInfo
import TravelMaker.Place.SyncItem

/-! Upkeep of the places: the runs that write what the deterministic tags are made of.

`_process_list_item` stores a place and tags it, `backfill_details` and
`clean_existing_place_info` write `PlaceInfo` and leave the tags alone. -/
namespace TravelMaker
open Lib (Txn)

variable {V : Type}

/-! ### Steps -/

inductive Upkeep where
  | processListItem (out : Outside) (contentTypeId : Int) (listItem : Item) (dryRun skipExisting : Bool)
      (existingIds : Option (List Int))
  | backfillDetails (out : Outside) (contentTypeId : Option Int) (limit : Option Nat) (dryRun refreshInfo : Bool)
  | cleanExistingPlaceInfo (out : Outside) (dryRun : Bool) (batchSize : Int)

/-- The tables and the next id after a part of a run. -/
def afterRun {S : Type} (x : Collect V S Unit) (summary : S) (b : Txn.Base (Db V)) : Txn.Base (Db V) :=
  let w := (x {db := b.db, seq := b.seq, summary := summary}).2
  ⟨w.db, w.seq⟩

def Upkeep.step (b : Txn.Base (Db V)) : Upkeep → Txn.Base (Db V)
  | .processListItem out contentTypeId listItem dryRun skipExisting existingIds =>
    afterRun (TravelMaker.processListItem out contentTypeId listItem dryRun skipExisting existingIds) {} b
  | .backfillDetails out contentTypeId limit dryRun refreshInfo =>
    afterRun (TravelMaker.backfillDetails out contentTypeId limit dryRun refreshInfo) {} b
  | .cleanExistingPlaceInfo out dryRun batchSize => afterRun (TravelMaker.cleanExistingPlaceInfo out dryRun batchSize) {} b

/-! ### Tags in step -/

/-- The tags of `seed_tags` that the deterministic ones are taken from. -/
structure Seeded (tags : List Tag) : Prop extends TagsOk tags where
  regions : ∀ name ∈ regionPrefixMap.map (·.2), ∃ tag ∈ tags, tag.tagType = regionTagType ∧ tag.tagName = name
  facilities : ∀ name ∈ facilityBoolTags.map (·.2) ++ [freeAdmissionTag],
    ∃ tag ∈ tags, tag.tagType = facilityTagType ∧ tag.tagName = name

/-- The region and facility tags of the place are those of its row and its `PlaceInfo`. -/
structure TagsInStep (d : Db V) (place : Place) : Prop where
  region : ∀ name, (∃ tag ∈ d.tagsOf place.id, tag.tagType = regionTagType ∧ tag.tagName = name) ↔
    regionTagName place.addressPrimary = some name
  facility : ∀ name, (∃ tag ∈ d.tagsOf place.id, tag.tagType = facilityTagType ∧ tag.tagName = name) ↔
    name ∈ facilityTagNames (d.placeInfo? place.id)

def InStep (d : Db V) : Prop := ∀ place ∈ d.places, TagsInStep d place

/-- Tag by tag. -/
def TagsAgree (d : Db V) (id : Int) (addressPrimary : Option String) : Prop :=
  ∀ tag ∈ d.tags, tag.tagType ∈ deterministicTagTypes →
    ((id, tag.id) ∈ d.placeTags ↔ HasTag addressPrimary (d.placeInfo? id) tag)

theorem regionTagName_mem {addressPrimary : Option String} {name : String} (h : regionTagName addressPrimary = some name) :
    name ∈ regionPrefixMap.map (·.2) := by
  obtain ⟨address, -, h⟩ := Option.bind_eq_some_iff.mp h
  obtain ⟨token, -, h⟩ := Option.bind_eq_some_iff.mp h
  obtain ⟨before, after, hsplit, -⟩ := List.lookup_eq_some_iff.mp h
  rw [hsplit, List.map_append, List.map_cons]
  exact List.mem_append_right _ List.mem_cons_self

theorem facilityTagNames_mem {info : Option PlaceInfo} {name : String} (h : name ∈ facilityTagNames info) :
    name ∈ facilityBoolTags.map (·.2) ++ [freeAdmissionTag] := by
  cases info with
  | none => cases h
  | some info =>
    rcases List.mem_append.mp h with h | h
    · obtain ⟨entry, hentry, rfl⟩ := List.mem_map.mp h
      exact List.mem_append_left _ (List.mem_map_of_mem (List.mem_filter.mp hentry).1)
    · apply List.mem_append_right _
      split at h
      · exact h
      · cases h

theorem mem_tagsOf {d : Db V} {id : Int} {tag : Tag} : tag ∈ d.tagsOf id ↔ tag ∈ d.tags ∧ (id, tag.id) ∈ d.placeTags := by
  unfold Db.tagsOf
  rw [List.mem_filter, decide_eq_true_eq]

theorem mem_deterministicTagTypes {tagType : String} :
    tagType ∈ deterministicTagTypes ↔ tagType = regionTagType ∨ tagType = facilityTagType := by
  unfold deterministicTagTypes
  rw [List.mem_cons, List.mem_singleton]

/-- The tags of a type, by their names and one by one. -/
theorem names_iff {d : Db V} (htags : TagsOk d.tags) (id : Int) {tagType : String} {P : String → Prop}
    (hseeded : ∀ name, P name → ∃ tag ∈ d.tags, tag.tagType = tagType ∧ tag.tagName = name) :
    (∀ name, (∃ tag ∈ d.tagsOf id, tag.tagType = tagType ∧ tag.tagName = name) ↔ P name) ↔
      ∀ tag ∈ d.tags, tag.tagType = tagType → ((id, tag.id) ∈ d.placeTags ↔ P tag.tagName) := by
  constructor
  · intro h tag htag htype
    rw [← h tag.tagName]
    constructor
    · exact fun hmem => ⟨tag, mem_tagsOf.mpr ⟨htag, hmem⟩, htype, rfl⟩
    · intro h
      obtain ⟨other, hother, -, hname⟩ := h
      obtain ⟨hmem, hplace⟩ := mem_tagsOf.mp hother
      exact List.inj_on_of_nodup_map htags.names hmem htag hname ▸ hplace
  · intro h name
    constructor
    · intro h
      obtain ⟨tag, htag, htype, rfl⟩ := h
      obtain ⟨hmem, hplace⟩ := mem_tagsOf.mp htag
      exact (h tag hmem htype).mp hplace
    · intro hname
      obtain ⟨tag, htag, htype, rfl⟩ := hseeded name hname
      exact ⟨tag, mem_tagsOf.mpr ⟨htag, (h tag htag htype).mpr hname⟩, htype, rfl⟩

theorem hasTag_region {addressPrimary : Option String} {info : Option PlaceInfo} {tag : Tag}
    (htype : tag.tagType = regionTagType) :
    HasTag addressPrimary info tag ↔ regionTagName addressPrimary = some tag.tagName := by
  have hne : regionTagType ≠ facilityTagType := by decide
  unfold HasTag
  rw [htype, or_iff_left fun h => hne h.1, and_iff_right rfl]

theorem hasTag_facility {addressPrimary : Option String} {info : Option PlaceInfo} {tag : Tag}
    (htype : tag.tagType = facilityTagType) : HasTag addressPrimary info tag ↔ tag.tagName ∈ facilityTagNames info := by
  have hne : facilityTagType ≠ regionTagType := by decide
  unfold HasTag
  rw [htype, or_iff_right fun h => hne h.1, and_iff_right rfl]

theorem tagsInStep_iff {d : Db V} (htags : Seeded d.tags) {place : Place} :
    TagsInStep d place ↔ TagsAgree d place.id place.addressPrimary := by
  have hregion := names_iff (P := fun name => regionTagName place.addressPrimary = some name) htags.toTagsOk place.id
    fun name hname => htags.regions name (regionTagName_mem hname)
  have hfacility := names_iff (P := (· ∈ facilityTagNames (d.placeInfo? place.id))) htags.toTagsOk place.id
    fun name hname => htags.facilities name (facilityTagNames_mem hname)
  constructor
  · intro h tag htag htype
    rcases mem_deterministicTagTypes.mp htype with htype | htype
    · rw [hasTag_region htype]
      exact hregion.mp h.region tag htag htype
    · rw [hasTag_facility htype]
      exact hfacility.mp h.facility tag htag htype
  · intro h
    refine ⟨hregion.mpr fun tag htag htype => ?_, hfacility.mpr fun tag htag htype => ?_⟩
    · rw [← hasTag_region htype]
      exact h tag htag (mem_deterministicTagTypes.mpr (.inl htype))
    · rw [← hasTag_facility htype]
      exact h tag htag (mem_deterministicTagTypes.mpr (.inr htype))

/-! ### What every step keeps -/

/-- No fee that is written has a tag. -/
def CleanFees (defaults : List InfoDefault) : Prop :=
  ∀ fee, InfoDefault.text .admissionFee (some fee) ∈ defaults → Untagged fee.toList

theorem mem_of_mem_appended {c : Prop} [Decidable c] {x last : InfoDefault} {defaults : List InfoDefault} (hne : x ≠ last)
    (h : x ∈ if c then defaults ++ [last] else defaults) : x ∈ defaults := by
  split at h
  · rcases List.mem_append.mp h with h | h
    · exact h
    · exact absurd (List.mem_singleton.mp h) hne
  · exact h

theorem cleanFees_of_build {contentTypeId : Int} {item : Item} {defaults : List InfoDefault}
    (h : buildPlaceInfoDefaults contentTypeId item = some defaults) : CleanFees defaults := by
  intro fee hfee
  obtain ⟨fieldMap, -, rfl⟩ := Option.map_eq_some_iff.mp h
  obtain ⟨⟨field, key⟩, -, heq⟩ := List.mem_map.mp (mem_of_mem_appended (by simp) hfee)
  cases field with
  | flag f => cases heq
  | text f => exact untagged_clean (InfoDefault.text.inj heq).2

theorem CleanFees.foldl {defaults : List InfoDefault} (h : CleanFees defaults) {info : PlaceInfo} (hinfo : info.CleanFee) :
    (defaults.foldl PlaceInfo.set info).CleanFee := by
  induction defaults generalizing info with
  | nil => exact hinfo
  | cons x rest ih =>
    refine ih (fun fee hfee => h fee (List.mem_cons_of_mem _ hfee)) ?_
    intro fee hfee
    cases x with
    | flag f v =>
      cases f <;> exact hinfo fee hfee
    | text f v =>
      cases f with
      | admissionFee =>
        have hv : v = some fee := hfee
        exact h fee (hv ▸ List.mem_cons_self)
      | _ => exact hinfo fee hfee

/-- The keys of the tables, the seeds, and fees without tags. -/
structure StoreOk (d : Db V) (seq : Nat) : Prop where
  places : PlacesOk d seq
  infoIds : (d.placeInfos.map (·.placeId)).Nodup
  fees : ∀ info ∈ d.placeInfos, info.CleanFee
  seeded : Seeded d.tags

theorem StoreOk.mono {d : Db V} {n m : Nat} (hle : n ≤ m) (h : StoreOk d n) : StoreOk d m :=
  {h with places := h.places.mono hle}

theorem StoreOk.saveInfo {d : Db V} {seq : Nat} (h : StoreOk d seq) (placeId : Int) {defaults : List InfoDefault}
    (hdefaults : CleanFees defaults) : StoreOk (d.saveInfo placeId defaults) seq := by
  refine ⟨⟨h.places.ids, h.places.contentIds, h.places.fresh⟩, ?_, ?_, h.seeded⟩
  · show ((upsertInfo placeId defaults d.placeInfos).map (·.placeId)).Nodup
    unfold upsertInfo
    split
    · rw [List.map_map]
      have hkey : (·.placeId) ∘ (fun info : PlaceInfo => if info.placeId = placeId then defaults.foldl PlaceInfo.set info else info) =
          (·.placeId) := by
        funext info
        rw [Function.comp_apply]
        split
        · exact foldl_set_placeId defaults info
        · rfl
      rw [hkey]
      exact h.infoIds
    · rename_i hnone
      rw [List.map_append, List.nodup_append_comm]
      refine List.nodup_cons.mpr ⟨fun hmem => hnone ?_, h.infoIds⟩
      obtain ⟨info, hinfo, hid⟩ := List.mem_map.mp hmem
      refine List.any_eq_true.mpr ⟨info, hinfo, ?_⟩
      rw [beq_iff_eq, hid]
      exact foldl_set_placeId defaults _
  · intro info hinfo
    have hmem : info ∈ upsertInfo placeId defaults d.placeInfos := hinfo
    unfold upsertInfo at hmem
    split at hmem
    · obtain ⟨old, hold, rfl⟩ := List.mem_map.mp hmem
      split
      · exact hdefaults.foldl (h.fees old hold)
      · exact h.fees old hold
    · rcases List.mem_append.mp hmem with hmem | hmem
      · exact h.fees info hmem
      · rw [List.mem_singleton.mp hmem]
        exact hdefaults.foldl fun fee hfee => nomatch hfee

theorem StoreOk.saveIntro {d : Db V} {seq : Nat} (h : StoreOk d seq) (placeId contentTypeId : Int) (intro : Option Item) :
    StoreOk (d.saveIntro placeId contentTypeId intro) seq := by
  cases intro with
  | none => exact h
  | some item =>
    apply h.saveInfo placeId
    cases hbuild : buildPlaceInfoDefaults contentTypeId item with
    | none => exact fun _ hfee => (List.not_mem_nil hfee).elim
    | some defaults => exact cleanFees_of_build hbuild

theorem StoreOk.congr {d d' : Db V} {seq : Nat} (h : StoreOk d seq) (hplaces : d'.places = d.places)
    (hinfos : d'.placeInfos = d.placeInfos) (htags : d'.tags = d.tags) : StoreOk d' seq :=
  ⟨h.places.congr hplaces, hinfos ▸ h.infoIds, hinfos ▸ h.fees, htags ▸ h.seeded⟩

/-! ### A stored item -/

section
variable {d : Db V} {n : Nat} {contentId : Int} {defaults : PlaceDefaults} {f : Place → Place}
  (hf : ∀ p, (f p).id = p.id ∧ (f p).contentId = p.contentId)

include hf

theorem StoreOk.writePlace (h : StoreOk d n) : StoreOk (d.writePlace n contentId defaults f)
    (if (d.placeOf? contentId).isNone then n + 1 else n) := by
  obtain ⟨hinfos, htags, -⟩ := d.writePlace_tables n contentId defaults f
  exact ⟨placesOk_writePlace h.places hf contentId defaults, hinfos ▸ h.infoIds, hinfos ▸ h.fees, htags ▸ h.seeded⟩

/-- The other rows are as they were. -/
theorem mem_writePlace_of_ne {place : Place} (hplace : place ∈ (d.writePlace n contentId defaults f).places)
    (hne : place.id ≠ (f (d.rowFor n contentId defaults)).id) : place ∈ d.places := by
  unfold Db.writePlace at hplace
  cases hrow : d.placeOf? contentId with
  | none =>
    rw [hrow] at hplace
    rcases List.mem_append.mp hplace with hplace | hplace
    · exact hplace
    · exact absurd (congrArg Place.id (List.mem_singleton.mp hplace)) hne
  | some row =>
    rw [hrow] at hplace
    obtain ⟨old, hold, rfl⟩ := List.mem_map.mp hplace
    have hrowFor : d.rowFor n contentId defaults = row := by
      unfold Db.rowFor
      rw [hrow, Option.getD_some]
    rw [hrowFor, (hf row).1] at hne
    by_cases hid : old.id = row.id
    · rw [if_pos hid, (hf old).1] at hne
      exact absurd hid hne
    · rw [if_neg hid]
      exact hold

end

theorem mem_retag_of_ne {d : Db V} {placeId p tagId : Int} {addressPrimary : Option String} (hne : p ≠ placeId) :
    (p, tagId) ∈ (d.retag placeId addressPrimary).placeTags ↔ (p, tagId) ∈ d.placeTags := by
  unfold Db.retag
  rw [Db.mem_addPlaceTags, Db.mem_addPlaceTags, Db.mem_removePlaceTags]
  simp [hne]

theorem placeInfo?_saveInfo_of_ne {d : Db V} {placeId id : Int} {defaults : List InfoDefault} (hne : id ≠ placeId) :
    (d.saveInfo placeId defaults).placeInfo? id = d.placeInfo? id :=
  (find?_upsertInfo placeId defaults d.placeInfos id).trans (if_neg hne)

theorem placeInfo?_saveIntro_of_ne {d : Db V} {placeId id contentTypeId : Int} {intro : Option Item} (hne : id ≠ placeId) :
    (d.saveIntro placeId contentTypeId intro).placeInfo? id = d.placeInfo? id := by
  cases intro with
  | none => rfl
  | some item => exact placeInfo?_saveInfo_of_ne hne

/-- What a step keeps, with the tags in step. -/
def UpToDate (d : Db V) (seq : Nat) : Prop := StoreOk d seq ∧ ∀ place ∈ d.places, TagsAgree d place.id place.addressPrimary

theorem upToDate_iff {d : Db V} {seq : Nat} : UpToDate d seq ↔ StoreOk d seq ∧ InStep d := by
  refine and_congr_right fun h => forall_congr' fun place => forall_congr' fun _ => ?_
  exact (tagsInStep_iff h.seeded).symm

section
variable {d : Db V} {n : Nat} {contentTypeId contentId : Int} {listItem : Item} {firstimage : String} {images : List Item}
  {intro : Option Item} {defaults : PlaceDefaults} {f : Place → Place}
  (hf : ∀ p, (f p).id = p.id ∧ (f p).contentId = p.contentId)
include hf

theorem StoreOk.saved (h : StoreOk d n) :
    StoreOk (d.saved n contentTypeId contentId listItem firstimage images intro defaults f)
      (if (d.placeOf? contentId).isNone then n + 1 else n) := by
  have hwritten : StoreOk (d.writePlace n contentId defaults f) _ := h.writePlace hf
  unfold Db.saved
  dsimp only
  generalize f (d.rowFor n contentId defaults) = place
  generalize d.writePlace n contentId defaults f = d' at hwritten
  have himages : StoreOk (d'.saveImageRows place.id (imageRows images (some firstimage) (listItem.get "firstimage2"))) _ :=
    hwritten.congr rfl rfl rfl
  exact (himages.saveIntro place.id contentTypeId intro).congr rfl rfl rfl

/-- **A stored item is tagged**, and no other place is touched. -/
theorem UpToDate.saved (h : UpToDate d n) :
    UpToDate (d.saved n contentTypeId contentId listItem firstimage images intro defaults f)
      (if (d.placeOf? contentId).isNone then n + 1 else n) := by
  obtain ⟨hok, hagree⟩ := h
  refine ⟨hok.saved hf, ?_⟩
  have hids : ((d.saved n contentTypeId contentId listItem firstimage images intro defaults f).places.map (·.id)).Nodup :=
    (hok.saved hf).places.ids
  have hstored : StoredAs (f (d.rowFor n contentId defaults)) _ _
      (d.saved n contentTypeId contentId listItem firstimage images intro defaults f) :=
    storedAs_saved hok.seeded.toTagsOk fun p => (hf p).2
  obtain ⟨hinfos, htags, hplaceTags⟩ := d.writePlace_tables n contentId defaults f
  intro place hplace
  by_cases hid : place.id = (f (d.rowFor n contentId defaults)).id
  · rw [List.inj_on_of_nodup_map hids hplace (Db.placeOf?_some hstored.row).1 hid]
    exact hstored.tags
  · rw [saved_places] at hplace
    have hold := hagree place (mem_writePlace_of_ne hf hplace hid)
    intro tag htag htype
    have hinfo : (d.saved n contentTypeId contentId listItem firstimage images intro defaults f).placeInfo? place.id =
        d.placeInfo? place.id := by
      rw [Db.saved, Db.retag_placeInfo?, placeInfo?_saveIntro_of_ne hid, Db.saveImageRows_placeInfo?]
      exact congrArg (List.find? _) hinfos
    have hplaceTag : (place.id, tag.id) ∈
        (d.saved n contentTypeId contentId listItem firstimage images intro defaults f).placeTags ↔
        (place.id, tag.id) ∈ d.placeTags := by
      rw [Db.saved, mem_retag_of_ne hid, Db.saveIntro_placeTags, Db.saveImageRows_placeTags, hplaceTags]
    rw [hinfo, hplaceTag]
    refine hold tag ?_ htype
    rwa [Db.saved, Db.retag_tags, Db.saveIntro_tags, Db.saveImageRows_tags, htags] at htag

end

/-- What a stored item keeps. -/
def KeptBySaved (I : Db V → Nat → Prop) : Prop :=
  ∀ d n contentTypeId contentId listItem firstimage images intro defaults f,
    (∀ p, (f p).id = p.id ∧ (f p).contentId = p.contentId) → I d n →
      I (d.saved n contentTypeId contentId listItem firstimage images intro defaults f)
        (if (d.placeOf? contentId).isNone then n + 1 else n)

/-- What a stored item of one content id keeps. -/
def KeptBySavedOf (I : Db V → Nat → Prop) (contentId : Int) : Prop :=
  ∀ d n contentTypeId listItem firstimage images intro defaults f,
    (∀ p, (f p).id = p.id ∧ (f p).contentId = p.contentId) → I d n →
      I (d.saved n contentTypeId contentId listItem firstimage images intro defaults f)
        (if (d.placeOf? contentId).isNone then n + 1 else n)

theorem KeptBySavedOf.saveListItem {I : Db V → Nat → Prop} {contentId : Int} (hsaved : KeptBySavedOf I contentId)
    {out : Outside} {contentTypeId : Int} {listItem : Item} {firstimage : String} {common : Option Item} {images : List Item}
    {intro : Option Item} {d : Db V} {n : Nat} {r : Saved × Db V × Nat} (h : I d n)
    (heval : (saveListItem out.column contentTypeId contentId listItem firstimage common images intro).eval d n = .ok r) :
    I r.2.1 r.2.2 := by
  cases hdefaults : buildPlaceDefaults listItem common intro with
  | error e =>
    rw [saveListItem_eval, hdefaults] at heval
    cases heval
  | ok defaults =>
    rw [saveListItem_eval_ok hdefaults] at heval
    cases hc : itemCoordinates out.column listItem with
    | error e =>
      rw [hc] at heval
      cases heval
    | ok c =>
      rw [hc] at heval
      cases heval
      exact hsaved d n contentTypeId listItem firstimage images intro defaults _ (fun p => ⟨rfl, rfl⟩) h

/-- A call of `_process_list_item` keeps what storing its item keeps; a dry run stores nothing. -/
theorem keeps_processListItem_of {I : Db V → Nat → Prop} (hseq : ∀ d n m, n ≤ m → I d n → I d m) (out : Outside)
    (contentTypeId : Int) {listItem : Item} {dryRun : Bool} (skipExisting : Bool) (existingIds : Option (List Int))
    (hsaved : dryRun = false → ∀ contentId, listItem.intAt "contentid" = .ok contentId → KeptBySavedOf I contentId) :
    Keeps I (processListItem out contentTypeId listItem dryRun skipExisting existingIds) := by
  refine (blind_keeps I).processListItem (fun c _ => keeps_call out c) fun hdry contentId hid firstimage common images intro => ?_
  exact keeps_atomic hseq (atomic_saveListItem ..) fun d n r h heval => (hsaved hdry contentId hid).saveListItem h heval

/-- A call of `_process_list_item` keeps what a stored item keeps. -/
theorem keeps_processListItem {I : Db V → Nat → Prop} (hseq : ∀ d n m, n ≤ m → I d n → I d m) (hsaved : KeptBySaved I)
    (out : Outside) (contentTypeId : Int) (listItem : Item) (dryRun skipExisting : Bool) (existingIds : Option (List Int)) :
    Keeps I (processListItem out contentTypeId listItem dryRun skipExisting existingIds) :=
  keeps_processListItem_of hseq out contentTypeId skipExisting existingIds fun _ contentId _ d n contentTypeId =>
    hsaved d n contentTypeId contentId

end TravelMaker
