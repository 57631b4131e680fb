import Mathlib.Data.List.Nodup
import TravelMaker.Lib.Text
import TravelMaker.Database

/-! Tags of a place. Its region, from the address, and its facilities, from `PlaceInfo`,
are deterministic; the others are those that `ai_tag` found. The names of the tags are
those of `tag_seeds`. -/
namespace TravelMaker
open Lib (Txn)

variable {V : Type}

def regionTagType : String := "지역"
def facilityTagType : String := "편의성"
def freeAdmissionTag : String := "무료"

/-- `DETERMINISTIC_TAG_TYPES`. -/
def deterministicTagTypes : List String := [regionTagType, facilityTagType]

def travelStyleTagType : String := "여행 스타일"
def subThemeTagType : String := "세부 테마"
def companionTagType : String := "동행"

/-- `AI_TAG_TYPES`. -/
def aiTagTypes : List String := [travelStyleTagType, subThemeTagType, companionTagType]

def regionPrefixMap : List (String × String) := [
  ("서울특별시", "서울"),
  ("인천광역시", "인천"),
  ("대전광역시", "대전"),
  ("대구광역시", "대구"),
  ("광주광역시", "광주"),
  ("부산광역시", "부산"),
  ("울산광역시", "울산"),
  ("세종특별자치시", "세종"),
  ("경기도", "경기"),
  ("강원특별자치도", "강원"),
  ("강원도", "강원"),
  ("충청북도", "충북"),
  ("충청남도", "충남"),
  ("전북특별자치도", "전북"),
  ("전라북도", "전북"),
  ("전라남도", "전남"),
  ("경상북도", "경북"),
  ("경상남도", "경남"),
  ("제주특별자치도", "제주"),
  ("제주도", "제주")]

/-- `FACILITY_BOOL_TAGS`, each with its field. -/
def facilityBoolTags : List ((PlaceInfo → Option Bool) × String) := [
  (PlaceInfo.parking, "주차"),
  (PlaceInfo.pet, "반려동물"),
  (PlaceInfo.babyCarriage, "유아 동반"),
  (PlaceInfo.creditCard, "카드 결제")]

def regionTagName (addressPrimary : Option String) : Option String :=
  addressPrimary.bind fun address =>
    (Lib.Text.split address).head?.bind fun token => regionPrefixMap.lookup token

/-- A place without `PlaceInfo` has no facilities. -/
def facilityTagNames : Option PlaceInfo → List String
  | none => []
  | some info =>
    ((facilityBoolTags.filter fun (field, _) => field info == some true).map (·.2)) ++
      if info.admissionFee.any (Lib.Text.contains · "무료") then [freeAdmissionTag] else []

namespace Db

def placeInfo? (d : Db V) (placeId : Int) : Option PlaceInfo := d.placeInfos.find? (·.placeId == placeId)

/-- The tags of a place. -/
def tagsOf (d : Db V) (placeId : Int) : List Tag :=
  d.tags.filter fun tag => (placeId, tag.id) ∈ d.placeTags

def addPlaceTags (placeId : Int) (tagIds : List Int) (d : Db V) : Db V :=
  {d with placeTags := d.placeTags ++
    (tagIds.filter fun tagId => (placeId, tagId) ∉ d.placeTags).map fun tagId => (placeId, tagId)}

def removePlaceTags (placeId : Int) (tagIds : List Int) (d : Db V) : Db V :=
  {d with placeTags := d.placeTags.filter fun (p, tagId) => !(p == placeId && tagIds.contains tagId)}

end Db

def assignRegionTag (placeId : Int) (addressPrimary : Option String) : Service V (Option String) :=
  match regionTagName addressPrimary with
  | none => return none
  | some name => do
    let d ← Txn.read
    match d.tags.find? fun tag => tag.tagName == name && tag.tagType == regionTagType with
    | none => return none
    | some tag =>
      let _ ← Txn.put (.placeTags placeId) (Db.addPlaceTags placeId [tag.id])
      return some name

def assignFacilityTags (placeId : Int) : Service V (List String) := do
  let d ← Txn.read
  let names := facilityTagNames (d.placeInfo? placeId)
  if names = [] then return []
  else
    let d ← Txn.read
    let tags := d.tags.filter fun tag => names.contains tag.tagName && tag.tagType == facilityTagType
    if tags ≠ [] then
      let _ ← Txn.put (.placeTags placeId) (Db.addPlaceTags placeId (tags.map (·.id)))
    return tags.map (·.tagName)

def assignDeterministicTags (placeId : Int) (addressPrimary : Option String) : Service V Unit := do
  let d ← Txn.read
  let existing := (d.tagsOf placeId).filter fun tag => deterministicTagTypes.contains tag.tagType
  if existing ≠ [] then
    let _ ← Txn.put (.placeTags placeId) (Db.removePlaceTags placeId (existing.map (·.id)))
  let _ ← assignRegionTag placeId addressPrimary
  let _ ← assignFacilityTags placeId

/-- The names of the tags that the place has then. -/
def assignAiTags (placeId : Int) (names : List String) : Service V (List String) := do
  let d ← Txn.read
  let existing := (d.tagsOf placeId).filter fun tag => aiTagTypes.contains tag.tagType
  if existing ≠ [] then
    let _ ← Txn.put (.placeTags placeId) (Db.removePlaceTags placeId (existing.map (·.id)))
  if names = [] then return []
  else
    let d ← Txn.read
    let tags := d.tags.filter fun tag => names.contains tag.tagName && aiTagTypes.contains tag.tagType
    if tags ≠ [] then
      let _ ← Txn.put (.placeTags placeId) (Db.addPlaceTags placeId (tags.map (·.id)))
    return tags.map (·.tagName)

/-! ### What the statements leave -/

namespace Db

/-- The ids that `assign_deterministic_tags` removes. -/
def deterministicIds (d : Db V) (placeId : Int) : List Int :=
  ((d.tagsOf placeId).filter fun tag => deterministicTagTypes.contains tag.tagType).map (·.id)

/-- The seeded region tag of an address. -/
def regionIds (d : Db V) (addressPrimary : Option String) : List Int :=
  match regionTagName addressPrimary with
  | none => []
  | some name =>
    ((d.tags.find? fun tag => tag.tagName == name && tag.tagType == regionTagType).map (·.id)).toList

/-- The seeded facility tags of a place. -/
def facilityIds (d : Db V) (placeId : Int) : List Int :=
  (d.tags.filter fun tag =>
    (facilityTagNames (d.placeInfo? placeId)).contains tag.tagName && tag.tagType == facilityTagType).map (·.id)

/-- The tables after `assign_deterministic_tags`. -/
def retag (placeId : Int) (addressPrimary : Option String) (d : Db V) : Db V :=
  ((d.removePlaceTags placeId (d.deterministicIds placeId)).addPlaceTags placeId
    (d.regionIds addressPrimary)).addPlaceTags placeId (d.facilityIds placeId)

/-- The ids that `assign_ai_tags` removes. -/
def aiIds (d : Db V) (placeId : Int) : List Int :=
  ((d.tagsOf placeId).filter fun tag => aiTagTypes.contains tag.tagType).map (·.id)

/-- The seeded AI tags of these names. -/
def aiSeeds (d : Db V) (names : List String) : List Tag :=
  d.tags.filter fun tag => names.contains tag.tagName && aiTagTypes.contains tag.tagType

/-- The tables after `assign_ai_tags`. -/
def retagAi (placeId : Int) (names : List String) (d : Db V) : Db V :=
  (d.removePlaceTags placeId (d.aiIds placeId)).addPlaceTags placeId ((d.aiSeeds names).map (·.id))

@[simp] theorem addPlaceTags_nil (placeId : Int) (d : Db V) : d.addPlaceTags placeId [] = d := by
  simp [addPlaceTags]

@[simp] theorem removePlaceTags_nil (placeId : Int) (d : Db V) : d.removePlaceTags placeId [] = d := by
  simp [removePlaceTags]

theorem mem_addPlaceTags {placeId p tagId : Int} {tagIds : List Int} {d : Db V} :
    (p, tagId) ∈ (d.addPlaceTags placeId tagIds).placeTags ↔
      (p, tagId) ∈ d.placeTags ∨ (p = placeId ∧ tagId ∈ tagIds) := by
  simp only [addPlaceTags, List.mem_append, List.mem_map, List.mem_filter, decide_eq_true_eq, Prod.mk.injEq]
  constructor
  · intro h
    obtain h | ⟨x, ⟨hx, -⟩, rfl, rfl⟩ := h
    · exact .inl h
    · exact .inr ⟨rfl, hx⟩
  · intro h
    obtain h | ⟨rfl, h⟩ := h
    · exact .inl h
    · by_cases hold : (p, tagId) ∈ d.placeTags
      · exact .inl hold
      · exact .inr ⟨tagId, ⟨h, hold⟩, rfl, rfl⟩

theorem mem_removePlaceTags {placeId p tagId : Int} {tagIds : List Int} {d : Db V} :
    (p, tagId) ∈ (d.removePlaceTags placeId tagIds).placeTags ↔
      (p, tagId) ∈ d.placeTags ∧ ¬ (p = placeId ∧ tagId ∈ tagIds) := by
  simp only [removePlaceTags, List.mem_filter, Bool.not_eq_true', Bool.and_eq_false_iff, beq_eq_false_iff_ne,
    List.contains_eq_mem, decide_eq_false_iff_not, not_and_or]

end Db

theorem assignRegionTag_eval (placeId : Int) (addressPrimary : Option String) (d : Db V) (n : Nat) :
    ∃ name, (assignRegionTag placeId addressPrimary).eval d n =
      .ok (name, d.addPlaceTags placeId (d.regionIds addressPrimary), n) := by
  unfold assignRegionTag Db.regionIds
  cases regionTagName addressPrimary with
  | none =>
    rw [Db.addPlaceTags_nil]
    exact ⟨none, rfl⟩
  | some name =>
    simp only [Txn.read_bind, Txn.eval]
    cases d.tags.find? fun tag => tag.tagName == name && tag.tagType == regionTagType with
    | none =>
      simp only [Option.map_none, Option.toList_none, Db.addPlaceTags_nil]
      exact ⟨none, rfl⟩
    | some tag => exact ⟨some name, rfl⟩

theorem assignFacilityTags_eval (placeId : Int) (d : Db V) (n : Nat) :
    ∃ names, (assignFacilityTags placeId).eval d n =
      .ok (names, d.addPlaceTags placeId (d.facilityIds placeId), n) := by
  unfold assignFacilityTags Db.facilityIds
  simp only [Txn.read_bind, Txn.eval]
  by_cases hnames : facilityTagNames (d.placeInfo? placeId) = []
  · rw [if_pos hnames, hnames]
    exact ⟨[], by simp [Txn.eval]⟩
  · rw [if_neg hnames, Txn.eval]
    by_cases htags : (d.tags.filter fun tag => (facilityTagNames (d.placeInfo? placeId)).contains tag.tagName &&
        tag.tagType == facilityTagType) = []
    · rw [if_neg (by simpa using htags), htags]
      exact ⟨[], by simp [Txn.eval]⟩
    · rw [if_pos htags]
      exact ⟨_, rfl⟩

theorem assignDeterministicTags_eval (placeId : Int) (addressPrimary : Option String) (d : Db V) (n : Nat) :
    (assignDeterministicTags placeId addressPrimary).eval d n =
      .ok ((), d.retag placeId addressPrimary, n) := by
  have hrest : ∀ d' : Db V, (do
      let _ ← assignRegionTag placeId addressPrimary
      let _ ← assignFacilityTags placeId : Service V Unit).eval d' n =
        .ok ((), (d'.addPlaceTags placeId (d'.regionIds addressPrimary)).addPlaceTags placeId
          ((d'.addPlaceTags placeId (d'.regionIds addressPrimary)).facilityIds placeId), n) := by
    intro d'
    obtain ⟨name, hregion⟩ := assignRegionTag_eval placeId addressPrimary d' n
    obtain ⟨names, hfacility⟩ :=
      assignFacilityTags_eval placeId (d'.addPlaceTags placeId (d'.regionIds addressPrimary)) n
    rw [Txn.eval_bind_ok hregion, Txn.eval_bind_ok hfacility]
    rfl
  unfold assignDeterministicTags
  simp only [Txn.read_bind, Txn.eval]
  by_cases hexisting : ((d.tagsOf placeId).filter fun tag => deterministicTagTypes.contains tag.tagType) = []
  · rw [if_neg (by simpa using hexisting)]
    have hids : d.deterministicIds placeId = [] := by
      unfold Db.deterministicIds
      rw [hexisting]
      rfl
    apply (hrest d).trans
    unfold Db.retag
    rw [hids, Db.removePlaceTags_nil]
    rfl
  · rw [if_pos hexisting]
    exact hrest _

theorem assignAiTags_eval (placeId : Int) (names : List String) (d : Db V) (n : Nat) :
    (assignAiTags placeId names).eval d n =
      .ok ((d.aiSeeds names).map (·.tagName), d.retagAi placeId names, n) := by
  have hseeds : ∀ d' : Db V, d'.tags = d.tags → d'.aiSeeds names = d.aiSeeds names := by
    intro d' htags
    unfold Db.aiSeeds
    rw [htags]
  have hrest : ∀ d' : Db V, d'.tags = d.tags → (if names = [] then (return []) else do
      let d ← Txn.read
      let tags := d.aiSeeds names
      if tags ≠ [] then
        let _ ← Txn.put (.placeTags placeId) (Db.addPlaceTags placeId (tags.map (·.id)))
      return tags.map (·.tagName) : Service V (List String)).eval d' n =
        .ok ((d.aiSeeds names).map (·.tagName), d'.addPlaceTags placeId ((d.aiSeeds names).map (·.id)), n) := by
    intro d' htags
    by_cases hnames : names = []
    · have hnone : d.aiSeeds names = [] := by simp [Db.aiSeeds, hnames]
      rw [if_pos hnames, hnone]
      simp [Txn.eval]
    · rw [if_neg hnames]
      simp only [Txn.read_bind, Txn.eval, hseeds d' htags]
      by_cases htags : d.aiSeeds names = []
      · rw [if_neg (by simpa using htags), htags]
        simp [Txn.eval]
      · rw [if_pos htags]
        rfl
  unfold assignAiTags
  simp only [Txn.read_bind, Txn.eval]
  by_cases hexisting : ((d.tagsOf placeId).filter fun tag => aiTagTypes.contains tag.tagType) = []
  · rw [if_neg (by simpa using hexisting)]
    have hids : d.aiIds placeId = [] := by
      unfold Db.aiIds
      rw [hexisting]
      rfl
    apply (hrest d rfl).trans
    rw [Db.retagAi, hids, Db.removePlaceTags_nil]
  · rw [if_pos hexisting]
    exact hrest _ rfl

theorem atomic_assignDeterministicTags (placeId : Int) (addressPrimary : Option String) :
    (assignDeterministicTags (V := V) placeId addressPrimary).Atomic := by
  have hregion : (assignRegionTag (V := V) placeId addressPrimary).Atomic := by
    unfold assignRegionTag
    split
    · trivial
    · simp only [Txn.read_bind]
      intro d
      dsimp only
      split
      · trivial
      · exact fun _ => trivial
  have hfacility : (assignFacilityTags (V := V) placeId).Atomic := by
    intro d
    show Txn.Atomic (ite _ _ _)
    split
    · trivial
    · intro d'
      show Txn.Atomic (ite _ _ _)
      split
      · exact fun _ => trivial
      · trivial
  intro d
  show Txn.Atomic (ite _ _ _)
  split
  · exact fun _ => hregion.bind fun _ => hfacility.bind fun _ => trivial
  · exact hregion.bind fun _ => hfacility.bind fun _ => trivial

/-! ### Which tags a place has then -/

/-- The unique columns of the tags. -/
structure TagsOk (tags : List Tag) : Prop where
  ids : (tags.map (·.id)).Nodup
  names : (tags.map (·.tagName)).Nodup

/-- The place should have this deterministic tag. -/
def HasTag (addressPrimary : Option String) (info : Option PlaceInfo) (tag : Tag) : Prop :=
  (tag.tagType = regionTagType ∧ regionTagName addressPrimary = some tag.tagName) ∨
    (tag.tagType = facilityTagType ∧ tag.tagName ∈ facilityTagNames info)

theorem mem_deterministicIds {d : Db V} {placeId : Int} {tag : Tag} (htag : tag ∈ d.tags)
    (hmem : (placeId, tag.id) ∈ d.placeTags) (htype : tag.tagType ∈ deterministicTagTypes) :
    tag.id ∈ d.deterministicIds placeId := by
  refine List.mem_map_of_mem (List.mem_filter.mpr ⟨List.mem_filter.mpr ⟨htag, ?_⟩, ?_⟩)
  · exact decide_eq_true hmem
  · simpa using htype

theorem mem_regionIds {d : Db V} (hok : TagsOk d.tags) {tag : Tag} (htag : tag ∈ d.tags)
    (addressPrimary : Option String) : tag.id ∈ d.regionIds addressPrimary ↔
      tag.tagType = regionTagType ∧ regionTagName addressPrimary = some tag.tagName := by
  unfold Db.regionIds
  cases hname : regionTagName addressPrimary with
  | none => simp
  | some name =>
    simp only [Option.mem_toList, Option.map_eq_some_iff, Option.some.injEq]
    constructor
    · intro h
      obtain ⟨found, hfound, hid⟩ := h
      have hsame : found = tag :=
        List.inj_on_of_nodup_map hok.ids (List.mem_of_find?_eq_some hfound) htag hid
      have hp := List.find?_some hfound
      simp only [Bool.and_eq_true, beq_iff_eq] at hp
      rw [← hsame]
      exact ⟨hp.2, hp.1.symm⟩
    · intro h
      obtain ⟨htype, rfl⟩ := h
      have hsome : (d.tags.find? fun t => t.tagName == tag.tagName && t.tagType == regionTagType).isSome = true :=
        List.find?_isSome.mpr ⟨tag, htag, by simp [htype]⟩
      obtain ⟨found, hfound⟩ := Option.isSome_iff_exists.mp hsome
      have hp := List.find?_some hfound
      simp only [Bool.and_eq_true, beq_iff_eq] at hp
      have hsame : found = tag :=
        List.inj_on_of_nodup_map hok.names (List.mem_of_find?_eq_some hfound) htag hp.1
      exact ⟨found, hfound, by rw [hsame]⟩

theorem mem_facilityIds {d : Db V} (hok : TagsOk d.tags) {tag : Tag} (htag : tag ∈ d.tags) (placeId : Int) :
    tag.id ∈ d.facilityIds placeId ↔
      tag.tagType = facilityTagType ∧ tag.tagName ∈ facilityTagNames (d.placeInfo? placeId) := by
  unfold Db.facilityIds
  constructor
  · intro h
    obtain ⟨found, hfound, hid⟩ := List.mem_map.mp h
    obtain ⟨hmem, hp⟩ := List.mem_filter.mp hfound
    rw [← List.inj_on_of_nodup_map hok.ids hmem htag hid]
    simpa [and_comm] using hp
  · intro h
    obtain ⟨htype, hname⟩ := h
    exact List.mem_map_of_mem (List.mem_filter.mpr ⟨htag, by simp [htype, hname]⟩)

/-- **The deterministic tags are those of the address and the facilities**, whatever
the place had before. -/
theorem mem_retag {d : Db V} (hok : TagsOk d.tags) {tag : Tag} (htag : tag ∈ d.tags)
    (htype : tag.tagType ∈ deterministicTagTypes) (placeId : Int) (addressPrimary : Option String) :
    (placeId, tag.id) ∈ (d.retag placeId addressPrimary).placeTags ↔
      HasTag addressPrimary (d.placeInfo? placeId) tag := by
  unfold Db.retag HasTag
  rw [Db.mem_addPlaceTags, Db.mem_addPlaceTags, Db.mem_removePlaceTags, mem_facilityIds hok htag,
    mem_regionIds hok htag]
  have hremoved : ¬ ((placeId, tag.id) ∈ d.placeTags ∧
      ¬ (placeId = placeId ∧ tag.id ∈ d.deterministicIds placeId)) :=
    fun ⟨hmem, hnot⟩ => hnot ⟨rfl, mem_deterministicIds htag hmem htype⟩
  rw [or_iff_right hremoved]
  simp only [true_and]

end TravelMaker
