import TravelMaker.Place.Tagging

/-! The two taggers on the tags of one place.

Each replaces the tags of its own types and leaves the others (`mem_retag_iff`,
`mem_retagAi_iff`). As the types are disjoint, the order of the two does not matter. -/
namespace TravelMaker
open Lib.Txn (Base)

variable {V : Type}

/-- `Tag.TagType`. -/
def tagTypes : List String := deterministicTagTypes ++ aiTagTypes

def runDeterministic (placeId : Int) (addressPrimary : Option String) (b : Base (Db V)) : Base (Db V) :=
  ((assignDeterministicTags placeId addressPrimary).perform b).2

def runAi (placeId : Int) (names : List String) (b : Base (Db V)) : Base (Db V) :=
  ((assignAiTags placeId names).perform b).2

/-- The taggers of a place do not meet. -/
structure Independent (placeId : Int) (addressPrimary : Option String) (names : List String) (b : Base (Db V)) : Prop where
  deterministic_idem : (runDeterministic placeId addressPrimary (runDeterministic placeId addressPrimary b)).db.tagsOf placeId =
    (runDeterministic placeId addressPrimary b).db.tagsOf placeId
  ai_idem : (runAi placeId names (runAi placeId names b)).db.tagsOf placeId = (runAi placeId names b).db.tagsOf placeId
  deterministic_keeps : ((runDeterministic placeId addressPrimary b).db.tagsOf placeId).filter (aiTagTypes.contains ·.tagType) =
    (b.db.tagsOf placeId).filter (aiTagTypes.contains ·.tagType)
  ai_keeps : ((runAi placeId names b).db.tagsOf placeId).filter (deterministicTagTypes.contains ·.tagType) =
    (b.db.tagsOf placeId).filter (deterministicTagTypes.contains ·.tagType)
  commute : (runAi placeId names (runDeterministic placeId addressPrimary b)).db.tagsOf placeId =
    (runDeterministic placeId addressPrimary (runAi placeId names b)).db.tagsOf placeId
  result : ∀ tag ∈ b.db.tags, tag.tagType ∈ tagTypes →
    (tag ∈ (runAi placeId names (runDeterministic placeId addressPrimary b)).db.tagsOf placeId ↔
      HasTag addressPrimary (b.db.placeInfo? placeId) tag ∨ tag.tagType ∈ aiTagTypes ∧ tag.tagName ∈ names)

theorem runDeterministic_db (placeId : Int) (addressPrimary : Option String) (b : Base (Db V)) :
    (runDeterministic placeId addressPrimary b).db = b.db.retag placeId addressPrimary := by
  rw [runDeterministic, Lib.Txn.perform_of_eval_ok (assignDeterministicTags_eval placeId addressPrimary b.db b.seq)]

theorem runAi_db (placeId : Int) (names : List String) (b : Base (Db V)) :
    (runAi placeId names b).db = b.db.retagAi placeId names := by
  rw [runAi, Lib.Txn.perform_of_eval_ok (assignAiTags_eval placeId names b.db b.seq)]

/-! ### Which tags a tagger leaves -/

section
variable {d : Db V} {tag : Tag} {placeId : Int} (hok : TagsOk d.tags) (htag : tag ∈ d.tags)
include hok htag

/-- The ids of the tags of a place that have one of some types. -/
theorem mem_idsOfTypes (types : List String) :
    tag.id ∈ ((d.tagsOf placeId).filter fun tag => types.contains tag.tagType).map (·.id) ↔
      (placeId, tag.id) ∈ d.placeTags ∧ tag.tagType ∈ types := by
  constructor
  · intro h
    obtain ⟨found, hfound, hid⟩ := List.mem_map.mp h
    obtain ⟨hof, htype⟩ := List.mem_filter.mp hfound
    obtain ⟨hmem, hplace⟩ := List.mem_filter.mp hof
    obtain rfl := List.inj_on_of_nodup_map hok.ids hmem htag hid
    exact ⟨of_decide_eq_true hplace, List.contains_iff_mem.mp htype⟩
  · intro h
    exact List.mem_map_of_mem (List.mem_filter.mpr
      ⟨List.mem_filter.mpr ⟨htag, decide_eq_true h.1⟩, List.contains_iff_mem.mpr h.2⟩)

theorem mem_aiSeeds (names : List String) :
    tag.id ∈ (d.aiSeeds names).map (·.id) ↔ tag.tagType ∈ aiTagTypes ∧ tag.tagName ∈ names := by
  constructor
  · intro h
    obtain ⟨found, hfound, hid⟩ := List.mem_map.mp h
    obtain ⟨hmem, hseed⟩ := List.mem_filter.mp hfound
    obtain rfl := List.inj_on_of_nodup_map hok.ids hmem htag hid
    simpa [and_comm] using hseed
  · intro h
    exact List.mem_map_of_mem (List.mem_filter.mpr ⟨htag, by simp [h.1, h.2]⟩)

theorem mem_retag_iff (addressPrimary : Option String) :
    (placeId, tag.id) ∈ (d.retag placeId addressPrimary).placeTags ↔
      if tag.tagType ∈ deterministicTagTypes then HasTag addressPrimary (d.placeInfo? placeId) tag
      else (placeId, tag.id) ∈ d.placeTags := by
  split
  · rename_i htype
    exact mem_retag hok htag htype placeId addressPrimary
  · rename_i htype
    have hregion : ¬ (tag.tagType = regionTagType ∧ regionTagName addressPrimary = some tag.tagName) := by
      intro h
      exact htype (by simp [deterministicTagTypes, h.1])
    have hfacility : ¬ (tag.tagType = facilityTagType ∧ tag.tagName ∈ facilityTagNames (d.placeInfo? placeId)) := by
      intro h
      exact htype (by simp [deterministicTagTypes, h.1])
    have hids := @mem_idsOfTypes _ d tag placeId hok htag deterministicTagTypes
    unfold Db.retag
    rw [Db.mem_addPlaceTags, Db.mem_addPlaceTags, Db.mem_removePlaceTags, mem_facilityIds hok htag, mem_regionIds hok htag,
      or_iff_left fun h => hfacility h.2, or_iff_left fun h => hregion h.2]
    exact and_iff_left fun h => htype (hids.mp h.2).2

theorem mem_retagAi_iff (names : List String) :
    (placeId, tag.id) ∈ (d.retagAi placeId names).placeTags ↔
      if tag.tagType ∈ aiTagTypes then tag.tagName ∈ names else (placeId, tag.id) ∈ d.placeTags := by
  have hids := @mem_idsOfTypes _ d tag placeId hok htag aiTagTypes
  unfold Db.retagAi
  rw [Db.mem_addPlaceTags, Db.mem_removePlaceTags, mem_aiSeeds hok htag]
  split
  · rename_i htype
    rw [or_iff_right fun h => h.2 ⟨rfl, hids.mpr ⟨h.1, htype⟩⟩]
    simp [htype]
  · rename_i htype
    rw [or_iff_left fun h => htype h.2.1]
    exact and_iff_left fun h => htype (hids.mp h.2).2

end

/-! ### Sets of tags -/

theorem retag_placeInfo? (placeId : Int) (addressPrimary : Option String) (d : Db V) (id : Int) :
    (d.retag placeId addressPrimary).placeInfo? id = d.placeInfo? id := rfl

/-- The tags of a place, by what the links of the place say. -/
theorem tagsOf_congr {d d' : Db V} {placeId : Int} (htags : d'.tags = d.tags)
    (h : ∀ tag ∈ d.tags, ((placeId, tag.id) ∈ d'.placeTags ↔ (placeId, tag.id) ∈ d.placeTags)) :
    d'.tagsOf placeId = d.tagsOf placeId := by
  unfold Db.tagsOf
  rw [htags]
  exact List.filter_congr fun tag htag => decide_eq_decide.mpr (h tag htag)

/-- The same for the tags of some types. -/
theorem tagsOf_filter_congr {d d' : Db V} {placeId : Int} (types : List String) (htags : d'.tags = d.tags)
    (h : ∀ tag ∈ d.tags, tag.tagType ∈ types → ((placeId, tag.id) ∈ d'.placeTags ↔ (placeId, tag.id) ∈ d.placeTags)) :
    (d'.tagsOf placeId).filter (types.contains ·.tagType) = (d.tagsOf placeId).filter (types.contains ·.tagType) := by
  unfold Db.tagsOf
  rw [htags, List.filter_filter, List.filter_filter]
  refine List.filter_congr fun tag htag => ?_
  cases htype : types.contains tag.tagType with
  | false => rfl
  | true => exact congrArg (true && ·) (decide_eq_decide.mpr (h tag htag (List.contains_iff_mem.mp htype)))

theorem notMem_deterministic {tagType : String} (h : tagType ∈ aiTagTypes) : tagType ∉ deterministicTagTypes := by
  revert tagType
  decide

/-- **The taggers are independent**: each can be repeated, each leaves the tags of the
other, and in either order they leave the same tags. -/
theorem taggers_independent (b : Base (Db V)) (hok : TagsOk b.db.tags) (placeId : Int) (addressPrimary : Option String)
    (names : List String) : Independent placeId addressPrimary names b := by
  obtain ⟨d, n⟩ := b
  have hretag : ∀ d' : Db V, d'.tags = d.tags → ∀ tag ∈ d.tags,
      ((placeId, tag.id) ∈ (d'.retag placeId addressPrimary).placeTags ↔
        if tag.tagType ∈ deterministicTagTypes then HasTag addressPrimary (d'.placeInfo? placeId) tag
        else (placeId, tag.id) ∈ d'.placeTags) :=
    fun d' htags tag htag => mem_retag_iff (htags ▸ hok) (htags ▸ htag) addressPrimary
  have hretagAi : ∀ d' : Db V, d'.tags = d.tags → ∀ tag ∈ d.tags, ((placeId, tag.id) ∈ (d'.retagAi placeId names).placeTags ↔
      if tag.tagType ∈ aiTagTypes then tag.tagName ∈ names else (placeId, tag.id) ∈ d'.placeTags) :=
    fun d' htags tag htag => mem_retagAi_iff (htags ▸ hok) (htags ▸ htag) names
  constructor <;> simp only [runDeterministic_db, runAi_db]
  · refine tagsOf_congr rfl fun tag htag => ?_
    rw [hretag (d.retag placeId addressPrimary) rfl tag htag, hretag d rfl tag htag, retag_placeInfo?]
    split <;> rfl
  · refine tagsOf_congr rfl fun tag htag => ?_
    rw [hretagAi (d.retagAi placeId names) rfl tag htag, hretagAi d rfl tag htag]
    split <;> rfl
  · refine tagsOf_filter_congr aiTagTypes rfl fun tag htag htype => ?_
    rw [hretag d rfl tag htag, if_neg (notMem_deterministic htype)]
  · refine tagsOf_filter_congr deterministicTagTypes rfl fun tag htag htype => ?_
    rw [hretagAi d rfl tag htag, if_neg fun hai => notMem_deterministic hai htype]
  · refine tagsOf_congr rfl fun tag htag => ?_
    rw [hretagAi (d.retag placeId addressPrimary) rfl tag htag, hretag d rfl tag htag,
      hretag (d.retagAi placeId names) rfl tag htag, hretagAi d rfl tag htag]
    by_cases htype : tag.tagType ∈ aiTagTypes
    · simp only [if_pos htype, if_neg (notMem_deterministic htype)]
    · simp only [if_neg htype]
      rfl
  · intro tag htag htype
    have hlinked : tag ∈ ((d.retag placeId addressPrimary).retagAi placeId names).tagsOf placeId ↔
        (placeId, tag.id) ∈ ((d.retag placeId addressPrimary).retagAi placeId names).placeTags :=
      List.mem_filter.trans (by rw [decide_eq_true_eq]; exact and_iff_right htag)
    rw [hlinked, hretagAi (d.retag placeId addressPrimary) rfl tag htag, hretag d rfl tag htag]
    by_cases hai : tag.tagType ∈ aiTagTypes
    · have hnot : ¬ HasTag addressPrimary (d.placeInfo? placeId) tag := by
        intro h
        apply notMem_deterministic hai
        rcases h with h | h <;> simp [deterministicTagTypes, h.1]
      rw [if_pos hai, or_iff_right hnot, and_iff_right hai]
    · have hdeterministic : tag.tagType ∈ deterministicTagTypes := (List.mem_append.mp htype).resolve_right hai
      rw [if_neg hai, if_pos hdeterministic, or_iff_left fun h => hai h.1]

/-- A place on Jeju with a parking lot, linked to a region that is not its own. -/
def Db.onJeju : Db Unit where
  tags := [⟨1, regionTagType, "제주"⟩, ⟨2, regionTagType, "서울"⟩, ⟨3, facilityTagType, "주차"⟩, ⟨4, travelStyleTagType, "해변"⟩]
  placeInfos := [{placeId := 1, parking := some true}]
  placeTags := [(1, 2)]

theorem taggers_independent_onJeju : Independent 1 (some "제주특별자치도 서귀포시") ["해변", "서울"] ⟨Db.onJeju, 1⟩ :=
  taggers_independent ⟨Db.onJeju, 1⟩ ⟨by decide, by decide⟩ 1 (some "제주특별자치도 서귀포시") ["해변", "서울"]

end TravelMaker
