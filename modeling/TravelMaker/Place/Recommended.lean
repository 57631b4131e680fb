import TravelMaker.Place.Recommend

/-! What the recommendations hold, path by path. -/
namespace TravelMaker
open Lib.Window

variable {V D K : Type}

/-! ### Filters -/

section
variable {e : Engine V D} {c : Catalog V} {tagIds : List Int}

theorem mem_activePlaces {place : Place} : place ∈ c.activePlaces ↔ place ∈ c.db.places ∧ place.isActive = true :=
  List.mem_filter

theorem isActive_of_mem (hc : c.Constraints) {place : Place} (hplace : place ∈ c.db.places) :
    c.isActive place.id = place.isActive := by
  unfold Catalog.isActive
  rw [Db.place?_of_mem hc.places hplace, Option.any_some]

theorem tagMatches_pos (placeId : Int) : 0 < c.tagMatches tagIds placeId ↔ c.carriesAny tagIds placeId = true := by
  unfold Catalog.tagMatches Catalog.carriesAny Catalog.carries
  rw [List.length_pos_iff_exists_mem, List.any_eq_true]
  constructor
  · intro h
    obtain ⟨⟨p, tagId⟩, h⟩ := h
    obtain ⟨hmem, hmatch⟩ := List.mem_filter.mp h
    rw [Bool.and_eq_true, beq_iff_eq, List.contains_iff_mem] at hmatch
    exact ⟨tagId, hmatch.2, List.contains_iff_mem.mpr (hmatch.1 ▸ hmem)⟩
  · intro h
    obtain ⟨tagId, htag, hcarries⟩ := h
    refine ⟨(placeId, tagId), List.mem_filter.mpr ⟨List.contains_iff_mem.mp hcarries, ?_⟩⟩
    rw [Bool.and_eq_true, beq_iff_eq, List.contains_iff_mem]
    exact ⟨rfl, htag⟩

/-- The filter on tags takes places with any of them. -/
theorem mem_filterTags {rows : List (FeatureRow V)} {row : FeatureRow V} : row ∈ c.filterTags tagIds rows ↔
    row ∈ rows ∧ (tagIds = [] ∨ c.carriesAny tagIds row.placeId = true) := by
  unfold Catalog.filterTags
  split
  · rename_i hnil
    exact ⟨fun h => ⟨h, .inl hnil⟩, fun h => h.1⟩
  · rename_i hne
    rw [mem_expand, tagMatches_pos, or_iff_right hne]

/-- The popular places with any of the tags. -/
theorem mem_popularRows {place : Place} : place ∈ popularRows e c tagIds none ↔
    place ∈ c.activePlaces ∧ (tagIds = [] ∨ c.carriesAny tagIds place.id = true) := by
  unfold popularRows
  rw [mem_orderBy, (e.scan_perm _).mem_iff, List.mem_filter, Bool.and_eq_true, Bool.or_eq_true, decide_eq_true_eq]
  exact and_congr_right fun _ => and_iff_left rfl

end

/-! ### Vectors -/

namespace Catalog

/-- The active places with a vector of the field. -/
def featureRows (c : Catalog V) : VectorField → List (FeatureRow V)
  | .style => c.styleRows
  | .content => c.contentRows

end Catalog

section
variable {c : Catalog V} {field : VectorField}

theorem mem_featureRows {row : FeatureRow V} : row ∈ c.featureRows field ↔
    (row.placeId, row.vector) ∈ c.vectorsOf field ∧ c.isActive row.placeId = true := by
  obtain ⟨placeId, vector⟩ := row
  cases field with
  | style =>
    show _ ∈ c.styleRows ↔ _ ∈ c.styleVectors ∧ _
    unfold Catalog.styleRows
    rw [List.mem_map]
    constructor
    · intro h
      obtain ⟨⟨p, v⟩, hmem, h⟩ := h
      obtain ⟨rfl, rfl⟩ := FeatureRow.mk.inj h
      exact List.mem_filter.mp hmem
    · exact fun h => ⟨(placeId, vector), List.mem_filter.mpr h, rfl⟩
  | content =>
    show _ ∈ c.contentRows ↔ _ ∈ c.db.placeFeatures.filterMap _ ∧ _
    unfold Catalog.contentRows
    rw [List.mem_filterMap, List.mem_filterMap]
    constructor
    · intro h
      obtain ⟨feature, hfeature, h⟩ := h
      obtain ⟨hmem, hactive⟩ := List.mem_filter.mp hfeature
      obtain ⟨v, hv, hrow⟩ := Option.map_eq_some_iff.mp h
      obtain ⟨rfl, rfl⟩ := FeatureRow.mk.inj hrow
      exact ⟨⟨feature, hmem, by rw [hv]; rfl⟩, hactive⟩
    · intro h
      obtain ⟨⟨feature, hmem, h⟩, hactive⟩ := h
      obtain ⟨v, hv, hrow⟩ := Option.map_eq_some_iff.mp h
      obtain ⟨rfl, rfl⟩ := Prod.mk.inj hrow
      exact ⟨feature, List.mem_filter.mpr ⟨hmem, hactive⟩, by rw [hv]; rfl⟩

end

section
variable [LinearOrder D] {e : Engine V D} {c : Catalog V} {vector : V} {tagIds : List Int} {rows : List (FeatureRow V)}

variable (e c vector tagIds rows) in
/-- All places of the rows, each as the lists show it. -/
theorem placesSortedBy_none : ∃ places, placesSortedBy e c vector tagIds none rows none = .ok places ∧
    ∀ p, p ∈ places ↔ ∃ place ∈ c.db.places, c.listed place = p ∧
      ∃ row ∈ rows, row.placeId = place.id ∧ (tagIds = [] ∨ c.carriesAny tagIds place.id = true) := by
  have hids : ∀ id, id ∈ firsts [] ((c.rankedRows e vector tagIds none rows).map (·.placeId)) ↔
      ∃ row ∈ rows, row.placeId = id ∧ (tagIds = [] ∨ c.carriesAny tagIds id = true) := by
    intro id
    rw [mem_firsts, and_iff_left List.not_mem_nil, List.mem_map]
    unfold Catalog.rankedRows
    simp only [mem_orderBy, (e.scan_perm _).mem_iff]
    show (∃ row ∈ c.filterTags tagIds rows, row.placeId = id) ↔ _
    constructor
    · intro h
      obtain ⟨row, hrow, rfl⟩ := h
      obtain ⟨hmem, htags⟩ := mem_filterTags.mp hrow
      exact ⟨row, hmem, rfl, htags⟩
    · intro h
      obtain ⟨row, hmem, rfl, htags⟩ := h
      exact ⟨row, mem_filterTags.mpr ⟨hmem, htags⟩, rfl⟩
  have hmem : ∀ p, p ∈ c.loadPlaces e (firsts [] ((c.rankedRows e vector tagIds none rows).map (·.placeId))) ↔
      ∃ place ∈ c.db.places, c.listed place = p ∧
        ∃ row ∈ rows, row.placeId = place.id ∧ (tagIds = [] ∨ c.carriesAny tagIds place.id = true) := by
    intro p
    rw [Catalog.mem_loadPlaces]
    constructor
    · intro h
      obtain ⟨place, hplace, hid, rfl⟩ := h
      exact ⟨place, hplace, rfl, (hids place.id).mp hid⟩
    · intro h
      obtain ⟨place, hplace, rfl, hrow⟩ := h
      exact ⟨place, hplace, (hids place.id).mpr hrow, rfl⟩
  refine ⟨c.loadPlaces e (firsts [] ((c.rankedRows e vector tagIds none rows).map (·.placeId))), ?_, hmem⟩
  show (if firsts [] ((c.rankedRows e vector tagIds none rows).map (·.placeId)) = [] then pure [] else _) = _
  split
  · rename_i hnil
    rw [hnil]
    refine congrArg Except.ok (List.eq_nil_iff_forall_not_mem.mpr fun p hp => ?_).symm
    obtain ⟨_, _, hid, _⟩ := (Catalog.mem_loadPlaces e c).mp hp
    cases hid
  · rfl

end

/-! ### In memory -/

/-- The tiers over places in memory: there is no third. -/
def TextSearch.selectsInMemory (s : TextSearch) (c : Catalog V) (keyword : String) (places : List Place) (place : Place) :
    Bool :=
  if places.any (s.nameOrTag keyword c) then s.nameOrTag keyword c place else s.inAddress keyword place

section
variable {s : TextSearch} {keyword : String}

theorem contains_empty (text : String) : Lib.Text.contains text "" = true := by
  unfold Lib.Text.contains
  cases text.toList <;> rfl

theorem contains_of_empty {part : String} (hpart : part ≠ "") : Lib.Text.contains "" part = false := by
  have hne : part.toList ≠ [] := fun h => hpart (String.toList_eq_nil_iff.mp h)
  obtain ⟨a, rest, hcons⟩ := List.exists_cons_of_ne_nil hne
  unfold Lib.Text.contains
  rw [hcons]
  rfl

theorem lower_ne {text : String} (h : text ≠ "") : s.lower text ≠ "" := fun hlower => h ((s.lower_empty text).mp hlower)

theorem extractCoreKeyword_ne {core : String} (h : extractCoreKeyword keyword = some core) : core ≠ "" := by
  obtain ⟨suffix, -, hsuffix⟩ := List.exists_of_findSome?_eq_some h
  split at hsuffix
  · dsimp only at hsuffix
    obtain ⟨particle, -, hparticle⟩ := Option.bind_eq_some_iff.mp hsuffix
    split at hparticle
    · rename_i hlong
      intro heq
      subst heq
      rw [Option.some.inj hparticle] at hlong
      exact absurd hlong.1 (by decide)
    · cases hparticle
  · cases hsuffix

variable {r : Recommender V D K} {c : Catalog V}

/-- The tests in memory are those of the first tier. -/
theorem inMemory_nameOrTag (p : ListedPlace) :
    (Lib.Text.contains (r.search.lower p.place.placeName) (r.search.lower keyword) ||
      (c.db.tagsOf p.place.id).any (fun tag => Lib.Text.contains (r.search.lower tag.tagName) (r.search.lower keyword)) ||
      ((extractCoreKeyword keyword).map r.search.lower).any fun core =>
        core ≠ "" && Lib.Text.contains (r.search.lower p.place.placeName) core) =
      r.search.nameOrTag keyword c p.place := by
  have hcore : (((extractCoreKeyword keyword).map r.search.lower).any fun core =>
      core ≠ "" && Lib.Text.contains (r.search.lower p.place.placeName) core) = r.search.coreInName keyword p.place := by
    unfold TextSearch.coreInName
    cases hfound : extractCoreKeyword keyword with
    | none => rfl
    | some core =>
      show (decide (r.search.lower core ≠ "") && _) = _
      rw [decide_eq_true (lower_ne (extractCoreKeyword_ne hfound)), Bool.true_and]
      rfl
  rw [hcore]
  rfl

theorem inMemory_inAddress (hkeyword : keyword ≠ "") (p : ListedPlace) :
    (p.place.addressPrimary.any fun address =>
      address ≠ "" && Lib.Text.contains (r.search.lower address) (r.search.lower keyword)) =
      r.search.inAddress keyword p.place := by
  unfold TextSearch.inAddress
  cases p.place.addressPrimary with
  | none => rfl
  | some address =>
    show (decide (address ≠ "") && _) = r.search.icontains address keyword
    by_cases haddress : address = ""
    · subst haddress
      unfold TextSearch.icontains
      rw [(r.search.lower_empty "").mpr rfl, contains_of_empty (lower_ne hkeyword), Bool.and_false]
    · rw [decide_eq_true haddress, Bool.true_and]
      rfl

/-- The tiers look at the places only as a set. -/
theorem selectsInMemory_congr {places places' : List Place} (h : ∀ place, place ∈ places ↔ place ∈ places') :
    s.selectsInMemory c keyword places = s.selectsInMemory c keyword places' := by
  have hany : places.any (s.nameOrTag keyword c) = places'.any (s.nameOrTag keyword c) := by
    rw [Bool.eq_iff_iff, List.any_eq_true, List.any_eq_true]
    simp only [h]
  funext place
  unfold TextSearch.selectsInMemory
  rw [hany]

theorem mem_inMemoryTiers (hkeyword : keyword ≠ "") {popular : List ListedPlace} {p : ListedPlace} :
    p ∈ inMemoryTiers r c keyword popular ↔
      p ∈ popular ∧ r.search.selectsInMemory c keyword (popular.map (·.place)) p.place = true := by
  unfold inMemoryTiers
  dsimp only
  simp only [inMemory_nameOrTag, inMemory_inAddress hkeyword]
  have hany : (popular.map (·.place)).any (r.search.nameOrTag keyword c) =
      popular.any fun p => r.search.nameOrTag keyword c p.place := by
    rw [List.any_map]
    rfl
  unfold TextSearch.selectsInMemory
  rw [hany]
  by_cases hname : (popular.any fun p => r.search.nameOrTag keyword c p.place) = true
  · have hne : (popular.filter fun p => r.search.nameOrTag keyword c p.place) ≠ [] := by
      obtain ⟨q, hq, hin⟩ := List.any_eq_true.mp hname
      exact List.ne_nil_of_mem (List.mem_filter.mpr ⟨hq, hin⟩)
    rw [if_pos hne, List.mem_filter]
    exact and_congr_right fun _ => by rw [if_pos hname]
  · have hnil : (popular.filter fun p => r.search.nameOrTag keyword c p.place) = [] := by
      rw [List.filter_eq_nil_iff]
      exact fun q hq hin => hname (List.any_eq_true.mpr ⟨q, hq, hin⟩)
    rw [if_neg (not_not.mpr hnil), List.mem_filter]
    exact and_congr_right fun _ => by rw [if_neg hname]

end

/-! ### The paths -/

section
variable [DecidableEq K] [LinearOrder D] {r : Recommender V D K} {c : Catalog V} {userId : Option Int} {tags : List Int}
variable {caches : Caches K}

/-- `place.is_bookmarked`. -/
def Catalog.marked (c : Catalog V) (userId : Option Int) (p : ListedPlace) : ListedPlace :=
  {p with isBookmarked := c.isBookmarked userId p.place.id}

omit [DecidableEq K] [LinearOrder D] in
theorem mem_remaining {vectorPlaces : List ListedPlace} {p : ListedPlace} (hp : p ∈ appendRemaining r c vectorPlaces tags) :
    p ∈ vectorPlaces ∨ ∃ place ∈ c.activePlaces, c.listed place = p ∧ c.carriesAll tags place.id = true := by
  rcases List.mem_append.mp hp with hp | hp
  · exact .inl hp
  · obtain ⟨place, hplace, rfl⟩ := List.mem_map.mp hp
    have hmem := (r.engine.scan_perm _).mem_iff.mp (mem_orderBy.mp (List.mem_of_mem_take hplace))
    obtain ⟨hactive, hrest⟩ := List.mem_filter.mp hmem
    exact .inr ⟨place, hactive, rfl, ((Bool.and_eq_true _ _).mp hrest).2⟩

section
variable {keyword : String} {caches' : Caches K}

theorem getPlaceListRecommend_ok {places : List ListedPlace}
    (h : recommendedPlaces r c userId keyword tags caches = .ok (places, caches')) :
    getPlaceListRecommend r c userId keyword tags caches = .ok (places.map (c.marked userId), caches') := by
  rw [getPlaceListRecommend, h]
  rfl

/-- With a vector: the places that it sorts, then others. -/
theorem recommendedPlaces_vector {vector : V} {field : VectorField} {places : List ListedPlace}
    (hvector : (c.stageVector userId).filter (r.engine.nonzero ·.1) = some (vector, field))
    (hplaces : placesSortedBy r.engine c vector tags none (c.featureRows field) none = .ok places) :
    recommendedPlaces r c userId "" tags caches = .ok (appendRemaining r c places tags, caches) := by
  unfold recommendedPlaces
  rw [hvector]
  cases field with
  | style =>
    have hstyle : getPlacesSortedByVector r.engine c vector tags none none = .ok places := hplaces
    dsimp only
    rw [hstyle]
    rfl
  | content =>
    have hcontent : getPlacesSortedByContentVector r.engine c vector tags none none = .ok places := hplaces
    dsimp only
    rw [hcontent]
    rfl

theorem recommendedPlaces_hybrid {vector : V} {field : VectorField}
    (hvector : (c.stageVector userId).filter (r.engine.nonzero ·.1) = some (vector, field)) (hkeyword : keyword ≠ "") :
    recommendedPlaces r c userId keyword tags caches = .ok (getPlacesHybrid r c vector keyword tags field caches) := by
  unfold recommendedPlaces
  rw [hvector]
  exact if_pos hkeyword

theorem recommendedPlaces_popular (hvector : (c.stageVector userId).filter (r.engine.nonzero ·.1) = none) :
    recommendedPlaces r c userId "" tags caches = .ok (getPopularPlaces r.engine c tags none (some remainingCap) caches) := by
  unfold recommendedPlaces
  rw [hvector]
  exact if_neg (not_not.mpr rfl)

theorem recommendedPlaces_inMemory (hvector : (c.stageVector userId).filter (r.engine.nonzero ·.1) = none)
    (hkeyword : keyword ≠ "") :
    recommendedPlaces r c userId keyword tags caches =
      .ok (inMemoryTiers r c keyword (getPopularPlaces r.engine c tags none (some 100) caches).1,
        (getPopularPlaces r.engine c tags none (some 100) caches).2) := by
  unfold recommendedPlaces
  rw [hvector]
  exact if_pos hkeyword

end

variable (tags caches) in
/-- With a vector: the places that have one and carry some of the tags, then others that carry all. -/
theorem recommend_vector (hc : c.Constraints) {vector : V} {field : VectorField}
    (hvector : (c.stageVector userId).filter (r.engine.nonzero ·.1) = some (vector, field)) :
    ∃ vectorPlaces, getPlaceListRecommend r c userId "" tags caches =
        .ok ((appendRemaining r c vectorPlaces tags).map (c.marked userId), caches) ∧
      ∀ p, p ∈ vectorPlaces ↔ ∃ place ∈ c.activePlaces, c.listed place = p ∧
        (∃ v, (place.id, v) ∈ c.vectorsOf field) ∧ (tags = [] ∨ c.carriesAny tags place.id = true) := by
  obtain ⟨places, hplaces, hmem⟩ := placesSortedBy_none r.engine c vector tags (c.featureRows field)
  refine ⟨places, getPlaceListRecommend_ok (recommendedPlaces_vector hvector hplaces), fun p => (hmem p).trans ?_⟩
  constructor
  · intro h
    obtain ⟨place, hplace, rfl, row, hrow, hid, htags⟩ := h
    obtain ⟨hv, hactive⟩ := mem_featureRows.mp hrow
    rw [hid] at hv hactive
    exact ⟨place, mem_activePlaces.mpr ⟨hplace, (isActive_of_mem hc hplace).symm.trans hactive⟩, rfl, ⟨_, hv⟩, htags⟩
  · intro h
    obtain ⟨place, hplace, rfl, ⟨v, hv⟩, htags⟩ := h
    obtain ⟨hmem, hactive⟩ := mem_activePlaces.mp hplace
    refine ⟨place, hmem, rfl, ⟨place.id, v⟩, mem_featureRows.mpr ⟨hv, ?_⟩, rfl, htags⟩
    exact (isActive_of_mem hc hmem).trans hactive

omit [DecidableEq K] [LinearOrder D] in
/-- A filter on tags passes the cache by. -/
theorem getPopularPlaces_tags {e : Engine V D} (htags : tags ≠ []) (limit : Nat) :
    getPopularPlaces e c tags none (some limit) caches = (((popularRows e c tags none).take limit).map c.listed, caches) := by
  unfold getPopularPlaces
  rw [if_neg fun h => htags h.1]
  rfl

omit [DecidableEq K] [LinearOrder D] in
theorem getPopularPlaces_miss {e : Engine V D} {limit : Nat} (hmiss : caches.popular limit = none) :
    getPopularPlaces e c [] none (some limit) caches =
      (((popularRows e c [] none).take limit).map c.listed,
        caches.setPopular limit (some ((((popularRows e c [] none).take limit).map c.listed).map (·.place.id)))) := by
  unfold getPopularPlaces
  rw [if_pos ⟨rfl, rfl⟩]
  dsimp only
  rw [Option.bind_some, hmiss]
  rfl

/-- Without one and with tags: the popular places that carry some of them. -/
theorem recommend_popular (htags : tags ≠ []) (hvector : (c.stageVector userId).filter (r.engine.nonzero ·.1) = none) :
    getPlaceListRecommend r c userId "" tags caches =
      .ok ((((popularRows r.engine c tags none).take remainingCap).map c.listed).map (c.marked userId), caches) := by
  apply getPlaceListRecommend_ok
  rw [recommendedPlaces_popular hvector, getPopularPlaces_tags htags]

end
end TravelMaker
