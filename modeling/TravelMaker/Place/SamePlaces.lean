import TravelMaker.Place.Listed
import TravelMaker.Place.Recommended

/-! The places that a keyword selects, on the three paths.

`get_place_list` takes the first tier that some active place matches and then filters by
the tags; `_get_places_hybrid` filters by the tags first. `selects_alike_iff` says when the
order does not matter. -/
namespace TravelMaker

variable {V D K : Type}

/-! ### Candidates -/

/-- The active places that carry all tags. -/
def Catalog.tagged (c : Catalog V) (tags : List Int) : List Place :=
  c.activePlaces.filter fun place => c.carriesAll tags place.id

/-- What the hybrid search selects, by the first tier that a place with all tags matches. -/
def tierMatches (s : TextSearch) (c : Catalog V) (keyword : String) (tags : List Int) : List Place :=
  if (c.tagged tags).filter (s.nameOrTag keyword c) ≠ [] then (c.tagged tags).filter (s.nameOrTag keyword c)
  else if (c.tagged tags).filter (s.inAddress keyword) ≠ [] then (c.tagged tags).filter (s.inAddress keyword)
  else (c.tagged tags).filter (s.isSimilar keyword)

section
variable {r : Recommender V D K} {c : Catalog V} {tags : List Int} {keyword : String} {matching : Place → Bool}
variable {β : Type} [LinearOrder β] {key : Place → β}

theorem candidates_eq_nil : candidates r c key tags matching = [] ↔ (c.tagged tags).filter matching = [] := by
  have hlength : (orderBy key (r.engine.scan ((c.tagged tags).filter matching))).length =
      ((c.tagged tags).filter matching).length := (orderBy_perm.trans (r.engine.scan_perm _)).length_eq
  rw [← List.length_eq_zero_iff, ← List.length_eq_zero_iff]
  show (((orderBy key (r.engine.scan ((c.tagged tags).filter matching))).map (·.id)).take hybridCandidateLimit).length = 0 ↔ _
  rw [List.length_take, List.length_map, hlength]
  unfold hybridCandidateLimit
  omega

theorem mem_candidates (hfew : ((c.tagged tags).filter matching).length ≤ hybridCandidateLimit) {id : Int} :
    id ∈ candidates r c key tags matching ↔ ∃ place ∈ (c.tagged tags).filter matching, place.id = id := by
  have hperm : (orderBy key (r.engine.scan ((c.tagged tags).filter matching))).Perm ((c.tagged tags).filter matching) :=
    orderBy_perm.trans (r.engine.scan_perm _)
  show id ∈ ((orderBy key (r.engine.scan ((c.tagged tags).filter matching))).map (·.id)).take hybridCandidateLimit ↔ _
  rw [List.take_of_length_le (by rw [List.length_map, hperm.length_eq]; exact hfew), List.mem_map]
  simp only [hperm.mem_iff]

theorem mem_hybridCandidates (hfew : (tierMatches r.search c keyword tags).length ≤ hybridCandidateLimit) {id : Int} :
    id ∈ (hybridCandidates r c keyword tags).1 ↔ ∃ place ∈ tierMatches r.search c keyword tags, place.id = id := by
  unfold tierMatches at hfew ⊢
  unfold hybridCandidates
  dsimp only
  by_cases hnamed : (c.tagged tags).filter (r.search.nameOrTag keyword c) = []
  · rw [if_neg (not_not.mpr hnamed)] at hfew ⊢
    rw [if_neg (not_not.mpr (candidates_eq_nil.mpr hnamed))]
    by_cases haddressed : (c.tagged tags).filter (r.search.inAddress keyword) = []
    · rw [if_neg (not_not.mpr haddressed)] at hfew ⊢
      rw [if_neg (not_not.mpr (candidates_eq_nil.mpr haddressed))]
      exact mem_candidates hfew
    · rw [if_pos haddressed] at hfew ⊢
      rw [if_pos (mt candidates_eq_nil.mp haddressed)]
      exact mem_candidates hfew
  · rw [if_pos hnamed] at hfew ⊢
    rw [if_pos (mt candidates_eq_nil.mp hnamed)]
    exact mem_candidates hfew

theorem mem_tierMatches_active {place : Place} (h : place ∈ tierMatches r.search c keyword tags) :
    place ∈ c.activePlaces ∧ c.carriesAll tags place.id = true := by
  have htagged : place ∈ c.tagged tags := by
    unfold tierMatches at h
    split at h
    · exact (List.mem_filter.mp h).1
    · split at h <;> exact (List.mem_filter.mp h).1
  exact List.mem_filter.mp htagged

/-- What a cold hybrid search gives. -/
theorem mem_getPlacesHybrid [DecidableEq K] {vector : V} (field : VectorField) (hc : c.Constraints)
    (hfew : (tierMatches r.search c keyword tags).length ≤ hybridCandidateLimit)
    {caches : Caches K} (hcold : caches.hybrid (r.hybridCacheKey keyword tags vector) = none) {place : Place} :
    (∃ p ∈ (getPlacesHybrid r c vector keyword tags field caches).1, p.place = place) ↔
      place ∈ tierMatches r.search c keyword tags := by
  have hids : ∀ ids : List Int, (∀ id, id ∈ ids ↔ ∃ place ∈ tierMatches r.search c keyword tags, place.id = id) →
      ((∃ p ∈ ids.filterMap c.listedOf, p.place = place) ↔ place ∈ tierMatches r.search c keyword tags) := by
    intro ids hids
    constructor
    · intro h
      obtain ⟨p, hp, rfl⟩ := h
      obtain ⟨id, hid, hlisted⟩ := List.mem_filterMap.mp hp
      obtain ⟨found, hfound, rfl⟩ := Option.map_eq_some_iff.mp hlisted
      obtain ⟨matched, hmatched, rfl⟩ := (hids id).mp hid
      have hmem := (mem_activePlaces.mp (mem_tierMatches_active hmatched).1).1
      rw [Db.place?_of_mem hc.places hmem] at hfound
      rw [← Option.some.inj hfound]
      exact hmatched
    · intro hplace
      have hmem := (mem_activePlaces.mp (mem_tierMatches_active hplace).1).1
      refine ⟨c.listed place, List.mem_filterMap.mpr ⟨place.id, (hids _).mpr ⟨place, hplace, rfl⟩, ?_⟩, rfl⟩
      unfold Catalog.listedOf
      rw [Db.place?_of_mem hc.places hmem]
      rfl
  have hcandidates : ∀ id, id ∈ (hybridCandidates r c keyword tags).1 ↔
      ∃ place ∈ tierMatches r.search c keyword tags, place.id = id := fun id => mem_hybridCandidates hfew
  unfold getPlacesHybrid
  dsimp only
  rw [hcold]
  dsimp only
  split
  · rename_i hnil
    rw [hnil] at hcandidates
    exact hids [] hcandidates
  · refine hids _ fun id => ?_
    rw [mem_orderBy]
    exact hcandidates id

end

/-! ### The list -/

section
variable {s : TextSearch} {c : Catalog V} {keyword : String} {tags : List Int}

/-- Each name has the empty keyword. -/
theorem nameOrTag_empty (place : Place) : s.nameOrTag "" c place = true := by
  have hname : s.inName "" place = true := by
    unfold TextSearch.inName TextSearch.icontains
    rw [(s.lower_empty "").mpr rfl]
    exact contains_empty _
  unfold TextSearch.nameOrTag
  rw [hname]
  rfl

/-! ### Tiers -/

/-- The place is in some tier. -/
def Matches (s : TextSearch) (c : Catalog V) (keyword : String) (place : Place) : Prop :=
  s.nameOrTag keyword c place = true ∨ s.inAddress keyword place = true ∨ s.isSimilar keyword place = true

/-- If a place with all tags is in some tier, then one is in the first tier that an active
place is in. -/
def TierKept (s : TextSearch) (c : Catalog V) (keyword : String) (tags : List Int) : Prop :=
  (∃ place ∈ c.tagged tags, Matches s c keyword place) →
    ∃ place ∈ c.tagged tags, s.selectsFrom c keyword c.activePlaces place = true

theorem matches_of_selectsFrom {places : List Place} {place : Place} (h : s.selectsFrom c keyword places place = true) :
    Matches s c keyword place := by
  unfold TextSearch.selectsFrom at h
  split at h
  · exact .inl h
  · split at h
    · exact .inr (.inl h)
    · exact .inr (.inr h)

/-- Some tier is the first. -/
theorem exists_selectsFrom {places : List Place} (h : ∃ place ∈ places, Matches s c keyword place) :
    ∃ place ∈ places, s.selectsFrom c keyword places place = true := by
  unfold TextSearch.selectsFrom
  by_cases hname : places.any (s.nameOrTag keyword c) = true
  · simp only [if_pos hname]
    exact List.any_eq_true.mp hname
  · simp only [if_neg hname]
    by_cases haddress : places.any (s.inAddress keyword) = true
    · simp only [if_pos haddress]
      exact List.any_eq_true.mp haddress
    · simp only [if_neg haddress]
      obtain ⟨place, hplace, h | h | h⟩ := h
      · exact absurd (List.any_eq_true.mpr ⟨place, hplace, h⟩) hname
      · exact absurd (List.any_eq_true.mpr ⟨place, hplace, h⟩) haddress
      · exact ⟨place, hplace, h⟩

/-- Fewer places have the same first tier if one of them is in it. -/
theorem selectsFrom_of_subset {places all : List Place} (hsub : ∀ place ∈ places, place ∈ all)
    (h : ∃ place ∈ places, s.selectsFrom c keyword all place = true) :
    s.selectsFrom c keyword places = s.selectsFrom c keyword all := by
  have hany : ∀ p : Place → Bool, places.any p = true → all.any p = true := by
    intro p hp
    obtain ⟨place, hplace, hp⟩ := List.any_eq_true.mp hp
    exact List.any_eq_true.mpr ⟨place, hsub place hplace, hp⟩
  obtain ⟨witness, hwitness, hselected⟩ := h
  funext place
  unfold TextSearch.selectsFrom at hselected ⊢
  by_cases hname : all.any (s.nameOrTag keyword c) = true
  · rw [if_pos hname] at hselected ⊢
    rw [if_pos (List.any_eq_true.mpr ⟨witness, hwitness, hselected⟩)]
  · rw [if_neg hname] at hselected ⊢
    rw [if_neg (mt (hany _) hname)]
    by_cases haddress : all.any (s.inAddress keyword) = true
    · rw [if_pos haddress] at hselected ⊢
      rw [if_pos (List.any_eq_true.mpr ⟨witness, hwitness, hselected⟩)]
    · rw [if_neg haddress]
      rw [if_neg (mt (hany _) haddress)]

theorem mem_tierMatches {place : Place} : place ∈ tierMatches s c keyword tags ↔
    place ∈ c.tagged tags ∧ s.selectsFrom c keyword (c.tagged tags) place = true := by
  have hany : ∀ p : Place → Bool, (c.tagged tags).any p = true ↔ (c.tagged tags).filter p ≠ [] := by
    intro p
    rw [Ne, List.filter_eq_nil_iff, List.any_eq_true]
    constructor
    · intro h hnone
      obtain ⟨place, hplace, h⟩ := h
      exact hnone place hplace h
    · intro h
      by_contra hnone
      exact h fun place hplace hp => hnone ⟨place, hplace, hp⟩
  unfold tierMatches TextSearch.selectsFrom
  simp only [hany]
  split
  · exact List.mem_filter
  · split <;> exact List.mem_filter

/-- Both orders select the same places exactly where the first tier is kept. -/
theorem same_tiers_iff : (∀ place, place ∈ tierMatches s c keyword tags ↔
    place ∈ c.tagged tags ∧ s.selectsFrom c keyword c.activePlaces place = true) ↔ TierKept s c keyword tags := by
  constructor
  · intro h hmatches
    obtain ⟨place, hplace, hselected⟩ := exists_selectsFrom hmatches
    exact ⟨place, hplace, ((h place).mp (mem_tierMatches.mpr ⟨hplace, hselected⟩)).2⟩
  · intro h place
    rw [mem_tierMatches]
    by_cases hmatches : ∃ place ∈ c.tagged tags, Matches s c keyword place
    · have hsub : ∀ place ∈ c.tagged tags, place ∈ c.activePlaces := fun place hplace => (List.mem_filter.mp hplace).1
      rw [selectsFrom_of_subset hsub (h hmatches)]
    · constructor
      · exact fun hplace => absurd ⟨place, hplace.1, matches_of_selectsFrom hplace.2⟩ hmatches
      · exact fun hplace => absurd ⟨place, hplace.1, matches_of_selectsFrom hplace.2⟩ hmatches

end

/-! ### In memory -/

section
variable {r : Recommender V D K} {c : Catalog V} {keyword : String}

/-- Where the first or the second tier has a place, memory does not need the third. -/
theorem selectsInMemory_eq {s : TextSearch} {places : List Place}
    (hmatch : ∃ place ∈ places, s.nameOrTag keyword c place = true ∨ s.inAddress keyword place = true) (place : Place) :
    s.selectsInMemory c keyword places place = s.selectsFrom c keyword places place := by
  unfold TextSearch.selectsInMemory TextSearch.selectsFrom
  by_cases hname : places.any (s.nameOrTag keyword c) = true
  · rw [if_pos hname, if_pos hname]
  · have haddress : places.any (s.inAddress keyword) = true := by
      obtain ⟨q, hq, hin | hin⟩ := hmatch
      · exact absurd (List.any_eq_true.mpr ⟨q, hq, hin⟩) hname
      · exact List.any_eq_true.mpr ⟨q, hq, hin⟩
    rw [if_neg hname, if_neg hname, if_pos haddress]

/-- The tiers look at the places only as a set. -/
theorem selectsFrom_congr {s : TextSearch} {places places' : List Place} (h : ∀ place, place ∈ places ↔ place ∈ places') :
    s.selectsFrom c keyword places = s.selectsFrom c keyword places' := by
  have hany : ∀ p : Place → Bool, places.any p = places'.any p := by
    intro p
    rw [Bool.eq_iff_iff, List.any_eq_true, List.any_eq_true]
    simp only [h]
  funext place
  unfold TextSearch.selectsFrom
  rw [hany, hany]

variable [DecidableEq K] [LinearOrder D] {userId : Option Int} {caches : Caches K}

/-- What the search in memory selects. -/
theorem mem_recommend_inMemory (hkeyword : keyword ≠ "") (hfew : c.activePlaces.length ≤ 100)
    (hmatch : ∃ place ∈ c.activePlaces, r.search.nameOrTag keyword c place = true ∨ r.search.inAddress keyword place = true)
    (hvector : (c.stageVector userId).filter (r.engine.nonzero ·.1) = none) (hcold : caches.popular 100 = none) :
    ∃ places caches', getPlaceListRecommend r c userId keyword [] caches = .ok (places, caches') ∧
      ∀ place, (∃ p ∈ places, p.place = place) ↔
        place ∈ c.activePlaces ∧ r.search.selectsFrom c keyword c.activePlaces place = true := by
  have hrows : ∀ place, place ∈ (popularRows r.engine c [] none).take 100 ↔ place ∈ c.activePlaces := by
    intro place
    have hlength : (popularRows r.engine c [] none).length ≤ 100 := by
      unfold popularRows
      rw [(orderBy_perm.trans (r.engine.scan_perm _)).length_eq]
      exact Nat.le_trans (List.length_filter_le _ _) hfew
    rw [List.take_of_length_le hlength, mem_popularRows, and_iff_left (.inl rfl)]
  set popular := ((popularRows r.engine c [] none).take 100).map c.listed with hpopular
  have hplaces : ∀ place, place ∈ popular.map (·.place) ↔ place ∈ c.activePlaces := by
    intro place
    rw [hpopular, List.map_map]
    show place ∈ List.map id _ ↔ _
    rw [List.map_id, hrows]
  have hselects : ∀ place, r.search.selectsInMemory c keyword (popular.map (·.place)) place =
      r.search.selectsFrom c keyword c.activePlaces place := by
    intro place
    rw [← selectsFrom_congr hplaces]
    refine selectsInMemory_eq ?_ place
    obtain ⟨matched, hmatched, hin⟩ := hmatch
    exact ⟨matched, (hplaces matched).mpr hmatched, hin⟩
  refine ⟨(inMemoryTiers r c keyword popular).map (c.marked userId),
    caches.setPopular 100 (some (popular.map (·.place.id))), ?_, fun place => ?_⟩
  · apply getPlaceListRecommend_ok
    rw [recommendedPlaces_inMemory hvector hkeyword, getPopularPlaces_miss hcold]
  · constructor
    · intro h
      obtain ⟨p, hp, rfl⟩ := h
      obtain ⟨q, hq, rfl⟩ := List.mem_map.mp hp
      obtain ⟨hmem, hselected⟩ := (mem_inMemoryTiers hkeyword).mp hq
      rw [hselects] at hselected
      exact ⟨(hplaces q.place).mp (List.mem_map_of_mem hmem), hselected⟩
    · intro h
      obtain ⟨hplace, hselected⟩ := h
      obtain ⟨q, hq, rfl⟩ := List.mem_map.mp ((hplaces place).mpr hplace)
      rw [← hselects] at hselected
      exact ⟨_, List.mem_map_of_mem ((mem_inMemoryTiers hkeyword).mpr ⟨hq, hselected⟩), rfl⟩

end

/-! ### The paths -/

variable [DecidableEq K] [LinearOrder D]

/-- The paths select the places of the list. -/
structure SelectsAlike (r : Recommender V D K) (c : Catalog V) (keyword : String) (tags : List Int) : Prop where
  hybrid : ∀ sort order userId vector field (caches : Caches K), caches.hybrid (r.hybridCacheKey keyword tags vector) = none →
    ∀ place, (∃ row ∈ getPlaceList r.search c keyword sort order tags userId, row.place = place) ↔
      ∃ p ∈ (getPlacesHybrid r c vector keyword tags field caches).1, p.place = place
  inMemory : tags = [] → keyword ≠ "" → c.activePlaces.length ≤ 100 →
    (∃ place ∈ c.activePlaces, r.search.nameOrTag keyword c place = true ∨ r.search.inAddress keyword place = true) →
    ∀ sort order userId (caches : Caches K), (c.stageVector userId).filter (r.engine.nonzero ·.1) = none →
      caches.popular 100 = none → ∃ places caches', getPlaceListRecommend r c userId keyword tags caches = .ok (places, caches') ∧
        ∀ place, (∃ row ∈ getPlaceList r.search c keyword sort order tags userId, row.place = place) ↔
          ∃ p ∈ places, p.place = place

section
variable {r : Recommender V D K} {c : Catalog V} {keyword : String} {tags : List Int}

omit [DecidableEq K] [LinearOrder D] in
theorem mem_list_iff {sort order : String} {userId : Option Int} {place : Place} :
    (∃ row ∈ getPlaceList r.search c keyword sort order tags userId, row.place = place) ↔
      place ∈ c.tagged tags ∧ r.search.selectsFrom c keyword c.activePlaces place = true := by
  unfold Catalog.tagged
  rw [mem_getPlaceList, List.mem_filter, and_assoc]
  refine and_congr_right fun hplace => and_congr_right fun _ => or_iff_right_of_imp ?_
  intro hkeyword
  subst hkeyword
  unfold TextSearch.selectsFrom
  rw [if_pos (List.any_eq_true.mpr ⟨place, hplace, nameOrTag_empty place⟩)]
  exact nameOrTag_empty place

/-- **The places of a keyword.** The hybrid search, which filters by the tags before it
chooses the tier, selects those of the list exactly where the tier is kept. -/
theorem selects_alike_iff [Nonempty V] (hc : c.Constraints)
    (hfew : (tierMatches r.search c keyword tags).length ≤ hybridCandidateLimit) :
    SelectsAlike r c keyword tags ↔ TierKept r.search c keyword tags := by
  rw [← same_tiers_iff]
  constructor
  · intro h place
    obtain ⟨vector⟩ := ‹Nonempty V›
    have hcold : (Caches.hybrid {} : K → Option (List Int)) (r.hybridCacheKey keyword tags vector) = none := rfl
    rw [← mem_getPlacesHybrid .style hc hfew hcold, ← h.hybrid "" "" none vector .style {} hcold, mem_list_iff]
  · refine fun h => ⟨?_, ?_⟩
    · intro sort order userId vector field caches hcold place
      rw [mem_list_iff, mem_getPlacesHybrid field hc hfew hcold, h place]
    · intro htags
      subst htags
      intro hkeyword hfew hmatch sort order userId caches hvector hcold
      obtain ⟨places, caches', hresult, hmem⟩ := mem_recommend_inMemory hkeyword hfew hmatch hvector hcold
      refine ⟨places, caches', hresult, fun place => ?_⟩
      have hall : c.carriesAll [] place.id = true := rfl
      rw [mem_list_iff, hmem]
      unfold Catalog.tagged
      rw [List.mem_filter, and_iff_left hall]

end

/-! ### A name without the tag -/

/-- The name has the keyword, and the place with the tag has it in its address. -/
def shore : Catalog Nat where
  db := {
    places := [
      {id := 1, contentId := 1, contentTypeId := 12, placeName := "바다"},
      {id := 2, contentId := 2, contentTypeId := 12, placeName := "등대", addressPrimary := some "강원도 바다길"}]
    tags := [⟨1, "테마", "산책"⟩]
    placeTags := [(2, 1)]}

theorem selects_alike_iff_shore :
    SelectsAlike plainRecommender shore "등대" [1] ↔ TierKept plainRecommender.search shore "등대" [1] :=
  selects_alike_iff ⟨by decide, by decide, by decide⟩ (by decide +kernel)

/-- The list stops at the name without the tag, the hybrid search goes on to the address. -/
theorem shore_selects_otherwise : ¬ SelectsAlike plainRecommender shore "바다" [1] := by
  intro h
  have hlist : getPlaceList plainRecommender.search shore "바다" "" "" [1] none = [] := by decide +kernel
  have hhybrid : ((getPlacesHybrid plainRecommender shore 0 "바다" [1] .style {}).1.map (·.place.id)) = [2] := by decide +kernel
  obtain ⟨p, hp, -⟩ := List.mem_map.mp (hhybrid ▸ List.mem_cons_self : (2 : Int) ∈ _)
  obtain ⟨row, hrow, -⟩ := (h.hybrid "" "" none 0 .style {} rfl p.place).mpr ⟨p, hp, rfl⟩
  rw [hlist] at hrow
  cases hrow

end TravelMaker
