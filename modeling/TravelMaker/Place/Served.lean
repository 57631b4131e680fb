import TravelMaker.Lib.History
import TravelMaker.Place.Listed
import TravelMaker.Place.Recommended
import TravelMaker.Place.Sync

/-! Places out of the cache.

The queries filter by `is_active`, the caches keep what they found. `served_active_iff`
says when a history serves active places only: no request is answered by an entry that
still has a place which was deactivated since. -/
namespace TravelMaker
open Lib.History

variable {V D K : Type}

/-! ### Requests -/

structure Served (V K : Type) where
  catalog : Catalog V
  seq : Nat := 0
  caches : Caches K := {}

/-- What happens to the tables and the caches. -/
inductive Event (V D K : Type) : Type 1 where
  | list (search : TextSearch) (keyword sort order : String) (tags : List Int) (userId : Option Int)
  | recommend (r : Recommender V D K) (userId : Option Int) (keyword : String) (tags : List Int)
  | popular (e : Engine V D) (tagIds : List Int) (regionTagId : Option Int) (limit : Option Nat)
  | detail (placeId : Int) (userId : Option Int)
  | hybridExpires (key : K)
  | popularExpires (limit : Nat)
  | detailExpires (placeId : Int)
  | syncIncremental (out : Outside) (contentTypeIds : List Int) (numOfRows : Nat) (maxPages : Option Nat) (dryRun : Bool)
  -- an item of a run that goes on between the requests
  | syncItem (out : Outside) (contentTypeId : Int) (existing : Existing) (dryRun : Bool) (listItem : Item)

namespace Served

/-- A part of a collection run, on the tables. -/
def collect (s : Served V K) (x : Collect V SyncSummary Unit) : Served V K :=
  let w := (x {db := s.catalog.db, seq := s.seq, summary := {}}).2
  {s with catalog := {s.catalog with db := w.db}, seq := w.seq}

variable [DecidableEq K] [LinearOrder D]

/-- The ids of the places that are returned, and what is left. -/
def serve (s : Served V K) : Event V D K → List Int × Served V K
  | .list search keyword sort order tags userId =>
    ((getPlaceList search s.catalog keyword sort order tags userId).map (·.place.id), s)
  | .recommend r userId keyword tags =>
    match getPlaceListRecommend r s.catalog userId keyword tags s.caches with
    | .ok (places, caches) => (places.map (·.place.id), {s with caches := caches})
    | .error _ => ([], s)
  | .popular e tagIds regionTagId limit =>
    let (places, caches) := getPopularPlaces e s.catalog tagIds regionTagId limit s.caches
    (places.map (·.place.id), {s with caches := caches})
  | .detail placeId userId =>
    let (place, caches) := getPlaceDetail s.catalog placeId userId s.caches
    (place.toList.map (·.1.id), {s with caches := caches})
  | .hybridExpires key => ([], {s with caches := s.caches.setHybrid key none})
  | .popularExpires limit => ([], {s with caches := s.caches.setPopular limit none})
  | .detailExpires placeId => ([], {s with caches := s.caches.setDetail placeId none})
  | .syncIncremental out contentTypeIds numOfRows maxPages dryRun =>
    ([], s.collect (syncIncremental out contentTypeIds numOfRows maxPages dryRun))
  | .syncItem out contentTypeId existing dryRun listItem =>
    ([], s.collect (processSyncItem out contentTypeId existing dryRun listItem))

def step (s : Served V K) (event : Event V D K) : Served V K := (s.serve event).2

end Served

/-! ### Active places -/

namespace Catalog
variable (c : Catalog V)

/-- The id is that of an active place. -/
def active (id : Int) : Bool := c.activePlaces.any (·.id == id)

/-- The places of an entry that are still there. -/
def entryPlaces (ids : List Int) : List Place := c.db.places.filter fun place => ids.contains place.id

/-- Every place of the entry is active. -/
def EntryActive (ids : List Int) : Prop := ∀ place ∈ c.entryPlaces ids, c.active place.id = true

end Catalog

/-- The entry of the popular places that answers a request. -/
def Caches.popularEntry (caches : Caches K) (tagIds : List Int) (regionTagId : Option Int) (limit : Option Nat) :
    Option (List Int) :=
  (if tagIds = [] ∧ Catalog.regionTags regionTagId = [] then limit else none).bind caches.popular

/-- The entries that answer a recommendation have active places. -/
def FreshRecommend (r : Recommender V D K) (c : Catalog V) (caches : Caches K) (userId : Option Int) (keyword : String)
    (tags : List Int) : Prop :=
  match (c.stageVector userId).filter (r.engine.nonzero ·.1) with
  | some (vector, _) =>
    keyword ≠ "" → ∀ ids, caches.hybrid (r.hybridCacheKey keyword tags vector) = some ids → c.EntryActive ids
  | none =>
    if keyword ≠ "" then
      -- of the entry, only what the keyword selects is returned
      ∀ ids, caches.popularEntry tags none (some 100) = some ids → ∀ place ∈ c.entryPlaces ids,
        r.search.selectsInMemory c keyword (c.entryPlaces ids) place = true → c.active place.id = true
    else ∀ ids, caches.popularEntry tags none (some remainingCap) = some ids → c.EntryActive ids

/-- The entry that answers a request, if there is one, has active places. -/
def Fresh (s : Served V K) : Event V D K → Prop
  | .recommend r userId keyword tags => FreshRecommend r s.catalog s.caches userId keyword tags
  | .popular _ tagIds regionTagId limit =>
    ∀ ids, s.caches.popularEntry tagIds regionTagId limit = some ids → s.catalog.EntryActive ids
  | .detail placeId _ => ∀ place, s.caches.detail placeId = some place → s.catalog.active place.id = true
  | _ => True

/-- Each place that is returned is active. -/
def ServesActive [DecidableEq K] [LinearOrder D] (s : Served V K) (event : Event V D K) : Prop :=
  ∀ id ∈ (s.serve event).1, s.catalog.active id = true

namespace Catalog
variable {c : Catalog V} {ids : List Int}

theorem active_of_mem {place : Place} (hplace : place ∈ c.activePlaces) : c.active place.id = true :=
  List.any_eq_true.mpr ⟨place, hplace, beq_self_eq_true _⟩

theorem active_of_isActive {id : Int} (h : c.isActive id = true) : c.active id = true := by
  obtain ⟨place, hplace, hactive⟩ := (Option.any_eq_true _ _).mp h
  obtain ⟨hmem, rfl⟩ := Db.place?_some hplace
  exact active_of_mem (mem_activePlaces.mpr ⟨hmem, hactive⟩)

theorem mem_entryPlaces {place : Place} : place ∈ c.entryPlaces ids ↔ place ∈ c.db.places ∧ place.id ∈ ids := by
  unfold entryPlaces
  rw [List.mem_filter, List.contains_iff_mem]

theorem entryActive_of_active (h : ∀ id ∈ ids, c.active id = true) : c.EntryActive ids :=
  fun place hplace => h place.id (mem_entryPlaces.mp hplace).2

/-- The places of an entry, as they are loaded. -/
theorem loadPlaces_active {e : Engine V D} : (∀ p ∈ c.loadPlaces e ids, c.active p.place.id = true) ↔ c.EntryActive ids := by
  constructor
  · intro h place hplace
    obtain ⟨hmem, hid⟩ := mem_entryPlaces.mp hplace
    exact h (c.listed place) ((mem_loadPlaces e c).mpr ⟨place, hmem, hid, rfl⟩)
  · intro h p hp
    obtain ⟨place, hmem, hid, rfl⟩ := (mem_loadPlaces e c).mp hp
    exact h place (mem_entryPlaces.mpr ⟨hmem, hid⟩)

theorem listedOf_active : (∀ p ∈ ids.filterMap c.listedOf, c.active p.place.id = true) ↔ c.EntryActive ids := by
  constructor
  · intro h place hplace
    obtain ⟨hmem, hid⟩ := mem_entryPlaces.mp hplace
    have hsome : (c.db.place? place.id).isSome = true := List.find?_isSome.mpr ⟨place, hmem, beq_self_eq_true _⟩
    obtain ⟨found, hfound⟩ := Option.isSome_iff_exists.mp hsome
    have hlisted : c.listedOf place.id = some (c.listed found) := congrArg (Option.map c.listed) hfound
    have hactive := h (c.listed found) (List.mem_filterMap.mpr ⟨place.id, hid, hlisted⟩)
    exact (Db.place?_some hfound).2 ▸ hactive
  · intro h p hp
    obtain ⟨id, hid, hlisted⟩ := List.mem_filterMap.mp hp
    obtain ⟨found, hfound, rfl⟩ := Option.map_eq_some_iff.mp hlisted
    obtain ⟨hmem, rfl⟩ := Db.place?_some hfound
    exact h found (mem_entryPlaces.mpr ⟨hmem, hid⟩)

end Catalog

/-! ### What the caches hold -/

namespace Caches

/-- The id is in some entry. -/
def Holds (caches : Caches K) (id : Int) : Prop :=
  (∃ key ids, caches.hybrid key = some ids ∧ id ∈ ids) ∨ (∃ limit ids, caches.popular limit = some ids ∧ id ∈ ids) ∨
    ∃ placeId place, caches.detail placeId = some place ∧ place.id = id

/-- An entry after a write is an old one or the one that was written. -/
theorem of_update {κ α : Type} [DecidableEq κ] {f : κ → Option α} {key key' : κ} {entry : Option α} {a : α}
    (h : Function.update f key entry key' = some a) : f key' = some a ∨ entry = some a := by
  by_cases hkey : key' = key
  · rw [hkey, Function.update_self] at h
    exact .inr h
  · rw [Function.update_of_ne hkey] at h
    exact .inl h

variable {caches : Caches K} {id : Int}

theorem holds_setHybrid [DecidableEq K] {key : K} {entry : Option (List Int)} (h : (caches.setHybrid key entry).Holds id) :
    caches.Holds id ∨ ∃ ids, entry = some ids ∧ id ∈ ids := by
  obtain ⟨key', ids, hentry, hid⟩ | h := h
  · rcases of_update hentry with hold | hnew
    · exact .inl (.inl ⟨key', ids, hold, hid⟩)
    · exact .inr ⟨ids, hnew, hid⟩
  · exact .inl (.inr h)

theorem holds_setPopular {limit : Nat} {entry : Option (List Int)} (h : (caches.setPopular limit entry).Holds id) :
    caches.Holds id ∨ ∃ ids, entry = some ids ∧ id ∈ ids := by
  obtain h | ⟨limit', ids, hentry, hid⟩ | h := h
  · exact .inl (.inl h)
  · rcases of_update hentry with hold | hnew
    · exact .inl (.inr (.inl ⟨limit', ids, hold, hid⟩))
    · exact .inr ⟨ids, hnew, hid⟩
  · exact .inl (.inr (.inr h))

theorem holds_setDetail {placeId : Int} {entry : Option Place} (h : (caches.setDetail placeId entry).Holds id) :
    caches.Holds id ∨ ∃ place, entry = some place ∧ place.id = id := by
  obtain h | h | ⟨placeId', place, hentry, hid⟩ := h
  · exact .inl (.inl h)
  · exact .inl (.inr (.inl h))
  · rcases of_update hentry with hold | hnew
    · exact .inl (.inr (.inr ⟨placeId', place, hold, hid⟩))
    · exact .inr ⟨place, hnew, hid⟩

end Caches

/-! ### Answers -/

/-- An answer is as active as the entry that it is read from, what is not active was held, and what
is put in the cache is active. -/
structure Answers (c : Catalog V) (caches : Caches K) (fresh : Prop) (answer : List ListedPlace × Caches K) : Prop where
  active : (∀ p ∈ answer.1, c.active p.place.id = true) ↔ fresh
  held : ∀ p ∈ answer.1, c.active p.place.id = true ∨ caches.Holds p.place.id
  filled : ∀ id, answer.2.Holds id → caches.Holds id ∨ c.active id = true

section
variable {c : Catalog V} {caches : Caches K}

/-- The entry is returned. -/
theorem Answers.hit {places : List ListedPlace} {entry : Option (List Int)} {ids : List Int} (hentry : entry = some ids)
    (h : (∀ p ∈ places, c.active p.place.id = true) ↔ c.EntryActive ids) (hheld : ∀ p ∈ places, caches.Holds p.place.id) :
    Answers c caches (∀ ids, entry = some ids → c.EntryActive ids) (places, caches) where
  active := by
    rw [h, hentry]
    exact ⟨fun hactive _ hids => Option.some.inj hids ▸ hactive, fun hactive => hactive ids rfl⟩
  held p hp := .inr (hheld p hp)
  filled id hid := .inl hid

/-- There is no entry, and the query takes active places. -/
theorem Answers.miss {places : List ListedPlace} {caches' : Caches K} {entry : Option (List Int)} (hentry : entry = none)
    (hactive : ∀ p ∈ places, c.active p.place.id = true)
    (hfilled : ∀ id, caches'.Holds id → caches.Holds id ∨ c.active id = true) :
    Answers c caches (∀ ids, entry = some ids → c.EntryActive ids) (places, caches') where
  active := by
    rw [hentry]
    exact ⟨fun _ _ hids => (Option.some_ne_none _ hids.symm).elim, fun _ => hactive⟩
  held p hp := .inl (hactive p hp)
  filled := hfilled

theorem popularEntry_hit {e : Engine V D} {tagIds : List Int} {regionTagId : Option Int} {limit : Option Nat} {ids : List Int}
    (hentry : caches.popularEntry tagIds regionTagId limit = some ids) :
    getPopularPlaces e c tagIds regionTagId limit caches = (c.loadPlaces e ids, caches) := by
  have hbind : (if tagIds = [] ∧ Catalog.regionTags regionTagId = [] then limit else none).bind caches.popular = some ids :=
    hentry
  unfold getPopularPlaces
  dsimp only
  rw [hbind]

theorem Answers.congr {fresh fresh' : Prop} {answer : List ListedPlace × Caches K} (h : Answers c caches fresh answer)
    (hfresh : fresh ↔ fresh') : Answers c caches fresh' answer := ⟨h.active.trans hfresh, h.held, h.filled⟩

/-- Popular places are read from the entry or from the query. -/
theorem answers_popular {e : Engine V D} {tagIds : List Int} {regionTagId : Option Int} {limit : Option Nat} :
    Answers c caches (∀ ids, caches.popularEntry tagIds regionTagId limit = some ids → c.EntryActive ids)
      (getPopularPlaces e c tagIds regionTagId limit caches) := by
  have hactive : ∀ rows : List Place, (∀ place ∈ rows, place ∈ popularRows e c tagIds regionTagId) →
      ∀ p ∈ rows.map c.listed, c.active p.place.id = true := by
    intro rows hrows p hp
    obtain ⟨place, hplace, rfl⟩ := List.mem_map.mp hp
    have hmem := (e.scan_perm _).mem_iff.mp (mem_orderBy.mp (hrows place hplace))
    exact Catalog.active_of_mem (List.mem_filter.mp hmem).1
  have hquery : ∀ p ∈ (limit.elim (popularRows e c tagIds regionTagId) fun limit =>
      (popularRows e c tagIds regionTagId).take limit).map c.listed, c.active p.place.id = true := by
    refine hactive _ fun place hplace => ?_
    cases limit with
    | none => exact hplace
    | some limit => exact List.mem_of_mem_take hplace
  cases hentry : caches.popularEntry tagIds regionTagId limit with
  | some ids =>
    rw [popularEntry_hit hentry]
    refine Answers.hit rfl Catalog.loadPlaces_active fun p hp => ?_
    obtain ⟨n, -, hids⟩ := Option.bind_eq_some_iff.mp hentry
    obtain ⟨place, -, hid, rfl⟩ := (Catalog.mem_loadPlaces e c).mp hp
    exact .inr (.inl ⟨n, ids, hids, hid⟩)
  | none =>
    have hbind : (if tagIds = [] ∧ Catalog.regionTags regionTagId = [] then limit else none).bind caches.popular = none :=
      hentry
    unfold getPopularPlaces
    dsimp only
    rw [hbind]
    dsimp only
    split
    · refine Answers.miss rfl hquery fun id hid => ?_
      apply (Caches.holds_setPopular hid).imp_right
      intro h
      obtain ⟨ids, hids, hid⟩ := h
      obtain rfl := Option.some.inj hids
      obtain ⟨p, hp, rfl⟩ := List.mem_map.mp hid
      exact hquery p hp
    · exact Answers.miss rfl hquery fun id hid => .inl hid

variable {r : Recommender V D K}

theorem active_candidates {β : Type} [LinearOrder β] {key : Place → β} {tags : List Int} {matching : Place → Bool} {id : Int}
    (hid : id ∈ candidates r c key tags matching) : c.active id = true := by
  obtain ⟨place, hplace, rfl⟩ := List.mem_map.mp (List.mem_of_mem_take hid)
  have hmem := (r.engine.scan_perm _).mem_iff.mp (mem_orderBy.mp hplace)
  exact Catalog.active_of_mem (List.mem_filter.mp (List.mem_filter.mp hmem).1).1

theorem active_hybridCandidates {keyword : String} {tags : List Int} {id : Int}
    (hid : id ∈ (hybridCandidates r c keyword tags).1) : c.active id = true := by
  unfold hybridCandidates at hid
  dsimp only at hid
  split at hid
  · exact active_candidates hid
  · split at hid
    · exact active_candidates hid
    · exact active_candidates hid

/-- The hybrid search is read from the entry or from the candidates. -/
theorem answers_hybrid [DecidableEq K] {vector : V} {keyword : String} {tags : List Int} {field : VectorField} :
    Answers c caches (∀ ids, caches.hybrid (r.hybridCacheKey keyword tags vector) = some ids → c.EntryActive ids)
      (getPlacesHybrid r c vector keyword tags field caches) := by
  unfold getPlacesHybrid
  dsimp only
  cases hentry : caches.hybrid (r.hybridCacheKey keyword tags vector) with
  | some ids =>
    refine Answers.hit rfl Catalog.listedOf_active fun p hp => .inl ⟨_, ids, hentry, ?_⟩
    obtain ⟨id, hid, hlisted⟩ := List.mem_filterMap.mp hp
    obtain ⟨found, hfound, rfl⟩ := Option.map_eq_some_iff.mp hlisted
    obtain ⟨-, rfl⟩ := Db.place?_some hfound
    exact hid
  | none =>
    dsimp only
    split
    · exact Answers.miss rfl (fun _ hp => (List.not_mem_nil hp).elim) fun id hid => .inl hid
    · have hsorted : ∀ id ∈ orderBy (fun id => OrderDual.toDual
          (hybridScore r c vector field keyword (hybridCandidates r c keyword tags).2 id)) (hybridCandidates r c keyword tags).1,
          c.active id = true := fun id hid => active_hybridCandidates (mem_orderBy.mp hid)
      refine Answers.miss rfl (Catalog.listedOf_active.mpr (Catalog.entryActive_of_active hsorted)) fun id hid => ?_
      apply (Caches.holds_setHybrid hid).imp_right
      intro h
      obtain ⟨ids, hids, hid⟩ := h
      obtain rfl := Option.some.inj hids
      exact hsorted id hid

/-- Rankings by vector pass the caches by. -/
theorem answers_vector [LinearOrder D] (r : Recommender V D K) (c : Catalog V) (vector : V) (tags : List Int)
    (caches : Caches K) (field : VectorField) :
    ∃ places, placesSortedBy r.engine c vector tags none (c.featureRows field) none = .ok places ∧
      Answers c caches True (appendRemaining r c places tags, caches) := by
  obtain ⟨places, hplaces, hmem⟩ := placesSortedBy_none r.engine c vector tags (c.featureRows field)
  have hall : ∀ p ∈ appendRemaining r c places tags, c.active p.place.id = true := by
    intro p hp
    rcases mem_remaining hp with hp | ⟨place, hplace, rfl, -⟩
    · obtain ⟨place, -, rfl, row, hrow, hid, -⟩ := (hmem p).mp hp
      have hactive := Catalog.active_of_isActive (mem_featureRows.mp hrow).2
      rw [hid] at hactive
      exact hactive
    · exact Catalog.active_of_mem hplace
  exact ⟨places, hplaces, iff_of_true hall trivial, fun p hp => .inl (hall p hp), fun id hid => .inl hid⟩

theorem entryPlaces_loadPlaces {e : Engine V D} {ids : List Int} {place : Place} :
    place ∈ (c.loadPlaces e ids).map (·.place) ↔ place ∈ c.entryPlaces ids := by
  rw [List.mem_map, Catalog.mem_entryPlaces]
  constructor
  · intro h
    obtain ⟨p, hp, rfl⟩ := h
    obtain ⟨place, hmem, hid, rfl⟩ := (Catalog.mem_loadPlaces e c).mp hp
    exact ⟨hmem, hid⟩
  · intro h
    exact ⟨c.listed place, (Catalog.mem_loadPlaces e c).mpr ⟨place, h.1, h.2, rfl⟩, rfl⟩

/-- In memory, what the keyword selects of the entry is returned. -/
theorem answers_inMemory {keyword : String} (hkeyword : keyword ≠ "") {tags : List Int} :
    Answers c caches (∀ ids, caches.popularEntry tags none (some 100) = some ids → ∀ place ∈ c.entryPlaces ids,
        r.search.selectsInMemory c keyword (c.entryPlaces ids) place = true → c.active place.id = true)
      (inMemoryTiers r c keyword (getPopularPlaces r.engine c tags none (some 100) caches).1,
        (getPopularPlaces r.engine c tags none (some 100) caches).2) := by
  have hpopular : Answers c caches (∀ ids, caches.popularEntry tags none (some 100) = some ids → c.EntryActive ids)
      (getPopularPlaces r.engine c tags none (some 100) caches) := answers_popular
  refine ⟨?_, fun p hp => hpopular.held p ((mem_inMemoryTiers hkeyword).mp hp).1, hpopular.filled⟩
  cases hentry : caches.popularEntry tags none (some 100) with
  | none =>
    have hactive := hpopular.active.mpr fun ids hids => (Option.some_ne_none ids (hids.symm.trans hentry)).elim
    refine iff_of_true (fun p hp => ?_) fun ids hids => (Option.some_ne_none ids hids.symm).elim
    exact hactive p ((mem_inMemoryTiers hkeyword).mp hp).1
  | some ids =>
    rw [popularEntry_hit hentry]
    have hselects : r.search.selectsInMemory c keyword ((c.loadPlaces r.engine ids).map (·.place)) =
        r.search.selectsInMemory c keyword (c.entryPlaces ids) := selectsInMemory_congr fun place => entryPlaces_loadPlaces
    constructor
    · intro h ids' hids place hplace hselected
      obtain rfl := Option.some.inj hids
      obtain ⟨p, hp, rfl⟩ := List.mem_map.mp (entryPlaces_loadPlaces.mpr hplace)
      exact h p ((mem_inMemoryTiers hkeyword).mpr ⟨hp, by rw [hselects]; exact hselected⟩)
    · intro h p hp
      obtain ⟨hmem, hselected⟩ := (mem_inMemoryTiers hkeyword).mp hp
      rw [hselects] at hselected
      exact h ids rfl p.place (entryPlaces_loadPlaces.mp (List.mem_map_of_mem hmem)) hselected

/-- A recommendation, path by path. -/
theorem answers_recommend [DecidableEq K] [LinearOrder D] (r : Recommender V D K) (c : Catalog V) (userId : Option Int)
    (keyword : String) (tags : List Int) (caches : Caches K) :
    ∃ answer, recommendedPlaces r c userId keyword tags caches = .ok answer ∧
      Answers c caches (FreshRecommend r c caches userId keyword tags) answer := by
  unfold FreshRecommend
  cases hvector : (c.stageVector userId).filter (r.engine.nonzero ·.1) with
  | none =>
    dsimp only
    by_cases hkeyword : keyword = ""
    · subst hkeyword
      rw [if_neg (not_not.mpr rfl)]
      exact ⟨_, recommendedPlaces_popular hvector, answers_popular⟩
    · rw [if_pos hkeyword]
      exact ⟨_, recommendedPlaces_inMemory hvector hkeyword, answers_inMemory hkeyword⟩
  | some vector =>
    obtain ⟨vector, field⟩ := vector
    dsimp only
    by_cases hkeyword : keyword = ""
    · subst hkeyword
      obtain ⟨places, hplaces, hanswers⟩ := answers_vector r c vector tags caches field
      refine ⟨_, recommendedPlaces_vector hvector hplaces, hanswers.congr ?_⟩
      exact iff_of_true trivial fun hne => absurd rfl hne
    · refine ⟨_, recommendedPlaces_hybrid hvector hkeyword, answers_hybrid.congr ?_⟩
      exact ⟨fun h _ => h, fun h => h hkeyword⟩

end

/-! ### Histories -/

section
variable [DecidableEq K] [LinearOrder D]

/-- A place of the list is active. -/
theorem active_list {s : TextSearch} {c : Catalog V} {keyword sort order : String} {tags : List Int} {userId : Option Int}
    {row : PlaceRow} (hrow : row ∈ getPlaceList s c keyword sort order tags userId) : c.active row.place.id = true :=
  Catalog.active_of_mem (mem_getPlaceList.mp ⟨row, hrow, rfl⟩).1

theorem serve_recommend {s : Served V K} {r : Recommender V D K} {userId : Option Int} {keyword : String} {tags : List Int}
    {answer : List ListedPlace × Caches K} (h : recommendedPlaces r s.catalog userId keyword tags s.caches = .ok answer) :
    s.serve (.recommend r userId keyword tags) = (answer.1.map (·.place.id), {s with caches := answer.2}) := by
  have hmarked : getPlaceListRecommend r s.catalog userId keyword tags s.caches =
      .ok (answer.1.map (s.catalog.marked userId), answer.2) := by
    unfold getPlaceListRecommend
    rw [h]
    rfl
  unfold Served.serve
  dsimp only
  rw [hmarked]
  dsimp only
  rw [List.map_map]
  rfl

omit [DecidableEq K] [LinearOrder D] in
/-- A detail is read from the entry or from the query. -/
theorem getPlaceDetail_cases (c : Catalog V) (placeId : Int) (userId : Option Int) (caches : Caches K) :
    (∃ place marked, caches.detail placeId = some place ∧
      getPlaceDetail c placeId userId caches = (some (place, marked), caches)) ∨
    (caches.detail placeId = none ∧ getPlaceDetail c placeId userId caches = (none, caches)) ∨
    ∃ place marked, caches.detail placeId = none ∧ c.active place.id = true ∧
      getPlaceDetail c placeId userId caches = (some (place, marked), caches.setDetail placeId (some place)) := by
  unfold getPlaceDetail
  dsimp only
  cases hentry : caches.detail placeId with
  | some place => exact .inl ⟨place, _, rfl, rfl⟩
  | none =>
    cases hfound : c.activePlaces.find? (·.id == placeId) with
    | none => exact .inr (.inl ⟨rfl, rfl⟩)
    | some place => exact .inr (.inr ⟨place, _, rfl, Catalog.active_of_mem (List.mem_of_find?_eq_some hfound), rfl⟩)

/-- Each request serves active places exactly where its entry is fresh. -/
theorem servesActive_iff (s : Served V K) (event : Event V D K) : ServesActive s event ↔ Fresh s event := by
  cases event with
  | list search keyword sort order tags userId =>
    refine iff_of_true (fun id hid => ?_) trivial
    obtain ⟨row, hrow, rfl⟩ := List.mem_map.mp hid
    exact active_list hrow
  | recommend r userId keyword tags =>
    obtain ⟨answer, hanswer, hanswers⟩ := answers_recommend r s.catalog userId keyword tags s.caches
    show _ ↔ FreshRecommend r s.catalog s.caches userId keyword tags
    unfold ServesActive
    rw [serve_recommend hanswer, List.forall_mem_map]
    exact hanswers.active
  | popular e tagIds regionTagId limit =>
    have hanswers : Answers s.catalog s.caches _ (getPopularPlaces e s.catalog tagIds regionTagId limit s.caches) :=
      answers_popular
    exact List.forall_mem_map.trans hanswers.active
  | detail placeId userId =>
    unfold ServesActive Served.serve Fresh
    dsimp only
    obtain ⟨place, marked, hentry, hserved⟩ | ⟨hentry, hserved⟩ | ⟨place, marked, hentry, hactive, hserved⟩ :=
      getPlaceDetail_cases s.catalog placeId userId s.caches
    · rw [hserved, hentry]
      constructor
      · intro h found hfound
        exact Option.some.inj hfound ▸ h place.id (List.mem_singleton_self _)
      · intro h id hid
        rw [List.mem_singleton.mp hid]
        exact h place rfl
    · rw [hserved, hentry]
      exact iff_of_true (fun _ hid => (List.not_mem_nil hid).elim) fun place h => (Option.some_ne_none place h.symm).elim
    · rw [hserved, hentry]
      refine iff_of_true (fun id hid => ?_) fun place h => (Option.some_ne_none place h.symm).elim
      rw [List.mem_singleton.mp hid]
      exact hactive
  | hybridExpires key => exact iff_of_true (fun _ hid => (List.not_mem_nil hid).elim) trivial
  | popularExpires limit => exact iff_of_true (fun _ hid => (List.not_mem_nil hid).elim) trivial
  | detailExpires placeId => exact iff_of_true (fun _ hid => (List.not_mem_nil hid).elim) trivial
  | syncIncremental => exact iff_of_true (fun _ hid => (List.not_mem_nil hid).elim) trivial
  | syncItem => exact iff_of_true (fun _ hid => (List.not_mem_nil hid).elim) trivial

/-- **Deactivated places.** A history serves active places only, exactly if no request
of it is answered by an entry with a place that is not active any more. -/
theorem served_active_iff (s : Served V K) (events : List (Event V D K)) :
    Along Served.step ServesActive s events ↔ Along Served.step Fresh s events :=
  along_congr (K := fun _ => True) (fun _ _ _ => trivial) (fun s event _ => servesActive_iff s event) trivial events

/-! ### Runs that spare the caches -/

omit [DecidableEq K] [LinearOrder D] in
/-- What the caches hold is active. -/
def HeldActive (s : Served V K) : Prop := ∀ id, s.caches.Holds id → s.catalog.active id = true

/-- Nothing that the caches hold is deactivated. -/
def Spares (s : Served V K) (event : Event V D K) : Prop :=
  ∀ id, s.caches.Holds id → s.catalog.active id = true → (s.step event).catalog.active id = true

/-- A request leaves the tables alone and caches active places, a run leaves the caches alone. -/
theorem step_cases (s : Served V K) (event : Event V D K) :
    ((s.step event).catalog = s.catalog ∧
      ∀ id, (s.step event).caches.Holds id → s.caches.Holds id ∨ s.catalog.active id = true) ∨
    (s.step event).caches = s.caches := by
  cases event with
  | list search keyword sort order tags userId => exact .inr rfl
  | recommend r userId keyword tags =>
    obtain ⟨answer, hanswer, hanswers⟩ := answers_recommend r s.catalog userId keyword tags s.caches
    unfold Served.step
    rw [serve_recommend hanswer]
    exact .inl ⟨rfl, hanswers.filled⟩
  | popular e tagIds regionTagId limit =>
    have hanswers : Answers s.catalog s.caches _ (getPopularPlaces e s.catalog tagIds regionTagId limit s.caches) :=
      answers_popular
    exact .inl ⟨rfl, hanswers.filled⟩
  | detail placeId userId =>
    unfold Served.step Served.serve
    dsimp only
    obtain ⟨place, marked, -, hserved⟩ | ⟨-, hserved⟩ | ⟨place, marked, -, hactive, hserved⟩ :=
      getPlaceDetail_cases s.catalog placeId userId s.caches
    · rw [hserved]
      exact .inr rfl
    · rw [hserved]
      exact .inr rfl
    · rw [hserved]
      refine .inl ⟨rfl, fun id hid => ?_⟩
      obtain hold | ⟨found, hfound, hid⟩ := Caches.holds_setDetail hid
      · exact .inl hold
      · exact .inr (hid ▸ Option.some.inj hfound ▸ hactive)
  | hybridExpires key =>
    refine .inl ⟨rfl, fun id hid => .inl ?_⟩
    obtain hold | ⟨ids, hids, -⟩ := Caches.holds_setHybrid hid
    · exact hold
    · exact (Option.some_ne_none ids hids.symm).elim
  | popularExpires limit =>
    refine .inl ⟨rfl, fun id hid => .inl ?_⟩
    obtain hold | ⟨ids, hids, -⟩ := Caches.holds_setPopular hid
    · exact hold
    · exact (Option.some_ne_none ids hids.symm).elim
  | detailExpires placeId =>
    refine .inl ⟨rfl, fun id hid => .inl ?_⟩
    obtain hold | ⟨place, hplace, -⟩ := Caches.holds_setDetail hid
    · exact hold
    · exact (Option.some_ne_none place hplace.symm).elim
  | syncIncremental out contentTypeIds numOfRows maxPages dryRun => exact .inr rfl
  | syncItem out contentTypeId existing dryRun listItem => exact .inr rfl

theorem heldActive_step {s : Served V K} (h : HeldActive s) (event : Event V D K) :
    HeldActive (s.step event) ↔ Spares s event := by
  obtain ⟨hcatalog, hfilled⟩ | hcaches := step_cases s event
  · refine iff_of_true (fun id hid => ?_) fun id _ hactive => by rw [hcatalog]; exact hactive
    rw [hcatalog]
    exact (hfilled id hid).elim (h id) fun hactive => hactive
  · unfold HeldActive Spares
    rw [hcaches]
    exact ⟨fun hnext id hid _ => hnext id hid, fun hspares id hid => hspares id hid (h id hid)⟩

/-- From cold caches, what they hold stays active as long as the runs spare it. -/
theorem held_active_iff {s : Served V K} (h : HeldActive s) (events : List (Event V D K)) :
    (∀ t ∈ states Served.step s events, HeldActive t) ↔ Along Served.step Spares s events := by
  have hstep : ∀ (s : Served V K) (event : Event V D K), True → HeldActive s →
      (HeldActive (Served.step s event) ↔ Spares s event) := fun s event _ h => heldActive_step h event
  exact forall_states_iff (fun _ _ _ => trivial) hstep trivial h events

omit [DecidableEq K] [LinearOrder D] in
theorem HeldActive.entry {s : Served V K} (h : HeldActive s) {ids : List Int} (hheld : ∀ id ∈ ids, s.caches.Holds id) :
    s.catalog.EntryActive ids := Catalog.entryActive_of_active fun id hid => h id (hheld id hid)

omit [DecidableEq K] [LinearOrder D] in
theorem HeldActive.popular {s : Served V K} (h : HeldActive s) {tagIds : List Int} {regionTagId : Option Int}
    {limit : Option Nat} {ids : List Int} (hentry : s.caches.popularEntry tagIds regionTagId limit = some ids) :
    s.catalog.EntryActive ids := by
  obtain ⟨n, -, hids⟩ := Option.bind_eq_some_iff.mp hentry
  exact h.entry fun id hid => .inr (.inl ⟨n, ids, hids, hid⟩)

omit [DecidableEq K] [LinearOrder D] in
theorem HeldActive.fresh {s : Served V K} (h : HeldActive s) (event : Event V D K) : Fresh s event := by
  cases event with
  | recommend r userId keyword tags =>
    show FreshRecommend r s.catalog s.caches userId keyword tags
    unfold FreshRecommend
    split
    · exact fun _ ids hids => h.entry fun id hid => .inl ⟨_, ids, hids, hid⟩
    · split
      · exact fun ids hids place hplace _ => h.popular hids place hplace
      · exact fun ids hids => h.popular hids
  | popular e tagIds regionTagId limit => exact fun ids hids => h.popular hids
  | detail placeId userId => exact fun place hplace => h place.id (.inr (.inr ⟨placeId, place, hplace, rfl⟩))
  | _ => trivial

/-- Runs that spare what is cached do not show. -/
theorem served_active_of_spares {s : Served V K} (h : HeldActive s) {events : List (Event V D K)}
    (hspares : Along Served.step Spares s events) : Along Served.step ServesActive s events :=
  (served_active_iff s events).mpr
    (along_of_states (fun _ event h => h.fresh event) ((held_active_iff h events).mpr hspares))

end

/-! ### Entries that outlive a place -/

section
variable [DecidableEq K] [LinearOrder D]

/-- A place that is returned is active, or an entry has it. -/
theorem serve_held (s : Served V K) (event : Event V D K) {id : Int} (hid : id ∈ (s.serve event).1) :
    s.catalog.active id = true ∨ s.caches.Holds id := by
  cases event with
  | list search keyword sort order tags userId =>
    obtain ⟨row, hrow, rfl⟩ := List.mem_map.mp hid
    exact .inl (active_list hrow)
  | recommend r userId keyword tags =>
    obtain ⟨answer, hanswer, hanswers⟩ := answers_recommend r s.catalog userId keyword tags s.caches
    rw [serve_recommend hanswer] at hid
    obtain ⟨p, hp, rfl⟩ := List.mem_map.mp hid
    exact hanswers.held p hp
  | popular e tagIds regionTagId limit =>
    have hanswers : Answers s.catalog s.caches _ (getPopularPlaces e s.catalog tagIds regionTagId limit s.caches) :=
      answers_popular
    obtain ⟨p, hp, rfl⟩ := List.mem_map.mp hid
    exact hanswers.held p hp
  | detail placeId userId =>
    unfold Served.serve at hid
    dsimp only at hid
    obtain ⟨place, marked, hentry, hserved⟩ | ⟨-, hserved⟩ | ⟨place, marked, -, hactive, hserved⟩ :=
      getPlaceDetail_cases s.catalog placeId userId s.caches
    · rw [hserved] at hid
      exact .inr (.inr (.inr ⟨placeId, place, hentry, (List.mem_singleton.mp hid).symm⟩))
    · rw [hserved] at hid
      cases hid
    · rw [hserved] at hid
      exact .inl (List.mem_singleton.mp hid ▸ hactive)
  | hybridExpires | popularExpires | detailExpires | syncIncremental | syncItem => cases hid

/-- The place was active and in an entry when some run deactivated it, and since then it was always
in an entry and never active. -/
def Outlived (s : Served V K) (past : List (Event V D K)) (id : Int) : Prop :=
  ∃ before run after, past = before ++ run :: after ∧ (before.foldl Served.step s).caches.Holds id ∧
    (before.foldl Served.step s).catalog.active id = true ∧
    ∀ t ∈ states Served.step ((before.foldl Served.step s).step run) after, t.caches.Holds id ∧ t.catalog.active id = false

/-- From cold caches, what they hold and is not active has outlived its place. -/
theorem outlived_iff {s : Served V K} (h : HeldActive s) (past : List (Event V D K)) (id : Int) :
    Outlived s past id ↔ (past.foldl Served.step s).caches.Holds id ∧ (past.foldl Served.step s).catalog.active id = false := by
  constructor
  · rintro ⟨before, run, after, rfl, -, -, hsince⟩
    rw [List.foldl_append]
    exact hsince _ (foldl_mem_states _ after)
  · intro hend
    have hstart : ¬ (s.caches.Holds id ∧ s.catalog.active id = false) := fun hs => by
      rw [h id hs.1] at hs
      cases hs.2
    obtain ⟨before, run, after, rfl, hnot, hsince⟩ :=
      became (P := fun t : Served V K => t.caches.Holds id ∧ t.catalog.active id = false) hstart hend
    obtain ⟨hheld, hinactive⟩ := hsince _ (mem_states_self _ after)
    obtain ⟨hcatalog, hfilled⟩ | hcaches := step_cases (before.foldl Served.step s) run
    · -- a request caches active places only
      rw [hcatalog] at hinactive
      rcases hfilled id hheld with hold | hactive
      · exact absurd ⟨hold, hinactive⟩ hnot
      · rw [hactive] at hinactive
        cases hinactive
    · rw [hcaches] at hheld
      exact ⟨before, run, after, rfl, hheld, by simpa [hheld] using hnot, hsince⟩

/-- **Over the history**: from cold caches, it serves active places only, exactly if no request returns a place
that was deactivated while an entry had it, and that the caches have had ever since. -/
theorem served_active_history {s : Served V K} (h : HeldActive s) (events : List (Event V D K)) :
    Along Served.step ServesActive s events ↔ ∀ past request rest, events = past ++ request :: rest →
      ∀ id ∈ ((past.foldl Served.step s).serve request).1, ¬ Outlived s past id := by
  rw [along_iff]
  refine forall_congr' fun past => forall_congr' fun request => forall_congr' fun rest => imp_congr_right fun _ =>
    forall_congr' fun id => imp_congr_right fun hid => ?_
  rw [outlived_iff h]
  constructor
  · rintro hactive ⟨-, hinactive⟩
    rw [hactive] at hinactive
    cases hinactive
  · intro hnot
    rcases serve_held _ request hid with hactive | hheld
    · exact hactive
    · simpa [hheld] using hnot

end

/-! ### A place that closes -/

/-- One place, and nothing cached. -/
def openPlace : Served Nat (String × List Int × Nat) where
  catalog := {db := {places := [{id := 1, contentId := 1001, contentTypeId := 12}]}}

/-- The upstream lists the place as hidden. -/
def closing : Outside where
  get _
    | .areaBasedSyncList 12 _ 1 => .ok [[("contentid", .str "1001"), ("showflag", .str "0")]]
    | _ => .ok []
  fault _ := none
  column _ := .ok 0
  lastPage := 1
  finite t c items hpage hitems := by
    cases c with
    | areaBasedSyncList contentTypeId numOfRows pageNo =>
      have hlate : 1 < pageNo := of_decide_eq_true hpage
      split at hitems
      · rename_i h
        injection h with _ _ hfirst
        omega
      · exact (Except.ok.inj hitems).symm
    | _ => exact (Except.ok.inj hitems).symm

/-- The popular places are asked for before and after the place is deactivated. -/
def closed : List (Event Nat Nat (String × List Int × Nat)) := [
  .popular plainEngine [] none (some 20),
  .syncIncremental closing [12] 100 none false,
  .popular plainEngine [] none (some 20)]

theorem closed_still_served : ¬ Along Served.step ServesActive openPlace closed := by
  intro h
  exact absurd (h.2.2.1 1 (by decide +kernel)) (by decide +kernel)

end TravelMaker
