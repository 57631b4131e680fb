import TravelMaker.Place.Paging
import TravelMaker.Place.Recommended

/-! The recommendations of a viewer with a vector, without keyword and tags.

`get_place_list_recommend` puts together the places that have a vector of the stage, by
distance, and then the most popular ones of the others. -/
namespace TravelMaker
open Lib.Window

variable {V D K : Type}

namespace Catalog

def hasVector (c : Catalog V) (field : VectorField) (placeId : Int) : Bool := ((c.vectorsOf field).map (·.1)).contains placeId

/-- The active places without a vector. -/
def withoutVector (c : Catalog V) (field : VectorField) : List Place :=
  c.activePlaces.filter fun place => !c.hasVector field place.id

end Catalog

/-- The list in its two parts. -/
structure PersonalList [LinearOrder D] (e : Engine V D) (c : Catalog V) (vector : V) (field : VectorField)
    (nearest popular : List Place) : Prop where
  nodup : ((nearest ++ popular).map (·.id)).Nodup
  nearest_iff : ∀ place, place ∈ nearest ↔ place ∈ c.activePlaces ∧ c.hasVector field place.id = true
  ascending : nearest.Pairwise fun p q => ∀ v w, (p.id, v) ∈ c.vectorsOf field → (q.id, w) ∈ c.vectorsOf field →
    e.distance v vector ≤ e.distance w vector
  others : ∃ remaining : List Place, remaining.Perm (c.withoutVector field) ∧
    (remaining.Pairwise fun p q => c.popularity p ≤ c.popularity q) ∧
    popular = remaining.take (min remainingCap (c.withoutVector field).length)
  complete : (c.withoutVector field).length ≤ remainingCap → ∀ place ∈ c.activePlaces, place ∈ nearest ++ popular

/-! ### The rows with a vector -/

section
variable {c : Catalog V} {field : VectorField} {id : Int} {v w : V}

theorem hasVector_iff : c.hasVector field id = true ↔ ∃ v, (id, v) ∈ c.vectorsOf field := by
  simp [Catalog.hasVector]

/-- And the place is the primary key of its features. -/
structure Catalog.FeatureConstraints (c : Catalog V) : Prop extends c.Constraints where
  placeFeatures : (c.db.placeFeatures.map (·.placeId)).Nodup

theorem Catalog.FeatureConstraints.vectorsOf (h : c.FeatureConstraints) (field : VectorField) : ((c.vectorsOf field).map (·.1)).Nodup := by
  cases field with
  | style => exact h.styleVectors
  | content =>
    have hids : (c.vectorsOf .content).map (·.1) = (c.db.placeFeatures.filter (·.contentVector.isSome)).map (·.placeId) := by
      unfold Catalog.vectorsOf
      dsimp only
      induction c.db.placeFeatures with
      | nil => rfl
      | cons feature rest ih =>
        cases hv : feature.contentVector <;> simp_all
    rw [hids]
    exact h.placeFeatures.sublist (List.filter_sublist.map _)

theorem featureRows_eq : c.featureRows field =
    ((c.vectorsOf field).filter fun x => c.isActive x.1).map fun x => ⟨x.1, x.2⟩ := by
  cases field with
  | style => rfl
  | content =>
    show c.contentRows = _
    unfold Catalog.contentRows Catalog.vectorsOf
    dsimp only
    induction c.db.placeFeatures with
    | nil => rfl
    | cons feature rest ih =>
      cases hv : feature.contentVector <;> cases ha : c.isActive feature.placeId <;> simp_all

theorem nodup_vectorRows (hc : c.FeatureConstraints) (field : VectorField) : ((c.featureRows field).map (·.placeId)).Nodup := by
  rw [featureRows_eq, List.map_map]
  exact (hc.vectorsOf field).sublist (List.filter_sublist.map _)

theorem Catalog.FeatureConstraints.vector_unique (h : c.FeatureConstraints) (hv : (id, v) ∈ c.vectorsOf field) (hw : (id, w) ∈ c.vectorsOf field) :
    v = w := congrArg Prod.snd (List.inj_on_of_nodup_map (h.vectorsOf field) hv hw rfl)

end

theorem firsts_of_nodup {l : List Int} (h : l.Nodup) : firsts [] l = l := by
  have hone : ∀ a ∈ l, 0 < (fun _ : Int => 1) a := fun _ _ => Nat.one_pos
  have hexpand := firsts_expand h (fun a _ => List.not_mem_nil) hone
  rwa [expand_one] at hexpand

/-! ### The nearest places -/

section
variable [LinearOrder D] {e : Engine V D} {c : Catalog V} {vector : V} {field : VectorField}

/-- The rows by distance. -/
def Catalog.nearestRows (e : Engine V D) (c : Catalog V) (vector : V) (field : VectorField) : List (FeatureRow V) :=
  c.rankedRows e vector [] none (c.featureRows field)

/-- Their places. -/
def Catalog.nearest (e : Engine V D) (c : Catalog V) (vector : V) (field : VectorField) : List Place :=
  (c.nearestRows e vector field).filterMap fun row => c.db.place? row.placeId

theorem nearestRows_perm : (c.nearestRows e vector field).Perm (c.featureRows field) :=
  orderBy_perm.trans (e.scan_perm _)

theorem nearestRows_pairwise :
    (c.nearestRows e vector field).Pairwise fun a b => e.distance a.vector vector ≤ e.distance b.vector vector :=
  orderBy_pairwise

theorem placesSortedBy_nearest (hc : c.FeatureConstraints) :
    placesSortedBy e c vector [] none (c.featureRows field) none = .ok ((c.nearest e vector field).map c.listed) := by
  have hnodup : ((c.nearestRows e vector field).map (·.placeId)).Nodup :=
    (nearestRows_perm.map _).nodup_iff.mpr (nodup_vectorRows hc field)
  have hids : collectVectorIds e (c.nearestRows e vector field) none = .ok ((c.nearestRows e vector field).map (·.placeId)) :=
    congrArg Except.ok (firsts_of_nodup hnodup)
  rw [placesSortedBy_eq hc.toConstraints hnodup hids, Catalog.nearest, List.map_filterMap, List.filterMap_map]
  rfl

theorem mem_nearest (hc : c.Constraints) {place : Place} :
    place ∈ c.nearest e vector field ↔ place ∈ c.activePlaces ∧ c.hasVector field place.id = true := by
  rw [Catalog.nearest, List.mem_filterMap, mem_activePlaces, hasVector_iff]
  simp only [nearestRows_perm.mem_iff]
  constructor
  · intro h
    obtain ⟨row, hrow, hplace⟩ := h
    obtain ⟨hmem, hid⟩ := Db.place?_some hplace
    obtain ⟨hv, hactive⟩ := mem_featureRows.mp hrow
    rw [← hid] at hv hactive
    exact ⟨⟨hmem, (isActive_of_mem hc hmem).symm.trans hactive⟩, _, hv⟩
  · intro h
    obtain ⟨⟨hmem, hactive⟩, v, hv⟩ := h
    refine ⟨⟨place.id, v⟩, mem_featureRows.mpr ⟨hv, ?_⟩, Db.place?_of_mem hc.places hmem⟩
    exact (isActive_of_mem hc hmem).trans hactive

/-- The places are as far as their rows. -/
theorem nearest_pairwise (hc : c.FeatureConstraints) : (c.nearest e vector field).Pairwise fun p q => ∀ v w,
    (p.id, v) ∈ c.vectorsOf field → (q.id, w) ∈ c.vectorsOf field → e.distance v vector ≤ e.distance w vector := by
  refine List.pairwise_filterMap.mpr (nearestRows_pairwise.imp_of_mem fun {a b} ha hb hle p hp q hq v w hv hw => ?_)
  have hrow : ∀ x ∈ c.nearestRows e vector field, (x.placeId, x.vector) ∈ c.vectorsOf field :=
    fun x hx => (mem_featureRows.mp (nearestRows_perm.mem_iff.mp hx)).1
  rw [(Db.place?_some hp).2] at hv
  rw [(Db.place?_some hq).2] at hw
  rw [hc.vector_unique hv (hrow a ha), hc.vector_unique hw (hrow b hb)]
  exact hle

theorem nodup_nearest (hc : c.FeatureConstraints) : ((c.nearest e vector field).map (·.id)).Nodup := by
  have hnodup : ((c.nearestRows e vector field).map (·.placeId)).Nodup :=
    (nearestRows_perm.map _).nodup_iff.mpr (nodup_vectorRows hc field)
  have hids : (c.nearest e vector field).map (·.id) =
      ((c.nearestRows e vector field).map (·.placeId)).filterMap fun id => (c.db.place? id).map (·.id) := by
    rw [Catalog.nearest, List.map_filterMap, List.filterMap_map]
    rfl
  rw [hids]
  apply hnodup.filterMap
  intro a b id ha hb
  obtain ⟨p, hp, rfl⟩ := Option.map_eq_some_iff.mp ha
  obtain ⟨q, hq, hid⟩ := Option.map_eq_some_iff.mp hb
  rw [← (Db.place?_some hp).2, ← hid, (Db.place?_some hq).2]

end

/-! ### The list -/

section
variable {c : Catalog V} {userId : Option Int}

/-- The vector and its field, stage by stage. -/
theorem stageVector_of_stage (hstage : c.determineStage userId ≠ .s1) :
    ∃ vector field, c.stageVector userId = some (vector, field) ∧
      (c.determineStage userId = .s2 ∧ field = .style ∨ c.determineStage userId = .s3 ∧ field = .content) := by
  cases userId with
  | none => exact absurd rfl hstage
  | some userId =>
    unfold Catalog.stageVector
    cases hs : c.determineStage (some userId) with
    | s1 => exact absurd hs hstage
    | s2 =>
      have htested : c.testResults.any (·.userId == userId) = true := by
        unfold Catalog.determineStage at hs
        dsimp only at hs
        split_ifs at hs
        assumption
      obtain ⟨result, hmem, hresult⟩ := List.any_eq_true.mp htested
      have hfound : (c.testResults.find? (some ·.userId == some userId)).isSome = true := by
        rw [List.find?_isSome]
        exact ⟨result, hmem, by simpa using hresult⟩
      obtain ⟨found, hfound⟩ := Option.isSome_iff_exists.mp hfound
      exact ⟨found.resultVector, .style, by rw [hfound, Option.map_some], .inl ⟨rfl, rfl⟩⟩
    | s3 =>
      have hvector : (c.db.preference? userId).any (·.contentVector.isSome) = true := by
        unfold Catalog.determineStage at hs
        dsimp only at hs
        split_ifs at hs with h
        exact h.2
      obtain ⟨preference, hp, hsome⟩ := (Option.any_eq_true _ _).mp hvector
      obtain ⟨vector, hv⟩ := Option.isSome_iff_exists.mp hsome
      exact ⟨vector, .content, by simp [hp, hv], .inr ⟨rfl, rfl⟩⟩

end

section
variable [LinearOrder D] {c : Catalog V} {field : VectorField}

/-- The others, by popularity. -/
def Catalog.popularOthers (e : Engine V D) (c : Catalog V) (vector : V) (field : VectorField) : List Place :=
  orderBy c.popularity (e.scan (c.activePlaces.filter fun place =>
    !(((c.nearest e vector field).map c.listed).map (·.place.id)).contains place.id && c.carriesAll [] place.id))

theorem popularOthers_perm (hc : c.FeatureConstraints) (e : Engine V D) (vector : V) :
    (c.popularOthers e vector field).Perm (c.withoutVector field) := by
  have hsame : ∀ place ∈ c.activePlaces,
      (!(((c.nearest e vector field).map c.listed).map (·.place.id)).contains place.id && c.carriesAll [] place.id) =
        !c.hasVector field place.id := by
    intro place hplace
    have hids : ((c.nearest e vector field).map c.listed).map (·.place.id) =
        (c.nearest e vector field).map (·.id) := List.map_map
    have hin : ((c.nearest e vector field).map (·.id)).contains place.id = c.hasVector field place.id := by
      rw [Bool.eq_iff_iff, List.contains_iff_mem, List.mem_map]
      constructor
      · intro h
        obtain ⟨p, hp, hid⟩ := h
        rw [← hid]
        exact ((mem_nearest hc.toConstraints).mp hp).2
      · exact fun h => ⟨place, (mem_nearest hc.toConstraints).mpr ⟨hplace, h⟩, rfl⟩
    rw [hids, hin]
    exact Bool.and_true _
  apply (orderBy_perm.trans (e.scan_perm _)).trans
  rw [List.filter_congr hsame]
  rfl

theorem personalList (hc : c.FeatureConstraints) (e : Engine V D) (vector : V) :
    PersonalList e c vector field (c.nearest e vector field)
      ((c.popularOthers e vector field).take remainingCap) where
  nodup := by
    have hothers : (((c.popularOthers e vector field).take remainingCap).map (·.id)).Nodup := by
      have hall : ((c.popularOthers e vector field).map (·.id)).Nodup :=
        ((popularOthers_perm hc e vector).map _).nodup_iff.mpr
          (hc.places.sublist ((List.filter_sublist.trans List.filter_sublist).map _))
      exact hall.sublist ((List.take_sublist _ _).map _)
    rw [List.map_append]
    refine (nodup_nearest hc).append hothers fun id hnear hother => ?_
    obtain ⟨p, hp, rfl⟩ := List.mem_map.mp hnear
    obtain ⟨q, hq, hid⟩ := List.mem_map.mp hother
    have hwithout := (List.mem_filter.mp ((popularOthers_perm hc e vector).mem_iff.mp (List.mem_of_mem_take hq))).2
    rw [hid, ((mem_nearest hc.toConstraints).mp hp).2] at hwithout
    cases hwithout
  nearest_iff place := mem_nearest hc.toConstraints
  ascending := nearest_pairwise hc
  others := by
    refine ⟨_, popularOthers_perm hc e vector, orderBy_pairwise, ?_⟩
    rw [← (popularOthers_perm hc e vector).length_eq, ← List.take_eq_take_min]
  complete hfew place hplace := by
    rw [List.mem_append]
    by_cases hv : c.hasVector field place.id = true
    · exact .inl ((mem_nearest hc.toConstraints).mpr ⟨hplace, hv⟩)
    · rw [List.take_of_length_le ((popularOthers_perm hc e vector).length_eq.trans_le hfew)]
      exact .inr ((popularOthers_perm hc e vector).mem_iff.mpr (List.mem_filter.mpr ⟨hplace, by simpa using hv⟩))

variable [DecidableEq K] {r : Recommender V D K} {userId : Option Int} {caches : Caches K} {vector : V}

theorem recommend_nearest (hc : c.FeatureConstraints)
    (hvector : (c.stageVector userId).filter (r.engine.nonzero ·.1) = some (vector, field)) :
    getPlaceListRecommend r c userId "" [] caches =
      .ok (((c.nearest r.engine vector field ++ (c.popularOthers r.engine vector field).take remainingCap).map
        fun place => c.marked userId (c.listed place)), caches) := by
  have hsorted : placesSortedBy r.engine c vector [] none (c.featureRows field) none =
      .ok ((c.nearest r.engine vector field).map c.listed) := placesSortedBy_nearest hc
  have hmarked : (((c.nearest r.engine vector field).map c.listed ++
      ((c.popularOthers r.engine vector field).take remainingCap).map c.listed).map (c.marked userId)) =
      (c.nearest r.engine vector field ++ (c.popularOthers r.engine vector field).take remainingCap).map
        fun place => c.marked userId (c.listed place) := by
    rw [← List.map_append, List.map_map]
    rfl
  rw [← hmarked]
  exact getPlaceListRecommend_ok (recommendedPlaces_vector hvector hsorted)

/-- **The personalised list**: for a viewer of the second or third stage with a vector that
is not zero, first the places with a vector of that stage by their distance, then the most
popular of the others, no place twice. -/
theorem personalised_list_structure (hc : c.FeatureConstraints) (hstage : c.determineStage userId ≠ .s1)
    (hnonzero : ∀ vector field, c.stageVector userId = some (vector, field) → r.engine.nonzero vector = true)
    (caches : Caches K) :
    ∃ vector field nearest popular, c.stageVector userId = some (vector, field) ∧
      (c.determineStage userId = .s2 ∧ field = .style ∨ c.determineStage userId = .s3 ∧ field = .content) ∧
      getPlaceListRecommend r c userId "" [] caches =
        .ok ((nearest ++ popular).map fun place => c.marked userId (c.listed place), caches) ∧
      PersonalList r.engine c vector field nearest popular := by
  obtain ⟨vector, field, hvector, hfield⟩ := stageVector_of_stage hstage
  have hkept : (c.stageVector userId).filter (r.engine.nonzero ·.1) = some (vector, field) := by
    rw [hvector]
    exact Option.filter_some_pos (hnonzero vector field hvector)
  exact ⟨vector, field, _, _, hvector, hfield, recommend_nearest hc hkept, personalList hc r.engine vector⟩

end

/-- Two places with a vector and one without, and a user with a result of the quiz. -/
def quay : Catalog Nat where
  db := {
    places := [{id := 1, contentId := 1, contentTypeId := 12}, {id := 2, contentId := 2, contentTypeId := 12},
      {id := 3, contentId := 3, contentTypeId := 12}]}
  styleVectors := [(1, 9), (2, 4)]
  testResults := [⟨1, 5⟩]

theorem personalised_list_structure_quay :
    ∃ vector field nearest popular, quay.stageVector (some 1) = some (vector, field) ∧
      (quay.determineStage (some 1) = .s2 ∧ field = .style ∨ quay.determineStage (some 1) = .s3 ∧ field = .content) ∧
      getPlaceListRecommend plainRecommender quay (some 1) "" [] {} =
        .ok ((nearest ++ popular).map fun place => quay.marked (some 1) (quay.listed place), {}) ∧
      PersonalList plainEngine quay vector field nearest popular := by
  have hvector : quay.stageVector (some 1) = some (5, .style) := by decide
  have hnonzero : ∀ vector field, quay.stageVector (some 1) = some (vector, field) → plainEngine.nonzero vector = true := by
    intro vector field h
    rw [hvector] at h
    cases h
    rfl
  exact personalised_list_structure (r := plainRecommender) ⟨⟨by decide, by decide, by decide⟩, by decide⟩ (by decide) hnonzero {}

end TravelMaker
