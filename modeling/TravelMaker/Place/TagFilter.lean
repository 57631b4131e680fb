import TravelMaker.Place.Listed
import TravelMaker.Place.Recommended

/-! The filter on tags, on every path.

`get_place_list` and the remainder of the recommendations take places that carry all the
tags; the rankings and the popular places take those that carry any. `tagged_iff` says for
which catalogs that makes no difference. -/
namespace TravelMaker

variable {V D K : Type} [DecidableEq K] [LinearOrder D]

/-- All places returned carry all tags. -/
structure AllTagged (r : Recommender V D K) (c : Catalog V) (userId : Option Int) (tags : List Int) (caches : Caches K) : Prop where
  list : ∀ sort order, ∀ row ∈ getPlaceList r.search c "" sort order tags userId, c.carriesAll tags row.place.id = true
  recommend : ∃ places caches', getPlaceListRecommend r c userId "" tags caches = .ok (places, caches') ∧
    ∀ p ∈ places, c.carriesAll tags p.place.id = true

/-- Of the places that the ranking of the user can show, those with one of the tags have all. -/
def TagsTogether (r : Recommender V D K) (c : Catalog V) (userId : Option Int) (tags : List Int) : Prop :=
  match (c.stageVector userId).filter (r.engine.nonzero ·.1) with
  | some (_, field) => ∀ place ∈ c.activePlaces, (∃ v, (place.id, v) ∈ c.vectorsOf field) →
    c.carriesAny tags place.id = true → c.carriesAll tags place.id = true
  | none => ∀ place ∈ c.activePlaces, c.carriesAny tags place.id = true →
    c.carriesAll tags place.id = true ∨ remainingCap ≤ (popularRows r.engine c tags none).idxOf place

section
variable {r : Recommender V D K} {c : Catalog V} {userId : Option Int} {tags : List Int} {caches : Caches K}

omit [DecidableEq K] [LinearOrder D] in
/-- The list takes them with all tags. -/
theorem list_tagged {s : TextSearch} {keyword sort order : String} {row : PlaceRow}
    (hrow : row ∈ getPlaceList s c keyword sort order tags userId) : c.carriesAll tags row.place.id = true :=
  (mem_getPlaceList.mp ⟨row, hrow, rfl⟩).2.1

/-- **The filter on tags.** The recommendations keep to it exactly where no place that
they can show carries some of the tags only. -/
theorem tagged_iff (hc : c.Constraints) (htags : tags ≠ []) :
    AllTagged r c userId tags caches ↔ TagsTogether r c userId tags := by
  have hlist : AllTagged r c userId tags caches ↔ ∃ places caches', getPlaceListRecommend r c userId "" tags caches =
      .ok (places, caches') ∧ ∀ p ∈ places, c.carriesAll tags p.place.id = true :=
    ⟨fun h => h.recommend, fun h => ⟨fun _ _ row hrow => list_tagged hrow, h⟩⟩
  rw [hlist]
  unfold TagsTogether
  cases hvector : (c.stageVector userId).filter (r.engine.nonzero ·.1) with
  | some found =>
    obtain ⟨vector, field⟩ := found
    obtain ⟨vectorPlaces, hresult, hmem⟩ := recommend_vector tags caches hc hvector
    rw [hresult]
    constructor
    · intro h place hplace hv hany
      obtain ⟨places, caches', heq, hall⟩ := h
      obtain ⟨rfl, -⟩ := Prod.mk.inj (Except.ok.inj heq)
      have hin : c.listed place ∈ vectorPlaces := (hmem _).mpr ⟨place, hplace, rfl, hv, .inr hany⟩
      exact hall _ (List.mem_map_of_mem (List.mem_append_left _ hin))
    · refine fun h => ⟨_, _, rfl, fun p hp => ?_⟩
      obtain ⟨q, hq, rfl⟩ := List.mem_map.mp hp
      rcases mem_remaining hq with hq | ⟨place, -, rfl, hall⟩
      · obtain ⟨place, hplace, rfl, hv, hany⟩ := (hmem q).mp hq
        exact h place hplace hv (hany.resolve_left htags)
      · exact hall
  | none =>
    rw [recommend_popular htags hvector]
    constructor
    · intro h place hplace hany
      obtain ⟨places, caches', heq, hall⟩ := h
      obtain ⟨rfl, -⟩ := Prod.mk.inj (Except.ok.inj heq)
      by_cases hrank : remainingCap ≤ (popularRows r.engine c tags none).idxOf place
      · exact .inr hrank
      · left
        have hrow : place ∈ popularRows r.engine c tags none := mem_popularRows.mpr ⟨hplace, .inr hany⟩
        have htake := (List.mem_take_iff_idxOf_lt hrow).mpr (Nat.lt_of_not_le hrank)
        exact hall _ (List.mem_map_of_mem (List.mem_map_of_mem htake))
    · refine fun h => ⟨_, _, rfl, fun p hp => ?_⟩
      obtain ⟨q, hq, rfl⟩ := List.mem_map.mp hp
      obtain ⟨place, htake, rfl⟩ := List.mem_map.mp hq
      have hrow := List.mem_of_mem_take htake
      obtain ⟨hplace, hany⟩ := mem_popularRows.mp hrow
      refine (h place hplace (hany.resolve_left htags)).resolve_right fun hrank => ?_
      exact absurd ((List.mem_take_iff_idxOf_lt hrow).mp htake) (Nat.not_lt.mpr hrank)

end

/-! ### A place with one of two tags -/

def seaside : Catalog Nat where
  db := {
    places := [{id := 1, contentId := 1, contentTypeId := 12}]
    tags := [⟨1, "테마", "바다"⟩, ⟨2, "테마", "산"⟩]
    placeTags := [(1, 1)]}

/-- A place with both tags, one with the first and one with none. -/
def coast : Catalog Nat where
  db := {seaside.db with
    places := [{id := 1, contentId := 1, contentTypeId := 12}, {id := 2, contentId := 2, contentTypeId := 12},
      {id := 3, contentId := 3, contentTypeId := 12}]
    placeTags := [(1, 1), (1, 2), (2, 1)]}

theorem tagged_iff_coast : AllTagged plainRecommender coast none [1, 2] {} ↔ TagsTogether plainRecommender coast none [1, 2] :=
  tagged_iff ⟨by decide, by decide, by decide⟩ (by decide)

theorem seaside_without_mountain : ¬ AllTagged plainRecommender seaside none [1, 2] {} := by
  intro h
  obtain ⟨-, places, caches', hresult, hall⟩ := h
  have hplaces : (getPlaceListRecommend plainRecommender seaside none "" [1, 2] {}).map (·.1) =
      .ok [⟨{id := 1, contentId := 1, contentTypeId := 12}, 0, false⟩] := by rfl
  rw [hresult] at hplaces
  have heq : places = _ := Except.ok.inj hplaces
  rw [heq] at hall
  exact absurd (hall _ List.mem_cons_self) (by decide)

end TravelMaker
