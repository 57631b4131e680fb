import TravelMaker.Lib.Window
import TravelMaker.Place.Catalog

/-! Rankings: `sort_algorithm_service`.

A ranking by vector reads rows of `PlaceFeature` in the order of their distance. With a
filter on tags a place has a row for each tag it matches, so the services read four times
as many rows as they need and drop the repetitions. -/
namespace TravelMaker

variable {V D : Type} [LinearOrder D]

def overFetch : Nat := 4

/-- A row of `PlaceFeature` with its vector. -/
structure FeatureRow (V : Type) where
  placeId : Int
  vector : V
deriving DecidableEq, Repr

namespace Catalog
variable (c : Catalog V)

def isActive (placeId : Int) : Bool := (c.db.place? placeId).any (·.isActive)

/-- `PlaceFeature.objects.filter(place__is_active=True, style_vector__isnull=False)`. -/
def styleRows : List (FeatureRow V) :=
  (c.styleVectors.filter fun (placeId, _) => c.isActive placeId).map fun (placeId, vector) => ⟨placeId, vector⟩

/-- The same for `content_vector`. -/
def contentRows : List (FeatureRow V) :=
  (c.db.placeFeatures.filter fun feature => c.isActive feature.placeId).filterMap fun feature =>
    feature.contentVector.map fun vector => ⟨feature.placeId, vector⟩

/-- How many rows the join with the tags makes of a row. -/
def tagMatches (tagIds : List Int) (placeId : Int) : Nat :=
  (c.db.placeTags.filter fun (p, tagId) => p == placeId && tagIds.contains tagId).length

/-- `filter(place__tags__id__in=tag_ids)`, where there are tags. -/
def filterTags (tagIds : List Int) (rows : List (FeatureRow V)) : List (FeatureRow V) :=
  if tagIds = [] then rows else Lib.Window.expand (fun row => c.tagMatches tagIds row.placeId) rows

/-- `if region_tag_id`: the id `0` is none. -/
def regionTags (regionTagId : Option Int) : List Int := (regionTagId.filter (· ≠ 0)).toList

/-- The joined rows, by distance. -/
def rankedRows (e : Engine V D) (vector : V) (tagIds : List Int) (regionTagId : Option Int) (rows : List (FeatureRow V)) :
    List (FeatureRow V) :=
  orderBy (fun row => e.distance row.vector vector)
    (e.scan (c.filterTags (regionTags regionTagId) (c.filterTags tagIds rows)))

end Catalog

/-- `raw_ids[: limit * _OVER_FETCH]`, or all. -/
def sliceLimit {α : Type} (largest : Option Nat) (limit : Option Int) (rows : List α) : Except Exc (List α) :=
  match limit with
  | none => .ok rows
  | some limit => querySlice largest 0 (limit * overFetch) rows

section
variable (e : Engine V D) (c : Catalog V) (userVector : V) (tagIds : List Int) (regionTagId : Option Int)

/-- `_collect_vector_ids`. -/
def collectVectorIds (rows : List (FeatureRow V)) (limit : Option Int) : Except Exc (List Int) := do
  let rawIds ← sliceLimit e.largest limit (rows.map (·.placeId))
  return Lib.Window.firsts [] rawIds

/-- The ids of a page, and how many there are on all pages. -/
def getPlaceIdsSortedByVector (offset pageSize : Int) : Except Exc (List Int × Nat) := do
  let rows := (c.rankedRows e userVector tagIds regionTagId c.styleRows).map (·.placeId)
  if tagIds = [] ∧ Catalog.regionTags regionTagId = [] then
    let pageIds ← querySlice e.largest offset (offset + pageSize) rows
    return (pageIds, rows.length)
  else
    let rawIds ← querySlice e.largest 0 ((offset + pageSize) * overFetch) rows
    return (pySlice offset (offset + pageSize) (Lib.Window.firsts [] rawIds), rows.dedup.length)

/-- `result[:limit]`. -/
def takeLimit {α : Type} (limit : Option Int) (xs : List α) : List α :=
  match limit with
  | none => xs
  | some limit => pySlice 0 limit xs

/-- What the two rankings of places share: they differ in the vectors. -/
def placesSortedBy (rows : List (FeatureRow V)) (limit : Option Int) : Except Exc (List ListedPlace) := do
  let candidateIds ← collectVectorIds e (c.rankedRows e userVector tagIds regionTagId rows) limit
  if candidateIds = [] then return []
  else return takeLimit limit (c.loadPlaces e candidateIds)

def getPlacesSortedByVector (limit : Option Int) : Except Exc (List ListedPlace) :=
  placesSortedBy e c userVector tagIds regionTagId c.styleRows limit

def getPlacesSortedByContentVector (limit : Option Int) : Except Exc (List ListedPlace) :=
  placesSortedBy e c userVector tagIds regionTagId c.contentRows limit

end

/-! ### Popular places -/

section
variable (e : Engine V D) (c : Catalog V)

/-- The query of `get_popular_places`: with tags, the places that carry one of them. -/
def popularRows (tagIds : List Int) (regionTagId : Option Int) : List Place :=
  orderBy c.popularity (e.scan (c.activePlaces.filter fun place =>
    (tagIds = [] || c.carriesAny tagIds place.id) && c.carriesAll (Catalog.regionTags regionTagId) place.id))

end

end TravelMaker
