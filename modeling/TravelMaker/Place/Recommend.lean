import TravelMaker.User.ContentVector
import TravelMaker.Place.Ranking
import TravelMaker.Place.Search

/-! Recommended places: `get_place_list_recommend`, `get_popular_places` and
`get_place_detail`, with the cache that they share. -/
namespace TravelMaker

/-! ### The cache -/

/-- What the services keep, by key. -/
structure Caches (K : Type) where
  hybrid : K → Option (List Int) := fun _ => none
  popular : Nat → Option (List Int) := fun _ => none
  detail : Int → Option Place := fun _ => none

namespace Caches
variable {K : Type}

def setHybrid [DecidableEq K] (key : K) (ids : Option (List Int)) (caches : Caches K) : Caches K :=
  {caches with hybrid := Function.update caches.hybrid key ids}

def setPopular (limit : Nat) (ids : Option (List Int)) (caches : Caches K) : Caches K :=
  {caches with popular := Function.update caches.popular limit ids}

def setDetail (placeId : Int) (place : Option Place) (caches : Caches K) : Caches K :=
  {caches with detail := Function.update caches.detail placeId place}

end Caches

/-- What the recommendations take from outside: the database, its text functions, and the
numbers of the scores. -/
structure Recommender (V D K : Type) where
  engine : Engine V D
  search : TextSearch
  /-- `_hybrid_cache_key`. -/
  hybridCacheKey : String → List Int → V → K
  /-- `float(distance)`. -/
  float : D → ℚ

def plainRecommender : Recommender Nat Nat (String × List Int × Nat) where
  engine := plainEngine
  search := plainSearch
  hybridCacheKey keyword tags vector := (keyword, tags, vector)
  float distance := distance

/-! ### Popular places -/

section
variable {V D K : Type} (e : Engine V D) (c : Catalog V)

def getPopularPlaces (tagIds : List Int) (regionTagId : Option Int) (limit : Option Nat) (caches : Caches K) :
    List ListedPlace × Caches K :=
  let cacheLimit := if tagIds = [] ∧ Catalog.regionTags regionTagId = [] then limit else none
  match cacheLimit.bind caches.popular with
  | some cachedIds => (c.loadPlaces e cachedIds, caches)
  | none =>
    let rows := popularRows e c tagIds regionTagId
    let result := (limit.elim rows fun limit => rows.take limit).map c.listed
    match cacheLimit with
    | some limit => (result, caches.setPopular limit (some (result.map (·.place.id))))
    | none => (result, caches)

end

/-! ### Stages -/

inductive Stage where
  | s1 | s2 | s3
deriving DecidableEq, Repr

inductive VectorField where
  | style | content
deriving DecidableEq, Repr

namespace Catalog
variable {V : Type} (c : Catalog V)

def determineStage (userId : Option Int) : Stage :=
  match userId with
  | none => .s1
  | some userId =>
    let preference := c.db.preference? userId
    if s3ActionCountThreshold ≤ preference.elim 0 (·.actionCount) ∧ preference.any (·.contentVector.isSome) then .s3
    else if c.testResults.any (·.userId == userId) then .s2
    else .s1

/-- The vector of the stage and the field that it is compared with. -/
def stageVector (userId : Option Int) : Option (V × VectorField) :=
  match c.determineStage userId with
  | .s3 => ((userId.bind c.db.preference?).bind (·.contentVector)).map (·, .content)
  | .s2 => (c.testResults.find? (some ·.userId == userId)).map fun result => (result.resultVector, .style)
  | .s1 => none

/-- The vectors of all places, active or not. -/
def vectorsOf : VectorField → List (Int × V)
  | .style => c.styleVectors
  | .content => c.db.placeFeatures.filterMap fun feature => feature.contentVector.map (feature.placeId, ·)

end Catalog

/-! ### Hybrid search -/

/-- `HYBRID_CANDIDATE_LIMIT`. -/
def hybridCandidateLimit : Nat := 200

/-- `VEC_WEIGHT`. -/
def vecWeight : ℚ := 7 / 10
/-- `KW_WEIGHT`. -/
def kwWeight : ℚ := 3 / 10

section
variable {V D K : Type} (r : Recommender V D K) (c : Catalog V)

/-- The candidates of a tier, with those that sort first up to the limit. -/
def candidates {β : Type} [LinearOrder β] (key : Place → β) (tags : List Int) (matching : Place → Bool) : List Int :=
  ((orderBy key (r.engine.scan ((c.activePlaces.filter fun place => c.carriesAll tags place.id).filter matching))).map
    (·.id)).take hybridCandidateLimit

/-- The candidates of the first tier that has some, and whether they match exactly. -/
def hybridCandidates (keyword : String) (tags : List Int) : List Int × Bool :=
  let byRating := fun place : Place => OrderDual.toDual place.ratingAvg
  let named := candidates r c byRating tags (r.search.nameOrTag keyword c)
  if named ≠ [] then (named, true)
  else
    let addressed := candidates r c byRating tags (r.search.inAddress keyword)
    if addressed ≠ [] then (addressed, true)
    else (candidates r c (fun place => OrderDual.toDual (r.search.similarity place.placeName keyword)) tags
      (r.search.isSimilar keyword), false)

/-- `score`. -/
def hybridScore (userVector : V) (field : VectorField) (keyword : String) (exactMatch : Bool) (placeId : Int) : ℚ :=
  let distance := ((c.vectorsOf field).lookup placeId).map fun vector => r.float (r.engine.distance vector userVector)
  let vecScore := distance.elim (1 / 2) fun distance => 1 - distance / 2
  let similarity := (c.db.place? placeId).elim 0 fun place => r.search.similarity place.placeName keyword
  let kwScore := if exactMatch then max similarity (3 / 10) else similarity
  vecWeight * vecScore + kwWeight * kwScore

variable [DecidableEq K]

/-- `_get_places_hybrid`. -/
def getPlacesHybrid (userVector : V) (keyword : String) (tags : List Int) (field : VectorField) (caches : Caches K) :
    List ListedPlace × Caches K :=
  let cacheKey := r.hybridCacheKey keyword tags userVector
  match caches.hybrid cacheKey with
  | some cachedIds => (cachedIds.filterMap c.listedOf, caches)
  | none =>
    let (candidateIds, exactMatch) := hybridCandidates r c keyword tags
    if candidateIds = [] then ([], caches)
    else
      let sortedIds := orderBy (fun id => OrderDual.toDual (hybridScore r c userVector field keyword exactMatch id)) candidateIds
      (sortedIds.filterMap c.listedOf, caches.setHybrid cacheKey (some sortedIds))

/-! ### Recommendations -/

/-- `_REMAINING_CAP`. -/
def remainingCap : Nat := 500

/-- `_append_remaining`. -/
def appendRemaining (vectorPlaces : List ListedPlace) (tags : List Int) : List ListedPlace :=
  let remaining := orderBy c.popularity (r.engine.scan (c.activePlaces.filter fun place =>
    !(vectorPlaces.map (·.place.id)).contains place.id && c.carriesAll tags place.id))
  vectorPlaces ++ (remaining.take remainingCap).map c.listed

/-- The tiers over places in memory. -/
def inMemoryTiers (keyword : String) (popular : List ListedPlace) : List ListedPlace :=
  let kw := r.search.lower keyword
  let coreLower := (extractCoreKeyword keyword).map r.search.lower
  let tier1 := popular.filter fun p =>
    Lib.Text.contains (r.search.lower p.place.placeName) kw ||
      (c.db.tagsOf p.place.id).any (fun tag => Lib.Text.contains (r.search.lower tag.tagName) kw) ||
      coreLower.any fun core => core ≠ "" && Lib.Text.contains (r.search.lower p.place.placeName) core
  if tier1 ≠ [] then tier1
  else popular.filter fun p => p.place.addressPrimary.any fun address =>
    address ≠ "" && Lib.Text.contains (r.search.lower address) kw

variable [LinearOrder D]

/-- The places by stage, before they are marked. -/
def recommendedPlaces (userId : Option Int) (keyword : String) (tags : List Int) (caches : Caches K) :
    Except Exc (List ListedPlace × Caches K) :=
  -- cosine similarity is not defined for the zero vector
  match (c.stageVector userId).filter (r.engine.nonzero ·.1) with
  | some (userVector, field) =>
    if keyword ≠ "" then .ok (getPlacesHybrid r c userVector keyword tags field caches)
    else
      (match field with
        | .content => getPlacesSortedByContentVector r.engine c userVector tags none none
        | .style => getPlacesSortedByVector r.engine c userVector tags none none).map
          fun vectorPlaces => (appendRemaining r c vectorPlaces tags, caches)
  | none =>
    if keyword ≠ "" then
      let (popular, caches) := getPopularPlaces r.engine c tags none (some 100) caches
      .ok (inMemoryTiers r c keyword popular, caches)
    else .ok (getPopularPlaces r.engine c tags none (some remainingCap) caches)

def getPlaceListRecommend (userId : Option Int) (keyword : String) (tags : List Int) (caches : Caches K) :
    Except Exc (List ListedPlace × Caches K) := do
  let (places, caches) ← recommendedPlaces r c userId keyword tags caches
  return (places.map fun p => {p with isBookmarked := c.isBookmarked userId p.place.id}, caches)

/-! ### Detail -/

omit [DecidableEq K] [LinearOrder D] in
/-- The place, and whether the user has it bookmarked. -/
def getPlaceDetail (placeId : Int) (userId : Option Int) (caches : Caches K) : Option (Place × Bool) × Caches K :=
  let marked := fun place : Place => (place, c.isBookmarked (userId.filter (· ≠ 0)) placeId)
  match caches.detail placeId with
  | some place => (some (marked place), caches)
  | none =>
    match c.activePlaces.find? (·.id == placeId) with
    | some place => (some (marked place), caches.setDetail placeId (some place))
    | none => (none, caches)

end
end TravelMaker
