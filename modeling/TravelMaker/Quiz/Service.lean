import TravelMaker.Lib.CacheAside
import TravelMaker.Lib.Upsert
import TravelMaker.Place.Catalog
import TravelMaker.Quiz.Answers

/-! The quiz on its tables: submitting it, sharing its result, and the pages of both.

The tables have vectors in single precision. The list of travel types is read through a cache
that a rollback does not restore. -/
namespace TravelMaker
open Lib (Format Number PySum binary32 binary64)
open Lib.CacheAside (readThrough)

/-! ### Tables -/

structure TravelType where
  id : Int
  typeKey : String
  name : String
  imageUrl : String
deriving DecidableEq, Repr

/-- A vector column. -/
abbrev StoredVector := List (Number binary32)

/-- `UserTestResult`. -/
structure QuizResult where
  userId : Int
  travelTypeId : Int
  resultVector : StoredVector
  updatedAt : Instant
deriving DecidableEq, Repr

structure QuizDb where
  base : Db StoredVector := {}
  travelTypes : List TravelType := []
  results : List QuizResult := []

/-- The cache of the key `travel_types:all`. -/
abbrev TypeCache := Lib.CacheAside.Cache Unit (List TravelType) Instant

/-- What a vector of floats is in a column or a query. -/
def storeVector {f : Format} (vector : List (Number f)) : StoredVector := vector.map (·.cast binary32)

/-! ### Recommended places -/

structure RecommendedPlace where
  place : Place
  styleVector : Option StoredVector
  distance : Option (Number binary64)

/-- How a query sorts distances: no number after the numbers, and null last. -/
def distanceRank : Option (Number binary64) → ℤ ×ₗ ℚ
  | some (.infinity true) => toLex (-1, 0)
  | some (.finite negative m) => toLex (0, if negative then -m.value else m.value)
  | some (.infinity false) => toLex (1, 0)
  | some .nan => toLex (2, 0)
  | none => toLex (3, 0)

section
variable (e : Engine StoredVector (Number binary64))

def getRecommendedPlaces {f : Format} (d : Db StoredVector) (resultVector : List (Number f)) : List RecommendedPlace :=
  let rows := d.places.filterMap fun place =>
    if place.isActive then
      (d.placeFeatures.find? (·.placeId == place.id)).map fun feature =>
        ⟨place, feature.styleVector, feature.styleVector.map (e.distance · (storeVector resultVector))⟩
    else none
  (orderBy (distanceRank ·.distance) (e.scan rows)).take 3

/-- `calculate_match_rate`; null is no number. -/
def calculateMatchRate (p : RecommendedPlace) : Except Exc Int :=
  match p.distance with
  | none => .error .typeError
  | some distance =>
    let similarity := (Number.ofSize binary64 false 1).sub distance
    pyRound ((Number.max (.ofSize _ false 0) (.min (.ofSize _ false 1) similarity)).mul (.ofSize _ false 100))

/-! ### Travel types -/

/-- `d[key]`. -/
def itemOf {α : Type} (d : List (String × α)) (key : String) : Except Exc α :=
  match d.lookup key with
  | some value => .ok value
  | none => .error (.keyError key)

/-- `{t.type_key: t for t in all_types}[key]`; of equal keys the last counts. -/
def typeByKey (allTypes : List TravelType) (key : String) : Except Exc TravelType :=
  match allTypes.reverse.find? (·.typeKey == key) with
  | some travelType => .ok travelType
  | none => .error (.keyError key)

/-- 24 hours. -/
def travelTypesTtl : Instant := timedeltaDays 1

def allTravelTypes (now : Instant) (d : QuizDb) (cache : TypeCache) : List TravelType × TypeCache :=
  readThrough now (now + travelTypesTtl) () d.travelTypes (fun _ => true) cache

/-- The pair that `find_compatible_types` returns, of the types it found. -/
def compatibleOf (allTypes : List TravelType) (travelType : TravelType) : Except Exc (TravelType × TravelType) := do
  let compatible ← typeByKey allTypes (← itemOf compatibleMap travelType.typeKey)
  let incompatible ← typeByKey allTypes (← itemOf incompatibleMap travelType.typeKey)
  return (compatible, incompatible)

def findCompatibleTypes (now : Instant) (travelType : TravelType) (d : QuizDb) (cache : TypeCache) :
    Except Exc (TravelType × TravelType) × TypeCache :=
  let (allTypes, cache) := allTravelTypes now d cache
  (compatibleOf allTypes travelType, cache)

/-! ### Results -/

structure SharedQuizResult where
  travelType : TravelType
  typeTags : List String
  description : String
  detailCards : List DetailCard
  resultVector : List (Number binary64)
  accuracy : Int
  recommendedPlaces : List RecommendedPlace
  compatibleType : TravelType
  incompatibleType : TravelType
  compatibleReason : String
  incompatibleReason : String

structure QuizSubmitResult extends SharedQuizResult where
  saved : Bool

/-- What is said of a vector and a type, once the types it goes with are found. -/
def resultOf (d : QuizDb) (travelType : TravelType) (typeKey : String) (norm : List (Number binary64))
    (found : TravelType × TravelType) : Except Exc SharedQuizResult := do
  let messages ← itemOf compatibilityMessages typeKey
  let typeTags ← buildTypeTags typeKey
  let description ← makeDescription norm
  let detailCards ← buildDetailCards norm
  let accuracy ← calculateAccuracy norm
  return ⟨travelType, typeTags, description, detailCards, norm, accuracy, getRecommendedPlaces e d.base norm, found.1,
    found.2, messages.compatible, messages.incompatible⟩

/-- The part that `submit_quiz` and `get_shared_quiz_result` have in common. -/
def buildResult (now : Instant) (d : QuizDb) (travelType : TravelType) (typeKey : String) (norm : List (Number binary64))
    (cache : TypeCache) : Except Exc SharedQuizResult × TypeCache :=
  let (found, cache) := findCompatibleTypes now travelType d cache
  (found >>= resultOf e d travelType typeKey norm, cache)

/-- `TravelType.objects.get(type_key=…)`. -/
def getTravelType (d : QuizDb) (typeKey : String) (missing : Exc) : Except Exc TravelType :=
  match d.travelTypes.find? (·.typeKey == typeKey) with
  | some travelType => .ok travelType
  | none => .error missing

/-- `TravelType.DoesNotExist`. -/
def travelTypeDoesNotExist : Exc := .other "TravelType.DoesNotExist"

/-- What `submit_quiz` knows before it writes. -/
def scoreQuiz (d : QuizDb) (answers : List String) : Except Exc (List (Number binary64) × String × TravelType) := do
  let norm ← calculateNormVector answers
  let typeKey ← determineTypeKey norm
  return (norm, typeKey, ← getTravelType d typeKey travelTypeDoesNotExist)

/-- `UserTestResult.objects.update_or_create(user=…, defaults=…)`. -/
def saveResult (now : Instant) (userId : Option Int) (travelType : TravelType) (norm : List (Number binary64)) (d : QuizDb) :
    QuizDb :=
  match userId with
  | some userId => {d with results := Lib.Upsert.upsert (·.userId) ⟨userId, travelType.id, storeVector norm, now⟩ d.results}
  | none => d

/-- `submit_quiz`: an error rolls the tables back, not the cache. -/
def submitQuiz (now : Instant) (userId : Option Int) (answers : List String) (d : QuizDb) (cache : TypeCache) :
    Except Exc QuizSubmitResult × QuizDb × TypeCache :=
  match scoreQuiz d answers with
  | .error error => (.error error, d, cache)
  | .ok (norm, typeKey, travelType) =>
    let saved := saveResult now userId travelType norm d
    match buildResult e now saved travelType typeKey norm cache with
    | (.error error, cache) => (.error error, d, cache)
    | (.ok result, cache) => (.ok ⟨result, userId.isSome⟩, saved, cache)

/-- `InvalidTypeKey`. -/
def invalidTypeKey : Exc := .api 400 "유효하지 않은 type_key입니다."

def getSharedQuizResult (now : Instant) (typeKey : String) (norm : List (Number binary64)) (d : QuizDb) (cache : TypeCache) :
    Except Exc SharedQuizResult × TypeCache :=
  match getTravelType d typeKey invalidTypeKey with
  | .error error => (.error error, cache)
  | .ok travelType => buildResult e now d travelType typeKey norm cache

/-- `QuizResultNotFound`. -/
def quizResultNotFound : Exc := .api 404 "퀴즈 결과를 찾을 수 없습니다."

/-- `get_user_quiz_result`: the row with its travel type. -/
def getUserQuizResult (userId : Int) (d : QuizDb) : Except Exc (QuizResult × TravelType) :=
  match d.results.find? (·.userId == userId) with
  | none => .error quizResultNotFound
  | some result =>
    match d.travelTypes.find? (·.id == result.travelTypeId) with
    | none => .error quizResultNotFound
    | some travelType => .ok (result, travelType)

/-! ### Pages -/

/-- A row of `PlaceRecommendationSerializer`. -/
structure Destination where
  placeId : Int
  placeName : String
  description : Option String
  imageUrl : Option String
  tags : List String
  styleVector : List AxisLabel
  matchRate : Int
deriving DecidableEq, Repr

def renderDestination (d : Db StoredVector) (p : RecommendedPlace) : Except Exc Destination := do
  let image := (orderBy (·.order) (d.placeImages.filter fun image => image.placeId == p.place.id && image.isMain)).head?
  let tags := d.tags.filter fun tag => d.placeTags.contains (p.place.id, tag.id)
  let styleVector ← match p.styleVector with
    | none => .error .typeError
    | some vector => labelVector (vector.map (·.cast binary64))
  let matchRate ← calculateMatchRate p
  return ⟨p.place.id, p.place.placeName, p.place.description, image.map (·.imageUrl), tags.map (·.tagName), styleVector, matchRate⟩

/-- A row of `PlaceMatchSerializer`. -/
structure PlaceMatch where
  placeId : Int
  placeName : String
  matchRate : Int
deriving DecidableEq, Repr

def renderMatch (p : RecommendedPlace) : Except Exc PlaceMatch := do
  return ⟨p.place.id, p.place.placeName, ← calculateMatchRate p⟩

/-- `TravelTypeBriefSerializer`, with the reason. -/
structure TypeBrief where
  travelTypeId : Int
  typeKey : String
  typeTags : List String
  name : String
  imageUrl : String
  reason : String
deriving DecidableEq, Repr

def renderType (t : TravelType) (reason : String) : Except Exc TypeBrief := do
  return ⟨t.id, t.typeKey, ← buildTypeTags t.typeKey, t.name, t.imageUrl, reason⟩

/-- The fields of `SharedQuizResultSerializer`; `QuizSubmitResponseSerializer` has `saved` besides. -/
structure QuizPage where
  travelTypeId : Int
  typeKey : String
  name : String
  description : String
  imageUrl : String
  typeTags : List String
  detailCards : List DetailCard
  resultVector : List AxisLabel
  rawVector : List (Number binary64)
  accuracy : Int
  compatibleType : TypeBrief
  incompatibleType : TypeBrief
  destinations : List Destination
deriving DecidableEq, Repr

def renderQuizPage (d : Db StoredVector) (r : SharedQuizResult) : Except Exc QuizPage := do
  let resultVector ← labelVector r.resultVector
  let compatibleType ← renderType r.compatibleType r.compatibleReason
  let incompatibleType ← renderType r.incompatibleType r.incompatibleReason
  let destinations ← r.recommendedPlaces.mapM (renderDestination d)
  return ⟨r.travelType.id, r.travelType.typeKey, r.travelType.name, r.description, r.travelType.imageUrl, r.typeTags,
    r.detailCards, resultVector, r.resultVector, r.accuracy, compatibleType, incompatibleType, destinations⟩

/-- The fields of `QuizResultSerializer`. -/
structure ResultPage where
  typeKey : String
  name : String
  description : String
  imageUrl : String
  typeTags : List String
  resultVector : List AxisLabel
  accuracy : Int
  destinations : List PlaceMatch
  updatedAt : Instant
deriving DecidableEq, Repr

def renderResultPage (d : Db StoredVector) (result : QuizResult) (travelType : TravelType) : Except Exc ResultPage := do
  let description ← makeDescription result.resultVector
  let typeTags ← buildTypeTags travelType.typeKey
  let resultVector ← labelVector result.resultVector
  let accuracy ← calculateAccuracy result.resultVector
  let destinations ← (getRecommendedPlaces e d result.resultVector).mapM renderMatch
  return ⟨travelType.typeKey, travelType.name, description, travelType.imageUrl, typeTags, resultVector, accuracy,
    destinations, result.updatedAt⟩

/-! ### Views -/

/-- `QuizSubmitView.post`; the response is made when the transaction is over. -/
def quizSubmitView (now : Instant) (userId : Option Int) (data : Json) (d : QuizDb) (cache : TypeCache) :
    Except Refused (Bool × QuizPage) × QuizDb × TypeCache :=
  match QuizSubmitSerializer.run data with
  | .error error => (.error error, d, cache)
  | .ok answers =>
    match submitQuiz e now userId answers d cache with
    | (.error error, d, cache) => (.error (.raised error), d, cache)
    | (.ok result, d, cache) =>
      match renderQuizPage d.base result.toSharedQuizResult with
      | .error error => (.error (.raised error), d, cache)
      | .ok page => (.ok (result.saved, page), d, cache)

/-- `SharedQuizResultView.get`. -/
def sharedQuizResultView (now : Instant) (params : List (String × Json)) (d : QuizDb) (cache : TypeCache) :
    Except Refused QuizPage × TypeCache :=
  match SharedQuizRequestSerializer.run params with
  | .error error => (.error error, cache)
  | .ok (typeKey, vector) =>
    match getSharedQuizResult e now typeKey (vector.map (·.number)) d cache with
    | (.error error, cache) => (.error (.raised error), cache)
    | (.ok result, cache) =>
      match renderQuizPage d.base result with
      | .error error => (.error (.raised error), cache)
      | .ok page => (.ok page, cache)

/-- `QuizResultView.get`. -/
def quizResultView (userId : Int) (d : QuizDb) : Except Exc ResultPage := do
  let (result, travelType) ← getUserQuizResult userId d
  renderResultPage e d.base result travelType

end

end TravelMaker
