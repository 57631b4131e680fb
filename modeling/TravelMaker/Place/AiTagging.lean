import TravelMaker.Lib.DoubleText
import TravelMaker.Lib.Upsert
import TravelMaker.Place.Tagging
import TravelMaker.Place.TourResponse

/-! AI tags and style vectors: `analyze_place` and the command `ai_tag`.

The answer of the provider may be any JSON value. Only what the guard rails let through is
stored: tags that are seeded, and six numbers between 0 and 1. -/
namespace TravelMaker
open Lib (Double Txn)

variable {V : Type}

def aiTaggingError : Exc := .other "AITaggingError"

/-! ### Seeds -/

/-- `TAG_SEEDS`, of the types that are tagged here. -/
def tagSeeds : List (String × List String) := [
  (travelStyleTagType, ["해변", "산악", "도시", "문화", "미식", "액티비티", "로맨틱"]),
  (subThemeTagType, ["해수욕·해안", "수상레저", "캠핑·글램핑", "산·숲·계곡", "자연생태", "자연공원·트레킹", "랜드마크",
    "공원·거리", "쇼핑", "역사·유적", "박물관·전시", "전통체험", "음식점", "카페·디저트", "시장·먹거리", "육상스포츠",
    "항공·익스트림", "테마파크·시설", "스파·웰니스", "숙박·리조트"]),
  (companionTagType, ["혼자", "커플", "가족", "친구"])]

def foodTagNames : List String := ["미식", "음식점", "카페·디저트", "시장·먹거리"]
def foodLcls1Code : String := "FD"
def natureLcls1Code : String := "NA"
def foodContentTypeId : Int := 39
def festivalContentTypeId : Int := 15
def beachLcls2Prefix : String := "NA02"

/-- `_STYLE_BY_CTYPE`. -/
def styleByContentType : List (Int × String) :=
  [(39, "미식"), (28, "액티비티"), (14, "문화"), (15, "문화"), (38, "도시"), (32, "도시")]

def styleByLcls1 : List (String × String) := [("FD", "미식"), ("EX", "액티비티"), ("VE", "문화"), ("HS", "문화")]

def defaultStyle : String := "도시"

def styleVectorDim : Nat := 6

/-! ### The answer of the provider -/

/-- What the call of the provider ends in. -/
inductive ModelReply where
  /-- An `APIError` of the provider. -/
  | apiError
  /-- A text that is blank. -/
  | blank
  | notJson
  | json (data : Json)
  /-- An exception of another kind. -/
  | raised (e : Exc)

def ModelReply.data : ModelReply → Except Exc Json
  | .apiError | .blank | .notJson => .error aiTaggingError
  | .json data => .ok data
  | .raised e => .error e

namespace Json

/-- `data.get(key)`, `None` where the key is missing. -/
def getKey (data : Json) (key : String) : Except Exc Json :=
  if data.isObject then .ok (data.field key) else .error attributeError

def str? : Json → Option String
  | .scalar (.str s) => some s
  | _ => Option.none

/-- The texts among what `dict.fromkeys` iterates over. -/
def texts : Json → Except Exc (List String)
  | .array items => if items.all (·.hashable) then .ok (items.filterMap str?) else .error .typeError
  | .object fields => .ok (fields.map (·.1))
  | .scalar (.str s) => .ok (s.toList.map String.singleton)
  | .scalar _ => .error .typeError

/-- `float(value)`. -/
def toFloat : Json → Except Exc Double
  | .scalar (.bool b) => (Double.ofInt? (if b then 1 else 0)).elim (.error .overflowError) .ok
  | .scalar (.int n) => (Double.ofInt? n).elim (.error .overflowError) .ok
  | .scalar (.float (.infinity negative)) => .ok (.infinity negative)
  | .scalar (.float .nan) => .ok .nan
  | .scalar (.float (.finite text _)) | .scalar (.str text) =>
    (Double.ofText? text).elim (.error (.valueError "could not convert string to float")) .ok
  | _ => .error .typeError

end Json

/-- Six numbers, each put between 0 and 1 and rounded to two digits. -/
def clampVector : Json → Except Exc (List Double)
  | .array values =>
    if values.length = styleVectorDim then values.mapM fun value => do return (← value.toFloat).clampUnit.round 2
    else .error aiTaggingError
  | _ => .error aiTaggingError

/-! ### Guard rails -/

/-- `names or []`, without repetitions and without what is no candidate. -/
def filterNames (candidates : List String) (names : Json) : Except Exc (List String) :=
  if names.truthy then do return (← names.texts).eraseDups.filter (candidates.contains ·)
  else .ok []

/-- The seeded tags of each type, in the order of the answer. -/
def filterTags (raw : Json) : Except Exc (List (String × List String)) :=
  aiTagTypes.mapM fun tagType => do
    return (tagType, ← filterNames ((tagSeeds.lookup tagType).getD []) (raw.field tagType))

def Place.isFood (place : Place) : Bool :=
  place.lclsSystm1 == some foodLcls1Code || place.contentTypeId == foodContentTypeId

/-- Food tags are for places of food and for festivals. -/
def dropNonFoodTags (place : Place) (tags : List (String × List String)) : List (String × List String) :=
  if place.isFood || place.contentTypeId == festivalContentTypeId then tags
  else tags.map fun (tagType, names) => (tagType, names.filter fun name => !foodTagNames.contains name)

def fallbackStyle (place : Place) : String :=
  if place.lclsSystm1 = some natureLcls1Code then
    if beachLcls2Prefix.toList.isPrefixOf (place.lclsSystm2.getD "").toList then "해변" else "산악"
  else
    ((styleByContentType.lookup place.contentTypeId).or
      (styleByLcls1.lookup (place.lclsSystm1.getD ""))).getD defaultStyle

/-- One travel style at least. -/
def ensureMinStyle (place : Place) (tags : List (String × List String)) : List (String × List String) :=
  tags.map fun (tagType, names) =>
    if tagType = travelStyleTagType ∧ names = [] then (tagType, [fallbackStyle place]) else (tagType, names)

structure AiResult where
  tags : List (String × List String)
  styleVector : List Double
deriving DecidableEq, Repr

/-- The names of all tags, type by type. -/
def AiResult.names (result : AiResult) : List String :=
  aiTagTypes.flatMap fun tagType => (result.tags.lookup tagType).getD []

/-- `None` for a place without a description; the provider is not asked then. -/
def analyzePlace (provider : Place → ModelReply) (place : Place) : Except Exc (Option AiResult) :=
  if Lib.Text.strip (place.description.getD "") = "" then .ok none
  else do
    let data ← (provider place).data
    let tags ← filterTags (← data.getKey "tags")
    let vector ← clampVector (← data.getKey "style_vector")
    return some {tags := ensureMinStyle place (dropNonFoodTags place tags), styleVector := vector}

/-! ### Storing a result -/

namespace Db

/-- Insert the row of the place, or set its style vector. -/
def saveStyle (placeId : Int) (vector : V) (d : Db V) : Db V :=
  {d with
    placeFeatures := Lib.Upsert.setOrInsert (·.placeId) placeId (fun feature => {feature with styleVector := some vector})
      {placeId := placeId, styleVector := some vector} d.placeFeatures}

end Db

section
variable (provider : Place → ModelReply) (column : List Double → V)

/-- The tags first, then the vector; `column` is what the database makes of it. -/
def persistAiResult (place : Place) (result : AiResult) : Service V Unit := do
  let _ ← assignAiTags place.id result.names
  let _ ← Txn.forUpdate (.placeFeature place.id)
  let _ ← Txn.put (.placeFeature place.id) (Db.saveStyle place.id (column result.styleVector))

/-! ### The command -/

structure AiTagSummary where
  processed : Nat := 0
  skipped : Nat := 0
  errors : Nat := 0
deriving DecidableEq, Repr

/-- The places one after the other. Only an `AITaggingError` is caught. -/
def aiTagLoop (dryRun : Bool) : List Place → AiTagSummary → Service V AiTagSummary
  | [], summary => return summary
  | place :: rest, summary =>
    match analyzePlace provider place with
    | .error e =>
      if e = aiTaggingError then aiTagLoop dryRun rest {summary with errors := summary.errors + 1} else Txn.raise e
    | .ok none => aiTagLoop dryRun rest {summary with skipped := summary.skipped + 1}
    | .ok (some result) => do
      if !dryRun then persistAiResult column place result
      aiTagLoop dryRun rest {summary with processed := summary.processed + 1}

structure AiTagOptions where
  contentTypeId : Option Int := none
  limit : Nat := 10
  onlyMissing : Bool := false
  dryRun : Bool := false
deriving DecidableEq, Repr

/-- Active, described and of the type asked for. -/
def Place.analyzable (contentTypeId : Option Int) (place : Place) : Bool :=
  place.isActive && place.description.any (· != "") && contentTypeId.all (· == place.contentTypeId)

/-- The places to choose from, by id. With `only_missing` they have no style vector. -/
def Db.aiTagCandidates (d : Db V) (contentTypeId : Option Int) (onlyMissing : Bool) : List Place :=
  (d.places.filter fun place =>
    place.analyzable contentTypeId && (!onlyMissing || (d.styleVector? place.id).isNone)).insertionSort (·.id ≤ ·.id)

/-- The command, outside any atomic block. -/
def aiTag (options : AiTagOptions) : Service V AiTagSummary :=
  Txn.autocommit do
    let d ← Txn.read
    let places := (d.aiTagCandidates options.contentTypeId options.onlyMissing).take options.limit
    aiTagLoop provider column options.dryRun places {}

end
end TravelMaker
