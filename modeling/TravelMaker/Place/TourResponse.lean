import TravelMaker.Place.TourApi

/-! One request of the Tour API client: `TourApiClient._request_once`.

The reader goes down a JSON value that may have any shape, with `or` for what is empty on
the way. Where Python finds no mapping it raises an exception that is no `TourApiError`. -/
namespace TravelMaker

/-- A JSON value, as `response.json()` returns it. -/
inductive Json where
  | scalar (value : Scalar)
  | array (items : List Json)
  | object (fields : List (String × Json))

def attributeError : Exc := .other "AttributeError"

/-- `TourApiError`, by its code and its flag. -/
structure TourApiError where
  code : Json
  retryable : Bool

/-- What a request raises. -/
inductive RequestError where
  | tourApiError (e : TourApiError)
  | other (e : Exc)

/-- What a request ends in. -/
abbrev Outcome := Except RequestError (List Json)

namespace Json

def none : Json := .scalar .null

def str (s : String) : Json := .scalar (.str s)

/-- `bool(value)`. -/
def truthy : Json → Bool
  | .scalar .null => false
  | .scalar (.bool b) => b
  | .scalar (.int n) => n != 0
  | .scalar (.float (.finite text _)) => text != "0.0" && text != "-0.0"
  | .scalar (.float _) => true
  | .scalar (.str s) => s != ""
  | .array items => !items.isEmpty
  | .object fields => !fields.isEmpty

/-- `isinstance(value, dict)`. -/
def isObject : Json → Bool
  | .object _ => true
  | _ => false

/-- `value or {}`. -/
def orEmpty (value : Json) : Json := if value.truthy then value else .object []

/-- What an object has under the key; `None` where it has nothing. -/
def field (value : Json) (key : String) : Json :=
  match value with
  | .object fields => (fields.lookup key).getD none
  | _ => none

/-- `value.get(key)`. -/
def get (value : Json) (key : String) : Except RequestError Json :=
  if value.isObject then .ok (value.field key) else .error (.other attributeError)

/-- `value == text`. -/
def isStr (value : Json) (text : String) : Bool :=
  match value with
  | .scalar (.str s) => s == text
  | _ => false

/-- Lists and dicts have no hash. -/
def hashable : Json → Bool
  | .scalar _ => true
  | _ => false

end Json

def resultCodeOk : String := "0000"
def retryableResultCodes : List String := ["22"]

/-- `code in RETRYABLE_RESULT_CODES`, a frozenset. -/
def inRetryableCodes (code : Json) : Except RequestError Bool :=
  if code.hashable then .ok (retryableResultCodes.any code.isStr) else .error (.other .typeError)

def checkHeader (response : Json) : Except RequestError Unit := do
  let header ← response.orEmpty.get "header"
  let code ← header.orEmpty.get "resultCode"
  if code.isStr resultCodeOk then return ()
  else
    let retryable ← inRetryableCodes code
    throw (.tourApiError ⟨code, retryable⟩)

def extractItems (body : Json) : Except RequestError (List Json) := do
  let items ← body.orEmpty.get "items"
  if items.isObject then
    match items.field "item" with
    | .object fields => return [.object fields]
    | .array rows => return rows.filter (·.isObject)
    | .scalar _ => return []
  else return []

/-- A 200 response with a JSON value. -/
def readPayload (payload : Json) : Outcome := do
  let body ← payload.orEmpty.get "response"
  checkHeader body
  extractItems (← body.orEmpty.get "body")

/-- What comes back over HTTP. -/
inductive HttpResponse where
  /-- A `RequestException`, with the status of its response if there is one. -/
  | failed (status : Option Nat)
  | notJson
  | json (payload : Json)

/-- `str(status) if status else None`. -/
def statusCode (status : Option Nat) : Json :=
  match status with
  | none => .none
  | some n => if n = 0 then .none else .str (toString n)

def requestOnce : HttpResponse → Outcome
  | .failed status => .error (.tourApiError ⟨statusCode status, true⟩)
  | .notJson => .error (.tourApiError ⟨.none, false⟩)
  | .json payload => readPayload payload

end TravelMaker
