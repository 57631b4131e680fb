import Mathlib.Data.List.Nodup
import Mathlib.Data.Rat.Defs
import TravelMaker.Lib.Transaction

/-! The tables.

Rows carry the columns that the modelled services read or write. `V` is the type
of the embedding vectors of `PlaceFeature` and `UserPreference`: the services only
hand these to the vector arithmetic they are given. A foreign key is the id it
points to; `RouteDay` and `RouteDayPlace` rows live inside the `Route` they cascade
with. -/
namespace TravelMaker

/-- A calendar day, by its ordinal. -/
abbrev Date := Int

/-- A point in time, in microseconds. -/
abbrev Instant := Int

/-- `timedelta(days=n)`. -/
def timedeltaDays (n : Int) : Int := n * (24 * 60 * 60 * 1000000)

/-- What a service call can end in besides a result: an error of the API with its
status and detail, or one the framework turns into a server error. -/
inductive Exc where
  | api (status : Nat) (detail : String)
  | integrityError
  | databaseError
  | validationError
  | tourApiError
  | allKeysExhaustedError
  | keyError (key : String)
  | valueError (message : String)
  | typeError
  | overflowError
  | other (name : String)
deriving DecidableEq, Repr

/-- `DatabaseError` and its subclasses. -/
def Exc.isDatabaseError : Exc → Bool
  | .integrityError | .databaseError => true
  | _ => false

/-- `TourApiError` and its subclass. -/
def Exc.isTourApiError : Exc → Bool
  | .tourApiError | .allKeysExhaustedError => true
  | _ => false

structure User where
  id : Int
  email : String := ""
  nickname : String := ""
  bio : String := ""
  gender : String := ""
  birthday : Option Date := none
  profileImgUrl : String := ""
  isActive : Bool := true
  deletedAt : Option Instant := none
deriving DecidableEq, Repr

inductive Provider where
  | kakao
deriving DecidableEq, Repr

structure SocialUser where
  userId : Int
  provider : Provider
  providerId : String
deriving DecidableEq, Repr

structure Tag where
  id : Int
  tagType : String
  tagName : String
deriving DecidableEq, Repr

structure Place where
  id : Int
  contentId : Int
  contentTypeId : Int
  placeName : String := ""
  latitude : Option ℚ := none
  longitude : Option ℚ := none
  ratingAvg : ℚ := 0
  ratingCount : Nat := 0
  description : Option String := none
  addressPrimary : Option String := none
  addressDetail : Option String := none
  tel : Option String := none
  homepage : Option String := none
  zipcode : Option String := none
  lclsSystm1 : Option String := none
  lclsSystm2 : Option String := none
  lclsSystm3 : Option String := none
  sourceModifiedAt : Option String := none
  isActive : Bool := true
deriving DecidableEq, Repr

structure PlaceImage where
  placeId : Int
  imageUrl : String
  thumbnailUrl : Option String := none
  isMain : Bool := false
  order : Nat := 0
deriving DecidableEq, Repr

structure PlaceInfo where
  placeId : Int
  operatingHours : Option String := none
  closedDays : Option String := none
  parking : Option Bool := none
  admissionFee : Option String := none
  spendTime : Option String := none
  discountInfo : Option String := none
  accomCount : Option String := none
  pet : Option Bool := none
  babyCarriage : Option Bool := none
  creditCard : Option Bool := none
deriving DecidableEq, Repr

structure PlaceFeature (V : Type) where
  placeId : Int
  styleVector : Option V := none
  contentVector : Option V := none
deriving DecidableEq, Repr

structure RouteDayPlace where
  placeId : Int
  order : Nat
deriving DecidableEq, Repr

structure RouteDay where
  dayIndex : Int
  dayPlaces : List RouteDayPlace
deriving DecidableEq, Repr

structure Route where
  id : Int
  userId : Int
  title : String
  description : Option String := none
  regionTagId : Option Int := none
  themeTagIds : List Int := []
  startDate : Date
  endDate : Date
  days : List RouteDay := []
deriving DecidableEq, Repr

/-- A rating between 1 and 5, as `ReviewCreateSerializer` and
`ReviewUpdateSerializer` let through. -/
structure Rating where
  value : Nat
  one_le : 1 ≤ value
  le_five : value ≤ 5
deriving DecidableEq, Repr

structure Review where
  id : Int
  userId : Int
  placeId : Int
  rating : Rating
  content : String
  imageUrl : Option String := none
  routeId : Option Int := none
deriving DecidableEq, Repr

structure Bookmark where
  id : Int
  userId : Int
  placeId : Int
deriving DecidableEq, Repr

inductive ActionType where
  | review
  | bookmark
  | unbookmark
  | routeAdd
deriving DecidableEq, Repr

/-- The weight `explicit / log10 popularity` of an action, kept as its two numbers. -/
structure Weight where
  explicit : ℚ
  popularity : Nat
deriving DecidableEq, Repr

structure UserActionLog where
  id : Int
  userId : Int
  placeId : Int
  actionType : ActionType
  weight : Weight
  processed : Bool := false
  createdAt : Instant
deriving DecidableEq, Repr

structure UserPreference (V : Type) where
  userId : Int
  contentVector : Option V := none
  actionCount : Nat := 0
deriving DecidableEq, Repr

structure Db (V : Type) where
  users : List User := []
  socialUsers : List SocialUser := []
  tags : List Tag := []
  places : List Place := []
  placeTags : List (Int × Int) := []
  placeImages : List PlaceImage := []
  placeInfos : List PlaceInfo := []
  placeFeatures : List (PlaceFeature V) := []
  routes : List Route := []
  reviews : List Review := []
  bookmarks : List Bookmark := []
  actionLogs : List UserActionLog := []
  preferences : List (UserPreference V) := []
deriving DecidableEq, Repr

/-- Row locks: rows by primary key, and the entries of the unique indexes that a
conflicting insert waits on. -/
inductive RowKey where
  | user (id : Int)
  | userOf (email : String)
  | socialUserOf (provider : Provider) (providerId : String)
  | place (id : Int)
  | placeInfo (placeId : Int)
  | placeImage (placeId : Int) (imageUrl : String)
  | placeTags (placeId : Int)
  | placeFeature (placeId : Int)
  | route (id : Int)
  | review (id : Int)
  | reviewOf (userId placeId : Int)
  | bookmark (id : Int)
  | bookmarkOf (userId placeId : Int)
  | actionLog (id : Int)
  | preference (userId : Int)
deriving DecidableEq, Repr

/-- A service call on the tables. -/
abbrev Service (V : Type) (α : Type) := Lib.Txn (Db V) RowKey Exc α

namespace Db
variable {V : Type}

/-! ### Lookups by primary key -/

def user? (d : Db V) (id : Int) : Option User := d.users.find? (·.id == id)
def place? (d : Db V) (id : Int) : Option Place := d.places.find? (·.id == id)
def route? (d : Db V) (id : Int) : Option Route := d.routes.find? (·.id == id)
def review? (d : Db V) (id : Int) : Option Review := d.reviews.find? (·.id == id)
def preference? (d : Db V) (userId : Int) : Option (UserPreference V) :=
  d.preferences.find? (·.userId == userId)
def styleVector? (d : Db V) (placeId : Int) : Option V :=
  (d.placeFeatures.find? (·.placeId == placeId)).bind (·.styleVector)
def contentVector? (d : Db V) (placeId : Int) : Option V :=
  (d.placeFeatures.find? (·.placeId == placeId)).bind (·.contentVector)

variable {d : Db V} {id : Int}

theorem place?_some {place : Place} (h : d.place? id = some place) : place ∈ d.places ∧ place.id = id :=
  ⟨List.mem_of_find?_eq_some h, by simpa using List.find?_some h⟩

theorem place?_of_mem (hids : (d.places.map (·.id)).Nodup) {place : Place} (hplace : place ∈ d.places) :
    d.place? place.id = some place := by
  have hsome : (d.place? place.id).isSome = true := List.find?_isSome.mpr ⟨place, hplace, beq_self_eq_true _⟩
  obtain ⟨found, hfound⟩ := Option.isSome_iff_exists.mp hsome
  obtain ⟨hmem, hid⟩ := place?_some hfound
  rw [hfound, List.inj_on_of_nodup_map hids hmem hplace hid]

theorem route?_some {route : Route} (h : d.route? id = some route) : route ∈ d.routes ∧ route.id = id :=
  ⟨List.mem_of_find?_eq_some h, by simpa using List.find?_some h⟩

theorem review?_some {review : Review} (h : d.review? id = some review) :
    review ∈ d.reviews ∧ review.id = id :=
  ⟨List.mem_of_find?_eq_some h, by simpa using List.find?_some h⟩

theorem place?_none (h : d.place? id = none) : ∀ place ∈ d.places, place.id ≠ id := by
  intro place hplace hid
  simpa [hid] using List.find?_eq_none.mp h place hplace

end Db
end TravelMaker
