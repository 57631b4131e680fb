import Mathlib.Algebra.Order.Ring.Unbundled.Rat
import Mathlib.Data.List.Sort
import Mathlib.Order.Basic
import Mathlib.Data.Prod.Lex
import TravelMaker.Place.Tagging

/-! The tables as the place lists read them, and what the lists take from the database:
sorted rows, slices, and rows with a filter on tags. -/
namespace TravelMaker

structure UserTestResult (V : Type) where
  userId : Int
  resultVector : V
deriving DecidableEq, Repr

structure Catalog (V : Type) where
  db : Db V
  /-- `PlaceFeature.style_vector`, where it is not null. -/
  styleVectors : List (Int × V) := []
  viewCount : Int → Nat := fun _ => 0
  testResults : List (UserTestResult V) := []

/-- What the database and its extensions decide. -/
structure Engine (V D : Type) : Type 1 where
  /-- `CosineDistance`. -/
  distance : V → V → D
  /-- `any(vector)`. -/
  nonzero : V → Bool
  /-- The order in which a query comes to the rows; rows of equal keys stay in it. -/
  scan : {α : Type} → List α → List α
  scan_perm : ∀ {α : Type} (rows : List α), (scan rows).Perm rows
  /-- The largest number that `LIMIT` and `OFFSET` take, if there is one. -/
  largest : Option Nat := none

/-- Numbers for vectors, in the order of their distance. -/
def plainEngine : Engine Nat Nat where
  distance a b := a - b + (b - a)
  nonzero v := v != 0
  scan := id
  scan_perm := List.Perm.refl

/-- Stable sort: the rows in ascending order of a key. -/
def orderBy {α β : Type} [LinearOrder β] (key : α → β) (rows : List α) : List α :=
  rows.insertionSort fun a b => key a ≤ key b

section
variable {α β : Type} [LinearOrder β] {key : α → β} {rows : List α}

theorem orderBy_perm : (orderBy key rows).Perm rows := List.perm_insertionSort _ _

theorem mem_orderBy {a : α} : a ∈ orderBy key rows ↔ a ∈ rows := orderBy_perm.mem_iff

theorem orderBy_pairwise : (orderBy key rows).Pairwise fun a b => key a ≤ key b :=
  List.pairwise_insertionSort (fun a b => key a ≤ key b) rows

/-- There is one order for rows with keys of their own. -/
theorem orderBy_eq_of_perm {l : List α} (hperm : l.Perm rows) (hsorted : l.Pairwise fun a b => key a ≤ key b)
    (hinj : ∀ a ∈ rows, ∀ b ∈ rows, key a = key b → a = b) : orderBy key rows = l := by
  refine List.Perm.eq_of_pairwise ?_ orderBy_pairwise hsorted (orderBy_perm.trans hperm.symm)
  intro a b ha hb hab hba
  exact hinj a (mem_orderBy.mp ha) b (hperm.mem_iff.mp hb) (le_antisymm hab hba)

end

/-- `xs[start:stop]`. -/
def pySlice {α : Type} (start stop : Int) (xs : List α) : List α :=
  let clamp (i : Int) : Nat := (if i < 0 then max 0 (i + xs.length) else i).toNat
  (xs.take (clamp stop)).drop (clamp start)

/-- A queryset sliced by `[start:stop]`. -/
def querySlice {α : Type} (largest : Option Nat) (start stop : Int) (rows : List α) : Except Exc (List α) :=
  if start < 0 ∨ stop < 0 then .error (.valueError "Negative indexing is not supported.")
  else if largest.any fun n : Nat => n < start ∨ n < stop - start then .error .databaseError
  else .ok ((rows.take stop.toNat).drop start.toNat)

namespace Catalog
variable {V : Type} (c : Catalog V)

/-- The primary keys and unique constraints of the tables. -/
structure Constraints : Prop where
  places : (c.db.places.map (·.id)).Nodup
  bookmarks : (c.db.bookmarks.map (·.id)).Nodup
  styleVectors : (c.styleVectors.map (·.1)).Nodup

def activePlaces : List Place := c.db.places.filter (·.isActive)

def carries (placeId tagId : Int) : Bool := c.db.placeTags.contains (placeId, tagId)

def carriesAll (tags : List Int) (placeId : Int) : Bool := tags.all (c.carries placeId)

def carriesAny (tags : List Int) (placeId : Int) : Bool := tags.any (c.carries placeId)

/-- `Count("bookmarks", distinct=True)`. -/
def bookmarkCount (placeId : Int) : Nat := (c.db.bookmarks.filter (·.placeId == placeId)).length

def isBookmarked (userId : Option Int) (placeId : Int) : Bool :=
  userId.any fun userId => c.db.bookmarks.any fun b => b.placeId == placeId && b.userId == userId

/-- `order_by("-bookmark_count", "-rating_avg", "-view_count")`. -/
def popularity (place : Place) : ℕᵒᵈ ×ₗ ℚᵒᵈ ×ₗ ℕᵒᵈ :=
  toLex (OrderDual.toDual (c.bookmarkCount place.id),
    toLex (OrderDual.toDual place.ratingAvg, OrderDual.toDual (c.viewCount place.id)))

end Catalog

/-- A place with what the lists say of it besides. -/
structure ListedPlace where
  place : Place
  bookmarkCount : Nat
  isBookmarked : Bool := false
deriving DecidableEq, Repr

namespace Catalog
variable {V D : Type} (e : Engine V D) (c : Catalog V)

def listed (place : Place) : ListedPlace := ⟨place, c.bookmarkCount place.id, false⟩

/-- The place of an id, as the lists show it. -/
def listedOf (placeId : Int) : Option ListedPlace := (c.db.place? placeId).map c.listed

/-- `Place.objects.filter(id__in=ids)`, put in the order of `ids`. -/
def loadPlaces (ids : List Int) : List ListedPlace :=
  (orderBy (fun place => ids.idxOf place.id) (e.scan (c.db.places.filter fun place => ids.contains place.id))).map c.listed

theorem mem_loadPlaces {ids : List Int} {p : ListedPlace} :
    p ∈ c.loadPlaces e ids ↔ ∃ place ∈ c.db.places, place.id ∈ ids ∧ c.listed place = p := by
  simp only [loadPlaces, List.mem_map, mem_orderBy, (e.scan_perm _).mem_iff, List.mem_filter, List.contains_iff_mem,
    and_assoc]

end Catalog
end TravelMaker
