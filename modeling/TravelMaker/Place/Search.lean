import Mathlib.Data.List.Dedup
import TravelMaker.Place.Catalog

/-! Keyword search: `core.search` and `get_place_list`.

The list groups the joined rows of places, tags and bookmarks. What a row matches depends
on its tag, so a place has a row in the list for each pair of tier and relevance that its
tags give. -/
namespace TravelMaker

/-! ### Core words -/

def typeSuffixes : List String := ["해수욕장", "박물관", "미술관", "전시관", "체험관", "과학관", "기념관", "터미널",
  "경기장", "수영장", "테마파크", "공원", "광장", "거리", "마을", "시장", "해변", "항구", "대로", "역", "항", "산", "강",
  "천", "로", "길"]

/-- `_PLACE_TYPE_SUFFIXES`: the longer ones first. -/
def placeTypeSuffixes : List String := orderBy (fun suffix => OrderDual.toDual suffix.length) typeSuffixes

def connectorParticles : List String := ["에서", "의", "에"]

def endsWith (text suffix : String) : Bool := suffix.toList.isSuffixOf text.toList

/-- `text[: -len(suffix)]`. -/
def cutEnd (text suffix : String) : String := .ofList (text.toList.take (text.length - suffix.length))

def extractCoreKeyword (keyword : String) : Option String :=
  placeTypeSuffixes.findSome? fun suffix =>
    if endsWith keyword suffix && suffix.length < keyword.length then
      let core := cutEnd keyword suffix
      -- only the first particle that fits is tried
      (connectorParticles.find? (endsWith core)).bind fun particle =>
        let core := cutEnd core particle
        if 2 ≤ core.length ∧ core ≠ keyword then some core else none
    else none

example : extractCoreKeyword "가야의거리" = some "가야" := by decide +kernel

/-! ### Text in the database -/

structure TextSearch where
  /-- `str.lower`. -/
  lower : String → String
  lower_empty : ∀ text, lower text = "" ↔ text = ""
  /-- `TrigramSimilarity`. -/
  similarity : String → String → ℚ

/-- Text without upper case. -/
def plainSearch : TextSearch where
  lower := id
  lower_empty _ := Iff.rfl
  similarity _ _ := 0

/-- `TRGM_THRESHOLD`. -/
def trgmThreshold : ℚ := 3 / 20

namespace TextSearch
variable (s : TextSearch) (keyword : String)

def icontains (text part : String) : Bool := Lib.Text.contains (s.lower text) (s.lower part)

def inName (place : Place) : Bool := s.icontains place.placeName keyword

def inTag (tag : Tag) : Bool := s.icontains tag.tagName keyword

def coreInName (place : Place) : Bool := (extractCoreKeyword keyword).any (s.icontains place.placeName)

def inAddress (place : Place) : Bool := place.addressPrimary.any (s.icontains · keyword)

def isSimilar (place : Place) : Bool := s.similarity place.placeName keyword > trgmThreshold

/-- `_build_name_tag_q`, for a place with all its tags. -/
def nameOrTag {V : Type} (c : Catalog V) (place : Place) : Bool :=
  s.inName keyword place || (c.db.tagsOf place.id).any (s.inTag keyword) || s.coreInName keyword place

/-- `_tier` of a row with a tag. -/
def tier (place : Place) (tag : Option Tag) : Nat :=
  if s.inName keyword place || tag.any (s.inTag keyword) || s.coreInName keyword place then 1
  else if s.inAddress keyword place then 2
  else 99

/-- `_relevance`. -/
def relevance (place : Place) (tag : Option Tag) : Nat :=
  if s.inName keyword place || tag.any (s.inTag keyword) then 2
  else if s.coreInName keyword place then 1
  else 0

end TextSearch

/-! ### Joined rows -/

/-- A left join. -/
def leftJoin {β : Type} (rows : List β) : List (Option β) := if rows.isEmpty then [none] else rows.map some

structure JoinedRow where
  place : Place
  tag : Option Tag
  bookmark : Option Bookmark
deriving DecidableEq, Repr

/-- A row of the list. -/
structure PlaceRow where
  place : Place
  bookmarkCount : Nat
  isBookmarked : Bool
  tier : Nat
  relevance : Nat
deriving DecidableEq, Repr

namespace Catalog
variable {V : Type} (c : Catalog V)

def joinBookmarks (place : Place) (tag : Option Tag) : List JoinedRow :=
  (leftJoin (c.db.bookmarks.filter (·.placeId == place.id))).map fun bookmark => ⟨place, tag, bookmark⟩

def placeRows : List JoinedRow := c.activePlaces.flatMap fun place => c.joinBookmarks place none

/-- The join with the tags, as an annotation that looks at them makes it. -/
def tagRows : List JoinedRow :=
  c.activePlaces.flatMap fun place => (leftJoin (c.db.tagsOf place.id)).flatMap fun tag => c.joinBookmarks place tag

/-- `filter(tags__id=tag_id)`: a join of its own. -/
def filterTag (rows : List JoinedRow) (tagId : Int) : List JoinedRow :=
  rows.flatMap fun row => (c.db.placeTags.filter (· == (row.place.id, tagId))).map fun _ => row

/-- The aggregates of a group. -/
def groupRow (userId : Option Int) (rank : JoinedRow → Nat × Nat) (rows : List JoinedRow) (place : Place)
    (tier relevance : Nat) : PlaceRow where
  place := place
  bookmarkCount :=
    ((rows.filter fun row => row.place == place && rank row == (tier, relevance)).filterMap fun row =>
      row.bookmark.map (·.id)).dedup.length
  isBookmarked := c.isBookmarked userId place.id
  tier := tier
  relevance := relevance

/-- The groups by the place columns and the computed ones. -/
def groupRows (userId : Option Int) (rank : JoinedRow → Nat × Nat) (rows : List JoinedRow) : List PlaceRow :=
  (rows.map fun row => (row.place, rank row)).dedup.map fun (place, tier, relevance) =>
    c.groupRow userId rank rows place tier relevance

end Catalog

/-! ### The list -/

/-- `SORT_FIELDS`. -/
def sortField (sort : String) (row : PlaceRow) : ℚ :=
  match sort with
  | "review" => row.place.ratingCount
  | "rating" => row.place.ratingAvg
  | _ => row.bookmarkCount

/-- `order_by("-_relevance", ordering, "-id")`; without relevance it is the same in all rows. -/
def listKey (sort order : String) (row : PlaceRow) : ℕᵒᵈ ×ₗ ℚ ×ₗ ℤᵒᵈ :=
  toLex (OrderDual.toDual row.relevance,
    toLex (if order = "asc" then sortField sort row else -sortField sort row, OrderDual.toDual row.place.id))

section
variable {V : Type} (s : TextSearch) (c : Catalog V)

/-- `_tier` and `_relevance`. -/
def rankOf (keyword : String) (row : JoinedRow) : Nat × Nat :=
  (s.tier keyword row.place row.tag, s.relevance keyword row.place row.tag)

/-- The rows that the keyword selects, and what they are grouped by. -/
def keywordRows (keyword : String) : List JoinedRow × (JoinedRow → Nat × Nat) :=
  if keyword = "" then (c.placeRows, fun _ => (0, 0))
  else
    let annotated := c.tagRows.filter fun row => s.tier keyword row.place row.tag < 99
    match (annotated.map fun row => s.tier keyword row.place row.tag).min? with
    | some bestTier => (annotated.filter fun row => s.tier keyword row.place row.tag == bestTier, rankOf s keyword)
    | none => (c.placeRows.filter fun row => s.isSimilar keyword row.place, fun _ => (0, 0))

def getPlaceList (keyword sort order : String) (tags : List Int) (userId : Option Int) : List PlaceRow :=
  let (rows, rank) := keywordRows s c keyword
  orderBy (listKey sort order) (c.groupRows userId rank (tags.foldl c.filterTag rows))

end
end TravelMaker
