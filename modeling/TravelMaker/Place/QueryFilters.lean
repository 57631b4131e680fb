import TravelMaker.Lib.Numeral
import TravelMaker.Lib.Traverse
import TravelMaker.Place.TourApi
import TravelMaker.Share.Serializer

/-! Filters in the query string: the tags of `PlaceFilterView` and `PlaceRecommendView`, the
region and the themes of `get_routes`.

Parts that are no numbers are passed over, by `isdigit`, and the others go to `int`. The
`ValueError` of that is no error of the API: `filters_safe_iff` says for which query
strings there is none. -/
namespace TravelMaker
open Lib (Literal Readable isdigit)
open Lib.Traverse (mapM_ok_iff exists_mapM_ok mapM_error)

/-- The parameters of a request, in order. -/
abbrev QueryParams := List (String × String)

namespace QueryParams
variable (q : QueryParams) (key : String)

def getlist : List String := q.filterMap fun param => if param.1 = key then some param.2 else none

/-- The last value counts. -/
def get : Option String := (q.getlist key).getLast?

end QueryParams

/-! ### Parsing -/

/-- `int(text)`. -/
def pyInt (text : String) : Except Exc Int := (Scalar.str text).toInt

/-- The parts between commas that `part.strip().isdigit()` lets through. -/
def digitParts (raws : List String) : List String :=
  (raws.flatMap fun raw => (raw.toList.splitOn ',').map .ofList).filter fun part => isdigit (Lib.Text.strip part)

/-- `[int(part) for raw in raws for part in raw.split(",") if part.strip().isdigit()]`. -/
def parseIds (raws : List String) : Except Exc (List Int) := (digitParts raws).mapM pyInt

def PlaceFilterView.tagIds (q : QueryParams) : Except Exc (List Int) := parseIds (q.getlist "tags")

/-- The `ValidationError` of a field; its detail names the field. -/
def fieldRefused (name : String) : Exc := .api 400 name

/-- `RecommendQuerySerializer`: an `IntegerField` that may be missing, and is `None` where it is empty. -/
def RecommendQuerySerializer.regionTagId (q : QueryParams) : Except Exc (Option Int) :=
  match q.get "region_tag_id" with
  | none => .ok none
  | some text =>
    if text = "" then .ok none
    else if InputField.maxStringLength < text.length then .error (fieldRefused "region_tag_id")
    else
      match Lib.Text.int? (.ofList (InputField.dropDecimal text.toList)) with
      | some n => .ok (some n)
      | none => .error (fieldRefused "region_tag_id")

/-- The tags are read once the serializer has let the query through. No tags are `None` for the
services, which is the same to them as the empty list. -/
def PlaceRecommendView.tagIds (q : QueryParams) : Except Exc (List Int) := do
  let _ ← RecommendQuerySerializer.regionTagId q
  parseIds (q.getlist "tags")

namespace GetRoutes

def regionTagId (q : QueryParams) : Except Exc (Option Int) :=
  match q.get "region_tag_id" with
  | some text => if text ≠ "" then (pyInt text).map some else .ok none
  | none => .ok none

def themeTagIds (q : QueryParams) : Except Exc (List Int) := parseIds (q.getlist "theme_tag_ids")

/-- The filters of `get_routes`, in the order in which they are read. -/
def filters (q : QueryParams) : Except Exc (Option Int × List Int) := do
  let region ← regionTagId q
  let themes ← themeTagIds q
  return (region, themes)

end GetRoutes

example : PlaceFilterView.tagIds [("tags", "1,x, ３"), ("tags", "5")] = .ok [1, 3, 5] := by decide +kernel

/-! ### What is asked of it -/

/-- An error of the API with a status of 4xx. -/
def ClientError {α : Type} (x : Except Exc α) : Prop :=
  ∃ status detail, x = .error (.api status detail) ∧ 400 ≤ status ∧ status < 500

/-- The numbers that the parts of digits are. -/
def partNumbers (raws : List String) : List Int :=
  (digitParts raws).map fun part => (Lib.Decimal.digitsToNat (Lib.Text.strip part).toList : Int)

/-- The number that the region is, if it is one. -/
def RegionNumber (q : QueryParams) (region : Option Int) : Prop :=
  ∀ n, region = some n ↔ ∃ text, q.get "region_tag_id" = some text ∧ ∃ l : Literal, text.toList = l.text ∧ n = l.value

def TagsSafe (x : Except Exc (List Int)) (q : QueryParams) : Prop := x = .ok (partNumbers (q.getlist "tags")) ∨ ClientError x

def RoutesSafe (q : QueryParams) : Prop :=
  (∃ region, GetRoutes.filters q = .ok (region, partNumbers (q.getlist "theme_tag_ids")) ∧ RegionNumber q region) ∨
    ClientError (GetRoutes.filters q)

/-- The filters are the numbers of the query string, or the request is refused. -/
structure FiltersSafe (q : QueryParams) : Prop where
  filterView : TagsSafe (PlaceFilterView.tagIds q) q
  recommendView : TagsSafe (PlaceRecommendView.tagIds q) q
  routes : RoutesSafe q

/-- Every part that is let through is read. -/
def PartsReadable (raws : List String) : Prop := ∀ part ∈ digitParts raws, Readable part

/-- The region is missing, empty, or a whole number as `int` reads it. -/
def RegionReadable (q : QueryParams) : Prop :=
  ∀ text, q.get "region_tag_id" = some text → text = "" ∨ ∃ l : Literal, text.toList = l.text

/-- The region is missing, empty, or a whole number of at most 1000 characters, which may end in a
point and zeros. -/
def RegionAccepted (q : QueryParams) : Prop :=
  ∀ text, q.get "region_tag_id" = some text → text = "" ∨ text.length ≤ InputField.maxStringLength ∧
    ∃ l : Literal, InputField.dropDecimal text.toList = l.text

/-! ### Whole numbers -/

theorem pyInt_ok_iff {text : String} {n : Int} : pyInt text = .ok n ↔ Lib.Text.int? text = some n := by
  unfold pyInt Scalar.toInt
  dsimp only
  cases Lib.Text.int? text <;> simp

/-- Nothing is raised but the `ValueError` of `int`. -/
def IntFails {α : Type} (x : Except Exc α) : Prop := ∀ e, x = .error e → e = .valueError "invalid literal for int() with base 10"

section
variable {α β : Type}

theorem intFails_ok (a : α) : IntFails (.ok a) := by
  intro e h
  cases h

theorem IntFails.bind {x : Except Exc α} {f : α → Except Exc β} (hx : IntFails x) (hf : ∀ a, IntFails (f a)) :
    IntFails (x >>= f) := by
  intro e h
  cases x with
  | error e' => exact hx e (congrArg Except.error (Except.error.inj h))
  | ok a => exact hf a e h

theorem IntFails.map {x : Except Exc α} (hx : IntFails x) (f : α → β) : IntFails (x.map f) := by
  intro e h
  cases x with
  | error e' => exact hx e (congrArg Except.error (Except.error.inj h))
  | ok a => cases h

theorem IntFails.not_clientError {x : Except Exc α} (hx : IntFails x) : ¬ClientError x := by
  intro h
  obtain ⟨status, detail, herror, -⟩ := h
  cases hx _ herror

theorem intFails_pyInt (text : String) : IntFails (pyInt text) := by
  unfold pyInt Scalar.toInt
  dsimp only
  cases Lib.Text.int? text with
  | none => exact fun e h => (Except.error.inj h).symm
  | some n => exact intFails_ok n

theorem intFails_parseIds (raws : List String) : IntFails (parseIds raws) := by
  intro e h
  obtain ⟨part, -, hpart⟩ := mapM_error h
  exact intFails_pyInt part e hpart

end

theorem isdigit_of_mem {raws : List String} {part : String} (h : part ∈ digitParts raws) :
    isdigit (Lib.Text.strip part) = true := (List.mem_filter.mp h).2

/-- The numbers are returned where all the parts are read. -/
theorem parseIds_ok_iff {raws : List String} : parseIds raws = .ok (partNumbers raws) ↔ PartsReadable raws := by
  constructor
  · intro h part hpart
    obtain ⟨n, hn⟩ := exists_mapM_ok.mp ⟨_, h⟩ part hpart
    exact (Lib.readable_iff (isdigit_of_mem hpart)).mp ⟨n, pyInt_ok_iff.mp hn⟩
  · intro h
    apply mapM_ok_iff.mpr
    rw [partNumbers, List.forall₂_map_right_iff, List.forall₂_same]
    exact fun part hpart => pyInt_ok_iff.mpr (Lib.int?_of_readable (isdigit_of_mem hpart) (h part hpart))

theorem parseIds_safe_iff {raws : List String} :
    (parseIds raws = .ok (partNumbers raws) ∨ ClientError (parseIds raws)) ↔ PartsReadable raws := by
  rw [or_iff_left (intFails_parseIds raws).not_clientError, parseIds_ok_iff]

/-- The serializer returns, or the request is a 400. -/
theorem recommendRegion (q : QueryParams) :
    RegionAccepted q ∧ (∃ region, RecommendQuerySerializer.regionTagId q = .ok region) ∨
      ¬RegionAccepted q ∧ RecommendQuerySerializer.regionTagId q = .error (fieldRefused "region_tag_id") := by
  unfold RecommendQuerySerializer.regionTagId RegionAccepted
  cases q.get "region_tag_id" with
  | none => exact .inl ⟨fun text htext => (Option.some_ne_none text htext.symm).elim, none, rfl⟩
  | some text =>
    simp only [Option.some.injEq, forall_eq']
    by_cases hempty : text = ""
    · rw [if_pos hempty]
      exact .inl ⟨.inl hempty, none, rfl⟩
    rw [if_neg hempty]
    by_cases hlong : InputField.maxStringLength < text.length
    · rw [if_pos hlong]
      refine .inr ⟨?_, rfl⟩
      rintro (h | ⟨hshort, -⟩)
      · exact hempty h
      · omega
    rw [if_neg hlong]
    have hliteral : (∃ n, Lib.Text.int? (.ofList (InputField.dropDecimal text.toList)) = some n) ↔
        ∃ l : Literal, InputField.dropDecimal text.toList = l.text := by
      simp only [Lib.int?_eq_some_iff, String.toList_ofList]
      exact ⟨fun ⟨_, l, hl, _⟩ => ⟨l, hl⟩, fun ⟨l, hl⟩ => ⟨l.value, l, hl, rfl⟩⟩
    cases hread : Lib.Text.int? (.ofList (InputField.dropDecimal text.toList)) with
    | some n => exact .inl ⟨.inr ⟨by omega, hliteral.mp ⟨n, hread⟩⟩, some n, rfl⟩
    | none =>
      refine .inr ⟨?_, rfl⟩
      rintro (h | ⟨-, h⟩)
      · exact hempty h
      · obtain ⟨n, hn⟩ := hliteral.mpr h
        rw [hread] at hn
        cases hn

/-- The tags of the recommendations, once the query is let through. -/
theorem recommendTags_safe_iff {q : QueryParams} : TagsSafe (PlaceRecommendView.tagIds q) q ↔
    (RegionAccepted q → PartsReadable (q.getlist "tags")) := by
  rcases recommendRegion q with ⟨haccepted, region, hregion⟩ | ⟨hrefused, hregion⟩
  · have htags : PlaceRecommendView.tagIds q = parseIds (q.getlist "tags") := by
      rw [PlaceRecommendView.tagIds, hregion]
      rfl
    rw [TagsSafe, htags, parseIds_safe_iff]
    exact ⟨fun h _ => h, fun h => h haccepted⟩
  · have htags : PlaceRecommendView.tagIds q = .error (fieldRefused "region_tag_id") := by
      rw [PlaceRecommendView.tagIds, hregion]
      rfl
    refine iff_of_true (.inr ⟨400, "region_tag_id", htags, ?_, ?_⟩) fun h => absurd h hrefused
    · decide
    · decide

/-! ### The region and the themes -/

namespace GetRoutes
variable {q : QueryParams}

theorem intFails_regionTagId (q : QueryParams) : IntFails (regionTagId q) := by
  unfold regionTagId
  split
  · split
    · exact (intFails_pyInt _).map some
    · exact intFails_ok none
  · exact intFails_ok none

theorem intFails_filters (q : QueryParams) : IntFails (filters q) := by
  apply (intFails_regionTagId q).bind
  intro region
  apply (intFails_parseIds _).bind
  exact fun themes => intFails_ok _

theorem regionNumber_iff {region : Option Int} : RegionNumber q region ↔ region = (q.get "region_tag_id").bind Lib.Text.int? := by
  have hnumber : ∀ n, (q.get "region_tag_id").bind Lib.Text.int? = some n ↔
      ∃ text, q.get "region_tag_id" = some text ∧ ∃ l : Literal, text.toList = l.text ∧ n = l.value := by
    intro n
    simp only [Option.bind_eq_some_iff, Lib.int?_eq_some_iff]
  unfold RegionNumber
  simp only [← hnumber]
  exact Option.ext_iff.symm

theorem regionReadable_iff : RegionReadable q ↔
    ∀ text, q.get "region_tag_id" = some text → text = "" ∨ ∃ n, Lib.Text.int? text = some n := by
  have hliteral : ∀ text, (∃ n, Lib.Text.int? text = some n) ↔ ∃ l : Literal, text.toList = l.text := by
    intro text
    simp only [Lib.int?_eq_some_iff]
    constructor
    · intro h
      obtain ⟨_, l, hl, -⟩ := h
      exact ⟨l, hl⟩
    · intro h
      obtain ⟨l, hl⟩ := h
      exact ⟨l.value, l, hl, rfl⟩
  simp only [hliteral]
  rfl

/-- The region is returned as the number that it is. -/
theorem regionTagId_ok {region : Option Int} (h : regionTagId q = .ok region) : RegionReadable q ∧ RegionNumber q region := by
  rw [regionReadable_iff, regionNumber_iff]
  unfold regionTagId at h
  cases hget : q.get "region_tag_id" with
  | none =>
    rw [hget] at h
    exact ⟨fun text htext => (Option.some_ne_none text htext.symm).elim, (Except.ok.inj h).symm⟩
  | some text =>
    rw [hget] at h
    dsimp only at h
    have hnumber : (text = "" ∨ ∃ n, Lib.Text.int? text = some n) ∧ region = Lib.Text.int? text := by
      split at h
      · cases hread : pyInt text with
        | error e =>
          rw [hread] at h
          cases h
        | ok n =>
          rw [hread] at h
          have hint := pyInt_ok_iff.mp hread
          rw [hint]
          exact ⟨.inr ⟨n, rfl⟩, (Except.ok.inj h).symm⟩
      · rename_i hempty
        obtain rfl := not_not.mp hempty
        exact ⟨.inl rfl, (Except.ok.inj h).symm⟩
    exact ⟨fun found hfound => Option.some.inj hfound ▸ hnumber.1, hnumber.2⟩

theorem exists_regionTagId (h : RegionReadable q) : ∃ region, regionTagId q = .ok region := by
  unfold regionTagId
  cases hget : q.get "region_tag_id" with
  | none => exact ⟨none, rfl⟩
  | some text =>
    dsimp only
    split
    · rename_i hne
      obtain ⟨n, hn⟩ := (regionReadable_iff.mp h text hget).resolve_left hne
      rw [pyInt_ok_iff.mpr hn]
      exact ⟨some n, rfl⟩
    · exact ⟨none, rfl⟩

theorem filters_ok_iff {region : Option Int} {themes : List Int} :
    filters q = .ok (region, themes) ↔ regionTagId q = .ok region ∧ themeTagIds q = .ok themes := by
  unfold filters
  cases regionTagId q <;> cases themeTagIds q <;> simp [bind, Except.bind, pure, Except.pure]

theorem routesSafe_iff : RoutesSafe q ↔ RegionReadable q ∧ PartsReadable (q.getlist "theme_tag_ids") := by
  unfold RoutesSafe
  rw [or_iff_left (intFails_filters q).not_clientError]
  simp only [filters_ok_iff]
  constructor
  · intro h
    obtain ⟨region, ⟨hregion, hthemes⟩, -⟩ := h
    exact ⟨(regionTagId_ok hregion).1, parseIds_ok_iff.mp hthemes⟩
  · intro h
    obtain ⟨region, hregion⟩ := exists_regionTagId h.1
    exact ⟨region, ⟨hregion, parseIds_ok_iff.mpr h.2⟩, (regionTagId_ok hregion).2⟩

end GetRoutes

/-- **Filters.** The filters are safe for exactly the query strings whose parts of digits, and
whose region, `int` reads; the recommendations read no tags beside a region that is refused. -/
theorem filters_safe_iff (q : QueryParams) :
    (TagsSafe (PlaceFilterView.tagIds q) q ↔ PartsReadable (q.getlist "tags")) ∧
      (TagsSafe (PlaceRecommendView.tagIds q) q ↔ (RegionAccepted q → PartsReadable (q.getlist "tags"))) ∧
      (RoutesSafe q ↔ RegionReadable q ∧ PartsReadable (q.getlist "theme_tag_ids")) ∧
      (FiltersSafe q ↔ PartsReadable (q.getlist "tags") ∧ RegionReadable q ∧ PartsReadable (q.getlist "theme_tag_ids")) := by
  have hfilter : TagsSafe (PlaceFilterView.tagIds q) q ↔ PartsReadable (q.getlist "tags") := parseIds_safe_iff
  refine ⟨hfilter, recommendTags_safe_iff, GetRoutes.routesSafe_iff, ?_⟩
  constructor
  · intro h
    exact ⟨hfilter.mp h.filterView, GetRoutes.routesSafe_iff.mp h.routes⟩
  · intro h
    exact ⟨hfilter.mpr h.1, recommendTags_safe_iff.mpr fun _ => h.1, GetRoutes.routesSafe_iff.mpr h.2⟩

/-- A superscript passes the test for digits, and a region is not tested. -/
theorem superscript_unsafe : ¬FiltersSafe [("tags", "²")] ∧ ¬FiltersSafe [("region_tag_id", "abc")] := by
  constructor
  · intro h
    have herror : PlaceFilterView.tagIds [("tags", "²")] = .error (.valueError "invalid literal for int() with base 10") := by
      decide +kernel
    rcases h.filterView with hok | ⟨status, detail, hclient, -⟩
    · rw [herror] at hok
      cases hok
    · rw [herror] at hclient
      cases hclient
  · intro h
    have herror : GetRoutes.filters [("region_tag_id", "abc")] =
        .error (.valueError "invalid literal for int() with base 10") := by decide +kernel
    rcases h.routes with ⟨region, hok, -⟩ | ⟨status, detail, hclient, -⟩
    · rw [herror] at hok
      cases hok
    · rw [herror] at hclient
      cases hclient

end TravelMaker
