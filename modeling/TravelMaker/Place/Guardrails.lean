import TravelMaker.Lib.Traverse
import TravelMaker.Place.AiBacklog

/-! What gets past the guard rails of `analyze_place`, and which answers break it.

A result keeps to the seeds whatever the model answers (`analyzePlace_guarded`). An answer
of an unexpected shape raises more than `AITaggingError`, and then the command stops
(`taggingContract_iff`). -/
namespace TravelMaker
open Lib (Double Txn)
open Lib.Traverse (bind_ok mapM_ok_iff mem_of_mapM exists_mapM_ok mapM_error)

variable {V : Type}

/-! ### Results -/

/-- Names of seeds of the type, each once. -/
def SeededEntry (entry : String × List String) : Prop :=
  entry.2.Nodup ∧ ∀ name ∈ entry.2, name ∈ (tagSeeds.lookup entry.1).getD []

/-- Food tags may be given to the place. -/
def Place.servesFood (place : Place) : Prop := place.isFood = true ∨ place.contentTypeId = festivalContentTypeId

/-- What `_filter_tags`, `_drop_non_food_tags`, `_ensure_min_style` and `_clamp_vector` promise together. -/
structure AiResult.Guarded (place : Place) (result : AiResult) : Prop where
  types : result.tags.map Prod.fst = aiTagTypes
  seeded : ∀ entry ∈ result.tags, SeededEntry entry
  styled : ∀ entry ∈ result.tags, entry.1 = travelStyleTagType → entry.2 ≠ []
  food : ¬ place.servesFood → ∀ entry ∈ result.tags, ∀ name ∈ entry.2, name ∉ foodTagNames
  six : result.styleVector.length = styleVectorDim
  unit : ∀ x ∈ result.styleVector, x.inUnit = true

theorem nodup_eraseDups {α : Type} [BEq α] [LawfulBEq α] (l : List α) : l.eraseDups.Nodup := by
  induction hn : l.length using Nat.strong_induction_on generalizing l with
  | _ n ih =>
    cases l with
    | nil => exact List.nodup_nil
    | cons a rest =>
      rw [List.eraseDups_cons, List.nodup_cons]
      refine ⟨fun h => ?_, ih _ ?_ _ rfl⟩
      · simpa using (List.mem_filter.mp (List.mem_eraseDups.mp h)).2
      · rw [← hn]
        exact Nat.lt_succ_of_le (List.length_filter_le _ _)

theorem filterNames_ok {candidates names : List String} {raw : Json} (h : filterNames candidates raw = .ok names) :
    names.Nodup ∧ ∀ name ∈ names, name ∈ candidates := by
  unfold filterNames at h
  split at h
  · obtain ⟨texts, -, h⟩ := bind_ok h
    obtain rfl := Except.ok.inj h
    exact ⟨(nodup_eraseDups texts).filter _, fun name hname => by simpa using (List.mem_filter.mp hname).2⟩
  · obtain rfl := Except.ok.inj h
    exact ⟨List.nodup_nil, fun name hname => (List.not_mem_nil hname).elim⟩

theorem filterTags_ok {raw : Json} {tags : List (String × List String)} (h : filterTags raw = .ok tags) :
    tags.map Prod.fst = aiTagTypes ∧ ∀ entry ∈ tags, SeededEntry entry := by
  have hsteps := mapM_ok_iff.mp h
  clear h
  generalize aiTagTypes = types at hsteps
  induction hsteps with
  | nil => exact ⟨rfl, fun entry hentry => (List.not_mem_nil hentry).elim⟩
  | @cons tagType entry types tags hentry hrest ih =>
    obtain ⟨names, hnames, h⟩ := bind_ok hentry
    obtain rfl := Except.ok.inj h
    exact ⟨congrArg (tagType :: ·) ih.1, List.forall_mem_cons.mpr ⟨filterNames_ok hnames, ih.2⟩⟩

theorem clampVector_ok {raw : Json} {vector : List Double} (h : clampVector raw = .ok vector) :
    vector.length = styleVectorDim ∧ ∀ x ∈ vector, x.inUnit = true := by
  unfold clampVector at h
  split at h
  · rename_i values
    split at h
    · rename_i hlength
      refine ⟨(mapM_ok_iff.mp h).length_eq ▸ hlength, fun x hx => ?_⟩
      obtain ⟨value, -, hstep⟩ := mem_of_mapM h hx
      obtain ⟨y, -, hstep⟩ := bind_ok hstep
      obtain rfl := Except.ok.inj hstep
      exact y.inUnit_round_clampUnit 2
    · cases h
  · cases h

/-! ### Fallbacks -/

theorem lookup_mem {α β : Type} [BEq α] [LawfulBEq α] {k : α} {v : β} {l : List (α × β)} (h : l.lookup k = some v) :
    (k, v) ∈ l := by
  obtain ⟨before, after, rfl, -⟩ := List.lookup_eq_some_iff.mp h
  simp

/-- Where the fallback of a place comes from. -/
theorem fallbackStyle_cases (place : Place) :
    (place.contentTypeId, fallbackStyle place) ∈ styleByContentType ∨
      (place.lclsSystm1.getD "", fallbackStyle place) ∈ styleByLcls1 ∨
      fallbackStyle place ∈ ["해변", "산악", defaultStyle] := by
  unfold fallbackStyle
  split
  · split <;> simp
  · cases htype : styleByContentType.lookup place.contentTypeId with
    | some style => exact .inl (lookup_mem htype)
    | none =>
      cases hlcls : styleByLcls1.lookup (place.lclsSystm1.getD "") with
      | some style => exact .inr (.inl (lookup_mem hlcls))
      | none => simp

/-- The fallback is a seed, and it is food only for a place of food. -/
theorem fallbackStyle_seeded (place : Place) :
    fallbackStyle place ∈ (tagSeeds.lookup travelStyleTagType).getD [] ∧
      (fallbackStyle place ∈ foodTagNames → place.isFood = true) := by
  have htypes : ∀ entry ∈ styleByContentType, entry.2 ∈ (tagSeeds.lookup travelStyleTagType).getD [] ∧
      (entry.2 ∈ foodTagNames → entry.1 = foodContentTypeId) := by decide
  have hlcls : ∀ entry ∈ styleByLcls1, entry.2 ∈ (tagSeeds.lookup travelStyleTagType).getD [] ∧
      (entry.2 ∈ foodTagNames → entry.1 = foodLcls1Code) := by decide
  have hothers : ∀ style ∈ ["해변", "산악", defaultStyle], style ∈ (tagSeeds.lookup travelStyleTagType).getD [] ∧
      style ∉ foodTagNames := by decide
  rcases fallbackStyle_cases place with h | h | h
  · refine ⟨(htypes _ h).1, fun hfood => ?_⟩
    have htype : place.contentTypeId = foodContentTypeId := (htypes _ h).2 hfood
    simp [Place.isFood, htype]
  · refine ⟨(hlcls _ h).1, fun hfood => ?_⟩
    have hcode := (hlcls _ h).2 hfood
    cases hplace : place.lclsSystm1 with
    | none =>
      rw [hplace] at hcode
      exact ((by decide : "" ≠ foodLcls1Code) hcode).elim
    | some code =>
      rw [hplace] at hcode
      simp [Place.isFood, hplace, show code = foodLcls1Code from hcode]
  · exact ⟨(hothers _ h).1, fun hfood => ((hothers _ h).2 hfood).elim⟩

/-! ### The guard rails in a row -/

section
variable {place : Place} {tags : List (String × List String)}

theorem dropNonFoodTags_types : (dropNonFoodTags place tags).map Prod.fst = tags.map Prod.fst := by
  unfold dropNonFoodTags
  split
  · rfl
  · rw [List.map_map]
    rfl

theorem dropNonFoodTags_seeded (h : ∀ entry ∈ tags, SeededEntry entry) : ∀ entry ∈ dropNonFoodTags place tags, SeededEntry entry := by
  unfold dropNonFoodTags
  split
  · exact h
  · intro entry hentry
    obtain ⟨given, hgiven, rfl⟩ := List.mem_map.mp hentry
    exact ⟨(h given hgiven).1.filter _, fun name hname => (h given hgiven).2 name (List.mem_filter.mp hname).1⟩

theorem dropNonFoodTags_food (hplace : ¬ place.servesFood) :
    ∀ entry ∈ dropNonFoodTags place tags, ∀ name ∈ entry.2, name ∉ foodTagNames := by
  intro entry hentry name hname
  have hdrop : ¬ (place.isFood || place.contentTypeId == festivalContentTypeId) = true := by
    simpa [Place.servesFood] using hplace
  rw [dropNonFoodTags, if_neg hdrop] at hentry
  obtain ⟨entry, -, rfl⟩ := List.mem_map.mp hentry
  simpa using (List.mem_filter.mp hname).2

/-- An entry is as it was, or it is the fallback. -/
theorem mem_ensureMinStyle {entry : String × List String} (h : entry ∈ ensureMinStyle place tags) :
    entry ∈ tags ∧ (entry.1 = travelStyleTagType → entry.2 ≠ []) ∨ entry = (travelStyleTagType, [fallbackStyle place]) := by
  obtain ⟨⟨tagType, names⟩, hmem, rfl⟩ := List.mem_map.mp h
  dsimp only
  split
  · rename_i hempty
    exact .inr (by rw [hempty.1])
  · rename_i hkept
    exact .inl ⟨hmem, fun htype hnames => hkept ⟨htype, hnames⟩⟩

theorem ensureMinStyle_types : (ensureMinStyle place tags).map Prod.fst = tags.map Prod.fst := by
  unfold ensureMinStyle
  rw [List.map_map]
  refine List.map_congr_left fun entry _ => ?_
  dsimp only [Function.comp]
  split <;> rfl

end

theorem analyzePlace_ok {provider : Place → ModelReply} {place : Place} {result : AiResult}
    (h : analyzePlace provider place = .ok (some result)) : ∃ raw tags, filterTags raw = .ok tags ∧
      result.tags = ensureMinStyle place (dropNonFoodTags place tags) ∧ ∃ raw, clampVector raw = .ok result.styleVector := by
  unfold analyzePlace at h
  split at h
  · cases h
  · obtain ⟨data, -, h⟩ := bind_ok h
    obtain ⟨raw, -, h⟩ := bind_ok h
    obtain ⟨tags, htags, h⟩ := bind_ok h
    obtain ⟨raw', -, h⟩ := bind_ok h
    obtain ⟨vector, hvector, h⟩ := bind_ok h
    obtain rfl := Option.some.inj (Except.ok.inj h)
    exact ⟨raw, tags, htags, rfl, raw', hvector⟩

/-- **Whatever the model answers, a result keeps to the guard rails.** -/
theorem analyzePlace_guarded {provider : Place → ModelReply} {place : Place} {result : AiResult}
    (h : analyzePlace provider place = .ok (some result)) : result.Guarded place := by
  obtain ⟨raw, tags, htags, hresult, raw', hvector⟩ := analyzePlace_ok h
  obtain ⟨htypes, hseeded⟩ := filterTags_ok htags
  obtain ⟨hsix, hunit⟩ := clampVector_ok hvector
  have hfallback := fallbackStyle_seeded place
  refine ⟨?_, fun entry hentry => ?_, fun entry hentry => ?_, fun hplace entry hentry => ?_, hsix, hunit⟩
  · rw [hresult, ensureMinStyle_types, dropNonFoodTags_types, htypes]
  · rw [hresult] at hentry
    rcases mem_ensureMinStyle hentry with ⟨hmem, -⟩ | rfl
    · exact dropNonFoodTags_seeded hseeded entry hmem
    · exact ⟨List.nodup_singleton _, List.forall_mem_singleton.mpr hfallback.1⟩
  · rw [hresult] at hentry
    rcases mem_ensureMinStyle hentry with ⟨-, hstyled⟩ | rfl
    · exact hstyled
    · exact fun _ => List.cons_ne_nil _ _
  · rw [hresult] at hentry
    rcases mem_ensureMinStyle hentry with ⟨hmem, -⟩ | rfl
    · exact dropNonFoodTags_food hplace entry hmem
    · exact List.forall_mem_singleton.mpr fun hfood => hplace (.inl (hfallback.2 hfood))

def beachPlace : Place :=
  {id := 1, contentId := 1006, contentTypeId := 12, lclsSystm1 := some "NA", lclsSystm2 := some "NA02",
    description := some "해수욕장"}

/-- Food for a beach, a name twice, a name that is no seed, and numbers of all kinds. -/
def beachReply : ModelReply :=
  .json (.object [
    ("tags", .object [
      ("여행 스타일", .array [.str "미식"]),
      ("동행", .array [.str "가족", .str "외계인", .str "가족"])]),
    ("style_vector", .array [.scalar (.float .nan), .scalar (.float (.infinity false)), .str "0.683",
      .scalar (.bool true), .scalar (.int 7), .scalar (.float (.finite "-0.5" 0))])])

theorem analyzePlace_guarded_beach : ∃ result : AiResult,
    analyzePlace (fun _ => beachReply) beachPlace = .ok (some result) ∧ result.Guarded beachPlace := by
  have hanswered : beachPlace.answered (fun _ => beachReply) = true := by decide +kernel
  unfold Place.answered at hanswered
  split at hanswered
  · rename_i result hresult
    exact ⟨result, hresult, analyzePlace_guarded hresult⟩
  · cases hanswered

/-! ### Answers that are read -/

namespace Json

/-- `dict.fromkeys(value or [])` raises nothing. -/
def isNames (value : Json) : Bool :=
  match value with
  | .array items => items.all (·.hashable)
  | .object _ | .scalar (.str _) => true
  | .scalar _ => !value.truthy

/-- `float(value)` raises nothing. -/
def isNumber : Json → Bool
  | .scalar (.bool _) => true
  | .scalar (.int n) => (Double.ofInt? n).isSome
  | .scalar (.float (.infinity _)) | .scalar (.float .nan) => true
  | .scalar (.float (.finite text _)) | .scalar (.str text) => (Double.ofText? text).isSome
  | _ => false

/-- An object with names under the tag types and, if `style_vector` has six entries, numbers there. -/
def IsAnswer (data : Json) : Prop :=
  data.isObject = true ∧ (∀ tagType ∈ aiTagTypes, ((data.field "tags").field tagType).isNames = true) ∧
    ∀ values, data.field "style_vector" = .array values → values.length = styleVectorDim →
      ∀ value ∈ values, value.isNumber = true

end Json

/-- The provider's answer for the place is one the pipeline can read or knows how to refuse. -/
def Place.answerable (provider : Place → ModelReply) (place : Place) : Prop :=
  Lib.Text.strip (place.description.getD "") = "" ∨
    (match provider place with
      | .apiError | .blank | .notJson => True
      | .json data => data.IsAnswer
      | .raised e => e = aiTaggingError)

/-! ### Exceptions -/

/-- The exception, if there is one, is an `AITaggingError`. -/
def OnlyTagging {α : Type} (x : Except Exc α) : Prop := ∀ e, x = .error e → e = aiTaggingError

/-- After steps that never raise an `AITaggingError` themselves. -/
theorem onlyTagging_bind {α β : Type} {x : Except Exc α} {f : α → Except Exc β} (hx : x ≠ .error aiTaggingError) :
    OnlyTagging (x >>= f) ↔ ∃ a, x = .ok a ∧ OnlyTagging (f a) := by
  cases x with
  | error e =>
    have he : e ≠ aiTaggingError := fun heq => hx (congrArg Except.error heq)
    refine ⟨fun h => (he (h e rfl)).elim, fun h => ?_⟩
    obtain ⟨a, ha, -⟩ := h
    cases ha
  | ok a =>
    refine ⟨fun h => ⟨a, rfl, h⟩, fun h => ?_⟩
    obtain ⟨b, hb, h⟩ := h
    rw [Except.ok.inj hb]
    exact h

/-- The value is there where the check says so; no exception is an `AITaggingError`. -/
def Read {α : Type} (check : Bool) (x : Except Exc α) : Prop :=
  (check = true ∧ ∃ a, x = .ok a) ∨ (check = false ∧ ∃ e, x = .error e ∧ e ≠ aiTaggingError)

section
variable {α β : Type} {check : Bool} {x : Except Exc α}

theorem Read.error_ne (h : Read check x) : x ≠ .error aiTaggingError := by
  rcases h with ⟨-, a, rfl⟩ | ⟨-, e, rfl, he⟩
  · exact fun h => by cases h
  · exact fun h => he (Except.error.inj h)

theorem Read.ok_iff (h : Read check x) : (∃ a, x = .ok a) ↔ check = true := by
  rcases h with ⟨hcheck, a, rfl⟩ | ⟨hcheck, e, rfl, -⟩
  · simp [hcheck]
  · simp [hcheck]

/-- What is computed from it. -/
theorem Read.map (h : Read check x) (f : α → β) : Read check (do return f (← x)) := by
  rcases h with ⟨hcheck, a, rfl⟩ | ⟨hcheck, e, rfl, he⟩
  · exact .inl ⟨hcheck, f a, rfl⟩
  · exact .inr ⟨hcheck, e, rfl, he⟩

theorem Read.onlyTagging (h : Read check x) : OnlyTagging x ↔ check = true := by
  rcases h with ⟨hcheck, a, rfl⟩ | ⟨hcheck, e, rfl, he⟩
  · exact iff_of_true (fun e h => by cases h) hcheck
  · exact iff_of_false (fun h => he (h e rfl)) (by simp [hcheck])

theorem read_option {y : Option α} {e : Exc} (he : e ≠ aiTaggingError) :
    Read y.isSome (y.elim (.error e) (.ok : α → Except Exc α)) := by
  cases y with
  | none => exact .inr ⟨rfl, e, rfl, he⟩
  | some a => exact .inl ⟨rfl, a, rfl⟩

theorem Read.mapM {check : α → Bool} {f : α → Except Exc β} (h : ∀ a, Read (check a) (f a)) (xs : List α) :
    Read (xs.all check) (xs.mapM f) := by
  cases hxs : xs.mapM f with
  | ok ys =>
    have hall := exists_mapM_ok.mp ⟨ys, hxs⟩
    exact .inl ⟨List.all_eq_true.mpr fun a ha => (h a).ok_iff.mp (hall a ha), ys, rfl⟩
  | error e =>
    obtain ⟨a, ha, hstep⟩ := mapM_error hxs
    refine .inr ⟨List.all_eq_false.mpr ⟨a, ha, fun hcheck => ?_⟩, e, rfl, fun he => (h a).error_ne (he ▸ hstep)⟩
    obtain ⟨b, hb⟩ := (h a).ok_iff.mpr hcheck
    rw [hstep] at hb
    cases hb

end

/-! ### What can be read -/

theorem typeError_ne : Exc.typeError ≠ aiTaggingError := by decide
theorem overflowError_ne : Exc.overflowError ≠ aiTaggingError := by decide
theorem attributeError_ne : attributeError ≠ aiTaggingError := by decide

theorem valueError_ne (message : String) : Exc.valueError message ≠ aiTaggingError := by
  intro h
  cases h

theorem isSome_ofInt? {n : ℤ} (h : n.natAbs ≤ 1) : (Double.ofInt? n).isSome = true := by
  have hle : Lib.nearest (n.natAbs : ℚ) ≤ 1 := Lib.nearest_le_one (by exact_mod_cast h)
  unfold Double.ofInt? Double.ofRat
  rw [dif_pos (lt_of_le_of_lt hle (one_lt_pow₀ one_lt_two (by decide)))]
  rfl

theorem read_toFloat (value : Json) : Read value.isNumber value.toFloat := by
  rcases value with value | items | fields
  · rcases value with _ | b | n | f | text
    · exact .inr ⟨rfl, _, rfl, typeError_ne⟩
    · have hsmall : (Double.ofInt? (if b then 1 else 0)).isSome = true := by
        cases b <;> exact isSome_ofInt? (by decide)
      have hread := read_option (y := Double.ofInt? (if b then 1 else 0)) overflowError_ne
      rw [hsmall] at hread
      exact hread
    · exact read_option overflowError_ne
    · rcases f with ⟨text, trunc⟩ | negative | _
      · exact read_option (valueError_ne _)
      · exact .inl ⟨rfl, _, rfl⟩
      · exact .inl ⟨rfl, _, rfl⟩
    · exact read_option (valueError_ne _)
  · exact .inr ⟨rfl, _, rfl, typeError_ne⟩
  · exact .inr ⟨rfl, _, rfl, typeError_ne⟩

theorem read_texts {names : Json} (h : names.truthy = true) : Read names.isNames names.texts := by
  rcases names with value | items | fields
  · rcases value with _ | b | n | f | text
    · cases h
    · exact .inr ⟨by simpa [Json.isNames] using h, _, rfl, typeError_ne⟩
    · exact .inr ⟨by simpa [Json.isNames] using h, _, rfl, typeError_ne⟩
    · exact .inr ⟨by simpa [Json.isNames] using h, _, rfl, typeError_ne⟩
    · exact .inl ⟨rfl, _, rfl⟩
  · cases hall : items.all (·.hashable) with
    | true => exact .inl ⟨hall, _, if_pos hall⟩
    | false => exact .inr ⟨hall, _, if_neg (by simp [hall]), typeError_ne⟩
  · exact .inl ⟨rfl, _, rfl⟩

theorem isNames_of_falsy {names : Json} (h : ¬ names.truthy = true) : names.isNames = true := by
  rcases names with value | items | fields
  · cases value with
    | str text => rfl
    | _ => simpa only [Json.isNames, Bool.not_eq_true, Bool.not_eq_eq_eq_not, Bool.not_true] using h
  · cases items with
    | nil => rfl
    | cons item items => exact (h rfl).elim
  · rfl

theorem read_filterNames (candidates : List String) (names : Json) : Read names.isNames (filterNames candidates names) := by
  unfold filterNames
  split
  · rename_i htruthy
    exact (read_texts htruthy).map _
  · rename_i hfalsy
    exact .inl ⟨isNames_of_falsy hfalsy, _, rfl⟩

theorem read_filterTags (raw : Json) :
    Read (aiTagTypes.all fun tagType => (raw.field tagType).isNames) (filterTags raw) :=
  Read.mapM (fun tagType => (read_filterNames _ (raw.field tagType)).map _) aiTagTypes

theorem read_getKey (data : Json) (key : String) : Read data.isObject (data.getKey key) := by
  unfold Json.getKey
  cases h : data.isObject
  · exact .inr ⟨rfl, _, rfl, attributeError_ne⟩
  · exact .inl ⟨rfl, _, rfl⟩

/-- Six values that are no numbers raise something else; any other shape is refused. -/
theorem onlyTagging_clampVector (raw : Json) : OnlyTagging (clampVector raw) ↔
    ∀ values, raw = .array values → values.length = styleVectorDim → ∀ value ∈ values, value.isNumber = true := by
  have hrefused : OnlyTagging (.error aiTaggingError : Except Exc (List Double)) := fun e h => (Except.error.inj h).symm
  rcases raw with value | values | fields
  · refine iff_of_true hrefused fun values h => ?_
    cases h
  · simp only [Json.array.injEq, forall_eq']
    unfold clampVector
    dsimp only
    split
    · rename_i hlength
      rw [(Read.mapM (fun value => (read_toFloat value).map fun x => x.clampUnit.round 2) values).onlyTagging,
        List.all_eq_true]
      exact ⟨fun h _ => h, fun h => h hlength⟩
    · rename_i hlength
      exact iff_of_true hrefused fun h => (hlength h).elim
  · refine iff_of_true hrefused fun values h => ?_
    cases h

theorem onlyTagging_map {α β : Type} {x : Except Exc α} (f : α → β) : OnlyTagging (do return f (← x)) ↔ OnlyTagging x := by
  cases x with
  | error e => exact ⟨fun h e' he => h e' (congrArg Except.error (Except.error.inj he)),
      fun h e' he => h e' (congrArg Except.error (Except.error.inj he))⟩
  | ok a => exact iff_of_true (fun e h => by cases h) (fun e h => by cases h)

/-- The answers that bring nothing but an `AITaggingError`. -/
theorem settled_iff {provider : Place → ModelReply} {place : Place} : place.settled provider ↔ place.answerable provider := by
  show OnlyTagging (analyzePlace provider place) ↔ _
  unfold analyzePlace Place.answerable
  split
  · rename_i hblank
    exact iff_of_true (fun e h => by cases h) (.inl hblank)
  · rename_i hblank
    rw [or_iff_right hblank]
    cases provider place with
    | apiError => exact iff_of_true (fun e h => (Except.error.inj h).symm) trivial
    | blank => exact iff_of_true (fun e h => (Except.error.inj h).symm) trivial
    | notJson => exact iff_of_true (fun e h => (Except.error.inj h).symm) trivial
    | raised e => exact ⟨fun h => h e rfl, fun h e' h' => (Except.error.inj h') ▸ h⟩
    | json data =>
      show OnlyTagging (data.getKey "tags" >>= _) ↔ data.IsAnswer
      rw [onlyTagging_bind (read_getKey data "tags").error_ne]
      by_cases hobject : data.isObject = true
      · have hget : ∀ key, data.getKey key = .ok (data.field key) := fun key => if_pos hobject
        have hvector : ∀ result : List Double → Option AiResult,
            OnlyTagging (data.getKey "style_vector" >>= fun raw => do return result (← clampVector raw)) ↔
              OnlyTagging (clampVector (data.field "style_vector")) := by
          intro result
          rw [hget]
          exact onlyTagging_map result
        rw [hget]
        simp only [Except.ok.injEq, exists_eq_left', onlyTagging_bind (read_filterTags _).error_ne, hvector,
          onlyTagging_clampVector, exists_and_right, (read_filterTags _).ok_iff, List.all_eq_true]
        exact ⟨fun h => ⟨hobject, h⟩, fun h => h.2⟩
      · have hget : ∀ key, data.getKey key = .error attributeError := fun key => if_neg hobject
        refine iff_of_false (fun h => ?_) fun h => hobject h.1
        obtain ⟨raw, hraw, -⟩ := h
        rw [hget] at hraw
        cases hraw

/-! ### The loop -/

/-- The outcome of one place, counted. -/
def AiTagSummary.count (summary : AiTagSummary) : Except Exc (Option AiResult) → AiTagSummary
  | .error _ => {summary with errors := summary.errors + 1}
  | .ok none => {summary with skipped := summary.skipped + 1}
  | .ok (some _) => {summary with processed := summary.processed + 1}

section
variable (provider : Place → ModelReply) (column : List Double → V)

/-- What the loop stores for one place. -/
def storeAnswer (dryRun : Bool) (place : Place) : Service V Unit :=
  match analyzePlace provider place with
  | .ok (some result) => if !dryRun then persistAiResult column place result else return ()
  | _ => return ()

/-- The error contract of `analyze_place`, and what the loop makes of an error. -/
structure TaggingContract (place : Place) : Prop where
  closed : place.settled provider
  held : analyzePlace provider place = .ok none → Lib.Text.strip (place.description.getD "") = ""
  counted : ∀ e, analyzePlace provider place = .error e → ∀ dryRun rest summary,
    aiTagLoop provider column dryRun (place :: rest) summary =
      aiTagLoop provider column dryRun rest {summary with errors := summary.errors + 1}

variable {provider column}

theorem analyzePlace_none {place : Place} (h : analyzePlace provider place = .ok none) :
    Lib.Text.strip (place.description.getD "") = "" := by
  unfold analyzePlace at h
  split at h
  · assumption
  · obtain ⟨data, -, h⟩ := bind_ok h
    obtain ⟨raw, -, h⟩ := bind_ok h
    obtain ⟨tags, -, h⟩ := bind_ok h
    obtain ⟨raw', -, h⟩ := bind_ok h
    obtain ⟨vector, -, h⟩ := bind_ok h
    cases h

/-- One place that is settled. -/
theorem aiTagLoop_cons {place : Place} (hplace : place.settled provider) (dryRun : Bool) (rest : List Place)
    (summary : AiTagSummary) : aiTagLoop provider column dryRun (place :: rest) summary =
      storeAnswer provider column dryRun place >>= fun _ =>
        aiTagLoop provider column dryRun rest (summary.count (analyzePlace provider place)) := by
  unfold storeAnswer
  rw [aiTagLoop]
  cases hanalyze : analyzePlace provider place with
  | error e =>
    dsimp only
    rw [if_pos (hplace e hanalyze)]
    rfl
  | ok result =>
    cases result with
    | none => rfl
    | some result => cases dryRun <;> rfl

/-- Settled places are worked off, each stored and counted in its turn. -/
theorem aiTagLoop_run {places : List Place} (hplaces : ∀ place ∈ places, place.settled provider) (dryRun : Bool)
    (summary : AiTagSummary) : aiTagLoop provider column dryRun places summary =
      places.forM (storeAnswer provider column dryRun) >>= fun _ =>
        return places.foldl (fun summary place => summary.count (analyzePlace provider place)) summary := by
  induction places generalizing summary with
  | nil => rfl
  | cons place rest ih =>
    rw [List.forall_mem_cons] at hplaces
    rw [aiTagLoop_cons hplaces.1, show (place :: rest).forM (storeAnswer provider column dryRun) =
      storeAnswer provider column dryRun place >>= fun _ => rest.forM (storeAnswer provider column dryRun) from rfl,
      bind_assoc, List.foldl_cons]
    exact congrArg _ (funext fun _ => ih hplaces.2 _)

end

/-- **The error contract holds for exactly the answers of the expected shapes**, and where
all places get such answers the loop goes through them all. -/
theorem taggingContract_iff (provider : Place → ModelReply) (column : List Double → V) :
    (∀ place, TaggingContract provider column place ↔ place.answerable provider) ∧
      ∀ dryRun places summary, (∀ place ∈ places, place.answerable provider) →
        aiTagLoop provider column dryRun places summary =
          places.forM (storeAnswer provider column dryRun) >>= fun _ =>
            return places.foldl (fun summary place => summary.count (analyzePlace provider place)) summary := by
  refine ⟨fun place => ⟨fun h => settled_iff.mp h.closed, fun h => ?_⟩, fun dryRun places summary h => ?_⟩
  · have hsettled := settled_iff.mpr h
    refine ⟨hsettled, analyzePlace_none, fun e hanalyze dryRun rest summary => ?_⟩
    rw [aiTagLoop_cons hsettled, storeAnswer, hanalyze]
    rfl
  · exact aiTagLoop_run (fun place hplace => settled_iff.mpr (h place hplace)) dryRun summary

/-- The answer `[]`. -/
theorem taggingContract_fails : ¬ ∀ (provider : Place → ModelReply) (place : Place),
    TaggingContract provider (fun vector : List Double => vector) place := by
  intro h
  have hclosed := (h (fun _ => .json (.array [])) {id := 1, contentId := 1006, contentTypeId := 14, description := some "전시관"}).closed
  exact attributeError_ne (hclosed attributeError (by decide +kernel))

end TravelMaker
