import TravelMaker.Lib.Delimited
import TravelMaker.Lib.DoubleRoundTrip
import TravelMaker.Lib.Query
import TravelMaker.Share.Serializer

/-! Share links: `generate_share_url`, and what a quiz link opens as.

The link is written without escaping, and opened by a serializer of its own. `share_link_iff`
says for which type keys and vectors what is opened is what was shared. -/
namespace TravelMaker
open Lib (Double Txn)
open Lib.Query (decodePart)

variable {V : Type}

/-! ### Making a link -/

/-- `ContentNotFound`. -/
def contentNotFound (detail : String) : Exc := .api 404 detail

/-- What a link takes of a `UserTestResult`: the key of its travel type, and its vector. -/
structure SharedResult where
  typeKey : String
  resultVector : List Double

/-- `",".join(str(round(v, 6)) for v in vector)`. -/
def vectorText (vector : List Double) : String :=
  .ofList (List.intercalate [','] (vector.map fun v => (v.round 6).text.toList))

def quizUrl (frontendUrl typeKey : String) (vector : List Double) : String :=
  frontendUrl ++ "/quiz/result?type_key=" ++ typeKey ++ "&vector=" ++ vectorText vector

section
variable (frontendUrl : String) (testResult? : Int → Option SharedResult)

/-- `_place_share_url`. -/
def placeShareUrl (placeId : Option Int) : Service V String := do
  let d ← Txn.read
  Txn.orRaise (d.places.any (fun place => some place.id == placeId && place.isActive) = true)
    (contentNotFound "장소를 찾을 수 없습니다.")
  return frontendUrl ++ "/place/" ++ (placeId.map toString).getD "None"

/-- `_route_share_url`. -/
def routeShareUrl (routeId : Option Int) : Service V String := do
  let d ← Txn.read
  Txn.orRaise (d.routes.any (fun route => some route.id == routeId) = true) (contentNotFound "경로를 찾을 수 없습니다.")
  return frontendUrl ++ "/route/" ++ (routeId.map toString).getD "None"

/-- `_travel_quiz_share_url`: the stored result of a user, or what the request has. -/
def travelQuizShareUrl (userId : Option Int) (typeKey : Option String) (vector : Option (List Double)) :
    Service V String :=
  match userId with
  | some userId =>
    match testResult? userId with
    | some result => return quizUrl frontendUrl result.typeKey result.resultVector
    | none => .raise (contentNotFound "해당 유저의 테스트 결과를 찾을 수 없습니다.")
  | none =>
    match vector with
    | some vector => return quizUrl frontendUrl (typeKey.getD "None") vector
    | none => .raise .typeError

def generateShareUrl (attrs : ShareAttrs) : Service V String :=
  if attrs.contentType = "place" then placeShareUrl frontendUrl attrs.contentId
  else if attrs.contentType = "route" then routeShareUrl frontendUrl attrs.contentId
  else travelQuizShareUrl frontendUrl testResult? attrs.contentId attrs.typeKey attrs.vector

end

/-! ### Opening it -/

/-- The query parameters of a URL; of a name that comes twice the last value counts. -/
def queryParams (url : String) : List (String × Json) :=
  (Lib.Query.parse (Lib.Query.ofUrl url.toList)).reverse.map fun (name, value) => (.ofList name, .str (.ofList value))

/-- `SharedQuizResultView.get`, as far as the serializer. -/
def openLink (url : String) : Except Refused (String × List Double) :=
  SharedQuizRequestSerializer.run (queryParams url)

/-- The link of the attributes opens as the type key and the rounded vector. -/
def LinkDecodes (frontendUrl : String) (testResult? : Int → Option SharedResult) (attrs : ShareAttrs) (d : Db V) (n : Nat) :
    Prop :=
  ∃ url typeKey vector, (generateShareUrl frontendUrl testResult? attrs).eval d n = .ok (url, d, n) ∧
    attrs.typeKey = some typeKey ∧ attrs.vector = some vector ∧
    openLink url = .ok (typeKey, vector.map (·.round 6))

/-- The type key is short enough for the other end, and no part of it means something else in a query. -/
def Sendable (typeKey : String) : Prop :=
  typeKey.length ≤ 3 ∧ (∀ c ∈ typeKey.toList, c ∉ ['&', '+', '#', '\t', '\n', '\r']) ∧
    Lib.Query.hasEscape typeKey.toList = false

/-! ### The characters of a vector -/

theorem mem_vectorText {vector : List Double} {c : Char} (hc : c ∈ (vectorText vector).toList) :
    (∃ v ∈ vector, c ∈ (v.round 6).text.toList) ∨ c = ',' := by
  rw [vectorText, String.toList_ofList] at hc
  obtain ⟨text, htext, hc⟩ | hc := Lib.Delimited.mem_intercalate hc
  · obtain ⟨v, hv, rfl⟩ := List.mem_map.mp htext
    exact .inl ⟨v, hv, hc⟩
  · exact .inr hc

/-- None of these is in the text of a vector. -/
theorem not_mem_vectorText {vector : List Double} {c : Char} (hc : Double.isNumeric c = false) (hcomma : c ≠ ',') :
    c ∉ (vectorText vector).toList := by
  intro hmem
  obtain ⟨v, -, h⟩ | h := mem_vectorText hmem
  · have hnumeric := Double.isNumeric_text _ c h
    rw [hc] at hnumeric
    cases hnumeric
  · exact hcomma h

theorem isSpace_vectorText (vector : List Double) : ∀ c ∈ (vectorText vector).toList, Lib.Text.isSpace c = false := by
  intro c hc
  by_contra hspace
  rw [Bool.not_eq_false] at hspace
  refine not_mem_vectorText (Double.isNumeric_of_isSpace hspace) ?_ hc
  rintro rfl
  exact absurd hspace (by decide)

theorem cleaned_vectorText (vector : List Double) :
    Lib.Query.cleaned (vectorText vector).toList = (vectorText vector).toList := by
  refine (Lib.Query.cleaned_eq_self_iff _).mpr fun c hc hmem => ?_
  have hspace := isSpace_vectorText vector c hc
  simp only [List.mem_cons, List.not_mem_nil, or_false] at hmem
  obtain rfl | rfl | rfl := hmem <;> exact absurd hspace (by decide)

theorem plus_not_mem_vectorText {vector : List Double} (hvector : ∀ v ∈ vector, (v.round 6).inUnit = true) :
    '+' ∉ (vectorText vector).toList := by
  intro hmem
  obtain ⟨v, hv, h⟩ | h := mem_vectorText hmem
  · exact Double.plus_not_mem_text (hvector v hv) h
  · exact absurd h (by decide)

/-- A text without a percent sign has no escape. -/
theorem hasEscape_of_not_mem {s : List Char} (h : '%' ∉ s) : Lib.Query.hasEscape s = false := by
  fun_induction Lib.Query.hasEscape s with
  | case1 a b rest ih => exact absurd List.mem_cons_self h
  | case2 c rest _ ih => exact ih fun hmem => h (List.mem_cons_of_mem _ hmem)
  | case3 => rfl

/-! ### The query of a link -/

section
variable {frontendUrl typeKey : String} {vector : List Double}
  (hfrontend : '?' ∉ frontendUrl.toList ∧ '#' ∉ frontendUrl.toList)

theorem quizUrl_toList : (quizUrl frontendUrl typeKey vector).toList =
    (frontendUrl.toList ++ "/quiz/result".toList) ++ '?' :: ("type_key".toList ++ '=' :: (typeKey.toList ++
      '&' :: ("vector".toList ++ '=' :: (vectorText vector).toList))) := by
  simp [quizUrl]

/-- Nothing of a vector is a fragment. -/
theorem takeWhile_pairs {key : List Char} (hkey : '#' ∉ key) :
    (key ++ '&' :: ("vector".toList ++ '=' :: (vectorText vector).toList)).takeWhile (· != '#') =
      key ++ '&' :: ("vector".toList ++ '=' :: (vectorText vector).toList) := by
  refine List.takeWhile_eq_self_iff.mpr fun c hc => ?_
  rw [bne_iff_ne]
  rintro rfl
  rcases List.mem_append.mp hc with hc | hc
  · exact hkey hc
  · rw [List.mem_cons, List.mem_append, List.mem_cons] at hc
    obtain hc | hc | hc | hc := hc
    · exact absurd hc (by decide)
    · exact absurd hc (by decide)
    · exact absurd hc (by decide)
    · exact not_mem_vectorText (by decide) (by decide) hc

/-- The vector is a pair of its own. -/
theorem parse_pairs (key : List Char) :
    Lib.Query.parse ("type_key".toList ++ '=' :: (key ++ '&' :: ("vector".toList ++ '=' :: (vectorText vector).toList))) =
      Lib.Query.parse ("type_key".toList ++ '=' :: key) ++ [(decodePart "vector".toList, decodePart (vectorText vector).toList)] := by
  have hname : ∀ c ∈ "vector".toList, c ≠ '=' ∧ c ≠ '&' := List.forall_iff_forall_mem.mp (by decide)
  have hamp : '&' ∉ (vectorText vector).toList := not_mem_vectorText (by decide) (by decide)
  rw [← Lib.Query.parse_pair hname hamp, ← Lib.Query.parse_append_cons, List.append_assoc, List.cons_append]

include hfrontend

theorem ofUrl_quizUrl : Lib.Query.ofUrl (quizUrl frontendUrl typeKey vector).toList =
    "type_key".toList ++ '=' :: ((Lib.Query.cleaned typeKey.toList ++
      '&' :: ("vector".toList ++ '=' :: (vectorText vector).toList)).takeWhile (· != '#')) := by
  have hpath : '?' ∉ frontendUrl.toList ++ "/quiz/result".toList ∧ '#' ∉ frontendUrl.toList ++ "/quiz/result".toList := by
    simp only [List.mem_append, not_or]
    exact ⟨⟨hfrontend.1, by decide⟩, hfrontend.2, by decide⟩
  have hcleaned : Lib.Query.cleaned ("type_key".toList ++ '=' :: (typeKey.toList ++
      '&' :: ("vector".toList ++ '=' :: (vectorText vector).toList))) =
      "type_key=".toList ++ (Lib.Query.cleaned typeKey.toList ++ "&vector=".toList ++ (vectorText vector).toList) := by
    rw [show "type_key".toList ++ '=' :: (typeKey.toList ++ '&' :: ("vector".toList ++ '=' :: (vectorText vector).toList)) =
      "type_key=".toList ++ (typeKey.toList ++ ("&vector=".toList ++ (vectorText vector).toList)) from rfl]
    rw [Lib.Query.cleaned_append, Lib.Query.cleaned_append, Lib.Query.cleaned_append, cleaned_vectorText,
      List.append_assoc]
    rfl
  have hname : ∀ c ∈ "type_key=".toList, (c != '#') = true := List.all_eq_true.mp (by decide)
  rw [quizUrl_toList, Lib.Query.ofUrl_append hpath, hcleaned, List.takeWhile_append_of_pos hname, List.append_assoc]
  rfl

/-- **What the other end reads as the type key is no longer than it**, and if it is as
long it was written without anything that means something else. -/
theorem typeKey_read {value : List Char}
    (h : ("type_key".toList, value) ∈ Lib.Query.parse (Lib.Query.ofUrl (quizUrl frontendUrl typeKey vector).toList)) :
    value.length ≤ typeKey.toList.length ∧ (typeKey.toList.length ≤ value.length →
      (∀ c ∈ typeKey.toList, c ∉ ['&', '#', '\t', '\n', '\r']) ∧ value = decodePart typeKey.toList) := by
  have hname : ∀ c ∈ "type_key".toList, c ≠ '=' ∧ c ≠ '&' := List.forall_iff_forall_mem.mp (by decide)
  have hcleaned : (Lib.Query.cleaned typeKey.toList).Sublist typeKey.toList := List.filter_sublist
  rw [ofUrl_quizUrl hfrontend] at h
  by_cases hhash : '#' ∈ typeKey.toList
  · -- The rest of the link is a fragment.
    have hmem : '#' ∈ Lib.Query.cleaned typeKey.toList := List.mem_filter.mpr ⟨hhash, by decide⟩
    obtain ⟨before, after, hsplit, hbefore⟩ := List.eq_append_cons_of_mem hmem
    have hpos : ∀ c ∈ before, (c != '#') = true := fun c hc => bne_iff_ne.mpr fun h => hbefore (h ▸ hc)
    rw [hsplit, List.append_assoc, List.takeWhile_append_of_pos hpos, List.cons_append,
      List.takeWhile_cons_of_neg (by decide), List.append_nil] at h
    have hle : value.length ≤ before.length := (Lib.Query.length_parse_le hname before _ h).1
    have hlong := hcleaned.length_le
    rw [hsplit, List.length_append, List.length_cons] at hlong
    exact ⟨by omega, fun hge => absurd hge (by omega)⟩
  · rw [takeWhile_pairs fun hmem => hhash (hcleaned.mem hmem), parse_pairs, List.mem_append, List.mem_singleton] at h
    obtain h | h := h
    · have hle : value.length ≤ (Lib.Query.cleaned typeKey.toList).length := (Lib.Query.length_parse_le hname _ _ h).1
      have hlong := hcleaned.length_le
      refine ⟨Nat.le_trans hle hlong, fun hge => ?_⟩
      have heq : Lib.Query.cleaned typeKey.toList = typeKey.toList := hcleaned.eq_of_length (by omega)
      rw [heq] at h
      have hand : '&' ∉ typeKey.toList := fun hmem =>
        absurd ((Lib.Query.length_parse_le hname _ _ h).2 hmem) (Nat.not_lt.mpr hge)
      rw [Lib.Query.parse_pair hname hand, List.mem_singleton, Prod.mk.injEq] at h
      refine ⟨fun c hc hmem => ?_, h.2⟩
      have hclean := (Lib.Query.cleaned_eq_self_iff _).mp heq c hc
      rcases List.mem_cons.mp hmem with rfl | hmem
      · exact hand hc
      · rcases List.mem_cons.mp hmem with rfl | hmem
        · exact hhash hc
        · exact hclean hmem
    · have hother : "type_key".toList ≠ decodePart "vector".toList := by decide
      exact absurd (congrArg Prod.fst h) hother

end

/-! ### Opening a link -/

theorem lookup_queryParams {url name : String} {data : Json} (h : (queryParams url).lookup name = some data) :
    ∃ value, (name.toList, value) ∈ Lib.Query.parse (Lib.Query.ofUrl url.toList) ∧ data = .str (.ofList value) := by
  obtain ⟨before, after, hsplit, -⟩ := List.lookup_eq_some_iff.mp h
  have hmem : (name, data) ∈ queryParams url := hsplit ▸ List.mem_append_right _ List.mem_cons_self
  obtain ⟨⟨n, value⟩, hpair, heq⟩ := List.mem_map.mp hmem
  obtain ⟨rfl, rfl⟩ := Prod.mk.inj heq
  rw [String.toList_ofList]
  exact ⟨value, List.mem_reverse.mp hpair, rfl⟩

theorem validateVector_ok_iff {value : String} {parts : List Double} :
    SharedQuizRequestSerializer.validateVector value = .ok parts ↔
      ((value.toList.splitOn ',').mapM fun part => Double.ofText? (.ofList part)) = some parts ∧ parts.length = 6 ∧
        ∀ x ∈ parts, x.inUnit = true := by
  unfold SharedQuizRequestSerializer.validateVector
  cases (value.toList.splitOn ',').mapM fun part => Double.ofText? (.ofList part) with
  | none => exact iff_of_false (fun h => nomatch h) fun h => nomatch h.1
  | some found =>
    simp only [Option.some.injEq]
    by_cases hok : found.length = 6 ∧ ∀ x ∈ found, x.inUnit = true
    · have hnot : ¬ (found.length ≠ 6 ∨ found.any (!·.inUnit) = true) := by
        rintro (h | h)
        · exact h hok.1
        · obtain ⟨x, hx, hout⟩ := List.any_eq_true.mp h
          rw [hok.2 x hx] at hout
          cases hout
      rw [if_neg hnot]
      constructor
      · intro h
        obtain rfl := Except.ok.inj h
        exact ⟨rfl, hok⟩
      · rintro ⟨rfl, -⟩
        rfl
    · have hbad : found.length ≠ 6 ∨ found.any (!·.inUnit) = true := by
        by_contra h
        rw [not_or, not_not] at h
        refine hok ⟨h.1, fun x hx => ?_⟩
        by_contra hout
        exact h.2 (List.any_eq_true.mpr ⟨x, hx, by simpa using hout⟩)
      rw [if_pos hbad]
      refine iff_of_false (fun h => nomatch h) ?_
      rintro ⟨rfl, h⟩
      exact hok h

/-- What a link that opens was read from. -/
theorem openLink_ok {url typeKey : String} {vector : List Double} (h : openLink url = .ok (typeKey, vector)) :
    (∃ value, ("type_key".toList, value) ∈ Lib.Query.parse (Lib.Query.ofUrl url.toList) ∧
      InputField.charValue (some 3) (.ofList value) = .ok typeKey) ∧ ∀ x ∈ vector, x.inUnit = true := by
  unfold openLink SharedQuizRequestSerializer.run at h
  obtain ⟨key, hkey, h⟩ := ok_of_bind h
  obtain ⟨text, -, h⟩ := ok_of_bind h
  obtain ⟨parts, hparts, h⟩ := ok_of_bind h
  obtain ⟨rfl, rfl⟩ := Prod.mk.inj (Except.ok.inj h)
  refine ⟨?_, (validateVector_ok_iff.mp hparts).2.2⟩
  obtain ⟨data, hlookup, hdata⟩ := InputField.run_ok_iff.mp hkey
  obtain ⟨value, hmem, rfl⟩ := lookup_queryParams hlookup
  exact ⟨value, hmem, hdata⟩

/-! ### Links that open as what was shared -/

section
variable {frontendUrl typeKey : String} {vector : List Double}
  (hfrontend : '?' ∉ frontendUrl.toList ∧ '#' ∉ frontendUrl.toList)
include hfrontend

theorem queryParams_quizUrl (hkey : Sendable typeKey) (hvector : ∀ v ∈ vector, (v.round 6).inUnit = true) :
    queryParams (quizUrl frontendUrl typeKey vector) =
      [("vector", .str (vectorText vector)), ("type_key", .str typeKey)] := by
  obtain ⟨-, hchars, hescape⟩ := hkey
  have hnot : ∀ c ∈ ['&', '+', '#', '\t', '\n', '\r'], c ∉ typeKey.toList := fun c hc hmem => hchars c hmem hc
  have hname : ∀ c ∈ "type_key".toList, c ≠ '=' ∧ c ≠ '&' := List.forall_iff_forall_mem.mp (by decide)
  have hcleaned : Lib.Query.cleaned typeKey.toList = typeKey.toList := by
    refine (Lib.Query.cleaned_eq_self_iff _).mpr fun c hc hmem => hchars c hc ?_
    exact List.mem_of_mem_drop (i := 3) hmem
  have hkeyPart : decodePart typeKey.toList = typeKey.toList :=
    (Lib.Query.decodePart_eq_self_iff _).mpr ⟨hnot '+' (by decide), hescape⟩
  have hvectorPart : decodePart (vectorText vector).toList = (vectorText vector).toList :=
    (Lib.Query.decodePart_eq_self_iff _).mpr ⟨plus_not_mem_vectorText hvector,
      hasEscape_of_not_mem (not_mem_vectorText (by decide) (by decide))⟩
  rw [queryParams, ofUrl_quizUrl hfrontend, hcleaned, takeWhile_pairs (hnot '#' (by decide)), parse_pairs,
    Lib.Query.parse_pair hname (hnot '&' (by decide)), hkeyPart, hvectorPart]
  show [_, _] = _
  simp only [String.ofList_toList]
  rfl

omit hfrontend in
/-- The texts of floats are read back as the floats. -/
theorem validateVector_vectorText (hlength : vector.length = 6) (hvector : ∀ v ∈ vector, (v.round 6).inUnit = true) :
    SharedQuizRequestSerializer.validateVector (vectorText vector) = .ok (vector.map (·.round 6)) := by
  have hsplit : (vectorText vector).toList.splitOn ',' = vector.map fun v => (v.round 6).text.toList := by
    rw [vectorText, String.toList_ofList]
    refine List.splitOn_intercalate ',' ?_ fun h => ?_
    · intro text htext hcomma
      obtain ⟨v, -, rfl⟩ := List.mem_map.mp htext
      exact absurd (Double.isNumeric_text _ _ hcomma) (by decide)
    · rw [List.map_eq_nil_iff] at h
      rw [h] at hlength
      cases hlength
  have hread : ∀ vector : List Double, (vector.map fun v => (v.round 6).text.toList).mapM
      (fun part => Double.ofText? (.ofList part)) = some (vector.map (·.round 6)) := by
    intro vector
    induction vector with
    | nil => rfl
    | cons v rest ih =>
      rw [List.map_cons, List.mapM_cons, ih, String.ofList_toList, Double.ofText?_text]
      rfl
  refine validateVector_ok_iff.mpr ⟨hsplit ▸ hread vector, by rw [List.length_map, hlength], fun x hx => ?_⟩
  obtain ⟨v, hv, rfl⟩ := List.mem_map.mp hx
  exact hvector v hv

theorem openLink_quizUrl (htype : Lib.Text.strip typeKey = typeKey ∧ typeKey ≠ "" ∧ '\x00' ∉ typeKey.toList)
    (hlength : vector.length = 6) (hkey : Sendable typeKey) (hvector : ∀ v ∈ vector, (v.round 6).inUnit = true) :
    openLink (quizUrl frontendUrl typeKey vector) = .ok (typeKey, vector.map (·.round 6)) := by
  have hkeyRun : (InputField.char (some 3)).run "type_key"
      [("vector", .str (vectorText vector)), ("type_key", .str typeKey)] = .ok typeKey := by
    refine InputField.run_ok_iff.mpr ⟨.str typeKey, rfl, InputField.charValue_ok_iff.mpr ⟨htype.1, htype.2.1, ?_, htype.2.2⟩⟩
    rintro n h
    cases h
    exact hkey.1
  have hvectorRun : (InputField.char none).run "vector"
      [("vector", .str (vectorText vector)), ("type_key", .str typeKey)] = .ok (vectorText vector) := by
    have hchar : InputField.charValue none (vectorText vector) = .ok (vectorText vector) := by
      refine InputField.charValue_ok_iff.mpr ⟨?_, fun h => ?_, fun n h => (nomatch h), not_mem_vectorText (by decide) (by decide)⟩
      · rw [Lib.Text.strip, Lib.Text.stripWith_eq_self (isSpace_vectorText vector), String.ofList_toList]
      · have hread := validateVector_vectorText hlength hvector
        rw [h] at hread
        cases hread
    exact InputField.run_ok_iff.mpr ⟨.str (vectorText vector), rfl, hchar⟩
  rw [openLink, queryParams_quizUrl hfrontend hkey hvector, SharedQuizRequestSerializer.run, hkeyRun, hvectorRun]
  show (SharedQuizRequestSerializer.validateVector (vectorText vector)) >>= _ = _
  rw [validateVector_vectorText hlength hvector]
  rfl

theorem sendable_of_openLink (h : openLink (quizUrl frontendUrl typeKey vector) = .ok (typeKey, vector.map (·.round 6))) :
    Sendable typeKey ∧ ∀ v ∈ vector, (v.round 6).inUnit = true := by
  obtain ⟨⟨value, hmem, hvalue⟩, hunit⟩ := openLink_ok h
  obtain ⟨hstrip, -, hlength, -⟩ := InputField.charValue_ok_iff.mp hvalue
  obtain ⟨hle, hread⟩ := typeKey_read hfrontend hmem
  have hstripped : Lib.Text.stripWith Lib.Text.isSpace value = typeKey.toList := by
    rw [← hstrip, Lib.Text.strip, String.toList_ofList, String.toList_ofList]
  have hsub := Lib.Text.stripWith_sublist Lib.Text.isSpace value
  rw [hstripped] at hsub
  obtain ⟨hchars, hdecoded⟩ := hread hsub.length_le
  have heq : typeKey.toList = value := hsub.eq_of_length (Nat.le_antisymm hsub.length_le hle)
  obtain ⟨hplus, hescape⟩ := (Lib.Query.decodePart_eq_self_iff _).mp (hdecoded.symm.trans heq.symm)
  refine ⟨⟨hlength 3 rfl, fun c hc hmem => ?_, hescape⟩, ?_⟩
  · rcases List.mem_cons.mp hmem with rfl | hmem
    · exact hchars _ hc List.mem_cons_self
    · rcases List.mem_cons.mp hmem with rfl | hmem
      · exact hplus hc
      · exact hchars c hc (List.mem_cons_of_mem _ hmem)
  · intro v hv
    exact hunit _ (List.mem_map_of_mem hv)

end

section
variable {frontendUrl : String} {testResult? : Int → Option SharedResult} {attrs : ShareAttrs} {typeKey : String}
  {vector : List Double}

theorem linkDecodes_iff_openLink (hquiz : attrs.contentType = "travel_quiz") (hid : attrs.contentId = none)
    (htype : attrs.typeKey = some typeKey) (hvector : attrs.vector = some vector) (d : Db V) (n : Nat) :
    LinkDecodes frontendUrl testResult? attrs d n ↔
      openLink (quizUrl frontendUrl typeKey vector) = .ok (typeKey, vector.map (·.round 6)) := by
  have hurl : generateShareUrl (V := V) frontendUrl testResult? attrs = .ret (quizUrl frontendUrl typeKey vector) := by
    rw [generateShareUrl, if_neg (by rw [hquiz]; decide), if_neg (by rw [hquiz]; decide), hid, htype, hvector]
    rfl
  rw [LinkDecodes, hurl]
  constructor
  · rintro ⟨url, typeKey', vector', heval, htype', hvector', hopen⟩
    rw [htype] at htype'
    rw [hvector] at hvector'
    cases htype'
    cases hvector'
    cases heval
    exact hopen
  · exact fun h => ⟨_, typeKey, vector, rfl, htype, hvector, h⟩

end

/-- **When a share link decodes to what was shared**: the type key is one that can be
sent, and the rounded vector is one that is accepted. -/
theorem share_link_iff {frontendUrl : String} (hfrontend : '?' ∉ frontendUrl.toList ∧ '#' ∉ frontendUrl.toList)
    (testResult? : Int → Option SharedResult) {data : Json} {attrs : ShareAttrs}
    (hdata : ShareRequestSerializer.run data = .ok attrs) (hquiz : attrs.contentType = "travel_quiz")
    (hid : attrs.contentId = none) (d : Db V) (n : Nat) :
    LinkDecodes frontendUrl testResult? attrs d n ↔
      (∀ typeKey, attrs.typeKey = some typeKey → Sendable typeKey) ∧
        ∀ vector, attrs.vector = some vector → ∀ v ∈ vector, (v.round 6).inUnit = true := by
  have haccepted := ShareRequestSerializer.accepted hdata
  obtain ⟨hkey, hvec⟩ := haccepted.direct hquiz hid
  obtain ⟨typeKey, htype⟩ := Option.isSome_iff_exists.mp hkey
  obtain ⟨vector, hvector⟩ := Option.isSome_iff_exists.mp hvec
  obtain ⟨hstrip, hblank, -, hnull⟩ := haccepted.typeKey typeKey htype
  rw [linkDecodes_iff_openLink hquiz hid htype hvector, htype, hvector]
  simp only [Option.some.injEq, forall_eq']
  exact ⟨sendable_of_openLink hfrontend, fun h =>
    openLink_quizUrl hfrontend ⟨hstrip, hblank, hnull⟩ (haccepted.vector vector hvector) h.1 h.2⟩

/-! ### A type key with a separator -/

/-- A request with a vector of six halves. -/
def halves (typeKey : String) : Json :=
  .object [("content_type", .str "travel_quiz"), ("type_key", .str typeKey), ("vector", .array (List.replicate 6 (.str "0.5")))]

def half : Double := (Double.ofText? "0.5").getD .nan

def halvesAttrs (typeKey : String) : ShareAttrs := ⟨"travel_quiz", none, some typeKey, some (List.replicate 6 half)⟩

def localFrontend : String := "http://localhost:3000"

theorem share_link_iff_halves : LinkDecodes localFrontend (fun _ => none) (halvesAttrs "ENF") ({} : Db Unit) 0 := by
  have hdata : ShareRequestSerializer.run (halves "ENF") = .ok (halvesAttrs "ENF") := rfl
  refine (share_link_iff (by decide) (fun _ => none) hdata rfl rfl {} 0).mpr ⟨?_, ?_⟩
  · rintro typeKey h
    obtain rfl := Option.some.inj h
    exact ⟨by decide, List.forall_iff_forall_mem.mp (by decide), by decide⟩
  · rintro vector h v hv
    obtain rfl := Option.some.inj h
    rw [List.eq_of_mem_replicate hv]
    decide +kernel

/-- The ampersand ends the type key. -/
theorem ampersand_cuts_type_key : ShareRequestSerializer.run (halves "A&B") = .ok (halvesAttrs "A&B") ∧
    ¬ LinkDecodes localFrontend (fun _ => none) (halvesAttrs "A&B") ({} : Db Unit) 0 := by
  refine ⟨rfl, fun h => ?_⟩
  have hopen := (linkDecodes_iff_openLink rfl rfl rfl rfl {} 0).mp h
  obtain ⟨⟨-, hchars, -⟩, -⟩ := sendable_of_openLink (by decide) hopen
  exact hchars '&' (by decide) (by decide)

end TravelMaker
