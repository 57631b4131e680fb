import TravelMaker.Quiz.Opposite
import TravelMaker.Quiz.Service
import TravelMaker.Share.Link

/-! From a submitted quiz to the page that its share link opens.

`shared_page` says that the page is the one that was shown, with what the request for a
link, the link and the serializers at both ends do to the vector on the way. -/
namespace TravelMaker
open Lib (Number binary32 binary64)

variable {e : Engine StoredVector (Number binary64)} {now : Instant} {d d' : QuizDb} {cache cache' : TypeCache}

/-! ### What a submission leaves -/

theorem getTravelType_ok {typeKey : String} {missing : Exc} {travelType : TravelType}
    (h : getTravelType d typeKey missing = .ok travelType) :
    d.travelTypes.find? (·.typeKey == typeKey) = some travelType ∧ travelType.typeKey = typeKey := by
  unfold getTravelType at h
  split at h
  · rename_i found hfound
    obtain rfl := Except.ok.inj h
    exact ⟨hfound, by simpa using List.find?_some hfound⟩
  · cases h

theorem scoreQuiz_ok {answers : List String} {norm : List (Number binary64)} {typeKey : String} {travelType : TravelType}
    (h : scoreQuiz d answers = .ok (norm, typeKey, travelType)) : calculateNormVector answers = .ok norm ∧
      determineTypeKey norm = .ok typeKey ∧ getTravelType d typeKey travelTypeDoesNotExist = .ok travelType := by
  obtain ⟨norm', hnorm, h⟩ := ok_of_bind h
  obtain ⟨typeKey', htypeKey, h⟩ := ok_of_bind h
  obtain ⟨travelType', htravelType, h⟩ := ok_of_bind h
  obtain ⟨rfl, rfl, rfl⟩ := by simpa using Except.ok.inj h
  exact ⟨hnorm, htypeKey, htravelType⟩

@[simp] theorem saveResult_travelTypes (userId : Option Int) (travelType : TravelType) (norm : List (Number binary64)) :
    (saveResult now userId travelType norm d).travelTypes = d.travelTypes := by cases userId <;> rfl

@[simp] theorem saveResult_base (userId : Option Int) (travelType : TravelType) (norm : List (Number binary64)) :
    (saveResult now userId travelType norm d).base = d.base := by cases userId <;> rfl

theorem submitQuiz_ok {userId : Option Int} {answers : List String} {result : QuizSubmitResult}
    (h : submitQuiz e now userId answers d cache = (.ok result, d', cache')) :
    ∃ norm typeKey travelType, scoreQuiz d answers = .ok (norm, typeKey, travelType) ∧
      d' = saveResult now userId travelType norm d ∧
      buildResult e now d' travelType typeKey norm cache = (.ok result.toSharedQuizResult, cache') ∧
      result.saved = userId.isSome := by
  unfold submitQuiz at h
  split at h
  · cases h
  · rename_i norm typeKey travelType hscore
    dsimp only at h
    split at h
    · cases h
    · rename_i shared cache'' hbuild
      obtain ⟨hresult, rfl, rfl⟩ := by simpa using h
      subst hresult
      exact ⟨norm, typeKey, travelType, hscore, rfl, hbuild, rfl⟩

theorem quizSubmitView_ok {userId : Option Int} {data : Json} {saved : Bool} {page : QuizPage}
    (h : quizSubmitView e now userId data d cache = (.ok (saved, page), d', cache')) :
    ∃ answers result, QuizSubmitSerializer.run data = .ok answers ∧
      submitQuiz e now userId answers d cache = (.ok result, d', cache') ∧ result.saved = saved ∧
      renderQuizPage d'.base result.toSharedQuizResult = .ok page := by
  unfold quizSubmitView at h
  split at h
  · cases h
  · rename_i answers hrun
    split at h
    · cases h
    · rename_i result d'' cache'' hsubmit
      split at h
      · cases h
      · rename_i page' hpage
        obtain ⟨⟨rfl, rfl⟩, rfl, rfl⟩ := by simpa using h
        exact ⟨answers, result, hrun, hsubmit, rfl, hpage⟩

/-! ### The parts of a link -/

/-- Fifths have one digit, so rounding to six leaves them. -/
theorem round_fifths : ∀ k < 6, ((fifths binary64 k).double.round 6) = (fifths binary64 k).double ∧
    (fifths binary64 k).double.inUnit = true := by decide +kernel

section
variable {answers : List String} (hlength : answers.length = 12)
include hlength

theorem mem_vectorOf {x : Number binary64} (hx : x ∈ vectorOf binary64 answers) : x.double.round 6 = x.double ∧ x.double.inUnit = true := by
  obtain ⟨axis, haxis, rfl⟩ := List.mem_map.mp hx
  exact round_fifths _ (Nat.lt_succ_of_le (agreement_le hlength (List.mem_range.mp haxis)))

theorem round_vectorOf : ((vectorOf binary64 answers).map (·.double)).map (·.round 6) = (vectorOf binary64 answers).map (·.double) := by
  rw [List.map_map]
  exact List.map_congr_left fun x hx => (mem_vectorOf hlength hx).1

end

/-- A type key can be sent as it is. -/
theorem sendable_typeKeyOf (isActive isSolo isNature : Bool) : Sendable (typeKeyOf isActive isSolo isNature) ∧
    Lib.Text.strip (typeKeyOf isActive isSolo isNature) = typeKeyOf isActive isSolo isNature ∧
      typeKeyOf isActive isSolo isNature ≠ "" ∧ '\x00' ∉ (typeKeyOf isActive isSolo isNature).toList := by
  have h : ∀ isActive isSolo isNature : Bool, (typeKeyOf isActive isSolo isNature).length ≤ 3 ∧
      ((typeKeyOf isActive isSolo isNature).toList.all fun c => !(['&', '+', '#', '\t', '\n', '\r'].contains c)) = true ∧
      Lib.Query.hasEscape (typeKeyOf isActive isSolo isNature).toList = false ∧
      Lib.Text.strip (typeKeyOf isActive isSolo isNature) = typeKeyOf isActive isSolo isNature ∧
      typeKeyOf isActive isSolo isNature ≠ "" ∧ '\x00' ∉ (typeKeyOf isActive isSolo isNature).toList := by decide +kernel
  obtain ⟨hlength, hchars, hescape, hrest⟩ := h isActive isSolo isNature
  refine ⟨⟨hlength, fun c hc hmem => ?_, hescape⟩, hrest⟩
  have hnot := List.all_eq_true.mp hchars c hc
  rw [List.contains_iff_mem.mpr hmem] at hnot
  cases hnot

/-! ### The request for a link -/

/-- What the page asks for, with the numbers as the client writes them. -/
def shareRequest (page : QuizPage) (numbers : List Json) : Json :=
  .object [("content_type", .str "travel_quiz"), ("type_key", .str page.typeKey), ("vector", .array numbers)]

theorem InputField.run?_of_ok {α : Type} {field : InputField α} {name : String} {fields : List (String × Json)} {data : Json}
    {value : α} (hlookup : fields.lookup name = some data) (hvalue : field data = .ok value) :
    field.run? name fields = .ok (some value) := by
  unfold run?
  rw [hlookup]
  dsimp only
  rw [hvalue]

theorem shareRequest_run {page : QuizPage} {numbers : List Json} {vector : List Lib.Double}
    (htype : Lib.Text.strip page.typeKey = page.typeKey ∧ page.typeKey ≠ "" ∧ '\x00' ∉ page.typeKey.toList)
    (hshort : page.typeKey.length ≤ 10) (hnumbers : numbers.mapM InputField.float = .ok vector) (hlength : vector.length = 6) :
    ShareRequestSerializer.run (shareRequest page numbers) = .ok ⟨"travel_quiz", none, some page.typeKey, some vector⟩ := by
  have hchar : InputField.char (some 10) (.str page.typeKey) = .ok page.typeKey := by
    refine InputField.charValue_ok_iff.mpr ⟨htype.1, htype.2.1, ?_, htype.2.2⟩
    rintro n h
    cases h
    exact hshort
  have hlist : InputField.list InputField.float 6 6 (.array numbers) = .ok vector := by
    show numbers.mapM InputField.float >>= _ = _
    rw [hnumbers]
    simp [bind, Except.bind, pure, Except.pure, hlength]
  have hkey : (InputField.char (some 10)).run? "type_key"
      [("content_type", .str "travel_quiz"), ("type_key", .str page.typeKey), ("vector", .array numbers)] =
        .ok (some page.typeKey) := InputField.run?_of_ok rfl hchar
  have hvector : (InputField.list InputField.float 6 6).run? "vector"
      [("content_type", .str "travel_quiz"), ("type_key", .str page.typeKey), ("vector", .array numbers)] =
        .ok (some vector) := InputField.run?_of_ok rfl hlist
  unfold ShareRequestSerializer.run shareRequest
  dsimp only
  rw [hkey, hvector]
  rfl

/-! ### Opening the link -/

theorem resultOf_ok {travelType : TravelType} {typeKey : String} {norm : List (Number binary64)}
    {found : TravelType × TravelType} {result : SharedQuizResult} (h : resultOf e d travelType typeKey norm found = .ok result) :
    result.travelType = travelType ∧ result.resultVector = norm := by
  unfold resultOf at h
  obtain ⟨messages, -, h⟩ := ok_of_bind h
  obtain ⟨typeTags, -, h⟩ := ok_of_bind h
  obtain ⟨description, -, h⟩ := ok_of_bind h
  obtain ⟨detailCards, -, h⟩ := ok_of_bind h
  obtain ⟨accuracy, -, h⟩ := ok_of_bind h
  obtain rfl := Except.ok.inj h
  exact ⟨rfl, rfl⟩

theorem renderQuizPage_ok {base : Db StoredVector} {result : SharedQuizResult} {page : QuizPage}
    (h : renderQuizPage base result = .ok page) :
    page.typeKey = result.travelType.typeKey ∧ page.rawVector = result.resultVector := by
  unfold renderQuizPage at h
  obtain ⟨resultVector, -, h⟩ := ok_of_bind h
  obtain ⟨compatibleType, -, h⟩ := ok_of_bind h
  obtain ⟨incompatibleType, -, h⟩ := ok_of_bind h
  obtain ⟨destinations, -, h⟩ := ok_of_bind h
  obtain rfl := Except.ok.inj h
  exact ⟨rfl, rfl⟩

theorem buildResult_fst (travelType : TravelType) (typeKey : String) (norm : List (Number binary64)) :
    (buildResult e now d travelType typeKey norm cache).1 =
      compatibleOf (allTravelTypes now d cache).1 travelType >>= resultOf e d travelType typeKey norm := rfl

/-- What is built depends on the places, and on the types that are found. -/
theorem buildResult_congr {later : QuizDb} {now' : Instant} {cacheLater : TypeCache} (hbase : later.base = d.base)
    (hsame : (allTravelTypes now' later cacheLater).1 = (allTravelTypes now d cache).1) (travelType : TravelType)
    (typeKey : String) (norm : List (Number binary64)) : (buildResult e now' later travelType typeKey norm cacheLater).1 =
      (buildResult e now d travelType typeKey norm cache).1 := by
  rw [buildResult_fst, buildResult_fst, hsame]
  unfold resultOf
  rw [hbase]

/-- **The share link of a result opens as the result.** The client sends back the type key and
the numbers of the page; the link that is made of them opens as the page that was shown, as
long as the types and the places are still those. -/
theorem shared_page {V : Type} {userId : Option Int} {data : Json} {saved : Bool} {page : QuizPage}
    (hsubmit : quizSubmitView e now userId data d cache = (.ok (saved, page), d', cache')) {frontendUrl : String}
    (hfrontend : '?' ∉ frontendUrl.toList ∧ '#' ∉ frontendUrl.toList) {numbers : List Json}
    (hnumbers : numbers.mapM InputField.float = .ok (page.rawVector.map (·.double))) {later : QuizDb} {now' : Instant}
    {cacheLater : TypeCache} (hbase : later.base = d'.base) (htypes : later.travelTypes = d'.travelTypes)
    (hsame : (allTravelTypes now' later cacheLater).1 = (allTravelTypes now d' cache).1)
    (testResult? : Int → Option SharedResult) (tables : Db V) (n : Nat) :
    ∃ attrs url, ShareRequestSerializer.run (shareRequest page numbers) = .ok attrs ∧
      (generateShareUrl frontendUrl testResult? attrs).eval tables n = .ok (url, tables, n) ∧
      (sharedQuizResultView e now' (queryParams url) later cacheLater).1 = .ok page := by
  obtain ⟨answers, result, hrun, hresult, -, hpage⟩ := quizSubmitView_ok hsubmit
  obtain ⟨norm, typeKey, travelType, hscore, hd', hbuild, -⟩ := submitQuiz_ok hresult
  obtain ⟨hnorm, htypeKey, htravelType⟩ := scoreQuiz_ok hscore
  have haccepted := QuizSubmitSerializer.accepted hrun
  obtain rfl := Except.ok.inj ((calculateNormVector_eq haccepted).symm.trans hnorm)
  obtain rfl := Except.ok.inj ((determineTypeKey_eq haccepted.length).symm.trans htypeKey)
  -- What the page shows is what was scored.
  obtain ⟨found, -, hof⟩ := ok_of_bind (congrArg Prod.fst hbuild)
  obtain ⟨hpageType, hpageVector⟩ := renderQuizPage_ok hpage
  obtain ⟨hresultType, hresultVector⟩ := resultOf_ok hof
  obtain ⟨hfind, htypeKeyEq⟩ := getTravelType_ok htravelType
  rw [hresultType, htypeKeyEq] at hpageType
  rw [hresultVector] at hpageVector
  rw [hpageVector] at hnumbers
  have hlength : ((vectorOf binary64 answers).map (·.double)).length = 6 := by
    rw [List.length_map, vectorOf, List.length_map, List.length_range]
  obtain ⟨hsendable, htype⟩ := sendable_typeKeyOf (sidesOf answers).isActive (sidesOf answers).isSolo (sidesOf answers).isNature
  rw [← hpageType] at hsendable htype htravelType hbuild
  have hunit : ∀ x ∈ (vectorOf binary64 answers).map (·.double), (x.round 6).inUnit = true := by
    intro x hx
    obtain ⟨y, hy, rfl⟩ := List.mem_map.mp hx
    obtain ⟨hround, hin⟩ := mem_vectorOf haccepted.length hy
    rw [hround, hin]
  have hopen := openLink_quizUrl hfrontend htype hlength hsendable hunit
  rw [round_vectorOf haccepted.length] at hopen
  have hback : ((vectorOf binary64 answers).map (·.double)).map (·.number) = vectorOf binary64 answers := by
    rw [List.map_map]
    exact (List.map_congr_left fun x _ => x.number_double).trans (List.map_id _)
  have hfound : getTravelType later page.typeKey invalidTypeKey = .ok travelType := by
    unfold getTravelType
    rw [htypes, hd', saveResult_travelTypes, (getTravelType_ok htravelType).1]
  have hview : (buildResult e now' later travelType page.typeKey (vectorOf binary64 answers) cacheLater).1 =
      .ok result.toSharedQuizResult := by
    rw [buildResult_congr hbase hsame, hbuild]
  refine ⟨_, quizUrl frontendUrl page.typeKey ((vectorOf binary64 answers).map (·.double)),
    shareRequest_run htype (Nat.le_trans hsendable.1 (by decide)) hnumbers hlength, ?_, ?_⟩
  · rw [generateShareUrl, if_neg (show ¬ "travel_quiz" = "place" by decide), if_neg (show ¬ "travel_quiz" = "route" by decide)]
    rfl
  · unfold sharedQuizResultView
    rw [show SharedQuizRequestSerializer.run _ = _ from hopen]
    dsimp only
    rw [hback]
    obtain ⟨left, hleft⟩ : ∃ left, buildResult e now' later travelType page.typeKey (vectorOf binary64 answers) cacheLater =
        (.ok result.toSharedQuizResult, left) := ⟨_, Prod.ext hview rfl⟩
    unfold getSharedQuizResult
    rw [hfound]
    dsimp only
    rw [hleft]
    dsimp only
    rw [hbase, hpage]

/-! ### A link for the first choices -/

/-- Every pair of vectors is in the same direction. -/
def sameDirection : Engine StoredVector (Number binary64) where
  distance _ _ := .ofSize binary64 false 0
  nonzero vector := vector.any (·.toRat? != some 0)
  scan := id
  scan_perm := List.Perm.refl

/-- The tables with the seeded types. -/
def seededTables : QuizDb :=
  {travelTypes := travelTypeSeeds.zipIdx.map fun ((typeKey, data), i) => ⟨i + 1, typeKey, data.name, data.imageUrl⟩}

/-- The numbers as `json.dumps` writes them. -/
def dumped (vector : List (Number binary64)) : List Json := vector.map fun x => .scalar (.float (.finite x.double.text 0))

theorem mapM_dumped (vector : List (Number binary64)) : (dumped vector).mapM InputField.float = .ok (vector.map (·.double)) := by
  induction vector with
  | nil => rfl
  | cons x rest ih =>
    have hfloat : InputField.float (.scalar (.float (.finite x.double.text 0))) = .ok x.double := by
      unfold InputField.float
      dsimp only
      rw [Lib.Double.ofText?_text]
    rw [dumped, List.map_cons, List.mapM_cons, hfloat, ← dumped, ih]
    rfl

theorem shared_page_first : ∃ page, (quizSubmitView sameDirection 0 none firstChoices seededTables fun _ => none).1 = .ok (false, page) ∧
    ∃ attrs url, ShareRequestSerializer.run (shareRequest page (dumped page.rawVector)) = .ok attrs ∧
      (generateShareUrl localFrontend (fun _ => none) attrs).eval ({} : Db Unit) 0 = .ok (url, {}, 0) ∧
      (sharedQuizResultView sameDirection 0 (queryParams url) seededTables fun _ => none).1 = .ok page := by
  have hanswered : ((quizSubmitView sameDirection 0 none firstChoices seededTables fun _ => none).1.map (·.1)).toOption = some false := by
    decide +kernel
  rcases hsubmit : quizSubmitView sameDirection 0 none firstChoices seededTables fun _ => none with ⟨_ | ⟨saved, page⟩, d', cache'⟩
  · rw [hsubmit] at hanswered
    cases hanswered
  · rw [hsubmit] at hanswered
    cases hanswered
    obtain ⟨answers, result, -, hresult, -, -⟩ := quizSubmitView_ok hsubmit
    obtain ⟨norm, typeKey, travelType, -, rfl, -, -⟩ := submitQuiz_ok hresult
    exact ⟨page, rfl, shared_page hsubmit (by decide) (mapM_dumped page.rawVector) rfl rfl rfl (fun _ => none) {} 0⟩

end TravelMaker
