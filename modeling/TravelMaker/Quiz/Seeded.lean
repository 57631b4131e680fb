import TravelMaker.Quiz.History

/-! Whether a submission is answered.

It takes the types that go with its own from a list that is kept for a day, so the list can
be one from before the types were all there. `answered_after_seeding` says that this is over
a day after they are: the submission is saved, and its page depends on the places alone. -/
namespace TravelMaker
open Lib (Number binary32 binary64)
open Lib.History (states)

/-- All eight types are there. -/
def AllTypes (types : List TravelType) : Prop := ∀ key ∈ travelTypeSeeds.map (·.1), ∃ t ∈ types, t.typeKey = key

theorem typeKeyOf_mem (isActive isSolo isNature : Bool) : typeKeyOf isActive isSolo isNature ∈ travelTypeSeeds.map (·.1) := by
  revert isActive isSolo isNature
  decide

/-! ### Finding types -/

section
variable {types : List TravelType} (htypes : AllTypes types)
include htypes

theorem typeByKey_ok (isActive isSolo isNature : Bool) : ∃ t ∈ types, t.typeKey = typeKeyOf isActive isSolo isNature ∧
    typeByKey types (typeKeyOf isActive isSolo isNature) = .ok t := by
  obtain ⟨t, ht, hkey⟩ := htypes _ (typeKeyOf_mem isActive isSolo isNature)
  have hsome : (types.reverse.find? (·.typeKey == typeKeyOf isActive isSolo isNature)).isSome = true :=
    List.find?_isSome.mpr ⟨t, List.mem_reverse.mpr ht, beq_iff_eq.mpr hkey⟩
  obtain ⟨found, hfound⟩ := Option.isSome_iff_exists.mp hsome
  refine ⟨found, List.mem_reverse.mp (List.mem_of_find?_eq_some hfound), by simpa using List.find?_some hfound, ?_⟩
  unfold typeByKey
  rw [hfound]

/-- The types that go with a type are found, by the maps. -/
theorem compatibleOf_ok {travelType : TravelType} {isActive isSolo isNature : Bool}
    (hkey : travelType.typeKey = typeKeyOf isActive isSolo isNature) :
    ∃ compatible ∈ types, ∃ incompatible ∈ types, compatibleOf types travelType = .ok (compatible, incompatible) ∧
      compatibleMap.lookup travelType.typeKey = some compatible.typeKey ∧
      incompatibleMap.lookup travelType.typeKey = some incompatible.typeKey := by
  obtain ⟨compatible, hcompatible, hckey, hcfound⟩ := typeByKey_ok htypes isActive (!isSolo) isNature
  obtain ⟨incompatible, hincompatible, hikey, hifound⟩ := typeByKey_ok htypes (!isActive) (!isSolo) (!isNature)
  refine ⟨compatible, hcompatible, incompatible, hincompatible, ?_, ?_, ?_⟩
  · rw [compatibleOf, hkey, itemOf, compatibleMap_typeKeyOf, itemOf, incompatibleMap_typeKeyOf]
    show (typeByKey types _ >>= fun compatible => typeByKey types _ >>= fun incompatible => _) = _
    rw [hcfound, hifound]
    rfl
  · rw [hkey, compatibleMap_typeKeyOf, hckey]
  · rw [hkey, incompatibleMap_typeKeyOf, hikey]

end

theorem compatibilityMessages_typeKeyOf (isActive isSolo isNature : Bool) :
    ∃ messages, itemOf compatibilityMessages (typeKeyOf isActive isSolo isNature) = .ok messages := by
  cases isActive <;> cases isSolo <;> cases isNature <;> exact ⟨_, rfl⟩

/-! ### Answering -/

section
variable {e : Engine StoredVector (Number binary64)} {now : Instant} {d : QuizDb} {cache : TypeCache} {answers : List String}

theorem resultOf_vectorOf (haccepted : Accepted answers) (travelType : TravelType) (found : TravelType × TravelType) :
    ∃ result, resultOf e d travelType (typeKeyOf (sidesOf answers).isActive (sidesOf answers).isSolo (sidesOf answers).isNature)
      (vectorOf binary64 answers) found = .ok result ∧ result.travelType = travelType ∧ result.compatibleType = found.1 ∧
        result.incompatibleType = found.2 ∧ result.resultVector = vectorOf binary64 answers ∧
        result.recommendedPlaces = getRecommendedPlaces e d.base (vectorOf binary64 answers) := by
  have hlength := haccepted.length
  obtain ⟨messages, hmessages⟩ := compatibilityMessages_typeKeyOf (sidesOf answers).isActive (sidesOf answers).isSolo
    (sidesOf answers).isNature
  rw [resultOf, hmessages, buildTypeTags_typeKeyOf, makeDescription_vectorOf hlength, buildDetailCards, sides_vectorOf hlength,
    calculateAccuracy_vectorOf hlength]
  exact ⟨_, rfl, rfl, rfl, rfl, rfl, rfl⟩

/-- With the types in the table and in the list that is found, a submission is saved, and there is a result to show. -/
theorem submitQuiz_answered (haccepted : Accepted answers) (htable : AllTypes d.travelTypes)
    (hfound : AllTypes (allTravelTypes now d cache).1) (userId : Option Int) :
    ∃ result left, submitQuiz e now userId answers d cache =
        (.ok ⟨result, userId.isSome⟩, saveResult now userId result.travelType (vectorOf binary64 answers) d, left) ∧
      result.travelType ∈ d.travelTypes ∧ determineTypeKey (vectorOf binary64 answers) = .ok result.travelType.typeKey ∧
      result.compatibleType ∈ (allTravelTypes now d cache).1 ∧ result.incompatibleType ∈ (allTravelTypes now d cache).1 ∧
      compatibleMap.lookup result.travelType.typeKey = some result.compatibleType.typeKey ∧
      incompatibleMap.lookup result.travelType.typeKey = some result.incompatibleType.typeKey ∧
      result.resultVector = vectorOf binary64 answers ∧
      result.recommendedPlaces = getRecommendedPlaces e d.base (vectorOf binary64 answers) := by
  have hkey := determineTypeKey_eq haccepted.length
  obtain ⟨t, ht, htkey⟩ := htable _ (typeKeyOf_mem (sidesOf answers).isActive (sidesOf answers).isSolo (sidesOf answers).isNature)
  have hsome : (d.travelTypes.find? (·.typeKey == typeKeyOf (sidesOf answers).isActive (sidesOf answers).isSolo
      (sidesOf answers).isNature)).isSome = true := List.find?_isSome.mpr ⟨t, ht, beq_iff_eq.mpr htkey⟩
  obtain ⟨travelType, hfind⟩ := Option.isSome_iff_exists.mp hsome
  have hmem : travelType ∈ d.travelTypes := List.mem_of_find?_eq_some hfind
  have htype : travelType.typeKey = typeKeyOf (sidesOf answers).isActive (sidesOf answers).isSolo (sidesOf answers).isNature := by
    simpa using List.find?_some hfind
  have hget : getTravelType d (typeKeyOf (sidesOf answers).isActive (sidesOf answers).isSolo (sidesOf answers).isNature)
      travelTypeDoesNotExist = .ok travelType := by rw [getTravelType, hfind]
  have hscore : scoreQuiz d answers = .ok (vectorOf binary64 answers, travelType.typeKey, travelType) := by
    simp only [scoreQuiz, calculateNormVector_eq haccepted, bind, Except.bind, hkey, hget, pure, Except.pure, htype]
  obtain ⟨compatible, hcompatible, incompatible, hincompatible, hpair, hc, hi⟩ := compatibleOf_ok hfound htype
  have hlist : (allTravelTypes now (saveResult now userId travelType (vectorOf binary64 answers) d) cache).1 =
      (allTravelTypes now d cache).1 := by
    unfold allTravelTypes
    rw [saveResult_travelTypes]
  obtain ⟨result, hresult, rfl, rfl, rfl, hvector, hplaces⟩ := resultOf_vectorOf (e := e)
    (d := saveResult now userId travelType (vectorOf binary64 answers) d) haccepted travelType (compatible, incompatible)
  rw [saveResult_base] at hplaces
  have hbuild : (buildResult e now (saveResult now userId result.travelType (vectorOf binary64 answers) d) result.travelType
      result.travelType.typeKey (vectorOf binary64 answers) cache).1 = .ok result := by
    rw [buildResult_fst, hlist, hpair, htype]
    exact hresult
  rcases hb : buildResult e now (saveResult now userId result.travelType (vectorOf binary64 answers) d) result.travelType
    result.travelType.typeKey (vectorOf binary64 answers) cache with ⟨built, left⟩
  rw [hb] at hbuild
  dsimp only at hbuild
  subst hbuild
  refine ⟨result, left, ?_, hmem, by rw [hkey, htype], hcompatible, hincompatible, hc, hi, hvector, hplaces⟩
  unfold submitQuiz
  rw [hscore]
  dsimp only
  rw [hb]

end

/-! ### The page of a submission -/

/-- The brief of the type on a page. -/
def TypeBrief.Of (brief : TypeBrief) (t : TravelType) : Prop :=
  brief.travelTypeId = t.id ∧ brief.typeKey = t.typeKey ∧ brief.name = t.name ∧ brief.imageUrl = t.imageUrl

theorem renderType_ok {t : TravelType} {isActive isSolo isNature : Bool} (hkey : t.typeKey = typeKeyOf isActive isSolo isNature)
    (reason : String) : ∃ brief, renderType t reason = .ok brief ∧ brief.Of t := by
  unfold renderType
  rw [hkey, buildTypeTags_typeKeyOf]
  exact ⟨_, rfl, rfl, hkey.symm, rfl, rfl⟩

/-- Only the places can keep the page of a result from being made. -/
theorem renderQuizPage_styled {e : Engine StoredVector (Number binary64)} {d : Db StoredVector} (hcolumn : d.StyleColumn)
    {r : SharedQuizResult} {answers : List String} (hlength : answers.length = 12)
    (hvector : r.resultVector = vectorOf binary64 answers)
    (hplaces : r.recommendedPlaces = getRecommendedPlaces e d (vectorOf binary64 answers)) {isActive isSolo isNature : Bool}
    (htype : r.travelType.typeKey = typeKeyOf isActive isSolo isNature)
    (hcompatible : compatibleMap.lookup r.travelType.typeKey = some r.compatibleType.typeKey)
    (hincompatible : incompatibleMap.lookup r.travelType.typeKey = some r.incompatibleType.typeKey) :
    if d.Styled then
      ∃ page, renderQuizPage d r = .ok page ∧ page.travelTypeId = r.travelType.id ∧ page.typeKey = r.travelType.typeKey ∧
        page.compatibleType.Of r.compatibleType ∧ page.incompatibleType.Of r.incompatibleType
    else renderQuizPage d r = .error .typeError := by
  rw [htype, compatibleMap_typeKeyOf, Option.some.injEq] at hcompatible
  rw [htype, incompatibleMap_typeKeyOf, Option.some.injEq] at hincompatible
  obtain ⟨compatible, hc, hcof⟩ := renderType_ok hcompatible.symm r.compatibleReason
  obtain ⟨incompatible, hi, hiof⟩ := renderType_ok hincompatible.symm r.incompatibleReason
  have hrows := mapM_renderDestination e (vectorOf binary64 answers) hcolumn
  unfold renderQuizPage
  rw [hvector, labelVector_vectorOf hlength, hc, hi, hplaces]
  split at hrows <;> rename_i hstyled
  · obtain ⟨rows, hrows⟩ := hrows
    rw [if_pos hstyled, hrows]
    exact ⟨_, rfl, rfl, rfl, hcof, hiof⟩
  · rw [if_neg hstyled, hrows]
    rfl

/-! ### A day of histories -/

section
variable {e : Engine StoredVector (Number binary64)} {w : QuizWorld}

theorem serveQuiz_now_le (w : QuizWorld) (r : QuizRequest) : w.now ≤ (serveQuiz e w r).now := by
  cases r with
  | wait time => exact le_add_of_nonneg_right (Int.natCast_nonneg time)
  | _ => exact le_rfl

/-- The clock does not go back. -/
theorem now_le_foldl (w : QuizWorld) (requests : List QuizRequest) : w.now ≤ (requests.foldl (serveQuiz e) w).now := by
  induction requests generalizing w with
  | nil => exact le_rfl
  | cons r rest ih => exact le_trans (serveQuiz_now_le w r) (ih _)

theorem now_le_of_mem_states {requests : List QuizRequest} {t : QuizWorld} (ht : t ∈ states (serveQuiz e) w requests) :
    t.now ≤ (requests.foldl (serveQuiz e) w).now := by
  induction requests generalizing w with
  | nil => exact (congrArg _ (List.mem_singleton.mp ht)).le
  | cons r rest ih =>
    rcases List.mem_cons.mp ht with rfl | ht
    · exact now_le_foldl t (r :: rest)
    · exact ih ht

/-- No type goes away. -/
theorem allTypes_serve (h : AllTypes w.db.travelTypes) (r : QuizRequest) : AllTypes (serveQuiz e w r).db.travelTypes := by
  cases r with
  | seed typeKey data =>
    intro key hkey
    obtain ⟨t, ht, htkey⟩ := h key hkey
    obtain ⟨t', ht', -, hkey'⟩ := seedTravelType_keeps typeKey data ht
    exact ⟨t', ht', hkey'.trans htkey⟩
  | submit userId data =>
    obtain ⟨hdb, -⟩ | ⟨answers, travelType, -, -, -, hdb, -⟩ := submit_cases (e := e) (w := w) userId data
    · rw [hdb]
      exact h
    · rw [hdb, saveResult_travelTypes]
      exact h
  | _ => exact h

/-- Once they are all there, they are in every state. -/
theorem allTypes_states (h : AllTypes w.db.travelTypes) (requests : List QuizRequest) :
    ∀ t ∈ states (serveQuiz e) w requests, AllTypes t.db.travelTypes :=
  Lib.History.states_invariant (I := fun t : QuizWorld => AllTypes t.db.travelTypes) (fun _ r h => allTypes_serve h r) h requests

theorem allTravelTypes_saveResult {now : Instant} {d : QuizDb} {cache : TypeCache} (userId : Option Int) (travelType : TravelType)
    (norm : List (Number binary64)) :
    allTravelTypes now (saveResult now userId travelType norm d) cache = allTravelTypes now d cache := by
  unfold allTravelTypes
  rw [saveResult_travelTypes]

/-- What a submission leaves in the cache. -/
theorem submitQuiz_cache (now : Instant) (d : QuizDb) (cache : TypeCache) (userId : Option Int) (answers : List String) :
    (submitQuiz e now userId answers d cache).2.2 = cache ∨
      (submitQuiz e now userId answers d cache).2.2 = (allTravelTypes now d cache).2 := by
  unfold submitQuiz
  split
  · exact .inl rfl
  · rename_i norm typeKey travelType hscore
    rw [← allTravelTypes_saveResult userId travelType norm]
    dsimp only
    split
    · rename_i hbuild
      exact .inr (congrArg Prod.snd hbuild).symm
    · rename_i hbuild
      exact .inr (congrArg Prod.snd hbuild).symm

theorem quizSubmitView_cache {now : Instant} {d : QuizDb} {cache : TypeCache} (userId : Option Int) (data : Json) :
    (quizSubmitView e now userId data d cache).2.2 = cache ∨
      (quizSubmitView e now userId data d cache).2.2 = (allTravelTypes now d cache).2 := by
  unfold quizSubmitView
  split
  · exact .inl rfl
  · rename_i answers hrun
    have hsubmit := submitQuiz_cache (e := e) now d cache userId answers
    split
    · rename_i hresult
      rwa [hresult] at hsubmit
    · rename_i hresult
      rw [hresult] at hsubmit
      split <;> exact hsubmit

theorem sharedQuizResultView_cache {now : Instant} {d : QuizDb} {cache : TypeCache} (params : List (String × Json)) :
    (sharedQuizResultView e now params d cache).2 = cache ∨
      (sharedQuizResultView e now params d cache).2 = (allTravelTypes now d cache).2 := by
  unfold sharedQuizResultView
  split
  · exact .inl rfl
  · rename_i typeKey vector hrun
    have hresult : (getSharedQuizResult e now typeKey (vector.map (·.number)) d cache).2 = cache ∨
        (getSharedQuizResult e now typeKey (vector.map (·.number)) d cache).2 = (allTravelTypes now d cache).2 := by
      unfold getSharedQuizResult
      split
      · exact .inl rfl
      · exact .inr rfl
    split
    · rename_i heq
      rwa [heq] at hresult
    · rename_i heq
      rw [heq] at hresult
      split <;> exact hresult

/-- The list of types that is kept is that of the table when it was read. -/
theorem filledFromSource : Lib.CacheAside.FilledFromSource (serveQuiz e) (·.now) (·.cache) (fun _ w => w.db.travelTypes)
    travelTypesTtl := by
  intro w r key entry hentry
  have hread : ∀ cache : TypeCache, cache = w.cache ∨ cache = (allTravelTypes w.now w.db w.cache).2 → cache key = some entry →
      w.cache key = some entry ∨ entry = (w.db.travelTypes, w.now + travelTypesTtl) := by
    rintro cache (rfl | rfl) h
    · exact .inl h
    · exact (Lib.CacheAside.readThrough_entry h).imp_right fun h => h.2.1
  cases r with
  | submit userId data => exact hread _ (quizSubmitView_cache userId data) hentry
  | shared params => exact hread _ (sharedQuizResultView_cache params) hentry
  | _ => exact .inl hentry

/-- A submission is saved, and answered with the type of its answers and the types that the maps have
for it, as the table `seen` has them; where the places cannot be shown, there is a server error, but it stays saved. -/
def Answered (e : Engine StoredVector (Number binary64)) (w : QuizWorld) (userId : Option Int) (data : Json)
    (answers : List String) (seen : List TravelType) : Prop :=
  ∃ norm, calculateNormVector answers = .ok norm ∧
    ∃ t ∈ w.db.travelTypes, determineTypeKey norm = .ok t.typeKey ∧
    ∃ compatible ∈ seen, compatibleMap.lookup t.typeKey = some compatible.typeKey ∧
    ∃ incompatible ∈ seen, incompatibleMap.lookup t.typeKey = some incompatible.typeKey ∧
      (quizSubmitView e w.now userId data w.db w.cache).2.1 = saveResult w.now userId t norm w.db ∧
      if w.db.base.Styled then
        ∃ page, (quizSubmitView e w.now userId data w.db w.cache).1 = .ok (userId.isSome, page) ∧ page.travelTypeId = t.id ∧
          page.typeKey = t.typeKey ∧ page.compatibleType.Of compatible ∧ page.incompatibleType.Of incompatible
      else (quizSubmitView e w.now userId data w.db w.cache).1 = .error (.raised .typeError)

/-- **A day after the types are all there, every submission is answered**, whatever was kept of
the table before, unless a place without a style vector is recommended. The types that go with its
own are those of a moment of the last day. -/
theorem answered_after_seeding (e : Engine StoredVector (Number binary64)) {before after : List QuizRequest}
    (hseeded : AllTypes (before.foldl (serveQuiz e) {}).db.travelTypes)
    (hday : (before.foldl (serveQuiz e) {}).now + travelTypesTtl ≤ ((before ++ after).foldl (serveQuiz e) {}).now)
    (hcolumn : ((before ++ after).foldl (serveQuiz e) {}).db.base.StyleColumn) {data : Json} {answers : List String}
    (hdata : QuizSubmitSerializer.run data = .ok answers) (userId : Option Int) :
    ∃ t ∈ states (serveQuiz e) {} (before ++ after), ((before ++ after).foldl (serveQuiz e) {}).now < t.now + travelTypesTtl ∧
      Answered e ((before ++ after).foldl (serveQuiz e) {}) userId data answers t.db.travelTypes := by
  have haccepted := QuizSubmitSerializer.accepted hdata
  have hserved : ∃ t ∈ states (serveQuiz e) {} (before ++ after),
      ((before ++ after).foldl (serveQuiz e) {}).now < t.now + travelTypesTtl ∧
        (allTravelTypes ((before ++ after).foldl (serveQuiz e) {}).now ((before ++ after).foldl (serveQuiz e) {}).db
          ((before ++ after).foldl (serveQuiz e) {}).cache).1 = t.db.travelTypes :=
    Lib.CacheAside.served_was_so (filledFromSource (e := e)) (fun _ => rfl) (before ++ after)
      (Int.lt_add_of_pos_right _ (by decide))
  obtain ⟨t, ht, hfresh, hlist⟩ := hserved
  -- A state of the last day comes after the seeding.
  have hafter : t ∈ states (serveQuiz e) (before.foldl (serveQuiz e) {}) after := by
    refine (Lib.History.states_append ht).resolve_left fun hbefore => ?_
    exact absurd (lt_of_lt_of_le hfresh (add_le_add (now_le_of_mem_states hbefore) le_rfl)) (not_lt.mpr hday)
  have htypes : AllTypes t.db.travelTypes := allTypes_states hseeded after t hafter
  have htable : AllTypes ((before ++ after).foldl (serveQuiz e) {}).db.travelTypes := by
    rw [List.foldl_append]
    exact allTypes_states hseeded after _ (Lib.History.foldl_mem_states _ _)
  obtain ⟨result, left, hresult, hown, hkey, hcompatible, hincompatible, hc, hi, hvector, hplaces⟩ :=
    submitQuiz_answered (e := e) haccepted htable (hlist ▸ htypes) userId
  rw [hlist] at hcompatible hincompatible
  have htype := Except.ok.inj (hkey.symm.trans (determineTypeKey_eq haccepted.length))
  have hpage := renderQuizPage_styled hcolumn haccepted.length hvector hplaces htype hc hi
  refine ⟨t, ht, hfresh, _, calculateNormVector_eq haccepted, result.travelType, hown, hkey, _, hcompatible, hc, _,
    hincompatible, hi, ?_, ?_⟩
  · rw [quizSubmitView_db hdata, hresult]
  · unfold quizSubmitView
    rw [hdata]
    dsimp only
    rw [hresult]
    dsimp only
    rw [saveResult_base]
    split at hpage <;> rename_i hstyled
    · obtain ⟨page, hpage, hrest⟩ := hpage
      rw [if_pos hstyled, hpage]
      exact ⟨page, rfl, hrest⟩
    · rw [if_neg hstyled, hpage]

end

/-! ### The seeding and a day -/

def seeding : List QuizRequest := travelTypeSeeds.map fun (typeKey, data) => .seed typeKey data

/-- Three places with a style vector, and one that has features without. -/
def fourPlaces : Db StoredVector where
  places := [{id := 1, contentId := 1, contentTypeId := 12}, {id := 2, contentId := 2, contentTypeId := 12},
    {id := 3, contentId := 3, contentTypeId := 12}, {id := 4, contentId := 4, contentTypeId := 12}]
  placeFeatures := [⟨4, none, some []⟩, ⟨1, some (.replicate 6 (.ofSize binary32 false 1)), none⟩,
    ⟨2, some (.replicate 6 (.ofSize binary32 false 0)), none⟩, ⟨3, some (.replicate 6 (.ofSize binary32 true (1 / 3))), none⟩]

def aDay : List QuizRequest := [.places fourPlaces, .wait (24 * 60 * 60 * 1000000)]

theorem answered_after_seeding_first : ((seeding ++ aDay).foldl (serveQuiz sameDirection) {}).db.base.Styled ∧
    ∃ t ∈ states (serveQuiz sameDirection) {} (seeding ++ aDay),
      ((seeding ++ aDay).foldl (serveQuiz sameDirection) {}).now < t.now + travelTypesTtl ∧
        Answered sameDirection ((seeding ++ aDay).foldl (serveQuiz sameDirection) {}) (some 1) firstChoices
          (List.replicate 12 "A") t.db.travelTypes := by
  have hdata : QuizSubmitSerializer.run firstChoices = .ok (List.replicate 12 "A") := rfl
  have hseeded : AllTypes (seeding.foldl (serveQuiz sameDirection) {}).db.travelTypes := by
    unfold AllTypes
    decide
  have hday : (seeding.foldl (serveQuiz sameDirection) {}).now + travelTypesTtl ≤
      ((seeding ++ aDay).foldl (serveQuiz sameDirection) {}).now := by decide
  have hbase : ((seeding ++ aDay).foldl (serveQuiz sameDirection) {}).db.base = fourPlaces := rfl
  have hcolumn : ((seeding ++ aDay).foldl (serveQuiz sameDirection) {}).db.base.StyleColumn := by
    rw [hbase, Db.StyleColumn]
    decide +kernel
  exact ⟨by rw [hbase]; decide +kernel, answered_after_seeding sameDirection hseeded hday hcolumn hdata (some 1)⟩

end TravelMaker
