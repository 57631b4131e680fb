import TravelMaker.Quiz.Places
import TravelMaker.Quiz.Shared

/-! The quiz over histories: seeding the types, submitting and looking at results.

`result_page` says what a user's own page shows after any history: the submission that was
saved last, in the same words and numbers although the vector was stored in single
precision, or a server error where a place without a style vector is recommended. -/
namespace TravelMaker
open Lib (Number binary32 binary64)

/-! ### Requests -/

structure QuizWorld where
  db : QuizDb := {}
  cache : TypeCache := fun _ => none
  now : Instant := 0
  /-- The id of the next travel type. -/
  nextId : Int := 1

inductive QuizRequest where
  /-- One round of the loop of `seed_travel_types`. -/
  | seed (typeKey : String) (data : TravelTypeSeed)
  | submit (userId : Option Int) (data : Json)
  | shared (params : List (String × Json))
  /-- What other requests do to the places. -/
  | places (base : Db StoredVector)
  | wait (time : Nat)

/-- `TravelType.objects.update_or_create(type_key=…, defaults=data)`. -/
def seedTravelType (typeKey : String) (data : TravelTypeSeed) (w : QuizWorld) : QuizWorld :=
  let travelTypes := Lib.Upsert.setOrInsert (·.typeKey) typeKey
    (fun t => {t with name := data.name, imageUrl := data.imageUrl}) ⟨w.nextId, typeKey, data.name, data.imageUrl⟩
    w.db.travelTypes
  {w with db := {w.db with travelTypes}, nextId := w.nextId + 1}

section
variable (e : Engine StoredVector (Number binary64))

def serveQuiz (w : QuizWorld) : QuizRequest → QuizWorld
  | .seed typeKey data => seedTravelType typeKey data w
  | .submit userId data =>
    let (_, db, cache) := quizSubmitView e w.now userId data w.db w.cache
    {w with db, cache}
  | .shared params => {w with cache := (sharedQuizResultView e w.now params w.db w.cache).2}
  | .places base => {w with db := {w.db with base}}
  | .wait time => {w with now := w.now + time}

/-- What a request saves for a user: the answers, if `submit_quiz` returns. -/
def savedBy (userId : Int) (w : QuizWorld) : QuizRequest → Option (List String × Instant)
  | .submit user data =>
    match QuizSubmitSerializer.run data with
    | .error _ => none
    | .ok answers =>
      match (submitQuiz e w.now user answers w.db w.cache).1 with
      | .ok _ => if user = some userId then some (answers, w.now) else none
      | .error _ => none
  | _ => none

/-- What a history saves last. -/
def lastSaved (userId : Int) : QuizWorld → List QuizRequest → (last : Option (List String × Instant)) →
    Option (List String × Instant)
  | _, [], last => last
  | w, r :: rest, last => lastSaved userId (serveQuiz e w r) rest ((savedBy e userId w r).or last)

end

/-! ### The tables of a history -/

/-- The unique columns. -/
structure QuizWorld.Unique (w : QuizWorld) : Prop where
  ids : (w.db.travelTypes.map (·.id)).Nodup
  below : ∀ t ∈ w.db.travelTypes, t.id < w.nextId
  keys : (w.db.travelTypes.map (·.typeKey)).Nodup
  users : (w.db.results.map (·.userId)).Nodup

section
variable {w : QuizWorld} {typeKey : String} {data : TravelTypeSeed}

theorem mem_seedTravelType {t : TravelType} : t ∈ (seedTravelType typeKey data w).db.travelTypes ↔
    (∃ t' ∈ w.db.travelTypes, (if t'.typeKey = typeKey then {t' with name := data.name, imageUrl := data.imageUrl} else t') = t) ∨
      typeKey ∉ w.db.travelTypes.map (·.typeKey) ∧ t = ⟨w.nextId, typeKey, data.name, data.imageUrl⟩ := by
  unfold seedTravelType Lib.Upsert.setOrInsert
  dsimp only
  have hany : w.db.travelTypes.any (·.typeKey == typeKey) = true ↔ typeKey ∈ w.db.travelTypes.map (·.typeKey) := by
    simp
  split
  · rename_i h
    rw [List.mem_map, or_iff_left fun hnot => hnot.1 (hany.mp h)]
  · rename_i h
    have hnot : typeKey ∉ w.db.travelTypes.map (·.typeKey) := fun hmem => h (hany.mpr hmem)
    rw [List.mem_append, List.mem_singleton, and_iff_right hnot]
    refine or_congr_left ⟨fun ht => ⟨t, ht, if_neg fun heq : t.typeKey = typeKey => hnot (heq ▸ List.mem_map_of_mem ht)⟩, ?_⟩
    rintro ⟨t', ht', rfl⟩
    rwa [if_neg fun heq : t'.typeKey = typeKey => hnot (heq ▸ List.mem_map_of_mem ht')]

/-- A type keeps its id and its key. -/
theorem seedTravelType_keeps (typeKey : String) (data : TravelTypeSeed) {t : TravelType} (ht : t ∈ w.db.travelTypes) :
    ∃ t' ∈ (seedTravelType typeKey data w).db.travelTypes, t'.id = t.id ∧ t'.typeKey = t.typeKey := by
  refine ⟨_, mem_seedTravelType.mpr (.inl ⟨t, ht, rfl⟩), ?_⟩
  split <;> exact ⟨rfl, rfl⟩

theorem QuizWorld.Unique.seed (h : w.Unique) : (seedTravelType typeKey data w).Unique := by
  have hmap : ∀ (l : List TravelType) {κ : Type} (f : TravelType → κ),
      (∀ t : TravelType, f {t with name := data.name, imageUrl := data.imageUrl} = f t) →
        (l.map fun t => if t.typeKey = typeKey then {t with name := data.name, imageUrl := data.imageUrl} else t).map f = l.map f := by
    intro l κ f hf
    rw [List.map_map]
    refine List.map_congr_left fun t _ => ?_
    rw [Function.comp_apply]
    split
    · exact hf t
    · rfl
  refine ⟨?_, ?_, ?_, h.users⟩
  · unfold seedTravelType Lib.Upsert.setOrInsert
    dsimp only
    split
    · rw [hmap _ _ fun _ => rfl]
      exact h.ids
    · rw [List.map_append, List.map_singleton]
      refine h.ids.append (List.nodup_singleton _) (List.disjoint_singleton.mpr fun hmem => ?_)
      obtain ⟨t, ht, hid⟩ := List.mem_map.mp hmem
      exact absurd (h.below t ht) (by rw [hid]; exact lt_irrefl _)
  · intro t ht
    show t.id < w.nextId + 1
    obtain ⟨t', ht', rfl⟩ | ⟨-, rfl⟩ := mem_seedTravelType.mp ht
    · have hlt := h.below t' ht'
      split <;> exact lt_trans hlt (Int.lt_succ _)
    · exact Int.lt_succ _
  · unfold seedTravelType Lib.Upsert.setOrInsert
    dsimp only
    split
    · rw [hmap _ _ fun _ => rfl]
      exact h.keys
    · rename_i hnone
      rw [List.map_append, List.map_singleton]
      refine h.keys.append (List.nodup_singleton _) (List.disjoint_singleton.mpr fun hmem => hnone ?_)
      obtain ⟨t, ht, hkey⟩ := List.mem_map.mp hmem
      exact List.any_eq_true.mpr ⟨t, ht, beq_iff_eq.mpr hkey⟩

end

/-! ### What a submission does to the tables -/

section
variable {e : Engine StoredVector (Number binary64)} {now : Instant} {d : QuizDb} {cache : TypeCache} {userId : Option Int}

/-- An error leaves the tables. -/
theorem submitQuiz_error {answers : List String} {error : Exc} {d' : QuizDb} {cache' : TypeCache}
    (h : submitQuiz e now userId answers d cache = (.error error, d', cache')) : d' = d := by
  unfold submitQuiz at h
  split at h
  · exact (Prod.mk.inj (Prod.mk.inj h).2).1.symm
  · dsimp only at h
    split at h
    · exact (Prod.mk.inj (Prod.mk.inj h).2).1.symm
    · cases (Prod.mk.inj h).1

/-- The page that is made afterwards changes nothing. -/
theorem quizSubmitView_db {data : Json} {answers : List String} (h : QuizSubmitSerializer.run data = .ok answers) :
    (quizSubmitView e now userId data d cache).2.1 = (submitQuiz e now userId answers d cache).2.1 := by
  unfold quizSubmitView
  rw [h]
  dsimp only
  split
  · rename_i hsubmit
    rw [hsubmit]
  · rename_i hsubmit
    rw [hsubmit]
    dsimp only
    split <;> rfl

theorem quizSubmitView_refused {data : Json} {error : Refused} (h : QuizSubmitSerializer.run data = .error error) :
    (quizSubmitView e now userId data d cache).2.1 = d := by
  unfold quizSubmitView
  rw [h]

end

/-! ### The row of a user -/

/-- In single precision fifths are fifths. -/
theorem cast_fifths : ∀ k < 6, (fifths binary64 k).cast binary32 = fifths binary32 k := by decide +kernel

theorem storeVector_vectorOf {answers : List String} (hlength : answers.length = 12) :
    storeVector (vectorOf binary64 answers) = vectorOf binary32 answers := by
  unfold storeVector vectorOf
  rw [List.map_map]
  refine List.map_congr_left fun axis haxis => ?_
  exact cast_fifths _ (Nat.lt_succ_of_le (agreement_le hlength (List.mem_range.mp haxis)))

/-- The row of a user is of what was saved last. -/
def Stores (userId : Int) (last : Option (List String × Instant)) (d : QuizDb) : Prop :=
  match last with
  | none => d.results.find? (·.userId == userId) = none
  | some (answers, time) => Accepted answers ∧ ∃ t ∈ d.travelTypes, determineTypeKey (vectorOf binary64 answers) = .ok t.typeKey ∧
      d.results.find? (·.userId == userId) = some ⟨userId, t.id, vectorOf binary32 answers, time⟩

section
variable {e : Engine StoredVector (Number binary64)} {w : QuizWorld} {userId : Int} {last : Option (List String × Instant)}

theorem Stores.mono {d d' : QuizDb} (h : Stores userId last d) (hresults : d'.results = d.results)
    (htypes : ∀ t ∈ d.travelTypes, ∃ t' ∈ d'.travelTypes, t'.id = t.id ∧ t'.typeKey = t.typeKey) : Stores userId last d' := by
  cases last with
  | none => exact (congrArg _ hresults).trans h
  | some saved =>
    obtain ⟨haccepted, t, ht, hkey, hrow⟩ := h
    obtain ⟨t', ht', hid, hkey'⟩ := htypes t ht
    exact ⟨haccepted, t', ht', hkey' ▸ hkey, by rw [hresults, hid]; exact hrow⟩

theorem find?_saveResult (hw : w.Unique) (user : Int) (travelType : TravelType) (norm : List (Number binary64)) :
    (saveResult w.now (some user) travelType norm w.db).results.find? (·.userId == userId) =
      if user = userId then some ⟨user, travelType.id, storeVector norm, w.now⟩
      else w.db.results.find? (·.userId == userId) := by
  have hone : (([⟨user, travelType.id, storeVector norm, w.now⟩] : List QuizResult).map (·.userId)).Nodup :=
    List.nodup_singleton _
  refine Eq.trans (Lib.Upsert.find?_upserts hw.users hone userId) ?_
  by_cases hsame : user = userId
  · rw [if_pos hsame, List.find?_cons_of_pos (by simpa using hsame), Option.some_or]
  · rw [if_neg hsame, List.find?_cons_of_neg (by simpa using hsame), List.find?_nil, Option.none_or]

/-- **What a submission can do**: nothing to the tables, or save the answers. -/
theorem submit_cases (user : Option Int) (data : Json) :
    ((serveQuiz e w (.submit user data)).db = w.db ∧ ∀ userId, savedBy e userId w (.submit user data) = none) ∨
      ∃ answers travelType, Accepted answers ∧ travelType ∈ w.db.travelTypes ∧
        determineTypeKey (vectorOf binary64 answers) = .ok travelType.typeKey ∧
        (serveQuiz e w (.submit user data)).db = saveResult w.now user travelType (vectorOf binary64 answers) w.db ∧
        ∀ userId, savedBy e userId w (.submit user data) = if user = some userId then some (answers, w.now) else none := by
  show ((quizSubmitView e w.now user data w.db w.cache).2.1 = w.db ∧ _) ∨ ∃ answers travelType, _ ∧ _ ∧ _ ∧
    (quizSubmitView e w.now user data w.db w.cache).2.1 = _ ∧ _
  cases hrun : QuizSubmitSerializer.run data with
  | error error => exact .inl ⟨quizSubmitView_refused hrun, fun userId => by rw [savedBy, hrun]⟩
  | ok answers =>
    rw [quizSubmitView_db hrun]
    simp only [savedBy, hrun]
    rcases hsubmit : submitQuiz e w.now user answers w.db w.cache with ⟨result, d', cache'⟩
    cases result with
    | error error => exact .inl ⟨submitQuiz_error hsubmit, fun _ => rfl⟩
    | ok result =>
      obtain ⟨norm, typeKey, travelType, hscore, rfl, -, -⟩ := submitQuiz_ok hsubmit
      obtain ⟨hnorm, htypeKey, htravelType⟩ := scoreQuiz_ok hscore
      have haccepted := QuizSubmitSerializer.accepted hrun
      obtain rfl := Except.ok.inj ((calculateNormVector_eq haccepted).symm.trans hnorm)
      obtain ⟨hfind, rfl⟩ := getTravelType_ok htravelType
      exact .inr ⟨answers, travelType, haccepted, List.mem_of_find?_eq_some hfind, htypeKey, rfl, fun _ => rfl⟩

theorem QuizWorld.Unique.serve (hw : w.Unique) (r : QuizRequest) : (serveQuiz e w r).Unique := by
  cases r with
  | seed typeKey data => exact hw.seed
  | shared params => exact ⟨hw.ids, hw.below, hw.keys, hw.users⟩
  | places base => exact ⟨hw.ids, hw.below, hw.keys, hw.users⟩
  | wait time => exact ⟨hw.ids, hw.below, hw.keys, hw.users⟩
  | submit user data =>
    obtain ⟨hdb, -⟩ | ⟨answers, travelType, -, -, -, hdb, -⟩ := submit_cases (e := e) (w := w) user data
    · exact ⟨hdb ▸ hw.ids, hdb ▸ hw.below, hdb ▸ hw.keys, hdb ▸ hw.users⟩
    · have htypes : (serveQuiz e w (.submit user data)).db.travelTypes = w.db.travelTypes := by
        rw [hdb, saveResult_travelTypes]
      refine ⟨htypes ▸ hw.ids, htypes ▸ hw.below, htypes ▸ hw.keys, ?_⟩
      rw [hdb]
      cases user with
      | none => exact hw.users
      | some user => exact Lib.Upsert.nodup_upsert hw.users

theorem Stores.serve (hw : w.Unique) (h : Stores userId last w.db) (r : QuizRequest) :
    Stores userId ((savedBy e userId w r).or last) (serveQuiz e w r).db := by
  have hkeep : ∀ t ∈ w.db.travelTypes, ∃ t' ∈ w.db.travelTypes, t'.id = t.id ∧ t'.typeKey = t.typeKey :=
    fun t ht => ⟨t, ht, rfl, rfl⟩
  cases r with
  | seed typeKey data => exact h.mono rfl fun t ht => seedTravelType_keeps typeKey data ht
  | shared params => exact h.mono rfl hkeep
  | places base => exact h.mono rfl hkeep
  | wait time => exact h.mono rfl hkeep
  | submit user data =>
    obtain ⟨hdb, hsaved⟩ | ⟨answers, travelType, haccepted, hmem, hkey, hdb, hsaved⟩ := submit_cases (e := e) (w := w) user data
    · rw [hdb, hsaved]
      exact h
    · rw [hdb, hsaved]
      cases user with
      | none => exact h
      | some user =>
        by_cases hsame : user = userId
        · subst hsame
          rw [if_pos rfl, Option.some_or]
          refine ⟨haccepted, travelType, hmem, hkey, ?_⟩
          rw [find?_saveResult hw, if_pos rfl, storeVector_vectorOf haccepted.length]
        · rw [if_neg fun heq => hsame (Option.some.inj heq), Option.none_or]
          have hrow : (saveResult w.now (some user) travelType (vectorOf binary64 answers) w.db).results.find? (·.userId == userId) =
              w.db.results.find? (·.userId == userId) := by rw [find?_saveResult hw, if_neg hsame]
          cases last with
          | none => exact hrow.trans h
          | some saved =>
            obtain ⟨hother, t, ht, hkey', hfound⟩ := h
            exact ⟨hother, t, ht, hkey', hrow.trans hfound⟩

/-- The row after a history is of what it saved last. -/
theorem Stores.run (hw : w.Unique) (h : Stores userId last w.db) (requests : List QuizRequest) :
    (requests.foldl (serveQuiz e) w).Unique ∧
      Stores userId (lastSaved e userId w requests last) (requests.foldl (serveQuiz e) w).db := by
  induction requests generalizing w last with
  | nil => exact ⟨hw, h⟩
  | cons r rest ih => exact ih (hw.serve r) (h.serve hw r)

end

/-! ### The page of a user -/

/-- The user has no row and no page; or a row, and the page of the answers if the places can be shown on it. -/
def ResultShown (e : Engine StoredVector (Number binary64)) (userId : Int) (d : QuizDb) : Option (List String × Instant) → Prop
  | none => userId ∉ d.results.map (·.userId) ∧ quizResultView e userId d = .error quizResultNotFound
  | some (answers, time) => userId ∈ d.results.map (·.userId) ∧
    ∃ norm, calculateNormVector answers = .ok norm ∧
      ∃ t ∈ d.travelTypes, determineTypeKey norm = .ok t.typeKey ∧
        ∃ description typeTags labels accuracy, makeDescription norm = .ok description ∧ buildTypeTags t.typeKey = .ok typeTags ∧
          labelVector norm = .ok labels ∧ calculateAccuracy norm = .ok accuracy ∧
          if d.base.Styled then
            ∃ destinations, (getRecommendedPlaces e d.base norm).mapM renderMatch = .ok destinations ∧ quizResultView e userId d =
              .ok ⟨t.typeKey, t.name, description, t.imageUrl, typeTags, labels, accuracy, destinations, time⟩
          else quizResultView e userId d = .error .typeError

/-- A vector from a column makes the query that the vector made. -/
theorem getRecommendedPlaces_storeVector (e : Engine StoredVector (Number binary64)) (d : Db StoredVector)
    (norm : List (Number binary64)) : getRecommendedPlaces e d (storeVector norm) = getRecommendedPlaces e d norm := by
  have hstored : storeVector (storeVector norm) = storeVector norm := by
    unfold storeVector
    rw [List.map_map]
    exact List.map_congr_left fun x _ => Number.cast_cast binary32 x
  unfold getRecommendedPlaces
  rw [hstored]

/-- The text of six sides. -/
def describe (s : Sides) : String :=
  (if s.isActive then "체력을 아낌없이 쓰는 활동형 여행자예요." else "천천히 스며드는 여행을 좋아하는 힐링형 여행자예요.") ++ " " ++
    planSoloDescription s.isPlanned s.isSolo ++ " " ++
    (if s.isNature then "자연 속에서 에너지를 충전하는 타입이에요." else "도시의 문화와 에너지에서 영감을 받는 타입이에요.") ++ " " ++
    experienceBudgetDescription s.isCultural s.isBudget

theorem makeDescription_vectorOf {f : Lib.Format} [Lib.PySum f] [ExactFifths f] {answers : List String}
    (hlength : answers.length = 12) : makeDescription (vectorOf f answers) = .ok (describe (sidesOf answers)) := by
  rw [makeDescription, sides_vectorOf hlength]
  rfl

theorem Stores.shown {e : Engine StoredVector (Number binary64)} {w : QuizWorld} {userId : Int}
    {last : Option (List String × Instant)} (hw : w.Unique) (h : Stores userId last w.db) : ResultShown e userId w.db last := by
  cases last with
  | none =>
    have hrow : w.db.results.find? (·.userId == userId) = none := h
    refine ⟨fun hmem => ?_, by rw [quizResultView, getUserQuizResult, hrow]; rfl⟩
    obtain ⟨row, hmem, huser⟩ := List.mem_map.mp hmem
    exact List.find?_eq_none.mp hrow row hmem (beq_iff_eq.mpr huser)
  | some saved =>
    obtain ⟨answers, time⟩ := saved
    obtain ⟨haccepted, t, ht, hkey, hrow⟩ := h
    have hlength := haccepted.length
    have htype : w.db.travelTypes.find? (·.id == t.id) = some t := (Lib.Upsert.find?_eq_some_iff hw.ids).mpr ⟨ht, rfl⟩
    obtain ⟨typeTags, htags⟩ : ∃ typeTags, buildTypeTags t.typeKey = .ok typeTags := by
      rw [Except.ok.inj (hkey.symm.trans (determineTypeKey_eq hlength))]
      exact ⟨_, buildTypeTags_typeKeyOf ..⟩
    have hmem : userId ∈ w.db.results.map (·.userId) := List.mem_map.mpr ⟨_, List.mem_of_find?_eq_some hrow, rfl⟩
    refine ⟨hmem, _, calculateNormVector_eq haccepted, t, ht, hkey, _, _, _, _, makeDescription_vectorOf hlength, htags,
      labelVector_vectorOf hlength, calculateAccuracy_vectorOf hlength, ?_⟩
    have hview : quizResultView e userId w.db =
        renderResultPage e w.db.base ⟨userId, t.id, vectorOf binary32 answers, time⟩ t := by
      rw [quizResultView, getUserQuizResult, hrow]
      dsimp only
      rw [htype]
      rfl
    rw [hview, renderResultPage, makeDescription_vectorOf hlength, htags, labelVector_vectorOf hlength,
      calculateAccuracy_vectorOf hlength, ← getRecommendedPlaces_storeVector, storeVector_vectorOf hlength]
    have hplaces := mapM_renderMatch e w.db.base (vectorOf binary32 answers)
    split at hplaces <;> rename_i hstyled
    · obtain ⟨destinations, hplaces⟩ := hplaces
      rw [if_pos hstyled]
      exact ⟨destinations, hplaces, by rw [hplaces]; rfl⟩
    · rw [if_neg hstyled, hplaces]
      rfl

/-- **A user's own page shows the submission that was saved last**, as it was shown then: the
single precision of the column changes nothing of it. Each user who has saved one has one row, the
others have none, and only the places can keep the page from being shown. -/
theorem result_page (e : Engine StoredVector (Number binary64)) (requests : List QuizRequest) (userId : Int) :
    ((requests.foldl (serveQuiz e) {}).db.results.map (·.userId)).Nodup ∧
      ResultShown e userId (requests.foldl (serveQuiz e) {}).db (lastSaved e userId {} requests none) := by
  have hw : ({} : QuizWorld).Unique := ⟨List.nodup_nil, fun _ h => (nomatch h), List.nodup_nil, List.nodup_nil⟩
  have hstores : Stores userId none ({} : QuizWorld).db := rfl
  obtain ⟨hunique, hlast⟩ := Stores.run (e := e) hw hstores requests
  exact ⟨hunique.users, hlast.shown hunique⟩

end TravelMaker
