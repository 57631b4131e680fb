import Mathlib
import TravelMaker.Lib.Delimited
import TravelMaker.Lib.DoubleRoundTrip
import TravelMaker.Place.Served

/-! The key of the hybrid search.

The payload is put together without escaping, and a keyword may have the separators. What
follows it has none: tags are numbers, and a float is printed with digits and a point. So
the payload is taken apart from the right, and an entry is only found by requests that ask
the same as the one that filled it. -/
namespace TravelMaker
open Lib (Double)

/-! ### The payload -/

/-- `",".join(f"{v:.4f}" for v in user_vector)`. -/
def hybridVectorText (userVector : List Double) : List Char :=
  List.intercalate [','] (userVector.map fun v => (v.fixedText 4).toList)

/-- `",".join(str(t) for t in sorted(tags or []))`. -/
def hybridTagsText (tags : List Int) : List Char :=
  List.intercalate [','] ((orderBy id tags).map fun t => (toString t).toList)

def hybridPayload (keyword : String) (tags : List Int) (userVector : List Double) : String :=
  .ofList (keyword.toList ++ '|' :: (hybridTagsText tags ++ '|' :: hybridVectorText userVector))

/-- `_hybrid_cache_key`, with the digest as a parameter. -/
def hybridCacheKey (md5 : String → String) (keyword : String) (tags : List Int) (userVector : List Double) : String :=
  "hybrid_ids:" ++ md5 (hybridPayload keyword tags userVector)

example : hybridPayload "a|b" [3, -1] [.ofRat false (1 / 2)] = "a|b|-1,3|0.5000" := by decide +kernel

/-! ### The parts -/

/-- The number is printed as its digits, after a sign. -/
theorem toList_toString_int (t : Int) :
    (toString t).toList = (if t < 0 then ['-'] else []) ++ Nat.toDigits 10 t.natAbs := by
  cases t with
  | ofNat n => exact Nat.toList_repr
  | negSucc n =>
    rw [if_pos (Int.negSucc_lt_zero n), Int.toString_eq_repr]
    show ("-" ++ Nat.repr (n + 1)).toList = _
    rw [String.toList_append, Nat.toList_repr]
    rfl

theorem separator_not_mem_intText {sep : Char} (hdigit : sep.isDigit = false) (hminus : sep ≠ '-') (t : Int) :
    sep ∉ (toString t).toList := by
  intro hmem
  rw [toList_toString_int, List.mem_append] at hmem
  rcases hmem with hmem | hmem
  · split at hmem
    · exact hminus (List.mem_singleton.mp hmem)
    · cases hmem
  · rw [Nat.isDigit_of_mem_toDigits (by decide) (by decide) hmem] at hdigit
    cases hdigit

theorem separator_not_mem_fixedText {sep : Char} (hsep : Double.isNumeric sep = false) (v : Double) :
    sep ∉ (v.fixedText 4).toList := by
  intro hmem
  rw [Double.isNumeric_fixedText 4 v sep hmem] at hsep
  cases hsep

theorem intText_ne_nil (t : Int) : (toString t).toList ≠ [] := by
  rw [toList_toString_int]
  exact List.append_ne_nil_of_right_ne_nil _ Nat.toDigits_ne_nil

theorem joinable_tags (tags : List Int) : Lib.Delimited.Joinable ',' (tags.map fun t => (toString t).toList) := by
  intro text htext
  obtain ⟨t, -, rfl⟩ := List.mem_map.mp htext
  exact ⟨intText_ne_nil t, separator_not_mem_intText (by decide) (by decide) t⟩

theorem joinable_vector (userVector : List Double) :
    Lib.Delimited.Joinable ',' (userVector.map fun v => (v.fixedText 4).toList) := by
  intro text htext
  obtain ⟨v, -, rfl⟩ := List.mem_map.mp htext
  exact ⟨Double.fixedText_ne_nil 4 v, separator_not_mem_fixedText (by decide) v⟩

theorem hybridTagsText_inj {tags tags' : List Int} : hybridTagsText tags = hybridTagsText tags' ↔ tags.Perm tags' := by
  have hinj : Function.Injective fun t : Int => (toString t).toList := fun t t' h => Int.repr_inj.mp (String.toList_inj.mp h)
  rw [hybridTagsText, hybridTagsText, Lib.Delimited.intercalate_inj (joinable_tags _) (joinable_tags _),
    hinj.list_map.eq_iff]
  constructor
  · intro h
    exact orderBy_perm.symm.trans ((List.Perm.of_eq h).trans orderBy_perm)
  · intro h
    exact orderBy_eq_of_perm (orderBy_perm.trans h.symm) orderBy_pairwise fun _ _ _ _ heq => heq

theorem hybridVectorText_inj {userVector userVector' : List Double} :
    hybridVectorText userVector = hybridVectorText userVector' ↔
      userVector.map (Double.fixedText 4) = userVector'.map (Double.fixedText 4) := by
  have hinj : Function.Injective String.toList := fun _ _ => String.toList_inj.mp
  rw [hybridVectorText, hybridVectorText, Lib.Delimited.intercalate_inj (joinable_vector _) (joinable_vector _),
    ← hinj.list_map.eq_iff, List.map_map, List.map_map]
  rfl

/-- The bar joins nothing. -/
theorem bar_not_mem_intercalate {texts : List (List Char)} (h : ∀ text ∈ texts, '|' ∉ text) :
    '|' ∉ List.intercalate [','] texts := by
  intro hmem
  rcases Lib.Delimited.mem_intercalate hmem with ⟨text, htext, hbar⟩ | hbar
  · exact h text htext hbar
  · exact absurd hbar (by decide)

theorem bar_not_mem_hybridTagsText (tags : List Int) : '|' ∉ hybridTagsText tags :=
  bar_not_mem_intercalate (List.forall_mem_map.mpr fun t _ => separator_not_mem_intText (by decide) (by decide) t)

theorem bar_not_mem_hybridVectorText (userVector : List Double) : '|' ∉ hybridVectorText userVector :=
  bar_not_mem_intercalate (List.forall_mem_map.mpr fun v _ => separator_not_mem_fixedText (by decide) v)

/-- The payload has what it was put together from, but for the order of the tags and the
rounding of the vector. -/
theorem hybridPayload_inj {keyword keyword' : String} {tags tags' : List Int} {userVector userVector' : List Double} :
    hybridPayload keyword tags userVector = hybridPayload keyword' tags' userVector' ↔
      keyword = keyword' ∧ tags.Perm tags' ∧ userVector.map (Double.fixedText 4) = userVector'.map (Double.fixedText 4) := by
  have hassoc : ∀ keyword tags vector : List Char,
      keyword ++ '|' :: (tags ++ '|' :: vector) = (keyword ++ '|' :: tags) ++ '|' :: vector := by simp
  rw [hybridPayload, hybridPayload, String.ofList_inj, hassoc, hassoc,
    Lib.Delimited.append_sep_inj (bar_not_mem_hybridVectorText _) (bar_not_mem_hybridVectorText _),
    Lib.Delimited.append_sep_inj (bar_not_mem_hybridTagsText _) (bar_not_mem_hybridTagsText _),
    hybridTagsText_inj, hybridVectorText_inj, String.toList_inj, and_assoc]

/-! ### The entries -/

section
variable {V D K : Type}

/-- A request that the hybrid search answers, with the tables that it is asked on. -/
structure HybridRequest (V D K : Type) where
  recommender : Recommender V D K
  catalog : Catalog V
  keyword : String
  tags : List Int
  userVector : V
  field : VectorField

namespace HybridRequest
variable (q : HybridRequest V D K)

def key : K := q.recommender.hybridCacheKey q.keyword q.tags q.userVector

/-- `sorted_ids`. -/
def sortedIds : List Int :=
  let (candidateIds, exactMatch) := hybridCandidates q.recommender q.catalog q.keyword q.tags
  orderBy (fun id => OrderDual.toDual (hybridScore q.recommender q.catalog q.userVector q.field q.keyword exactMatch id))
    candidateIds

end HybridRequest

/-- What an event asks of the hybrid search. -/
def hybridRequest? (s : Served V K) : Event V D K → Option (HybridRequest V D K)
  | .recommend r userId keyword tags =>
    if keyword = "" then none
    else ((s.catalog.stageVector userId).filter (r.engine.nonzero ·.1)).map fun (userVector, field) =>
      ⟨r, s.catalog, keyword, tags, userVector, field⟩
  | _ => none

variable [DecidableEq K] [LinearOrder D]

/-- What a history has asked of the hybrid search. -/
def hybridRequests : Served V K → List (Event V D K) → List (HybridRequest V D K)
  | _, [] => []
  | s, event :: rest => (hybridRequest? s event).toList ++ hybridRequests (s.step event) rest

omit [LinearOrder D] in
/-- A search leaves the entries, or adds its own. -/
theorem hybrid_getPlacesHybrid {r : Recommender V D K} {c : Catalog V} {userVector : V} {keyword : String} {tags : List Int}
    {field : VectorField} {caches : Caches K} {key : K} {ids : List Int}
    (h : (getPlacesHybrid r c userVector keyword tags field caches).2.hybrid key = some ids) :
    caches.hybrid key = some ids ∨
      key = (HybridRequest.mk r c keyword tags userVector field).key ∧
        ids = (HybridRequest.mk r c keyword tags userVector field).sortedIds := by
  unfold getPlacesHybrid at h
  dsimp only at h
  split at h
  · exact .inl h
  · split at h
    · exact .inl h
    · have hentry : Function.update caches.hybrid (r.hybridCacheKey keyword tags userVector)
          (some (HybridRequest.mk r c keyword tags userVector field).sortedIds) key = some ids := h
      by_cases hkey : key = r.hybridCacheKey keyword tags userVector
      · rw [hkey, Function.update_self] at hentry
        exact .inr ⟨hkey, (Option.some.inj hentry).symm⟩
      · rw [Function.update_of_ne hkey] at hentry
        exact .inl hentry

omit [LinearOrder D] [DecidableEq K] in
theorem hybrid_getPopularPlaces (e : Engine V D) (c : Catalog V) (tagIds : List Int) {regionTagId : Option Int}
    {limit : Option Nat} {caches : Caches K} :
    (getPopularPlaces e c tagIds regionTagId limit caches).2.hybrid = caches.hybrid := by
  unfold getPopularPlaces
  dsimp only
  split
  · rfl
  · split <;> rfl

omit [DecidableEq K] [LinearOrder D] in
theorem hybridRequest?_recommend {r : Recommender V D K} {s : Served V K} {userId : Option Int} {keyword : String}
    {tags : List Int} {userVector : V} {field : VectorField} (hkeyword : keyword ≠ "")
    (hvector : (s.catalog.stageVector userId).filter (r.engine.nonzero ·.1) = some (userVector, field)) :
    hybridRequest? s (.recommend r userId keyword tags) = some ⟨r, s.catalog, keyword, tags, userVector, field⟩ := by
  unfold hybridRequest?
  dsimp only
  rw [if_neg hkeyword, hvector]
  rfl

theorem hybrid_recommendedPlaces {r : Recommender V D K} {s : Served V K} {userId : Option Int} {keyword : String}
    {tags : List Int} {answer : List ListedPlace × Caches K}
    (hanswer : recommendedPlaces r s.catalog userId keyword tags s.caches = .ok answer) {key : K} {ids : List Int}
    (h : answer.2.hybrid key = some ids) : s.caches.hybrid key = some ids ∨
      ∃ q, hybridRequest? s (.recommend r userId keyword tags) = some q ∧ key = q.key ∧ ids = q.sortedIds := by
  cases hvector : (s.catalog.stageVector userId).filter (r.engine.nonzero ·.1) with
  | none =>
    by_cases hkeyword : keyword = ""
    · subst hkeyword
      rw [recommendedPlaces_popular hvector] at hanswer
      rw [← Except.ok.inj hanswer, hybrid_getPopularPlaces] at h
      exact .inl h
    · rw [recommendedPlaces_inMemory hvector hkeyword] at hanswer
      obtain rfl := Except.ok.inj hanswer
      rw [hybrid_getPopularPlaces] at h
      exact .inl h
  | some found =>
    obtain ⟨userVector, field⟩ := found
    by_cases hkeyword : keyword = ""
    · subst hkeyword
      -- the rankings leave the caches as they are
      obtain ⟨places, hplaces, -⟩ := placesSortedBy_none r.engine s.catalog userVector tags (s.catalog.featureRows field)
      rw [recommendedPlaces_vector hvector hplaces] at hanswer
      obtain rfl := Except.ok.inj hanswer
      exact .inl h
    · rw [recommendedPlaces_hybrid hvector hkeyword] at hanswer
      rw [← Except.ok.inj hanswer] at h
      exact (hybrid_getPlacesHybrid h).imp_right fun hfilled => ⟨_, hybridRequest?_recommend hkeyword hvector, hfilled⟩

/-- An entry was there before, or the request of the event has filled it. -/
theorem hybrid_step {s : Served V K} {event : Event V D K} {key : K} {ids : List Int}
    (h : (s.step event).caches.hybrid key = some ids) :
    s.caches.hybrid key = some ids ∨ ∃ q, hybridRequest? s event = some q ∧ key = q.key ∧ ids = q.sortedIds := by
  cases event with
  | recommend r userId keyword tags =>
    obtain ⟨answer, hanswer, -⟩ := answers_recommend r s.catalog userId keyword tags s.caches
    unfold Served.step at h
    rw [serve_recommend hanswer] at h
    exact hybrid_recommendedPlaces hanswer h
  | popular e tagIds regionTagId limit =>
    rw [← hybrid_getPopularPlaces e s.catalog tagIds]
    exact .inl h
  | detail placeId userId =>
    unfold Served.step Served.serve at h
    dsimp only at h
    obtain ⟨place, marked, -, hserved⟩ | ⟨-, hserved⟩ | ⟨place, marked, -, -, hserved⟩ :=
      getPlaceDetail_cases s.catalog placeId userId s.caches
    · rw [hserved] at h
      exact .inl h
    · rw [hserved] at h
      exact .inl h
    · rw [hserved] at h
      exact .inl h
  | hybridExpires expired =>
    rcases Caches.of_update h with hold | hnone
    · exact .inl hold
    · cases hnone
  | list => exact .inl h
  | popularExpires => exact .inl h
  | detailExpires => exact .inl h
  | syncIncremental => exact .inl h
  | syncItem => exact .inl h

omit [LinearOrder D] in
/-- Each entry is what one of these requests has found. -/
def FilledBy (requests : List (HybridRequest V D K)) (caches : Caches K) : Prop :=
  ∀ key ids, caches.hybrid key = some ids → ∃ q ∈ requests, key = q.key ∧ ids = q.sortedIds

/-- The entries after a history are of its requests, or of those before it. -/
theorem filledBy_history {before : List (HybridRequest V D K)} {s : Served V K} (h : FilledBy before s.caches)
    (events : List (Event V D K)) : FilledBy (before ++ hybridRequests s events) (events.foldl Served.step s).caches := by
  induction events generalizing before s with
  | nil =>
    rw [hybridRequests, List.append_nil]
    exact h
  | cons event rest ih =>
    rw [hybridRequests, ← List.append_assoc]
    refine ih fun key ids hentry => ?_
    rcases hybrid_step hentry with hold | ⟨q, hq, hfilled⟩
    · obtain ⟨q, hq, hfilled⟩ := h key ids hold
      exact ⟨q, List.mem_append_left _ hq, hfilled⟩
    · exact ⟨q, List.mem_append_right _ (Option.mem_toList.mpr hq), hfilled⟩

end

/-- The requests of a history have the keys of the service. -/
def KeyedBy {D : Type} (md5 : String → String) (q : HybridRequest (List Double) D String) : Prop :=
  q.recommender.hybridCacheKey = hybridCacheKey md5

/-- **The hybrid key.** Payloads are equal only for the same keyword, tags and rounded vector, and they do
not depend on the order of the tags. So, as long as the digests of different payloads are
different, what is found in the cache was put there for the same keyword, tags and rounded
vector, after any history that started without entries. -/
theorem hybridCacheKey_separates (md5 : String → String) :
    (∀ keyword keyword' tags tags' userVector userVector',
      hybridPayload keyword tags userVector = hybridPayload keyword' tags' userVector' →
        keyword = keyword' ∧ tags.Perm tags' ∧ userVector.length = userVector'.length ∧
          userVector.map (Double.fixedText 4) = userVector'.map (Double.fixedText 4)) ∧
    (∀ keyword tags tags' userVector, tags.Perm tags' →
      hybridPayload keyword tags userVector = hybridPayload keyword tags' userVector) ∧
    ∀ (D : Type) [LinearOrder D] (s : Served (List Double) String) (events : List (Event (List Double) D String))
      (keyword : String) (tags : List Int) (userVector : List Double) (ids : List Int),
      s.caches.hybrid = (fun _ => none) → (∀ q ∈ hybridRequests s events, KeyedBy md5 q) →
      (∀ q ∈ hybridRequests s events,
        md5 (hybridPayload q.keyword q.tags q.userVector) = md5 (hybridPayload keyword tags userVector) →
          hybridPayload q.keyword q.tags q.userVector = hybridPayload keyword tags userVector) →
      (events.foldl Served.step s).caches.hybrid (hybridCacheKey md5 keyword tags userVector) = some ids →
      ∃ q ∈ hybridRequests s events, ids = q.sortedIds ∧ q.keyword = keyword ∧ q.tags.Perm tags ∧
        q.userVector.length = userVector.length ∧
        q.userVector.map (Double.fixedText 4) = userVector.map (Double.fixedText 4) := by
  have hsame : ∀ {keyword keyword' tags tags' userVector userVector'},
      hybridPayload keyword tags userVector = hybridPayload keyword' tags' userVector' →
        keyword = keyword' ∧ tags.Perm tags' ∧ userVector.length = userVector'.length ∧
          userVector.map (Double.fixedText 4) = userVector'.map (Double.fixedText 4) := by
    intro keyword keyword' tags tags' userVector userVector' h
    obtain ⟨hkeyword, htags, hvector⟩ := hybridPayload_inj.mp h
    have hlength := congrArg List.length hvector
    rw [List.length_map, List.length_map] at hlength
    exact ⟨hkeyword, htags, hlength, hvector⟩
  refine ⟨fun _ _ _ _ _ _ => hsame, fun _ _ _ _ htags => hybridPayload_inj.mpr ⟨rfl, htags, rfl⟩, ?_⟩
  intro D _ s events keyword tags userVector ids hcold hkeyed hmd5 hentry
  have hnone : FilledBy (V := List Double) (D := D) [] s.caches := by
    intro key ids h
    rw [hcold] at h
    cases h
  obtain ⟨q, hq, hkey, hids⟩ := filledBy_history hnone events _ ids hentry
  rw [HybridRequest.key, hkeyed q hq] at hkey
  have hdigest := String.append_right_inj _ |>.mp hkey
  exact ⟨q, hq, hids, hsame (hmd5 q hq hdigest.symm)⟩

/-! ### A search by the sea -/

/-- Six components, of which the first is given. -/
def seaVector (first : Double) : List Double := first :: List.replicate 5 (.ofRat false (1 / 2))

/-- `md5(...).hexdigest()` of the one payload that there is. -/
def beachDigest (payload : String) : String :=
  if payload = "바다|1,2|0.5000,0.5000,0.5000,0.5000,0.5000,0.5000" then "e46af2b58fc85f7fd448ba3a3a64dc4c" else ""

def beachRecommender : Recommender (List Double) Nat String where
  engine := {plainEngine with distance := fun _ _ => 0, nonzero := fun vector => vector.any (·.toRat? != some 0)}
  search := plainSearch
  hybridCacheKey := hybridCacheKey beachDigest
  float distance := distance

def beach : Served (List Double) String where
  catalog := {
    db := {
      places := [{id := 1, contentId := 1, contentTypeId := 12, placeName := "바다"}]
      tags := [⟨1, "테마", "바다"⟩, ⟨2, "테마", "산"⟩]
      placeTags := [(1, 1), (1, 2)]}
    testResults := [⟨1, seaVector (.ofRat false (1 / 2))⟩]}

/-- A vector with the same decimals finds the entry. -/
theorem hybridCacheKey_separates_beach :
    ∃ q ∈ hybridRequests beach [.recommend beachRecommender (some 1) "바다" [2, 1]], [1] = q.sortedIds ∧ q.keyword = "바다" ∧
      q.tags.Perm [1, 2] ∧ q.userVector.length = (seaVector (.ofRat false (50001 / 100000))).length ∧
      q.userVector.map (Double.fixedText 4) = (seaVector (.ofRat false (50001 / 100000))).map (Double.fixedText 4) := by
  have hpayload : hybridPayload "바다" [2, 1] (seaVector (.ofRat false (1 / 2))) =
      hybridPayload "바다" [1, 2] (seaVector (.ofRat false (50001 / 100000))) := by decide +kernel
  have hvector : (beach.catalog.stageVector (some 1)).filter (beachRecommender.engine.nonzero ·.1) =
      some (seaVector (.ofRat false (1 / 2)), .style) := by decide +kernel
  have hrequests : hybridRequests beach [.recommend beachRecommender (some 1) "바다" [2, 1]] =
      [⟨beachRecommender, beach.catalog, "바다", [2, 1], seaVector (.ofRat false (1 / 2)), .style⟩] := by
    rw [hybridRequests, hybridRequests, hybridRequest?_recommend (by decide) hvector]
    rfl
  refine (hybridCacheKey_separates beachDigest).2.2 Nat beach _ "바다" [1, 2] (seaVector (.ofRat false (50001 / 100000))) [1] rfl
    ?_ ?_ (by decide +kernel)
  · rw [hrequests]
    exact List.forall_mem_singleton.mpr rfl
  · rw [hrequests]
    exact List.forall_mem_singleton.mpr fun _ => hpayload

end TravelMaker
