import TravelMaker.Lib.Worklist
import TravelMaker.Place.AiTagging
import TravelMaker.Place.Batches

/-! Runs of `ai_tag` with `only_missing` and a `limit`, one after the other.

A place that gets no vector stays in front of the backlog, and the next run asks for it
again: `workedOff_iff` says how far the runs get. -/
namespace TravelMaker
open Lib (Double Txn Worklist)

variable {V : Type}

section
variable (provider : Place → ModelReply) (column : List Double → V)

/-- The provider has a valid answer for the place. -/
def Place.answered (place : Place) : Bool :=
  match analyzePlace provider place with
  | .ok (some _) => true
  | _ => false

/-- The provider has an answer, an `AITaggingError`, or is not asked. -/
def Place.settled (place : Place) : Prop := ∀ e, analyzePlace provider place = .error e → e = aiTaggingError

/-- The vector that a run stores for the place. -/
def styleOf (place : Place) : Option V :=
  match analyzePlace provider place with
  | .ok (some result) => some (column result.styleVector)
  | _ => none

variable (contentTypeId : Option Int) (n : Nat)

/-- One run with `limit=n`. -/
def limitedTagging (b : Txn.Base (Db V)) : Txn.Base (Db V) :=
  ((aiTag provider column {contentTypeId := contentTypeId, limit := n, onlyMissing := true}).perform b).2

/-- After as many runs as the backlog takes, no place is left for which there is an answer. -/
def WorkedOff (b : Txn.Base (Db V)) : Prop :=
  ∀ place ∈ ((limitedTagging provider column contentTypeId n)^[runsFor
      (b.db.aiTagCandidates contentTypeId true).length n] b).db.aiTagCandidates contentTypeId true,
    place.answered provider = false

/-- How many places of the backlog `r` runs get to: each run takes again the places before
that got no vector. -/
def backlogReached (backlog : List Place) : Nat → Nat
  | 0 => 0
  | r + 1 => backlogReached backlog r +
      (n - ((backlog.take (backlogReached backlog r)).filter fun place => !place.answered provider).length)

end

/-! ### A run as a function of the tables -/

section
variable {provider : Place → ModelReply} {column : List Double → V}

variable (column) in
theorem isSome_styleOf (place : Place) : (styleOf provider column place).isSome = place.answered provider := by
  unfold styleOf Place.answered
  rcases analyzePlace provider place with e | result
  · rfl
  · cases result <;> rfl

theorem persistAiResult_eval (place : Place) (result : AiResult) (d : Db V) (k : Nat) :
    (persistAiResult column place result).eval d k =
      .ok ((), (d.retagAi place.id result.names).saveStyle place.id (column result.styleVector), k) := by
  unfold persistAiResult
  rw [Txn.eval_bind_ok (assignAiTags_eval place.id result.names d k)]
  rfl

theorem styleVector?_saveStyle (placeId : Int) (vector : V) (d : Db V) :
    (d.saveStyle placeId vector).styleVector? = Function.update d.styleVector? placeId (some vector) := by
  funext other
  have hfind := Lib.Upsert.find?_setOrInsert PlaceFeature.placeId
    (fun feature : PlaceFeature V => {feature with styleVector := some vector})
    {placeId := placeId, styleVector := some vector} (fun _ => rfl) rfl d.placeFeatures other
  refine (congrArg (Option.bind · PlaceFeature.styleVector) hfind).trans ?_
  unfold Db.styleVector?
  by_cases hother : other = placeId
  · rw [if_pos hother, hother, Function.update_self]
    cases d.placeFeatures.find? (·.placeId == placeId) <;> rfl
  · rw [if_neg hother, Function.update_of_ne hother]

/-- What a run writes for some places. -/
def styleWrites (provider : Place → ModelReply) (column : List Double → V) (places : List Place) :
    List (Int × (Option V → Option V)) :=
  places.flatMap fun place => (styleOf provider column place).toList.map fun vector => (place.id, fun _ => some vector)

variable (column) in
theorem aiTagLoop_eval {places : List Place} (hsettled : ∀ place ∈ places, place.settled provider)
    (summary : AiTagSummary) (d : Db V) (k : Nat) :
    ∃ summary' d', (aiTagLoop provider column false places summary).eval d k = .ok (summary', d', k) ∧
      d'.places = d.places ∧ d'.styleVector? = Worklist.apply (styleWrites provider column places) d.styleVector? := by
  induction places generalizing summary d with
  | nil => exact ⟨summary, d, rfl, rfl, rfl⟩
  | cons place rest ih =>
    rw [List.forall_mem_cons] at hsettled
    obtain ⟨hplace, hrest⟩ := hsettled
    unfold aiTagLoop styleWrites
    rw [List.flatMap_cons, Worklist.apply_append]
    cases hanalyze : analyzePlace provider place with
    | error e =>
      have hstyle : styleOf provider column place = none := by simp [styleOf, hanalyze]
      rw [hstyle]
      dsimp only
      rw [if_pos (hplace e hanalyze)]
      exact ih hrest _ d
    | ok result =>
      cases result with
      | none =>
        have hstyle : styleOf provider column place = none := by simp [styleOf, hanalyze]
        rw [hstyle]
        exact ih hrest _ d
      | some result =>
        have hstyle : styleOf provider column place = some (column result.styleVector) := by
          simp [styleOf, hanalyze]
        obtain ⟨summary', d', heval, hplaces, hvectors⟩ := ih hrest {summary with processed := summary.processed + 1}
          ((d.retagAi place.id result.names).saveStyle place.id (column result.styleVector))
        refine ⟨summary', d', ?_, hplaces, ?_⟩
        · show (persistAiResult column place result >>= fun _ => _).eval d k = _
          rw [Txn.eval_bind_ok (persistAiResult_eval place result d k)]
          exact heval
        · rw [hvectors, styleVector?_saveStyle, hstyle]
          rfl

end

/-! ### A run as a run of its work list -/

def placeKeys (places : List Place) : List Int := (places.map (·.id)).insertionSort (· ≤ ·)

/-- The places without a vector, by id. -/
def taggingWork (provider : Place → ModelReply) (column : List Double → V) (contentTypeId : Option Int)
    (places : List Place) : Worklist Int (Option V) where
  pending id vector := vector.isNone && (places.find? (·.id == id)).any (·.analyzable contentTypeId)
  steps id _ := (((places.find? (·.id == id)).bind (styleOf provider column)).map fun vector _ => some vector).toList

section
variable {provider : Place → ModelReply} {column : List Double → V} {contentTypeId : Option Int}

theorem tagging_pending (places : List Place) (id : Int) (x : Option V) :
    (taggingWork provider column contentTypeId places).pending id x =
      (x.isNone && (places.find? (·.id == id)).any (·.analyzable contentTypeId)) := rfl

/-- What is pending gets the vector of its answer. -/
theorem tagging_finish (places : List Place) (id : Int) (x : Option V) :
    (taggingWork provider column contentTypeId places).finish id x =
      if (taggingWork provider column contentTypeId places).pending id x
      then ((places.find? (·.id == id)).bind (styleOf provider column)).or x else x := by
  have hafter : Worklist.after ((taggingWork provider column contentTypeId places).steps id x) x =
      ((places.find? (·.id == id)).bind (styleOf provider column)).or x := by
    show Worklist.after (Option.toList (Option.map _ _)) x = _
    cases (places.find? (·.id == id)).bind (styleOf provider column) <;> rfl
  rw [Worklist.finish, hafter]

theorem tagging_finish_finish (places : List Place) (id : Int) (x : Option V) :
    (taggingWork provider column contentTypeId places).finish id
        ((taggingWork provider column contentTypeId places).finish id x) =
      (taggingWork provider column contentTypeId places).finish id x := by
  rw [tagging_finish, tagging_finish, tagging_pending, tagging_pending]
  cases x with
  | some vector => rfl
  | none =>
    cases (places.find? (·.id == id)).any (·.analyzable contentTypeId) with
    | false => rfl
    | true => cases (places.find? (·.id == id)).bind (styleOf provider column) <;> rfl

variable {d : Db V} {n : Nat} (hids : (d.places.map (·.id)).Nodup)

omit hids in
theorem mem_aiTagCandidates {place : Place} : place ∈ d.aiTagCandidates contentTypeId true ↔
    place ∈ d.places ∧ place.analyzable contentTypeId = true ∧ d.styleVector? place.id = none := by
  simp [Db.aiTagCandidates, List.mem_insertionSort, List.mem_filter]

include hids

theorem find?_place {place : Place} (hplace : place ∈ d.places) : d.places.find? (·.id == place.id) = some place :=
  Db.place?_of_mem hids hplace

variable (provider column) in
theorem aiTagCandidates_ids : (d.aiTagCandidates contentTypeId true).map (·.id) =
    (taggingWork provider column contentTypeId d.places).targets (placeKeys d.places) d.styleVector? := by
  refine Lib.keys_sorted_filter Place.id fun place hplace => ?_
  show ((d.styleVector? place.id).isNone && (d.places.find? (·.id == place.id)).any _) = _
  rw [find?_place hids hplace, Option.any_some, Bool.and_comm]
  rfl

/-- A place of the backlog that was asked for is pending again if it has no answer. -/
theorem pending_finish_place {place : Place} (hplace : place ∈ d.aiTagCandidates contentTypeId true) :
    (taggingWork provider column contentTypeId d.places).pending place.id
      ((taggingWork provider column contentTypeId d.places).finish place.id (d.styleVector? place.id)) =
        !place.answered provider := by
  obtain ⟨hmem, hanalyzable, hnone⟩ := mem_aiTagCandidates.mp hplace
  rw [tagging_finish, tagging_pending, tagging_pending, find?_place hids hmem, hnone, Option.any_some, Option.bind_some,
    hanalyzable, ← isSome_styleOf column]
  cases styleOf provider column place <;> rfl

/-- What stays pending of the first `m` places. -/
theorem filter_pending_take (m : Nat) :
    (((d.aiTagCandidates contentTypeId true).map (·.id)).take m).filter (fun id =>
        (taggingWork provider column contentTypeId d.places).pending id
          ((taggingWork provider column contentTypeId d.places).finish id (d.styleVector? id))) =
      (((d.aiTagCandidates contentTypeId true).take m).filter fun place => !place.answered provider).map (·.id) := by
  rw [← List.map_take, List.filter_map]
  refine congrArg (List.map _) (List.filter_congr fun place hplace => ?_)
  exact pending_finish_place hids (List.mem_of_mem_take hplace)

variable (contentTypeId) in
theorem styleWrites_eq {places : List Place} (hplaces : ∀ place ∈ places, place ∈ d.places) :
    styleWrites provider column places =
      (taggingWork provider column contentTypeId d.places).writes d.styleVector? (places.map (·.id)) := by
  unfold styleWrites Worklist.writes
  rw [List.flatMap_map]
  refine List.flatMap_congr fun place hplace => ?_
  show _ = (Option.toList (((d.places.find? (·.id == place.id)).bind (styleOf provider column)).map _)).map _
  rw [find?_place hids (hplaces place hplace), Option.bind_some]
  cases styleOf provider column place <;> rfl

variable (column n) in
/-- One run takes the first `n` places of the backlog. -/
theorem limitedTagging_batch (hsettled : ∀ place ∈ d.aiTagCandidates contentTypeId true, place.settled provider)
    (seq : Nat) : ∃ b', limitedTagging provider column contentTypeId n ⟨d, seq⟩ = b' ∧ b'.db.places = d.places ∧
      b'.db.styleVector? = (taggingWork provider column contentTypeId d.places).batch n (placeKeys d.places)
        d.styleVector? := by
  have hsub : ∀ place ∈ (d.aiTagCandidates contentTypeId true).take n, place ∈ d.aiTagCandidates contentTypeId true :=
    fun _ => List.mem_of_mem_take
  obtain ⟨summary, d', heval, hplaces, hvectors⟩ := aiTagLoop_eval column
    (fun place hplace => hsettled place (hsub place hplace)) {} d seq
  refine ⟨⟨d', seq⟩, ?_, hplaces, ?_⟩
  · have hrun : (aiTag provider column {contentTypeId := contentTypeId, limit := n, onlyMissing := true}).eval d seq =
        .ok (summary, d', seq) := by
      rw [aiTag, Txn.eval_autocommit]
      exact heval
    rw [limitedTagging, Txn.perform_of_eval_ok hrun]
  · rw [hvectors, styleWrites_eq contentTypeId hids fun place hplace =>
      (mem_aiTagCandidates.mp (hsub place hplace)).1, List.map_take, aiTagCandidates_ids provider column hids]
    rfl

/-! ### Runs -/

theorem nodup_placeKeys : (placeKeys d.places).Nodup := (List.perm_insertionSort _ _).nodup_iff.mpr hids

/-- Places are known by their ids. -/
theorem places_of_ids {places : List Place} (hplaces : ∀ place ∈ places, place ∈ d.places) :
    (places.map (·.id)).filterMap (fun id => d.places.find? (·.id == id)) = places := by
  rw [List.filterMap_map]
  have hfind : ∀ place ∈ places, ((fun id => d.places.find? (·.id == id)) ∘ Place.id) place = some place :=
    fun place hplace => find?_place hids (hplaces place hplace)
  rw [List.filterMap_congr hfind, List.filterMap_some]

theorem reached_eq_backlogReached (r : Nat) :
    (taggingWork provider column contentTypeId d.places).reached n d.styleVector?
        ((taggingWork provider column contentTypeId d.places).targets (placeKeys d.places) d.styleVector?) r =
      backlogReached provider n (d.aiTagCandidates contentTypeId true) r := by
  induction r with
  | zero => rfl
  | succ r ih =>
    rw [Worklist.reached, ih, ← aiTagCandidates_ids provider column hids, backlogReached, filter_pending_take hids,
      List.length_map]

variable (hsettled : ∀ place ∈ d.aiTagCandidates contentTypeId true, place.settled provider) (seq : Nat)
include hsettled

variable (column n) in
theorem limitedTaggings (r : Nat) :
    ((limitedTagging provider column contentTypeId n)^[r] ⟨d, seq⟩).db.places = d.places ∧
      ((limitedTagging provider column contentTypeId n)^[r] ⟨d, seq⟩).db.styleVector? =
        ((taggingWork provider column contentTypeId d.places).batch n (placeKeys d.places))^[r] d.styleVector? := by
  induction r with
  | zero => exact ⟨rfl, rfl⟩
  | succ r ih =>
    obtain ⟨hplaces, hvectors⟩ := ih
    rw [Function.iterate_succ_apply', Function.iterate_succ_apply', ← hvectors]
    generalize (limitedTagging provider column contentTypeId n)^[r] ⟨d, seq⟩ = b at hplaces hvectors
    have hids' : (b.db.places.map (·.id)).Nodup := hplaces ▸ hids
    have hsub : ∀ place ∈ b.db.aiTagCandidates contentTypeId true, place ∈ d.aiTagCandidates contentTypeId true := by
      intro place hplace
      obtain ⟨hmem, hanalyzable, hnone⟩ := mem_aiTagCandidates.mp hplace
      rw [hplaces] at hmem
      have hpending : (taggingWork provider column contentTypeId d.places).pending place.id
          (b.db.styleVector? place.id) = true := by
        rw [tagging_pending, find?_place hids hmem, hnone, Option.any_some, hanalyzable]
        rfl
      rw [hvectors] at hpending
      have hbefore := Worklist.pending_of_batches _ (nodup_placeKeys hids) (tagging_finish_finish d.places) hpending
      rw [tagging_pending, Bool.and_eq_true, Option.isNone_iff_eq_none] at hbefore
      exact mem_aiTagCandidates.mpr ⟨hmem, hanalyzable, hbefore.1⟩
    obtain ⟨b', hrun, hplaces', hvectors'⟩ :=
      limitedTagging_batch column n hids' (fun place hplace => hsettled place (hsub place hplace)) b.seq
    rw [hrun, hplaces', hvectors', hplaces]
    exact ⟨rfl, rfl⟩

variable (column n) in
/-- What `r` runs leave of the backlog: the places without an answer that they asked for, and
those they did not reach. -/
theorem candidates_limitedTaggings (r : Nat) :
    ((limitedTagging provider column contentTypeId n)^[r] ⟨d, seq⟩).db.aiTagCandidates contentTypeId true =
      ((d.aiTagCandidates contentTypeId true).take (backlogReached provider n (d.aiTagCandidates contentTypeId true) r)).filter
          (fun place => !place.answered provider) ++
        (d.aiTagCandidates contentTypeId true).drop (backlogReached provider n (d.aiTagCandidates contentTypeId true) r) := by
  obtain ⟨hplaces, hvectors⟩ := limitedTaggings column n hids hsettled seq r
  generalize (limitedTagging provider column contentTypeId n)^[r] ⟨d, seq⟩ = b at hplaces hvectors
  generalize hm : backlogReached provider n (d.aiTagCandidates contentTypeId true) r = m
  have hids' : (b.db.places.map (·.id)).Nodup := hplaces ▸ hids
  have hsame : (b.db.aiTagCandidates contentTypeId true).map (·.id) =
      (((d.aiTagCandidates contentTypeId true).take m).filter (fun place => !place.answered provider) ++
        (d.aiTagCandidates contentTypeId true).drop m).map (·.id) := by
    rw [aiTagCandidates_ids provider column hids', hplaces, hvectors,
      Worklist.targets_batches _ (nodup_placeKeys hids) (tagging_finish_finish d.places),
      reached_eq_backlogReached hids, hm, ← aiTagCandidates_ids provider column hids, filter_pending_take hids,
      List.map_append, ← List.map_drop]
  have hmem : ∀ place ∈ d.aiTagCandidates contentTypeId true, place ∈ d.places :=
    fun place hplace => (mem_aiTagCandidates.mp hplace).1
  have hleft : ∀ place ∈ b.db.aiTagCandidates contentTypeId true, place ∈ d.places :=
    fun place hplace => hplaces ▸ (mem_aiTagCandidates.mp hplace).1
  rw [← places_of_ids hids hleft, hsame, places_of_ids hids]
  intro place hplace
  rcases List.mem_append.mp hplace with h | h
  · exact hmem place (List.mem_of_mem_take (List.mem_of_mem_filter h))
  · exact hmem place (List.mem_of_mem_drop h)

/-- **How far the runs get**: the backlog is worked off if there is no answer for the places
that are not reached. -/
theorem workedOff_iff : WorkedOff provider column contentTypeId n ⟨d, seq⟩ ↔
    ∀ place ∈ (d.aiTagCandidates contentTypeId true).drop (backlogReached provider n
        (d.aiTagCandidates contentTypeId true) (runsFor (d.aiTagCandidates contentTypeId true).length n)),
      place.answered provider = false := by
  unfold WorkedOff
  rw [candidates_limitedTaggings column n hids hsettled, List.forall_mem_append]
  refine and_iff_right fun place hplace => ?_
  simpa using (List.mem_filter.mp hplace).2

variable (column) in
/-- A full window of places without an answer is all that is ever asked for. -/
theorem blocked_window (hwindow : n ≤ (d.aiTagCandidates contentTypeId true).length)
    (hnone : ∀ place ∈ (d.aiTagCandidates contentTypeId true).take n, place.answered provider = false) (r : Nat) :
    ((limitedTagging provider column contentTypeId n)^[r] ⟨d, seq⟩).db.aiTagCandidates contentTypeId true =
      d.aiTagCandidates contentTypeId true := by
  have hfilter : ((d.aiTagCandidates contentTypeId true).take n).filter (fun place => !place.answered provider) =
      (d.aiTagCandidates contentTypeId true).take n :=
    List.filter_eq_self.mpr fun place hplace => by rw [hnone place hplace, Bool.not_false]
  have hreached : ∀ r, backlogReached provider n (d.aiTagCandidates contentTypeId true) (r + 1) = n := by
    intro r
    induction r with
    | zero => simp [backlogReached]
    | succ r ih => rw [backlogReached, ih, hfilter, List.length_take, min_eq_left hwindow, Nat.sub_self, Nat.add_zero]
  rw [candidates_limitedTaggings column n hids hsettled]
  cases r with
  | zero => rfl
  | succ r => rw [hreached, hfilter, List.take_append_drop]

end

/-! ### A place that stays in front -/

/-- Two places to tag. -/
def twoUntagged : Db (List Double) where
  places := [{id := 1, contentId := 1006, contentTypeId := 14, description := some "전시관"},
    {id := 2, contentId := 1007, contentTypeId := 14, description := some "박물관"}]

/-- An answer for one of them. -/
def onlyReply (contentId : Int) (place : Place) : ModelReply :=
  if place.contentId = contentId then
    .json (.object [("tags", .object [("세부 테마", .array [.str "박물관·전시"])]),
      ("style_vector", .array (List.replicate 6 (.scalar (.int 1)))), ("reason", .str "전시 감상")])
  else .apiError

theorem nodup_twoUntagged : (twoUntagged.places.map (·.id)).Nodup := by decide

theorem candidates_twoUntagged : twoUntagged.aiTagCandidates none true = twoUntagged.places := by decide

theorem settled_onlyReply (contentId : Int)
    (hanswer : ∀ place ∈ twoUntagged.places, place.contentId = contentId → place.answered (onlyReply contentId) = true) :
    ∀ place ∈ twoUntagged.aiTagCandidates none true, place.settled (onlyReply contentId) := by
  intro place hplace e h
  by_cases hid : place.contentId = contentId
  · have hanswered := hanswer place (mem_aiTagCandidates.mp hplace).1 hid
    rw [Place.answered, h] at hanswered
    cases hanswered
  · unfold analyzePlace at h
    split at h
    · cases h
    · rw [onlyReply, if_neg hid] at h
      cases h
      rfl

theorem workedOff_iff_twoUntagged : WorkedOff (onlyReply 1006) id none 1 ⟨twoUntagged, 3⟩ ↔
    ∀ place ∈ (twoUntagged.aiTagCandidates none true).drop (backlogReached (onlyReply 1006) 1
        (twoUntagged.aiTagCandidates none true) (runsFor (twoUntagged.aiTagCandidates none true).length 1)),
      place.answered (onlyReply 1006) = false :=
  workedOff_iff nodup_twoUntagged (settled_onlyReply 1006 (by decide +kernel)) 3

/-- There is never an answer for the first place, and the second is never asked for. -/
theorem unanswered_blocks_backlog :
    (∀ place ∈ twoUntagged.aiTagCandidates none true, place.settled (onlyReply 1007)) ∧
      ¬ WorkedOff (onlyReply 1007) id none 1 ⟨twoUntagged, 3⟩ := by
  have hsettled := settled_onlyReply 1007 (by decide +kernel)
  refine ⟨hsettled, fun h => ?_⟩
  unfold WorkedOff at h
  rw [blocked_window id nodup_twoUntagged hsettled 3 (by decide) (by decide), candidates_twoUntagged] at h
  have hsecond := h {id := 2, contentId := 1007, contentTypeId := 14, description := some "박물관"} (by decide)
  revert hsecond
  decide +kernel

end TravelMaker
