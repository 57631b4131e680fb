import TravelMaker.Lib.History
import TravelMaker.Place.Embedding

/-! Runs of `embed_places --only-missing`.

The vector of a place is written in one statement, and then the place is no target any more. So a
run that fails somewhere can be followed by another: `embedding_resumes`. -/
namespace TravelMaker
open Lib (Double Txn)
open Lib.Txn (Base)

variable {V : Type}

/-- A model with one vector for each text, that the column takes. -/
structure Embedder (column : List Double → Except Exc V) where
  vector : String → List Double
  value : String → V
  dim : ∀ text, (vector text).length = embeddingDim
  taken : ∀ text, column (vector text) = .ok (value text)

/-- A run of the command: its options, and what its calls of the provider end in. -/
structure EmbedCall where
  options : EmbedOptions
  replies : Nat → EmbeddingReply

namespace Embedder
variable {column : List Double → Except Exc V} (E : Embedder column)

/-- A call sends the vectors of its texts, or fails. -/
def Serves (replies : Nat → EmbeddingReply) : Prop :=
  ∀ start texts, replies start texts = .ok (texts.map E.vector) ∨ replies start texts = .error embeddingError

/-- No call fails. -/
def Reached (replies : Nat → EmbeddingReply) : Prop := ∀ start texts, replies start texts = .ok (texts.map E.vector)

theorem Reached.serves {replies : Nat → EmbeddingReply} (h : E.Reached replies) : E.Serves replies :=
  fun start texts => .inl (h start texts)

variable (names : String → Option String)

def valueOf (place : Place) : V := E.value (buildEmbeddingText names place)

/-- The vector of the place's own text, for a place that is active. -/
def ownVector (d : Db V) (id : Int) : Option V :=
  (d.places.find? fun place => place.isActive && place.id == id).map (E.valueOf names)

end Embedder

/-- A run for all places without a vector, with options that the command takes. -/
structure EmbedOptions.Complete (options : EmbedOptions) : Prop where
  key : options.provider = "gemini" → options.geminiApiKey ≠ ""
  all : options.contentTypeId = none
  missing : options.onlyMissing = true
  unlimited : options.limit = none
  stores : options.dryRun = false
  batches : 0 < options.batchSize

/-- How many places a run stores: those it reports as processed, unless it is a dry run. -/
def EmbedCall.stored (call : EmbedCall) (outcome : Except Exc EmbedSummary) : Nat :=
  match outcome with
  | .ok summary => if call.options.dryRun then 0 else summary.processed
  | .error _ => 0

/-! ### One run -/

section
variable {names : String → Option String} {column : List Double → Except Exc V} {E : Embedder column}
  {replies : Nat → EmbeddingReply} {n : Nat} {places : List Place} {dryRun : Bool}

variable (names E) in
def vectorsOf (batch : List Place) : List (List Double) := batch.map fun place => E.vector (buildEmbeddingText names place)

theorem columnValues_vectorsOf (batch : List Place) :
    columnValues column (vectorsOf names E batch) = batch.map (E.valueOf names) := by
  induction batch with
  | nil => rfl
  | cons place rest ih => simpa [vectorsOf, columnValues, E.taken, Embedder.valueOf] using ih

theorem storeEnd_vectorsOf (batch : List Place) : storeEnd column batch (vectorsOf names E batch) = .ok () := by
  induction batch with
  | nil => rfl
  | cons place rest ih => simpa [vectorsOf, storeEnd, E.taken] using ih

theorem repliedAt_serves (h : E.Serves replies) (start : Nat) :
    repliedAt names replies n places start = .ok (vectorsOf names E (batchAt n places start)) ∨
      repliedAt names replies n places start = .error embeddingError := by
  have htexts : ((batchAt n places start).map (buildEmbeddingText names)).map E.vector =
      vectorsOf names E (batchAt n places start) := List.map_map
  have hdim : (vectorsOf names E (batchAt n places start)).all (·.length == embeddingDim) = true := by
    simp [vectorsOf, E.dim]
  unfold repliedAt embedTexts
  split
  · rename_i hnone
    rw [← htexts, hnone]
    exact .inl rfl
  · rcases h start ((batchAt n places start).map (buildEmbeddingText names)) with hok | herror
    · rw [hok, htexts]
      exact .inl (if_pos hdim)
    · rw [herror]
      exact .inr rfl

theorem raisedAt_serves (h : E.Serves replies) (start : Nat) :
    raisedAt names column replies n places dryRun start = none := by
  unfold raisedAt
  rcases repliedAt_serves h start with hok | herror
  · rw [hok]
    cases dryRun <;> simp [storeEnd_vectorsOf]
  · rw [herror]
    exact if_pos rfl

/-- The places that the loop stores. -/
def storedPlaces (names : String → Option String) (replies : Nat → EmbeddingReply) (n : Nat) (places : List Place) (dryRun : Bool)
    (starts : List Nat) : List Place :=
  if dryRun then [] else (starts.filter fun start => !givenUp names replies n places start).flatMap (batchAt n places)

theorem map_zip_self {α β : Type} (f : α × α → β) (l : List α) : (l.zip l).map f = l.map fun a => f (a, a) := by
  induction l with
  | nil => rfl
  | cons a rest ih => simpa using ih

theorem writesAt_serves (h : E.Serves replies) (start : Nat) :
    writesAt names column replies n places false start =
      if givenUp names replies n places start then []
      else (batchAt n places start).map fun place => (place.id, E.valueOf names place) := by
  rw [writesAt, if_neg Bool.false_ne_true, givenUp]
  rcases repliedAt_serves h start with hok | herror
  · have hanswer : answerOf names (replies start) (batchAt n places start) = vectorsOf names E (batchAt n places start) := by
      rw [repliedAt] at hok
      rw [answerOf, hok]
    rw [hok, hanswer, batchWrites, columnValues_vectorsOf, List.zip_map_right, List.map_map]
    exact map_zip_self _ _
  · have hanswer : answerOf names (replies start) (batchAt n places start) = [] := by
      rw [repliedAt] at herror
      rw [answerOf, herror]
    rw [herror, hanswer]
    simp [batchWrites, columnValues]

theorem embedWrites_serves (h : E.Serves replies) (starts : List Nat) :
    embedWrites names column replies n places dryRun starts =
      (storedPlaces names replies n places dryRun starts).map fun place => (place.id, E.valueOf names place) := by
  rw [embedWrites, batchesReached_of_none fun start _ => raisedAt_serves h start, storedPlaces]
  cases dryRun with
  | true => exact List.flatMap_eq_nil_iff.mpr fun _ _ => rfl
  | false =>
    induction starts with
    | nil => rfl
    | cons start rest ih =>
      rw [List.flatMap_cons, ih, writesAt_serves h]
      cases hgiven : givenUp names replies n places start <;> simp [hgiven]

theorem embedResult_serves (h : E.Serves replies) (starts : List Nat) :
    embedResult names column replies n places dryRun starts = .ok (embedCounts names replies n places starts) := by
  have hnone : starts.findSome? (raisedAt names column replies n places dryRun) = none :=
    List.findSome?_eq_none_iff.mpr fun start _ => raisedAt_serves h start
  rw [embedResult, hnone]

end

section
variable {names : String → Option String} {column : List Double → Except Exc V} {E : Embedder column}

theorem storedPlaces_sublist (names : String → Option String) (replies : Nat → EmbeddingReply) (n : Nat) (places : List Place)
    (dryRun : Bool) (starts : List Nat) : (storedPlaces names replies n places dryRun starts).Sublist (starts.flatMap (batchAt n places)) := by
  unfold storedPlaces
  split
  · exact List.nil_sublist _
  · exact List.filter_sublist.flatMap _

/-- What is written for the places. -/
def Db.storeOwn (names : String → Option String) (E : Embedder column) (places : List Place) (d : Db V) : Db V :=
  d.saveContents (places.map fun place => (place.id, E.valueOf names place))

variable (names E) in
theorem contentVector?_storeOwn {places : List Place} (hids : (places.map (·.id)).Nodup) (d : Db V) (id : Int) :
    (d.storeOwn names E places).contentVector? id =
      ((places.find? (·.id == id)).map (E.valueOf names)).or (d.contentVector? id) := by
  induction places generalizing d with
  | nil => rfl
  | cons place rest ih =>
    rw [List.map_cons, List.nodup_cons] at hids
    refine (ih hids.2 (d.saveContent place.id (E.valueOf names place))).trans ?_
    rw [contentVector?_saveContent, List.find?_cons]
    by_cases hid : place.id = id
    · have hnone : rest.find? (·.id == id) = none :=
        List.find?_eq_none.mpr fun other hother heq => hids.1 (List.mem_map.mpr ⟨other, hother, (beq_iff_eq.mp heq).trans hid.symm⟩)
      rw [hnone, ← hid, Function.update_self, beq_self_eq_true]
      rfl
    · rw [beq_false_of_ne hid, Function.update_of_ne (Ne.symm hid)]

variable (names E) in
theorem storeOwn_rest (places : List Place) (d : Db V) :
    d.storeOwn names E places = {d with placeFeatures := (d.storeOwn names E places).placeFeatures} ∧
      (d.storeOwn names E places).styleVector? = d.styleVector? := saveContents_rest _ d

variable (names E) in
/-- **One run**: it stores the own vectors of some of its targets, as many as it reports. -/
theorem embedCall_stores (call : EmbedCall) (hserves : E.Serves call.replies) (b : Base (Db V)) :
    ∃ stored : List Place, stored.Sublist (b.db.embedTargets call.options.contentTypeId call.options.onlyMissing) ∧
      ((embedPlaces names column call.replies call.options).perform b).2.db = b.db.storeOwn names E stored ∧
      call.stored ((embedPlaces names column call.replies call.options).perform b).1 = stored.length := by
  by_cases hvalid : (call.options.provider = "gemini" → call.options.geminiApiKey ≠ "") ∧ 0 < call.options.batchSize ∧
      ∃ places, b.db.embedPlaces call.options = .ok places
  · obtain ⟨hkey, hbatch, places, hplaces⟩ := hvalid
    obtain ⟨hresult, hdb⟩ := embedPlaces_perform names column call.replies hkey hplaces hbatch
    refine ⟨storedPlaces names call.replies call.options.batchSize.toNat places call.options.dryRun
      (startsOf call.options.batchSize.toNat places), ?_, ?_, ?_⟩
    · refine (storedPlaces_sublist _ _ _ _ _ _).trans ?_
      rw [flatMap_startsOf (by omega)]
      exact embedPlaces_sublist hplaces
    · rw [hdb, embedWrites_serves hserves]
      rfl
    · rw [hresult, embedResult_serves hserves]
      unfold EmbedCall.stored storedPlaces embedCounts
      cases call.options.dryRun <;> rfl
  · obtain ⟨hdb, herror⟩ := embedPlaces_unstarted names column call.replies b hvalid
    refine ⟨[], List.nil_sublist _, hdb, ?_⟩
    rcases herror with ⟨e, he⟩ | hnone
    · rw [he]
      rfl
    · rw [hnone]
      cases hdry : call.options.dryRun <;> simp [EmbedCall.stored, hdry]

theorem givenUp_reached {replies : Nat → EmbeddingReply} (h : E.Reached replies) (n : Nat) (places : List Place) (start : Nat) :
    givenUp names replies n places start = false := by
  unfold givenUp repliedAt embedTexts
  rw [h start]
  split
  · rename_i e he
    split at he
    · cases he
    · simp [bind, Except.bind, E.dim] at he
  · rfl

variable (names) in
/-- A complete run that nothing stops stores all of them. -/
theorem embedCall_complete {call : EmbedCall} (hcomplete : call.options.Complete) (hreached : E.Reached call.replies) (b : Base (Db V)) :
    ((embedPlaces names column call.replies call.options).perform b).1 = .ok ⟨(b.db.embedTargets none true).length, 0⟩ ∧
      ((embedPlaces names column call.replies call.options).perform b).2.db =
        b.db.storeOwn names E (b.db.embedTargets none true) := by
  have hplaces : b.db.embedPlaces call.options = .ok (b.db.embedTargets none true) := by
    rw [Db.embedPlaces, hcomplete.unlimited, hcomplete.all, hcomplete.missing]
    rfl
  have hn : 0 < call.options.batchSize.toNat := by
    have := hcomplete.batches
    omega
  obtain ⟨hresult, hdb⟩ := embedPlaces_perform names column call.replies hcomplete.key hplaces hcomplete.batches
  have hall : ∀ start, givenUp names call.replies call.options.batchSize.toNat (b.db.embedTargets none true) start = false :=
    givenUp_reached hreached _ _
  rw [hresult, hdb, embedResult_serves hreached.serves, embedWrites_serves hreached.serves, storedPlaces, hcomplete.stores,
    embedCounts]
  have hnone : (startsOf call.options.batchSize.toNat (b.db.embedTargets none true)).filter
      (givenUp names call.replies call.options.batchSize.toNat (b.db.embedTargets none true)) = [] :=
    List.filter_eq_nil_iff.mpr fun start _ => ne_true_of_eq_false (hall start)
  simp only [hall, hnone, Bool.not_false, List.filter_true, flatMap_startsOf hn]
  exact ⟨rfl, rfl⟩

end

/-! ### Histories -/

section
variable (names : String → Option String) {column : List Double → Except Exc V} (E : Embedder column)

/-- Vectors are only added, each for a place that had none, and from its own text. -/
structure Filled (d d' : Db V) : Prop where
  tables : d' = {d with placeFeatures := d'.placeFeatures}
  style : d'.styleVector? = d.styleVector?
  vectors : ∀ id, d'.contentVector? id = d.contentVector? id ∨
    d.contentVector? id = none ∧ (E.ownVector names d id).isSome ∧ d'.contentVector? id = E.ownVector names d id

variable {names E}

theorem Filled.places {d d' : Db V} (h : Filled names E d d') : d'.places = d.places := by rw [h.tables]

theorem Filled.ownVector {d d' : Db V} (h : Filled names E d d') : E.ownVector names d' = E.ownVector names d := by
  unfold Embedder.ownVector
  rw [h.places]

theorem Filled.refl (d : Db V) : Filled names E d d := ⟨rfl, rfl, fun _ => .inl rfl⟩

theorem Filled.trans {d d' d'' : Db V} (h : Filled names E d d') (h' : Filled names E d' d'') : Filled names E d d'' := by
  refine ⟨?_, h'.style.trans h.style, fun id => ?_⟩
  · rw [h'.tables, h.tables]
  · have hfirst := h.vectors id
    have hsecond := h'.vectors id
    rw [h.ownVector] at hsecond
    rcases hsecond with hsame | ⟨hnone, hown, hnew⟩
    · rw [hsame]
      exact hfirst
    · rcases hfirst with hsame | ⟨-, hown', hnew'⟩
      · exact .inr ⟨hsame.symm.trans hnone, hown, hnew⟩
      · rw [hnew', Option.eq_none_iff_forall_not_mem] at hnone
        obtain ⟨value, hvalue⟩ := Option.isSome_iff_exists.mp hown'
        exact absurd hvalue (hnone value)

variable {d : Db V}

theorem mem_embedTargets {contentTypeId : Option Int} {onlyMissing : Bool} {place : Place} :
    place ∈ d.embedTargets contentTypeId onlyMissing ↔ place ∈ d.places ∧ place.isActive = true ∧
      contentTypeId.all (· == place.contentTypeId) = true ∧ (onlyMissing = true → d.contentVector? place.id = none) := by
  simp [Db.embedTargets, mem_orderBy, and_assoc, imp_iff_not_or]

theorem ownVector_of_mem (hids : (d.places.map (·.id)).Nodup) {place : Place} (hplace : place ∈ d.places)
    (hactive : place.isActive = true) : E.ownVector names d place.id = some (E.valueOf names place) := by
  unfold Embedder.ownVector
  cases hfind : d.places.find? fun other => other.isActive && other.id == place.id with
  | none => exact absurd (List.find?_eq_none.mp hfind place hplace) (by simp [hactive])
  | some other =>
    have hid : other.id = place.id := by
      have := List.find?_some hfind
      simp only [Bool.and_eq_true, beq_iff_eq] at this
      exact this.2
    rw [List.inj_on_of_nodup_map hids (List.mem_of_find?_eq_some hfind) hplace hid]
    rfl

theorem length_add_length_filter {α β : Type} [DecidableEq β] {key : α → β} {l part : List α} (hl : (l.map key).Nodup)
    (hpart : (part.map key).Nodup) (hsub : ∀ a ∈ part, a ∈ l) :
    part.length + (l.filter fun a => !(part.map key).contains (key a)).length = l.length := by
  have hperm : (l.filter fun a => (part.map key).contains (key a)).Perm part := by
    refine (List.perm_ext_iff_of_nodup (hl.of_map.filter _) hpart.of_map).mpr fun a => ?_
    rw [List.mem_filter, List.contains_iff_mem, List.mem_map]
    constructor
    · rintro ⟨ha, other, hother, hkey⟩
      exact List.inj_on_of_nodup_map hl (hsub other hother) ha hkey ▸ hother
    · exact fun ha => ⟨hsub a ha, a, ha, rfl⟩
  rw [← hperm.length_eq]
  exact (List.length_eq_length_filter_add fun a => (part.map key).contains (key a)).symm

variable (names E) in
/-- **What a run stores**, in the vectors and in the count of those that miss. -/
theorem filled_storeOwn (hids : (d.places.map (·.id)).Nodup) {contentTypeId : Option Int} {stored : List Place}
    (hstored : stored.Sublist (d.embedTargets contentTypeId true)) :
    Filled names E d (d.storeOwn names E stored) ∧
      stored.length + ((d.storeOwn names E stored).embedTargets none true).length = (d.embedTargets none true).length := by
  have hnodup : (stored.map (·.id)).Nodup := (embedTargets_nodup hids contentTypeId true).sublist (hstored.map _)
  have htarget : ∀ place ∈ stored, place ∈ d.places ∧ place.isActive = true ∧ d.contentVector? place.id = none := by
    intro place hplace
    obtain ⟨hmem, hactive, -, hnone⟩ := mem_embedTargets.mp (hstored.subset hplace)
    exact ⟨hmem, hactive, hnone rfl⟩
  have hvectors := contentVector?_storeOwn names E hnodup d
  obtain ⟨htables, hstyle⟩ := storeOwn_rest names E stored d
  refine ⟨⟨htables, hstyle, fun id => ?_⟩, ?_⟩
  · rw [hvectors]
    cases hfind : stored.find? (·.id == id) with
    | none => exact .inl rfl
    | some place =>
      obtain rfl : place.id = id := by simpa using List.find?_some hfind
      obtain ⟨hmem, hactive, hnone⟩ := htarget place (List.mem_of_find?_eq_some hfind)
      rw [ownVector_of_mem hids hmem hactive]
      exact .inr ⟨hnone, rfl, rfl⟩
  · have hlength : ∀ d : Db V, (d.embedTargets none true).length =
        (d.places.filter fun place => place.isActive && (d.contentVector? place.id).isNone).length := by
      intro d
      simp [Db.embedTargets, orderBy_perm.length_eq]
    have hplaces : (d.storeOwn names E stored).places = d.places := by rw [htables]
    have hleft : ∀ place : Place, ((d.storeOwn names E stored).contentVector? place.id).isNone =
        ((d.contentVector? place.id).isNone && !(stored.map (·.id)).contains place.id) := by
      intro place
      rw [hvectors]
      cases hfind : stored.find? (·.id == place.id) with
      | none =>
        have hnot : place.id ∉ stored.map (·.id) := by simpa using hfind
        simp [hnot]
      | some other =>
        have hmem : place.id ∈ stored.map (·.id) :=
          List.mem_map.mpr ⟨other, List.mem_of_find?_eq_some hfind, by simpa using List.find?_some hfind⟩
        simp [hmem]
    have hrest : (d.storeOwn names E stored).places.filter (fun place =>
        place.isActive && ((d.storeOwn names E stored).contentVector? place.id).isNone) =
          (d.places.filter fun place => place.isActive && (d.contentVector? place.id).isNone).filter
            fun place => !(stored.map (·.id)).contains place.id := by
      rw [hplaces, List.filter_filter]
      refine List.filter_congr fun place _ => ?_
      rw [hleft, ← Bool.and_assoc, Bool.and_comm]
    rw [hlength, hlength, hrest]
    refine length_add_length_filter (hids.sublist (List.filter_sublist.map _)) hnodup fun place hplace => ?_
    obtain ⟨hmem, hactive, hnone⟩ := htarget place hplace
    simp [List.mem_filter, hmem, hactive, hnone]

/-- The vectors of the places are there, and else nothing has changed. -/
theorem Filled.complete {d' : Db V} (h : Filled names E d d') (hnone : d'.embedTargets none true = []) (id : Int) :
    d'.contentVector? id = (d.contentVector? id).or (E.ownVector names d id) := by
  rcases h.vectors id with hsame | ⟨hbefore, -, hnew⟩
  · cases hown : E.ownVector names d id with
    | none => rw [hsame, Option.or_none]
    | some value =>
      cases hvector : d.contentVector? id with
      | some _ =>
        rw [hsame, hvector]
        rfl
      | none =>
        obtain ⟨place, hplace, -⟩ := Option.map_eq_some_iff.mp hown
        have hfound := List.find?_some hplace
        simp only [Bool.and_eq_true, beq_iff_eq] at hfound
        have htarget : place ∈ d'.embedTargets none true := by
          refine mem_embedTargets.mpr ⟨h.places ▸ List.mem_of_find?_eq_some hplace, hfound.1, rfl, fun _ => ?_⟩
          rw [hfound.2, hsame, hvector]
        rw [hnone] at htarget
        cases htarget
  · rw [hnew, hbefore, Option.none_or]

/-- A run of a history, with its outcome. -/
def embedServe (names : String → Option String) (column : List Double → Except Exc V) (b : Base (Db V)) (call : EmbedCall) :
    Except Exc EmbedSummary × Base (Db V) := (embedPlaces names column call.replies call.options).perform b

def embedNext (names : String → Option String) (column : List Double → Except Exc V) (b : Base (Db V)) (call : EmbedCall) : Base (Db V) :=
  (embedServe names column b call).2

variable (names column) in
/-- How many places the runs of a history store. -/
def embedStored (b : Base (Db V)) (history : List EmbedCall) : Nat :=
  (List.zipWith EmbedCall.stored history (Lib.History.answers (embedServe names column) b history)).sum

variable (names) in
/-- The runs of a history. -/
theorem filled_history (history : List EmbedCall)
    (hhistory : ∀ call ∈ history, call.options.onlyMissing = true ∧ E.Serves call.replies) {b : Base (Db V)}
    (hids : (b.db.places.map (·.id)).Nodup) :
    (∀ s ∈ Lib.History.states (embedNext names column) b history, Filled names E b.db s.db) ∧
      embedStored names column b history + ((history.foldl (embedNext names column) b).db.embedTargets
        none true).length = (b.db.embedTargets none true).length := by
  induction history generalizing b with
  | nil => exact ⟨List.forall_mem_singleton.mpr (Filled.refl _), Nat.zero_add _⟩
  | cons call rest ih =>
    rw [List.forall_mem_cons] at hhistory
    obtain ⟨⟨honly, hserves⟩, hrest⟩ := hhistory
    obtain ⟨stored, hstored, hdb, hcount⟩ := embedCall_stores names E call hserves b
    rw [honly] at hstored
    obtain ⟨hfilled, hlength⟩ := filled_storeOwn names E hids hstored
    rw [← hdb] at hfilled hlength
    have hnext : (embedNext names column b call).db.places = b.db.places := hfilled.places
    obtain ⟨hstates, hprocessed⟩ := ih hrest (hnext ▸ hids)
    refine ⟨List.forall_mem_cons.mpr ⟨Filled.refl _, fun s hs => hfilled.trans (hstates s hs)⟩, ?_⟩
    have hsum : embedStored names column b (call :: rest) =
        stored.length + embedStored names column (embedNext names column b call) rest := by
      rw [← hcount]
      rfl
    rw [hsum, ← hlength, Nat.add_assoc]
    exact congrArg (stored.length + ·) hprocessed

/-- What a history of runs from `b`, and then the run `last`, come to. -/
structure EmbeddingResumes (names : String → Option String) (E : Embedder column) (b : Base (Db V)) (history : List EmbedCall)
    (last : EmbedCall) : Prop where
  along : ∀ s ∈ Lib.History.states (embedNext names column) b (history ++ [last]), Filled names E b.db s.db
  /-- Each active place without a vector is stored once: in the history, or in the last run. -/
  result : ∃ summary, (embedServe names column (history.foldl (embedNext names column) b) last).1 =
    .ok summary ∧ summary.errors = 0 ∧
      embedStored names column b history + summary.processed = (b.db.embedTargets none true).length
  /-- The vectors are those of a single run. -/
  vectors : ((history ++ [last]).foldl (embedNext names column) b).db.contentVector? =
    fun id => (b.db.contentVector? id).or (E.ownVector names b.db id)
  noneMissing : ((history ++ [last]).foldl (embedNext names column) b).db.embedTargets none true = []

/-- **Runs resume.** Whatever runs have failed or been cut short before, a complete run makes the
content vectors what it would have made them alone, and no place is stored twice. -/
theorem embedding_resumes (names : String → Option String) (E : Embedder column) (b : Base (Db V))
    (hids : (b.db.places.map (·.id)).Nodup) (history : List EmbedCall)
    (hhistory : ∀ call ∈ history, call.options.onlyMissing = true ∧ E.Serves call.replies) (last : EmbedCall)
    (hcomplete : last.options.Complete) (hreached : E.Reached last.replies) : EmbeddingResumes names E b history last := by
  have hall : ∀ call ∈ history ++ [last], call.options.onlyMissing = true ∧ E.Serves call.replies := by
    intro call hcall
    rcases List.mem_append.mp hcall with hcall | hcall
    · exact hhistory call hcall
    · exact List.mem_singleton.mp hcall ▸ ⟨hcomplete.missing, hreached.serves⟩
  obtain ⟨hstates, -⟩ := filled_history names _ hall hids
  obtain ⟨hbefore, hprocessed⟩ := filled_history names history hhistory hids
  have hfilled := hstates _ (Lib.History.foldl_mem_states _ _)
  set s := history.foldl (embedNext names column) b with hs
  have hend : (history ++ [last]).foldl (embedNext names column) b = embedNext names column s last := by
    rw [List.foldl_append, ← hs]
    rfl
  have hsids : (s.db.places.map (·.id)).Nodup := by
    rw [(hbefore s (Lib.History.foldl_mem_states _ _)).places]
    exact hids
  obtain ⟨hresult, hdb⟩ := embedCall_complete names hcomplete hreached s
  have hnone : (embedNext names column s last).db.embedTargets none true = [] := by
    have hlength := (filled_storeOwn names E hsids (List.Sublist.refl (s.db.embedTargets none true))).2
    rw [← hdb] at hlength
    change _ + ((embedNext names column s last).db.embedTargets none true).length = _ at hlength
    exact List.eq_nil_of_length_eq_zero (by omega)
  rw [hend] at hfilled
  refine ⟨hstates, ⟨_, hresult, rfl, hprocessed⟩, ?_, ?_⟩
  · rw [hend]
    exact funext (hfilled.complete hnone)
  · rw [hend]
    exact hnone

/-- Each text has the zero vector. -/
def zeros : Embedder (V := Nat) fun vector => .ok vector.length where
  vector _ := zeroVector
  value _ := embeddingDim
  dim _ := List.length_replicate
  taken _ := by rw [zeroVector, List.length_replicate]

/-- The second place is not reached at first; later both are. -/
theorem embedding_resumes_failing : EmbeddingResumes (fun _ => none) zeros ⟨twoPlaces, 0⟩
    [⟨{onlyMissing := true, batchSize := 1}, fun start texts => if start = 0 then .ok (texts.map zeros.vector) else .error embeddingError⟩]
    ⟨{onlyMissing := true}, fun _ texts => .ok (texts.map zeros.vector)⟩ := by
  refine embedding_resumes (fun _ => none) zeros ⟨twoPlaces, 0⟩ (by decide) _ (List.forall_mem_singleton.mpr ⟨rfl, fun start texts => ?_⟩)
    _ ⟨fun h => absurd h (by decide), rfl, rfl, rfl, rfl, by decide⟩ fun _ _ => rfl
  by_cases hstart : start = 0
  · exact .inl (if_pos hstart)
  · exact .inr (if_neg hstart)

end

end TravelMaker
