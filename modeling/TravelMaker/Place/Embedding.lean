import TravelMaker.Lib.Pages
import TravelMaker.Place.AiTagging
import TravelMaker.Place.Catalog

/-! Text embeddings: `embedding_service` and the command `embed_places`.

The places go to the provider in batches, and what a batch is answered is stored before the next
one is sent. `embedding_run` says what a run leaves, whatever the provider answers; nothing checks
that it sends one vector for each text until they are stored. -/
namespace TravelMaker
open Lib (Double Txn)
open Lib.Txn (Base)

variable {V : Type}

def embeddingDim : Nat := 1024

def embeddingError : Exc := .other "EmbeddingError"

/-! ### Texts -/

/-- `lcls_label`, with the names that the codes have in the file. -/
def lclsLabel (names : String → Option String) (place : Place) : Option String :=
  let codes := [place.lclsSystm1, place.lclsSystm2, place.lclsSystm3].filterMap fun code => code.filter (· ≠ "")
  if codes = [] then none else some (" > ".intercalate (codes.map fun code => (names code).getD code))

def buildEmbeddingText (names : String → Option String) (place : Place) : String :=
  let lcls := (lclsLabel names place).getD "-"
  let description := Lib.Text.strip (place.description.getD "")
  let lines := ["제목: " ++ place.placeName, "분류: " ++ lcls] ++
    if description = "" then [] else ["설명: " ++ .ofList (description.toList.take 1500)]
  "\n".intercalate lines

/-! ### Batches -/

/-- What the call of the provider for a batch ends in: its vectors, an `EmbeddingError`, or an
exception that is not turned into one. -/
abbrev EmbeddingReply := List String → Except Exc (List (List Double))

def embedTexts (reply : EmbeddingReply) (texts : List String) : Except Exc (List (List Double)) :=
  if texts = [] then .ok []
  else do
    let vectors ← reply texts
    if vectors.all (·.length == embeddingDim) then .ok vectors else .error embeddingError

namespace Db

/-- Insert the row of the place, or set its content vector. -/
def saveContent (placeId : Int) (vector : V) (d : Db V) : Db V :=
  {d with
    placeFeatures := Lib.Upsert.setOrInsert (·.placeId) placeId (fun feature => {feature with contentVector := some vector})
      {placeId := placeId, contentVector := some vector} d.placeFeatures}

end Db

section
variable (names : String → Option String) (column : List Double → Except Exc V)

/-- `update_or_create`; `column` is what the database makes of the vector, or its `DataError`. -/
def persistContentVector (place : Place) (vector : List Double) : Service V Unit := do
  let _ ← Txn.forUpdate (.placeFeature place.id)
  let value ← Txn.lift (column vector)
  let _ ← Txn.put (.placeFeature place.id) (Db.saveContent place.id value)

def zipShorter : Exc := .valueError "zip() argument 2 is shorter than argument 1"
def zipLonger : Exc := .valueError "zip() argument 2 is longer than argument 1"

/-- `zip(batch, vectors, strict=True)`: it is found out at the end that the lengths differ. -/
def storeBatch : List Place → List (List Double) → Service V Unit
  | [], [] => return ()
  | place :: batch, vector :: vectors => do
    persistContentVector column place vector
    storeBatch batch vectors
  | _ :: _, [] => Txn.raise zipShorter
  | [], _ :: _ => Txn.raise zipLonger

/-! ### The command -/

structure EmbedSummary where
  processed : Nat := 0
  errors : Nat := 0
deriving DecidableEq, Repr

structure EmbedOptions where
  provider : String := "ollama"
  geminiApiKey : String := ""
  contentTypeId : Option Int := none
  onlyMissing : Bool := false
  limit : Option Int := none
  batchSize : Int := 32
  dryRun : Bool := false
deriving DecidableEq, Repr

/-- `places[start : start + batch_size]`. -/
def batchAt (n : Nat) (places : List Place) (start : Nat) : List Place := (places.drop start).take n

/-- The loop over the starts of the batches. `replies` is the provider, call by call. -/
def embedLoop (replies : Nat → EmbeddingReply) (n : Nat) (places : List Place) (dryRun : Bool) :
    List Nat → EmbedSummary → Service V EmbedSummary
  | [], summary => return summary
  | start :: rest, summary =>
    let batch := batchAt n places start
    match embedTexts (replies start) (batch.map (buildEmbeddingText names)) with
    | .error e =>
      if e = embeddingError then
        embedLoop replies n places dryRun rest {summary with errors := summary.errors + batch.length}
      else Txn.raise e
    | .ok vectors => do
      if !dryRun then storeBatch column batch vectors
      embedLoop replies n places dryRun rest {summary with processed := summary.processed + batch.length}

/-- The places a run is about, by id. -/
def Db.embedTargets (d : Db V) (contentTypeId : Option Int) (onlyMissing : Bool) : List Place :=
  orderBy (·.id) (d.places.filter fun place => place.isActive && contentTypeId.all (· == place.contentTypeId) &&
    (!onlyMissing || (d.contentVector? place.id).isNone))

/-- `range(0, len(places), batch_size)`. -/
def batchStarts (places : List Place) (batchSize : Int) : Except Exc (List Nat) :=
  if batchSize = 0 then .error (.valueError "range() arg 3 must not be zero")
  else if batchSize < 0 then .ok []
  else .ok (List.range' 0 ((places.length + batchSize.toNat - 1) / batchSize.toNat) batchSize.toNat)

/-- The command, outside any atomic block. -/
def embedPlaces (replies : Nat → EmbeddingReply) (options : EmbedOptions) : Service V EmbedSummary :=
  Txn.autocommit do
    Txn.orRaise (options.provider = "gemini" → options.geminiApiKey ≠ "") (.other "CommandError")
    let d ← Txn.read
    let targets := d.embedTargets options.contentTypeId options.onlyMissing
    let places ← Txn.lift (options.limit.elim (.ok targets) fun limit => querySlice none 0 limit targets)
    let starts ← Txn.lift (batchStarts places options.batchSize)
    embedLoop names column replies options.batchSize.toNat places options.dryRun starts {}

end

/-! ### What a run writes -/

/-- The vectors that a batch is answered with, if it is. -/
def answerOf (names : String → Option String) (reply : EmbeddingReply) (batch : List Place) : List (List Double) :=
  match embedTexts reply (batch.map (buildEmbeddingText names)) with
  | .ok vectors => vectors
  | .error _ => []

/-- The values of the vectors, up to the first that the column does not take. -/
def columnValues (column : List Double → Except Exc V) : List (List Double) → List V
  | [] => []
  | vector :: rest =>
    match column vector with
    | .ok value => value :: columnValues column rest
    | .error _ => []

/-- The writes of a batch, in their order. -/
def batchWrites (column : List Double → Except Exc V) (batch : List Place) (vectors : List (List Double)) : List (Int × V) :=
  (batch.zip (columnValues column vectors)).map fun (place, value) => (place.id, value)

def Db.saveContents (writes : List (Int × V)) (d : Db V) : Db V := writes.foldl (fun d w => d.saveContent w.1 w.2) d

/-- How a batch ends. -/
def storeEnd (column : List Double → Except Exc V) : List Place → List (List Double) → Except Exc Unit
  | [], [] => .ok ()
  | _ :: batch, vector :: vectors =>
    match column vector with
    | .ok _ => storeEnd column batch vectors
    | .error e => .error e
  | _ :: _, [] => .error zipShorter
  | [], _ :: _ => .error zipLonger

section
variable {names : String → Option String} {column : List Double → Except Exc V}

variable (column) in
theorem storeBatch_run (batch : List Place) (vectors : List (List Double)) (d : Db V) (k : Nat) :
    (storeBatch column batch vectors).eval d k =
        (storeEnd column batch vectors).map (fun _ => ((), d.saveContents (batchWrites column batch vectors), k)) ∧
      (storeBatch column batch vectors).left d k = d.saveContents (batchWrites column batch vectors) := by
  induction batch generalizing vectors d with
  | nil => cases vectors <;> exact ⟨rfl, rfl⟩
  | cons place batch ih =>
    cases vectors with
    | nil => exact ⟨rfl, rfl⟩
    | cons vector vectors =>
      cases hvalue : column vector with
      | error e =>
        have hone : (persistContentVector column place vector).eval d k = .error e ∧
            (persistContentVector column place vector).left d k = d := by
          simp [persistContentVector, hvalue, Txn.forUpdate, Txn.lift, Txn.eval, Txn.left]
        rw [storeBatch, Txn.eval_bind_error hone.1, Txn.left_bind_error hone.1, hone.2]
        simp [storeEnd, batchWrites, columnValues, hvalue, Db.saveContents, Except.map]
      | ok value =>
        have hone : (persistContentVector column place vector).eval d k = .ok ((), d.saveContent place.id value, k) := by
          simp [persistContentVector, hvalue, Txn.forUpdate, Txn.lift, Txn.put, Txn.eval]
        obtain ⟨heval, hleft⟩ := ih vectors (d.saveContent place.id value)
        rw [storeBatch, Txn.eval_bind_ok hone, Txn.left_bind_ok hone, heval, hleft]
        simp [storeEnd, batchWrites, columnValues, hvalue, Db.saveContents]

theorem styleVector?_saveContent (placeId : Int) (vector : V) (d : Db V) :
    (d.saveContent placeId vector).styleVector? = d.styleVector? := by
  funext other
  have hfind := Lib.Upsert.find?_setOrInsert PlaceFeature.placeId
    (fun feature : PlaceFeature V => {feature with contentVector := some vector})
    {placeId := placeId, contentVector := some vector} (fun _ => rfl) rfl d.placeFeatures other
  refine (congrArg (Option.bind · PlaceFeature.styleVector) hfind).trans ?_
  unfold Db.styleVector?
  by_cases hother : other = placeId
  · rw [if_pos hother, hother]
    cases d.placeFeatures.find? (·.placeId == placeId) <;> rfl
  · rw [if_neg hother]

theorem contentVector?_saveContent (placeId : Int) (vector : V) (d : Db V) :
    (d.saveContent placeId vector).contentVector? = Function.update d.contentVector? placeId (some vector) := by
  funext other
  have hfind := Lib.Upsert.find?_setOrInsert PlaceFeature.placeId
    (fun feature : PlaceFeature V => {feature with contentVector := some vector})
    {placeId := placeId, contentVector := some vector} (fun _ => rfl) rfl d.placeFeatures other
  refine (congrArg (Option.bind · PlaceFeature.contentVector) hfind).trans ?_
  unfold Db.contentVector?
  by_cases hother : other = placeId
  · rw [if_pos hother, hother, Function.update_self]
    cases d.placeFeatures.find? (·.placeId == placeId) <;> rfl
  · rw [if_neg hother, Function.update_of_ne hother]

theorem saveContents_append (writes writes' : List (Int × V)) (d : Db V) :
    d.saveContents (writes ++ writes') = (d.saveContents writes).saveContents writes' := List.foldl_append

/-- Besides the content vectors nothing changes. -/
theorem saveContents_rest (writes : List (Int × V)) (d : Db V) :
    d.saveContents writes = {d with placeFeatures := (d.saveContents writes).placeFeatures} ∧
      (d.saveContents writes).styleVector? = d.styleVector? := by
  induction writes generalizing d with
  | nil => exact ⟨rfl, rfl⟩
  | cons w rest ih =>
    obtain ⟨htables, hstyle⟩ := ih (d.saveContent w.1 w.2)
    exact ⟨htables, hstyle.trans (styleVector?_saveContent w.1 w.2 d)⟩

/-- A place that is not written keeps its vector. -/
theorem contentVector?_of_not_mem {writes : List (Int × V)} {id : Int} (h : ∀ w ∈ writes, w.1 ≠ id) (d : Db V) :
    (d.saveContents writes).contentVector? id = d.contentVector? id := by
  induction writes generalizing d with
  | nil => rfl
  | cons w rest ih =>
    rw [List.forall_mem_cons] at h
    refine (ih h.2 (d.saveContent w.1 w.2)).trans ?_
    rw [contentVector?_saveContent, Function.update_of_ne (Ne.symm h.1)]

/-- A vector that was not there before comes from a write. -/
theorem saveContents_values {writes : List (Int × V)} {d : Db V}
    (h : ∀ w ∈ writes, ∃ vector : List Double, vector.length = embeddingDim ∧ column vector = .ok w.2) (id : Int) :
    (d.saveContents writes).contentVector? id = d.contentVector? id ∨ ∃ (vector : List Double) (value : V),
      vector.length = embeddingDim ∧ column vector = .ok value ∧ (d.saveContents writes).contentVector? id = some value := by
  induction writes generalizing d with
  | nil => exact .inl rfl
  | cons w rest ih =>
    rw [List.forall_mem_cons] at h
    obtain ⟨vector, hlength, hvector⟩ := h.1
    have hsave := contentVector?_saveContent w.1 w.2 d
    rcases ih (d := d.saveContent w.1 w.2) h.2 with hsame | hnew
    · by_cases hid : id = w.1
      · refine .inr ⟨vector, w.2, hlength, hvector, hsame.trans ?_⟩
        rw [hsave, hid, Function.update_self]
      · refine .inl (hsame.trans ?_)
        rw [hsave, Function.update_of_ne hid]
    · exact .inr hnew

/-- A batch position by position: the value of the answer's vector, or what was there. -/
def BatchStored (column : List Double → Except Exc V) (batch : List Place) (vectors : List (List Double))
    (before after : Int → Option V) : Prop :=
  ∀ (i : Nat) (place : Place), batch[i]? = some place → after place.id = ((columnValues column vectors)[i]?).or (before place.id)

theorem batchStored_writes {batch : List Place} (hids : (batch.map (·.id)).Nodup) (vectors : List (List Double)) (d : Db V) :
    BatchStored column batch vectors d.contentVector?
      (d.saveContents (batchWrites column batch vectors)).contentVector? := by
  unfold BatchStored batchWrites
  intro i place hplace
  generalize columnValues column vectors = values
  induction batch generalizing values d i with
  | nil => cases hplace
  | cons first batch ih =>
    rw [List.map_cons, List.nodup_cons] at hids
    cases values with
    | nil => rfl
    | cons value values =>
      have hwritten : ∀ w ∈ (batch.zip values).map fun (place, value) => (place.id, value), w.1 ≠ first.id := by
        intro w hw heq
        obtain ⟨pair, hpair, rfl⟩ := List.mem_map.mp hw
        exact hids.1 (List.mem_map.mpr ⟨pair.1, (List.of_mem_zip hpair).1, heq⟩)
      cases i with
      | zero =>
        cases hplace
        refine (contentVector?_of_not_mem hwritten (d.saveContent place.id value)).trans ?_
        rw [contentVector?_saveContent, Function.update_self]
        rfl
      | succ i =>
        rw [List.getElem?_cons_succ] at hplace
        have hne : place.id ≠ first.id := fun heq => hids.1 (heq ▸ List.mem_map.mpr ⟨place, List.mem_of_getElem? hplace, rfl⟩)
        refine (ih hids.2 (d.saveContent first.id value) i hplace values).trans ?_
        rw [contentVector?_saveContent, Function.update_of_ne hne, List.getElem?_cons_succ]

/-- A batch that is stored while others are written stays as it is. -/
theorem BatchStored.congr {batch : List Place} {vectors : List (List Double)} {before before' after after' : Int → Option V}
    (h : BatchStored column batch vectors before after) (hbefore : ∀ place ∈ batch, before' place.id = before place.id)
    (hafter : ∀ place ∈ batch, after' place.id = after place.id) : BatchStored column batch vectors before' after' := by
  intro i place hplace
  have hmem := List.mem_of_getElem? hplace
  rw [hbefore place hmem, hafter place hmem]
  exact h i place hplace

theorem mem_columnValues {vectors : List (List Double)} {value : V} (h : value ∈ columnValues column vectors) :
    ∃ vector ∈ vectors, column vector = .ok value := by
  induction vectors with
  | nil => cases h
  | cons vector rest ih =>
    unfold columnValues at h
    split at h
    · rename_i first hfirst
      rcases List.mem_cons.mp h with rfl | h
      · exact ⟨vector, List.mem_cons_self, hfirst⟩
      · obtain ⟨other, hother, heq⟩ := ih h
        exact ⟨other, List.mem_cons_of_mem _ hother, heq⟩
    · cases h

theorem mem_batchWrites {batch : List Place} {vectors : List (List Double)} {w : Int × V}
    (h : w ∈ batchWrites column batch vectors) :
    ∃ place ∈ batch, ∃ vector ∈ vectors, place.id = w.1 ∧ column vector = .ok w.2 := by
  obtain ⟨pair, hpair, rfl⟩ := List.mem_map.mp h
  obtain ⟨hplace, hvalue⟩ := List.of_mem_zip hpair
  obtain ⟨vector, hvector, heq⟩ := mem_columnValues hvalue
  exact ⟨pair.1, hplace, vector, hvector, rfl, heq⟩

end

/-! ### The loop -/

section
variable (names : String → Option String) (column : List Double → Except Exc V) (replies : Nat → EmbeddingReply) (n : Nat)
  (places : List Place) (dryRun : Bool)

/-- What is sent for the batch. -/
def repliedAt (start : Nat) : Except Exc (List (List Double)) :=
  embedTexts (replies start) ((batchAt n places start).map (buildEmbeddingText names))

/-- The batch is given up: it is counted, and the loop goes on. -/
def givenUp (start : Nat) : Bool :=
  match repliedAt names replies n places start with
  | .error e => e = embeddingError
  | .ok _ => false

/-- The exception that the loop ends with in the batch. -/
def raisedAt (start : Nat) : Option Exc :=
  match repliedAt names replies n places start with
  | .error e => if e = embeddingError then none else some e
  | .ok vectors =>
    if dryRun then none
    else
      match storeEnd column (batchAt n places start) vectors with
      | .ok _ => none
      | .error e => some e

/-- The batches that the loop gets to. -/
def batchesReached : List Nat → List Nat
  | [] => []
  | start :: rest =>
    if (raisedAt names column replies n places dryRun start).isSome then [start] else start :: batchesReached rest

/-- How many places are in the batches that are given up, and in the others. -/
def embedCounts (starts : List Nat) : EmbedSummary where
  processed := ((starts.filter fun start => !givenUp names replies n places start).flatMap (batchAt n places)).length
  errors := ((starts.filter (givenUp names replies n places)).flatMap (batchAt n places)).length

/-- The first exception, or the counts. -/
def embedResult (starts : List Nat) : Except Exc EmbedSummary :=
  match starts.findSome? (raisedAt names column replies n places dryRun) with
  | some e => .error e
  | none => .ok (embedCounts names replies n places starts)

def EmbedSummary.plus (a b : EmbedSummary) : EmbedSummary := ⟨a.processed + b.processed, a.errors + b.errors⟩

/-- The writes of a batch that the loop gets to. -/
def writesAt (start : Nat) : List (Int × V) :=
  if dryRun then []
  else batchWrites column (batchAt n places start) (answerOf names (replies start) (batchAt n places start))

/-- The writes of the loop. -/
def embedWrites (starts : List Nat) : List (Int × V) :=
  (batchesReached names column replies n places dryRun starts).flatMap (writesAt names column replies n places dryRun)

/-- What the batch adds to the counts. -/
def countsAt (start : Nat) : EmbedSummary :=
  if givenUp names replies n places start then ⟨0, (batchAt n places start).length⟩
  else ⟨(batchAt n places start).length, 0⟩

end

section
variable {names : String → Option String} {column : List Double → Except Exc V} {replies : Nat → EmbeddingReply} {n : Nat}
  {places : List Place} {dryRun : Bool} {start : Nat}

theorem embedResult_raised {e : Exc} (h : raisedAt names column replies n places dryRun start = some e) (rest : List Nat) :
    embedResult names column replies n places dryRun (start :: rest) = .error e := by
  rw [embedResult, List.findSome?_cons, h]

theorem embedResult_next (h : raisedAt names column replies n places dryRun start = none) (rest : List Nat) :
    embedResult names column replies n places dryRun (start :: rest) =
      (embedResult names column replies n places dryRun rest).map (countsAt names replies n places start).plus := by
  have hcounts : embedCounts names replies n places (start :: rest) =
      (countsAt names replies n places start).plus (embedCounts names replies n places rest) := by
    unfold embedCounts countsAt EmbedSummary.plus
    cases hgiven : givenUp names replies n places start <;> simp [hgiven]
  rw [embedResult, List.findSome?_cons, h, embedResult, hcounts]
  cases rest.findSome? (raisedAt names column replies n places dryRun) <;> rfl

theorem embedWrites_raised {e : Exc} (h : raisedAt names column replies n places dryRun start = some e) (rest : List Nat) :
    embedWrites names column replies n places dryRun (start :: rest) = writesAt names column replies n places dryRun start := by
  simp [embedWrites, batchesReached, h]

theorem embedWrites_next (h : raisedAt names column replies n places dryRun start = none) (rest : List Nat) :
    embedWrites names column replies n places dryRun (start :: rest) =
      writesAt names column replies n places dryRun start ++ embedWrites names column replies n places dryRun rest := by
  simp [embedWrites, batchesReached, h]

variable (names column replies n places dryRun) in
/-- **One batch**: the loop ends with its exception, or goes on with what the batch left. -/
theorem embedLoop_cons (start : Nat) (rest : List Nat) (summary : EmbedSummary) (d : Db V) (k : Nat) :
    match raisedAt names column replies n places dryRun start with
    | some e =>
      (embedLoop names column replies n places dryRun (start :: rest) summary).eval d k = .error e ∧
        (embedLoop names column replies n places dryRun (start :: rest) summary).left d k =
          d.saveContents (writesAt names column replies n places dryRun start)
    | none =>
      (embedLoop names column replies n places dryRun (start :: rest) summary).eval d k =
          (embedLoop names column replies n places dryRun rest (summary.plus (countsAt names replies n places start))).eval
            (d.saveContents (writesAt names column replies n places dryRun start)) k ∧
        (embedLoop names column replies n places dryRun (start :: rest) summary).left d k =
          (embedLoop names column replies n places dryRun rest (summary.plus (countsAt names replies n places start))).left
            (d.saveContents (writesAt names column replies n places dryRun start)) k := by
  have hloop : embedLoop names column replies n places dryRun (start :: rest) summary =
      match repliedAt names replies n places start with
      | .error e =>
        if e = embeddingError then
          embedLoop names column replies n places dryRun rest
            {summary with errors := summary.errors + (batchAt n places start).length}
        else Txn.raise e
      | .ok vectors => (do
        if !dryRun then storeBatch column (batchAt n places start) vectors
        embedLoop names column replies n places dryRun rest
          {summary with processed := summary.processed + (batchAt n places start).length}) := rfl
  have hanswer : answerOf names (replies start) (batchAt n places start) =
      match repliedAt names replies n places start with | .ok vectors => vectors | .error _ => [] := rfl
  rw [hloop, writesAt, hanswer, countsAt, givenUp, raisedAt]
  rcases repliedAt names replies n places start with e | vectors
  · by_cases he : e = embeddingError
    · subst he
      cases dryRun <;> simp [EmbedSummary.plus, batchWrites, columnValues, Db.saveContents]
    · cases dryRun <;> simp [he, batchWrites, columnValues, Db.saveContents, Txn.eval, Txn.left]
  · cases dryRun with
    | true => simp [EmbedSummary.plus, Db.saveContents]
    | false =>
      obtain ⟨hstore, hleft⟩ := storeBatch_run column (batchAt n places start) vectors d k
      cases hend : storeEnd column (batchAt n places start) vectors with
      | ok u =>
        rw [hend] at hstore
        simp [hend, Txn.eval_bind_ok hstore, Txn.left_bind_ok hstore, EmbedSummary.plus]
      | error e =>
        rw [hend] at hstore
        simp [hend, Txn.eval_bind_error hstore, Txn.left_bind_error hstore, hleft]

variable (names column replies n places dryRun) in
theorem embedLoop_run (starts : List Nat) (summary : EmbedSummary) (d : Db V) (k : Nat) :
    (embedLoop names column replies n places dryRun starts summary).eval d k =
        (embedResult names column replies n places dryRun starts).map (fun counts =>
          (summary.plus counts, d.saveContents (embedWrites names column replies n places dryRun starts), k)) ∧
      (embedLoop names column replies n places dryRun starts summary).left d k =
        d.saveContents (embedWrites names column replies n places dryRun starts) := by
  induction starts generalizing summary d with
  | nil => exact ⟨rfl, rfl⟩
  | cons start rest ih =>
    have hone := embedLoop_cons names column replies n places dryRun start rest summary d k
    cases hraised : raisedAt names column replies n places dryRun start with
    | some e =>
      rw [hraised] at hone
      rw [hone.1, hone.2, embedResult_raised hraised, embedWrites_raised hraised]
      exact ⟨rfl, rfl⟩
    | none =>
      rw [hraised] at hone
      obtain ⟨heval, hleft⟩ := ih (summary.plus (countsAt names replies n places start))
        (d.saveContents (writesAt names column replies n places dryRun start))
      rw [hone.1, hone.2, heval, hleft, embedResult_next hraised, embedWrites_next hraised, saveContents_append]
      refine ⟨?_, rfl⟩
      cases embedResult names column replies n places dryRun rest with
      | error e => rfl
      | ok counts => simp [Except.map, EmbedSummary.plus, Nat.add_assoc]

variable (names column replies n places dryRun) in
theorem batchesReached_prefix (starts : List Nat) : batchesReached names column replies n places dryRun starts <+: starts := by
  induction starts with
  | nil => exact List.prefix_refl _
  | cons start rest ih =>
    unfold batchesReached
    split
    · exact ⟨rest, rfl⟩
    · exact (List.prefix_cons_inj start).mpr ih

/-- Batches without a place in common are stored one by one. -/
theorem batchStored_of_mem {starts : List Nat} (hids : ((starts.flatMap (batchAt n places)).map (·.id)).Nodup) (d : Db V) :
    ∀ start ∈ starts, BatchStored column (batchAt n places start) (answerOf names (replies start) (batchAt n places start))
      d.contentVector? (d.saveContents (starts.flatMap (writesAt names column replies n places false))).contentVector? := by
  induction starts generalizing d with
  | nil => exact fun _ h => nomatch h
  | cons first rest ih =>
    rw [List.flatMap_cons, List.map_append, List.nodup_append'] at hids
    obtain ⟨hfirst, hrest, hapart⟩ := hids
    rw [List.flatMap_cons, saveContents_append]
    intro start hstart
    rcases List.mem_cons.mp hstart with rfl | hstart
    · refine (batchStored_writes hfirst _ d).congr (fun _ _ => rfl) fun place hplace => ?_
      refine contentVector?_of_not_mem (fun w hw heq => ?_) _
      obtain ⟨other, hother, hw⟩ := List.mem_flatMap.mp hw
      obtain ⟨place', hplace', -, -, hid, -⟩ := mem_batchWrites hw
      refine hapart (List.mem_map.mpr ⟨place, hplace, rfl⟩) (List.mem_map.mpr ⟨place', ?_, hid.trans heq⟩)
      exact List.mem_flatMap.mpr ⟨other, hother, hplace'⟩
    · refine (ih hrest _ start hstart).congr (fun place hplace => ?_) fun _ _ => rfl
      refine (contentVector?_of_not_mem (fun w hw heq => ?_) d).symm
      obtain ⟨place', hplace', -, -, hid, -⟩ := mem_batchWrites hw
      refine hapart (List.mem_map.mpr ⟨place', hplace', hid.trans heq⟩) (List.mem_map.mpr ⟨place, ?_, rfl⟩)
      exact List.mem_flatMap.mpr ⟨start, hstart, hplace⟩

theorem length_of_answer {reply : EmbeddingReply} {batch : List Place} {vector : List Double}
    (h : vector ∈ answerOf names reply batch) : vector.length = embeddingDim := by
  unfold answerOf embedTexts at h
  split at h
  · rename_i vectors hvectors
    split at hvectors
    · cases hvectors
      cases h
    · cases hreply : reply (batch.map (buildEmbeddingText names)) with
      | error e =>
        rw [hreply] at hvectors
        cases hvectors
      | ok answer =>
        rw [hreply] at hvectors
        simp only [bind, Except.bind] at hvectors
        split at hvectors
        · rename_i hall
          cases hvectors
          exact beq_iff_eq.mp (List.all_eq_true.mp hall vector h)
        · cases hvectors
  · cases h

/-- All places are counted. -/
theorem embedCounts_add (starts : List Nat) :
    (embedCounts names replies n places starts).processed + (embedCounts names replies n places starts).errors =
      (starts.flatMap (batchAt n places)).length := by
  induction starts with
  | nil => rfl
  | cons start rest ih =>
    unfold embedCounts at ih ⊢
    cases hgiven : givenUp names replies n places start <;>
      simp only [List.filter_cons, hgiven, Bool.not_true, Bool.not_false, Bool.false_eq_true, if_true, if_false,
        List.flatMap_cons, List.length_append] at ih ⊢ <;> omega

end

/-! ### A run -/

/-- The starts of the batches. -/
def startsOf (n : Nat) (places : List Place) : List Nat := List.range' 0 ((places.length + n - 1) / n) n

/-- What a run on `places` leaves of the tables `d`. -/
structure EmbeddingRun (names : String → Option String) (column : List Double → Except Exc V) (replies : Nat → EmbeddingReply) (n : Nat)
    (places : List Place) (dryRun : Bool) (d : Db V) (outcome : Except Exc EmbedSummary) (d' : Db V) : Prop where
  /-- The first exception of a batch, or the counts. -/
  result : outcome = embedResult names column replies n places dryRun (startsOf n places)
  /-- A run that returns has been through all places. -/
  returned : ∀ summary, outcome = .ok summary → batchesReached names column replies n places dryRun (startsOf n places) =
    startsOf n places ∧ summary.processed + summary.errors = places.length
  tables : d' = {d with placeFeatures := d'.placeFeatures}
  style : d'.styleVector? = d.styleVector?
  dry : dryRun = true → d' = d
  stored : dryRun = false → ∀ start ∈ batchesReached names column replies n places dryRun (startsOf n places),
    BatchStored column (batchAt n places start) (answerOf names (replies start) (batchAt n places start)) d.contentVector?
      d'.contentVector?
  others : ∀ id, (∀ start ∈ batchesReached names column replies n places dryRun (startsOf n places),
    ∀ place ∈ batchAt n places start, place.id ≠ id) → d'.contentVector? id = d.contentVector? id
  dim : ∀ id, d'.contentVector? id = d.contentVector? id ∨
    ∃ (vector : List Double) (value : V), vector.length = embeddingDim ∧ column vector = .ok value ∧
      d'.contentVector? id = some value

section
variable {names : String → Option String} {column : List Double → Except Exc V} {replies : Nat → EmbeddingReply} {n : Nat}
  {places : List Place} {dryRun : Bool}

theorem batchesReached_of_none {starts : List Nat} (h : ∀ start ∈ starts, raisedAt names column replies n places dryRun start = none) :
    batchesReached names column replies n places dryRun starts = starts := by
  induction starts with
  | nil => rfl
  | cons start rest ih =>
    rw [List.forall_mem_cons] at h
    rw [batchesReached, h.1, ih h.2]
    rfl

theorem embedResult_ok {starts : List Nat} {summary : EmbedSummary}
    (h : embedResult names column replies n places dryRun starts = .ok summary) :
    (∀ start ∈ starts, raisedAt names column replies n places dryRun start = none) ∧
      summary = embedCounts names replies n places starts := by
  unfold embedResult at h
  cases hfirst : starts.findSome? (raisedAt names column replies n places dryRun) with
  | some e =>
    rw [hfirst] at h
    cases h
  | none =>
    rw [hfirst] at h
    cases h
    exact ⟨List.findSome?_eq_none_iff.mp hfirst, rfl⟩

theorem flatMap_startsOf (hn : 0 < n) (places : List Place) : (startsOf n places).flatMap (batchAt n places) = places :=
  Lib.Pages.flatMap_range' hn places

variable (names column replies dryRun) in
/-- The writes of the loop on the tables. -/
theorem embeddingRun_writes (hn : 0 < n) (hids : (places.map (·.id)).Nodup) (d : Db V) :
    EmbeddingRun names column replies n places dryRun d (embedResult names column replies n places dryRun (startsOf n places))
      (d.saveContents (embedWrites names column replies n places dryRun (startsOf n places))) := by
  have hreached : (((batchesReached names column replies n places dryRun (startsOf n places)).flatMap (batchAt n places)).map
      (·.id)).Nodup := by
    obtain ⟨rest, hrest⟩ := batchesReached_prefix names column replies n places dryRun (startsOf n places)
    have hall := flatMap_startsOf hn places
    rw [← hrest, List.flatMap_append] at hall
    refine hids.sublist (List.Sublist.map _ ?_)
    exact (List.sublist_append_left _ _).trans (by rw [hall])
  have hrest := saveContents_rest (embedWrites names column replies n places dryRun (startsOf n places)) d
  have hmem : ∀ w ∈ embedWrites names column replies n places dryRun (startsOf n places),
      ∃ start ∈ batchesReached names column replies n places dryRun (startsOf n places), ∃ place ∈ batchAt n places start,
        ∃ vector ∈ answerOf names (replies start) (batchAt n places start), place.id = w.1 ∧ column vector = .ok w.2 := by
    intro w hw
    obtain ⟨start, hstart, hw⟩ := List.mem_flatMap.mp hw
    unfold writesAt at hw
    split at hw
    · cases hw
    · exact ⟨start, hstart, mem_batchWrites hw⟩
  constructor
  · rfl
  · intro summary hok
    obtain ⟨hnone, rfl⟩ := embedResult_ok hok
    exact ⟨batchesReached_of_none hnone, (embedCounts_add _).trans (congrArg List.length (flatMap_startsOf hn places))⟩
  · exact hrest.1
  · exact hrest.2
  · intro hdry
    have hnone : embedWrites names column replies n places dryRun (startsOf n places) = [] := by
      rw [embedWrites, hdry]
      exact List.flatMap_eq_nil_iff.mpr fun _ _ => rfl
    rw [hnone]
    rfl
  · intro hdry
    rw [hdry] at hreached ⊢
    exact batchStored_of_mem hreached d
  · intro id hid
    refine contentVector?_of_not_mem (fun w hw heq => ?_) d
    obtain ⟨start, hstart, place, hplace, -, -, hw, -⟩ := hmem w hw
    exact hid start hstart place hplace (hw.trans heq)
  · refine saveContents_values fun w hw => ?_
    obtain ⟨_, _, _, _, vector, hvector, _, hw⟩ := hmem w hw
    exact ⟨vector, length_of_answer hvector, hw⟩

end

/-- The places that a run is about, as the slice of the query has them. -/
def Db.embedPlaces (d : Db V) (options : EmbedOptions) : Except Exc (List Place) :=
  options.limit.elim (.ok (d.embedTargets options.contentTypeId options.onlyMissing)) fun limit =>
    querySlice none 0 limit (d.embedTargets options.contentTypeId options.onlyMissing)

theorem embedPlaces_sublist {d : Db V} {options : EmbedOptions} {places : List Place} (hplaces : d.embedPlaces options = .ok places) :
    places.Sublist (d.embedTargets options.contentTypeId options.onlyMissing) := by
  unfold Db.embedPlaces at hplaces
  cases hlimit : options.limit with
  | none =>
    rw [hlimit] at hplaces
    cases hplaces
    exact List.Sublist.refl _
  | some limit =>
    rw [hlimit, Option.elim_some, querySlice] at hplaces
    split at hplaces
    · cases hplaces
    · cases hplaces
      exact (List.drop_sublist _ _).trans (List.take_sublist _ _)

theorem embedTargets_nodup {d : Db V} (hids : (d.places.map (·.id)).Nodup) (contentTypeId : Option Int) (onlyMissing : Bool) :
    ((d.embedTargets contentTypeId onlyMissing).map (·.id)).Nodup :=
  (orderBy_perm.map _).nodup_iff.mpr (hids.sublist (List.filter_sublist.map _))

/-- A run that gets to its loop. -/
theorem embedPlaces_perform (names : String → Option String) (column : List Double → Except Exc V) (replies : Nat → EmbeddingReply)
    {options : EmbedOptions} {b : Base (Db V)} {places : List Place}
    (hkey : options.provider = "gemini" → options.geminiApiKey ≠ "") (hplaces : b.db.embedPlaces options = .ok places)
    (hbatch : 0 < options.batchSize) :
    ((embedPlaces names column replies options).perform b).1 = embedResult names column replies options.batchSize.toNat places
        options.dryRun (startsOf options.batchSize.toNat places) ∧
      ((embedPlaces names column replies options).perform b).2.db = b.db.saveContents (embedWrites names column replies
        options.batchSize.toNat places options.dryRun (startsOf options.batchSize.toNat places)) := by
  have hstarts : batchStarts places options.batchSize = .ok (startsOf options.batchSize.toNat places) := by
    rw [batchStarts, if_neg (by omega), if_neg (by omega)]
    rfl
  have hlift : (options.limit.elim (.ok (b.db.embedTargets options.contentTypeId options.onlyMissing)) fun limit =>
      querySlice none 0 limit (b.db.embedTargets options.contentTypeId options.onlyMissing)) = .ok places := hplaces
  obtain ⟨heval, hleft⟩ := embedLoop_run names column replies options.batchSize.toNat places options.dryRun
    (startsOf options.batchSize.toNat places) {} b.db b.seq
  unfold embedPlaces
  rw [(Txn.perform_autocommit _ b).1, (Txn.perform_autocommit _ b).2]
  simp only [Txn.orRaise_bind, if_pos hkey, Txn.read_bind, Txn.eval, Txn.left, hlift, Txn.lift_ok, Txn.ret_bind, hstarts, heval,
    hleft]
  refine ⟨?_, trivial⟩
  cases embedResult names column replies options.batchSize.toNat places options.dryRun (startsOf options.batchSize.toNat places) with
  | error e => rfl
  | ok counts => simp [Except.map, EmbedSummary.plus]

/-- A run that does not get to its loop. -/
theorem embedPlaces_unstarted (names : String → Option String) (column : List Double → Except Exc V) (replies : Nat → EmbeddingReply)
    {options : EmbedOptions} (b : Base (Db V)) (h : ¬ ((options.provider = "gemini" → options.geminiApiKey ≠ "") ∧
      0 < options.batchSize ∧ ∃ places, b.db.embedPlaces options = .ok places)) :
    ((embedPlaces names column replies options).perform b).2.db = b.db ∧
      ((∃ e, ((embedPlaces names column replies options).perform b).1 = .error e) ∨
        ((embedPlaces names column replies options).perform b).1 = .ok {}) := by
  unfold embedPlaces
  rw [(Txn.perform_autocommit _ b).1, (Txn.perform_autocommit _ b).2]
  by_cases hkey : options.provider = "gemini" → options.geminiApiKey ≠ ""
  · have hlift : (options.limit.elim (.ok (b.db.embedTargets options.contentTypeId options.onlyMissing)) fun limit =>
        querySlice none 0 limit (b.db.embedTargets options.contentTypeId options.onlyMissing)) = b.db.embedPlaces options := rfl
    simp only [Txn.orRaise_bind, if_pos hkey, Txn.read_bind, Txn.eval, Txn.left, hlift]
    cases hplaces : b.db.embedPlaces options with
    | error e => exact ⟨rfl, .inl ⟨e, rfl⟩⟩
    | ok places =>
      have hbatch : ¬ 0 < options.batchSize := fun hbatch => h ⟨hkey, hbatch, places, hplaces⟩
      have hstarts : (∃ e, batchStarts places options.batchSize = .error e) ∨ batchStarts places options.batchSize = .ok [] := by
        unfold batchStarts
        by_cases hzero : options.batchSize = 0
        · exact .inl ⟨_, if_pos hzero⟩
        · rw [if_neg hzero, if_pos (by omega)]
          exact .inr rfl
      simp only [Txn.lift_ok, Txn.ret_bind]
      rcases hstarts with ⟨e, he⟩ | hnone
      · rw [he]
        exact ⟨rfl, .inl ⟨e, rfl⟩⟩
      · rw [hnone]
        exact ⟨rfl, .inr rfl⟩
  · simp only [Txn.orRaise_bind, if_neg hkey]
    exact ⟨rfl, .inl ⟨_, rfl⟩⟩

/-- **What a run leaves**, whatever the provider answers: nothing but content vectors of 1024
numbers, batch by batch those of the answer, up to the first exception. -/
theorem embedding_run (names : String → Option String) (column : List Double → Except Exc V) (replies : Nat → EmbeddingReply)
    (options : EmbedOptions) (b : Base (Db V)) (places : List Place) (hids : (b.db.places.map (·.id)).Nodup)
    (hkey : options.provider = "gemini" → options.geminiApiKey ≠ "") (hplaces : b.db.embedPlaces options = .ok places)
    (hbatch : 0 < options.batchSize) :
    EmbeddingRun names column replies options.batchSize.toNat places options.dryRun b.db
      ((embedPlaces names column replies options).perform b).1 ((embedPlaces names column replies options).perform b).2.db := by
  obtain ⟨hresult, hleft⟩ := embedPlaces_perform names column replies hkey hplaces hbatch
  rw [hresult, hleft]
  exact embeddingRun_writes names column replies options.dryRun (by omega) ((embedTargets_nodup hids _ _).sublist ((embedPlaces_sublist hplaces).map _))
    b.db

/-- Two places without vectors. -/
def twoPlaces : Db Nat where
  places := [{id := 1, contentId := 10, contentTypeId := 12}, {id := 2, contentId := 20, contentTypeId := 12}]

def zeroVector : List Double := List.replicate embeddingDim (.ofRat false 0)

/-- A provider that fails at first, and then sends a vector too many. -/
def failing : Nat → EmbeddingReply := fun start texts =>
  if start = 0 then .error embeddingError else .ok (List.replicate (texts.length + 1) zeroVector)

theorem embedding_run_failing : EmbeddingRun (fun _ => none) (fun vector => .ok vector.length) failing 1 twoPlaces.places false twoPlaces
    ((embedPlaces (fun _ => none) (fun vector => .ok vector.length) failing {batchSize := 1}).perform ⟨twoPlaces, 0⟩).1
    ((embedPlaces (fun _ => none) (fun vector => .ok vector.length) failing {batchSize := 1}).perform ⟨twoPlaces, 0⟩).2.db :=
  embedding_run (fun _ => none) (fun vector => .ok vector.length) failing {batchSize := 1} ⟨twoPlaces, 0⟩ twoPlaces.places (by decide)
    (fun h => absurd h (by decide)) rfl (by decide)

end TravelMaker
