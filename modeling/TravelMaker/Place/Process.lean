import TravelMaker.Place.Parts
import TravelMaker.Place.Stored

/-! How a call of `_process_list_item` ends, case by case. -/
namespace TravelMaker
open Lib (Txn Decimal)

variable {V : Type}

/-! ### What can fail -/

/-- The first exception among answers. -/
def firstError {α : Type} (answers : List (Except Exc α)) : Option Exc :=
  answers.findSome? fun answer =>
    match answer with
    | .ok _ => none
    | .error e => some e

/-- The first detail call that fails, from call number `t` on. -/
def detailError (out : Outside) (t : Nat) (contentId contentTypeId : Int) : Option Exc :=
  firstError ([out.get t (.detailCommon contentId), out.get (t + 1) (.detailImage contentId)] ++
    if (placeInfoFieldMap contentTypeId).isSome then
      [out.get (t + 2) (.detailIntro contentId contentTypeId)] else [])

/-- The coordinates of an item as columns. -/
def itemCoordinates (column : Decimal → Except DbExc ℚ) (listItem : Item) : Except Exc (Option ℚ × Option ℚ) := do
  let latitude ← toColumn column (toDecimal (listItem.get "mapy"))
  let longitude ← toColumn column (toDecimal (listItem.get "mapx"))
  return (latitude, longitude)

/-- What the transaction raises: the exception of its failing statement or of the
coordinates, which are converted after `lookups` statements. -/
def saveError (coordinates : Except Exc (Option ℚ × Option ℚ)) (fault : Option (Nat × DbExc)) (lookups : Nat) :
    Option Exc :=
  match coordinates, fault with
  | .ok _, none => none
  | .ok _, some (_, e) => some e
  | .error e, none => some e
  | .error e, some (n, e') => some (if n < lookups then e' else e)

/-! ### The parts of a call -/

variable {S : Type} {out : Outside}

/-- The worlds differ in the calls and the summary only. -/
structure SameStore (w w' : World V S) : Prop where
  db : w'.db = w.db
  seq : w'.seq = w.seq
  past : w'.past = w.past

theorem SameStore.transactions {w w' : World V S} (h : SameStore w w') : w'.transactions = w.transactions :=
  congrArg List.length h.past

theorem detailsOf_run (out : Outside) (contentId contentTypeId : Int) (w : World V S) :
    SameStore w (detailsOf out contentId contentTypeId w).2 ∧
      match detailError out w.calls.length contentId contentTypeId with
      | some e => (detailsOf out contentId contentTypeId w).1 = .error e
      | none => ∃ details, (detailsOf out contentId contentTypeId w).1 = .ok details := by
  simp only [detailsOf, Collect.detailCommon, Collect.detailImage, Collect.detailIntro, detailError, firstError,
    bind_run, Collect.call]
  cases hcommon : out.get w.calls.length (.detailCommon contentId) with
  | error e => exact ⟨⟨rfl, rfl, rfl⟩, rfl⟩
  | ok common =>
    simp only [pure_run, List.length_cons]
    cases himage : out.get (w.calls.length + 1) (.detailImage contentId) with
    | error e => exact ⟨⟨rfl, rfl, rfl⟩, by simp⟩
    | ok images =>
      cases hmap : (placeInfoFieldMap contentTypeId).isSome with
      | false => exact ⟨⟨rfl, rfl, rfl⟩, _, rfl⟩
      | true =>
        simp only [if_true, bind_run, Collect.call, List.length_cons]
        cases hintro : out.get (w.calls.length + 2) (.detailIntro contentId contentTypeId) with
        | error e => exact ⟨⟨rfl, rfl, rfl⟩, by simp⟩
        | ok intro => exact ⟨⟨rfl, rfl, rfl⟩, by simp⟩

theorem atomic_run (out : Outside) {α : Type} {p : Service V α} (hp : p.Atomic) (w : World V S) :
    (Collect.atomic out p w).1 = ((out.transaction w.transactions p).eval w.db w.seq).map (·.1) ∧
      (Collect.atomic out p w).2.db =
        Txn.settled w.db ((out.transaction w.transactions p).eval w.db w.seq) := by
  have hq : (out.transaction w.transactions p).Atomic := by
    unfold Outside.transaction
    split
    · exact hp
    · exact hp.failAt _ _
  exact hq.perform_eq ⟨w.db, w.seq⟩

/-- A transaction without a failure. -/
theorem atomic_ok {S α : Type} {out : Outside} {p : Service V α} {w : World V S}
    (hfault : out.fault w.transactions = none) (hp : p.Atomic) {r : α × Db V × Nat} (h : p.eval w.db w.seq = .ok r) :
    Collect.atomic out p w = (.ok r.1, {w with db := r.2.1, seq := r.2.2, past := w.db :: w.past}) := by
  unfold Collect.atomic Outside.transaction
  rw [hfault]
  show (((p.run w.db w.db w.seq).result, _) : Except Exc α × World V S) = _
  rw [hp.run_ok h]

/-- What a transaction with a failing statement returns. -/
theorem transaction_eval (out : Outside) {α : Type} (t : Nat) (p : Service V α) (d : Db V) (n : Nat) :
    (out.transaction t p).eval d n = match out.fault t with
      | none => p.eval d n
      | some (m, e) => Txn.cutShort e.1 (decide (m < p.length d n)) (p.eval d n) := by
  unfold Outside.transaction
  cases out.fault t with
  | none => rfl
  | some fault => exact Txn.eval_failAt p fault.2.1 fault.1 d n

/-- A transaction with a failure. -/
theorem atomic_fault {S α : Type} {out : Outside} {p : Service V α} {w : World V S} {fault : Nat × DbExc}
    (hfault : out.fault w.transactions = some fault) (hp : p.Atomic) :
    ∃ e w', Collect.atomic out p w = (.error e, w') ∧ w'.db = w.db ∧ w.seq ≤ w'.seq := by
  have herror : ∃ e, (out.transaction w.transactions p).eval w.db w.seq = .error e := by
    rw [transaction_eval, hfault]
    cases p.eval w.db w.seq with
    | ok r => exact ⟨_, rfl⟩
    | error e => exact ⟨_, rfl⟩
  obtain ⟨e, herror⟩ := herror
  obtain ⟨hresult, hdb⟩ := atomic_run out hp w
  rw [herror] at hresult hdb
  exact ⟨e, _, Prod.ext hresult rfl, hdb, Txn.le_run_seq _ _ _ _⟩

theorem atomic_read : (Txn.read : Service V (Db V)).Atomic := fun _ => trivial

theorem query_ok {S : Type} {out : Outside} {w : World V S} (hfault : out.fault w.transactions = none) :
    Collect.query out w = (.ok w.db, {w with past := w.db :: w.past}) := atomic_ok hfault atomic_read rfl

theorem query_fault {S : Type} {out : Outside} {w : World V S} {fault : Nat × DbExc}
    (hfault : out.fault w.transactions = some fault) :
    ∃ e w', Collect.query out w = (.error e, w') ∧ w'.db = w.db ∧ w.seq ≤ w'.seq := atomic_fault hfault atomic_read

/-- A part of a run keeps a condition on the tables and the next id. -/
def Keeps {α : Type} (I : Db V → Nat → Prop) (x : Collect V S α) : Prop :=
  ∀ w, I w.db w.seq → I (x w).2.db (x w).2.seq

section
variable {α β : Type} {I : Db V → Nat → Prop}

theorem keeps_pure (a : α) : Keeps I (pure a : Collect V S α) := fun _ h => h

theorem keeps_raise (e : Exc) : Keeps I (Collect.raise e : Collect V S α) := fun _ h => h

theorem keeps_ofExcept (x : Except Exc α) : Keeps I (Collect.ofExcept x : Collect V S α) := fun _ h => h

theorem keeps_tally (f : S → S) : Keeps I (Collect.tally f : Collect V S Unit) := fun _ h => h

theorem keeps_call (out : Outside) (c : Call) : Keeps I (Collect.call out c : Collect V S (List Item)) := fun _ h => h

theorem Keeps.attempt {x : Collect V S α} (hx : Keeps I x) : Keeps I (Collect.attempt x) := hx

variable (I) in
theorem blind_keeps : Blind (V := V) (S := S) (Keeps I) :=
  blind_of_trans (R := fun w w' => I w.db w.seq → I w'.db w'.seq) (fun _ h => h) (fun _ _ _ h h' hw => h' (h hw)) fun _ _ h => h

theorem Keeps.bind {x : Collect V S α} (hx : Keeps I x) {f : α → Collect V S β} (hf : ∀ a, Keeps I (f a)) :
    Keeps I (x >>= f) :=
  (blind_keeps I).bind hx hf

theorem Keeps.forEach {body : α → Collect V S Unit} {as : List α} (h : ∀ a ∈ as, Keeps I (body a)) :
    Keeps I (Collect.forEach body as) :=
  (blind_keeps I).forEach h

/-- A transaction keeps what its block makes true, and ids that were drawn in vain do not matter. -/
theorem keeps_atomic (hseq : ∀ d n m, n ≤ m → I d n → I d m) {p : Service V α} (hp : p.Atomic)
    (h : ∀ d n r, I d n → p.eval d n = .ok r → I r.2.1 r.2.2) : Keeps I (Collect.atomic out p : Collect V S α) := by
  intro w hw
  cases hfault : out.fault w.transactions with
  | some fault =>
    obtain ⟨e, w', hrun, hdb, hle⟩ := atomic_fault (S := S) hfault hp
    rw [hrun, hdb]
    exact hseq w.db w.seq w'.seq hle hw
  | none =>
    cases heval : p.eval w.db w.seq with
    | ok r =>
      rw [atomic_ok hfault hp heval]
      exact h w.db w.seq r hw heval
    | error e =>
      have hdb := (atomic_run out hp w).2
      rw [transaction_eval, hfault] at hdb
      dsimp only at hdb
      rw [heval] at hdb
      rw [show (Collect.atomic out p w).2.db = w.db from hdb]
      exact hseq w.db w.seq _ (Txn.le_run_seq _ _ _ _) hw

theorem keeps_query (hseq : ∀ d n m, n ≤ m → I d n → I d m) (out : Outside) :
    Keeps I (Collect.query out : Collect V S (Db V)) := by
  refine keeps_atomic hseq atomic_read fun d n r h heval => ?_
  cases heval
  exact h

end

theorem coordinates_eq {column : Decimal → Except DbExc ℚ} {listItem : Item} {common intro : Option Item}
    {defaults : PlaceDefaults} (h : buildPlaceDefaults listItem common intro = .ok defaults) :
    coordinates column defaults = itemCoordinates column listItem := by
  unfold buildPlaceDefaults at h
  cases hid : listItem.intAt "contenttypeid" with
  | error e =>
    rw [hid] at h
    cases h
  | ok contentTypeId =>
    rw [hid] at h
    cases h
    rfl

section
variable {contentTypeId contentId : Int} {listItem : Item} {firstimage : String} {common : Option Item}
  {images : List Item} {intro : Option Item} {d : Db V} {t n : Nat}

/-- Before any statement. -/
theorem saveTransaction_badType {e : Exc} (h : buildPlaceDefaults listItem common intro = .error e) :
    (out.transaction t (saveListItem out.column contentTypeId contentId listItem firstimage common images
      intro)).eval d n = .error e := by
  have hraise : saveListItem (V := V) out.column contentTypeId contentId listItem firstimage common images intro =
      .raise e := by
    unfold saveListItem
    rw [h]
    rfl
  rw [hraise, transaction_eval]
  split <;> rfl

variable {defaults : PlaceDefaults} (hdefaults : buildPlaceDefaults listItem common intro = .ok defaults)
include hdefaults

theorem saveListItem_eval_ok :
    (saveListItem out.column contentTypeId contentId listItem firstimage common images intro).eval d n =
      (itemCoordinates out.column listItem).map fun c =>
        (savedCounts d contentId listItem firstimage images intro,
          d.saved n contentTypeId contentId listItem firstimage images intro defaults (defaults.apply c.1 c.2),
          if (d.placeOf? contentId).isNone then n + 1 else n) := by
  rw [saveListItem_eval, hdefaults, ← coordinates_eq hdefaults]
  rfl

theorem saveTransaction_failed {e : Exc}
    (h : saveError (itemCoordinates out.column listItem) (out.fault t)
      (if (d.placeOf? contentId).isNone then 1 else 2) = some e) :
    (out.transaction t (saveListItem out.column contentTypeId contentId listItem firstimage common images
      intro)).eval d n = .error e := by
  rw [transaction_eval, saveListItem_eval_ok hdefaults]
  cases hc : itemCoordinates out.column listItem with
  | ok c =>
    rw [hc] at h
    cases hfault : out.fault t with
    | none =>
      rw [hfault] at h
      cases h
    | some fault =>
      rw [hfault] at h
      cases h
      rfl
  | error e₀ =>
    rw [hc] at h
    cases hfault : out.fault t with
    | none =>
      rw [hfault] at h
      cases h
      rfl
    | some fault =>
      rw [hfault] at h
      cases h
      rw [saveListItem_length hdefaults ((coordinates_eq hdefaults).trans hc)]
      simp only [Except.map, Txn.cutShort, decide_eq_true_eq]

variable (contentTypeId firstimage images n) in
theorem saveTransaction_saved
    (h : saveError (itemCoordinates out.column listItem) (out.fault t)
      (if (d.placeOf? contentId).isNone then 1 else 2) = none) :
    ∃ c, coordinates out.column defaults = .ok c ∧
      (out.transaction t (saveListItem out.column contentTypeId contentId listItem firstimage common images
        intro)).eval d n = .ok (savedCounts d contentId listItem firstimage images intro,
          d.saved n contentTypeId contentId listItem firstimage images intro defaults (defaults.apply c.1 c.2),
          if (d.placeOf? contentId).isNone then n + 1 else n) := by
  cases hc : itemCoordinates out.column listItem with
  | error e₀ =>
    rw [hc] at h
    cases hfault : out.fault t <;> rw [hfault] at h <;> cases h
  | ok c =>
    rw [hc] at h
    cases hfault : out.fault t with
    | some fault =>
      rw [hfault] at h
      cases h
    | none =>
      refine ⟨c, (coordinates_eq hdefaults).trans hc, ?_⟩
      rw [transaction_eval, hfault]
      dsimp only
      rw [saveListItem_eval_ok hdefaults, hc]
      rfl

end

theorem buildPlaceDefaults_ok {listItem : Item} (common intro : Option Item) :
    (∃ defaults, buildPlaceDefaults listItem common intro = .ok defaults) ↔
      ∃ n, listItem.intAt "contenttypeid" = .ok n := by
  unfold buildPlaceDefaults
  cases listItem.intAt "contenttypeid" with
  | error e => exact iff_of_false (fun ⟨_, h⟩ => nomatch h) fun ⟨_, h⟩ => nomatch h
  | ok n => exact iff_of_true ⟨_, rfl⟩ ⟨n, rfl⟩

theorem buildPlaceDefaults_error {listItem : Item} {common intro : Option Item} {e : Exc}
    (h : buildPlaceDefaults listItem common intro = .error e) : listItem.intAt "contenttypeid" = .error e := by
  unfold buildPlaceDefaults at h
  cases hid : listItem.intAt "contenttypeid" with
  | error e' =>
    rw [hid] at h
    cases h
    rfl
  | ok contentTypeId =>
    rw [hid] at h
    cases h

/-- An id that does not convert is no error of the client. -/
theorem intAt_error {listItem : Item} {key : String} {e : Exc} (h : listItem.intAt key = .error e) :
    e.isTourApiError = false ∧ e.isDatabaseError = false := by
  unfold Item.intAt at h
  split at h
  · cases h
    exact ⟨rfl, rfl⟩
  · rename_i value _
    cases value with
    | null => cases h; exact ⟨rfl, rfl⟩
    | bool b => cases h
    | int n => cases h
    | float f => cases f <;> cases h <;> exact ⟨rfl, rfl⟩
    | str s =>
      unfold Scalar.toInt at h
      dsimp only at h
      split at h <;> cases h
      exact ⟨rfl, rfl⟩

/-! ### Each way to end -/

section
variable {contentTypeId contentId : Int} {listItem : Item} {dryRun skipExisting : Bool}
  {existingIds : Option (List Int)} {w : World V SyncSummary} {firstimage : String}

/-- The world once the item is counted. -/
def World.fetched (w : World V SyncSummary) : World V SyncSummary :=
  {w with summary := {w.summary with fetched := w.summary.fetched + 1}}

def World.count (f : SyncSummary → SyncSummary) (w : World V SyncSummary) : World V SyncSummary :=
  {w with summary := f w.summary}

theorem processListItem_noImage (h : blankToNone (listItem.get "firstimage") = none) :
    processListItem out contentTypeId listItem dryRun skipExisting existingIds w =
      (.ok (), w.fetched.count fun s => {s with skippedNoImage := s.skippedNoImage + 1}) := by
  simp only [processListItem, bind_run, Collect.tally, h]
  rfl

variable (himage : blankToNone (listItem.get "firstimage") = some firstimage)
include himage

theorem processListItem_badId {e : Exc} (h : listItem.intAt "contentid" = .error e) :
    processListItem out contentTypeId listItem dryRun skipExisting existingIds w = (.error e, w.fetched) := by
  simp only [processListItem, bind_run, Collect.tally, Collect.ofExcept, himage, h]
  rfl

variable (hid : listItem.intAt "contentid" = .ok contentId)
include hid

theorem processListItem_skipped (h : (skipExisting && existingIds.any (·.contains contentId)) = true) :
    processListItem out contentTypeId listItem dryRun skipExisting existingIds w =
      (.ok (), w.fetched.count fun s => {s with skippedExisting := s.skippedExisting + 1}) := by
  simp only [processListItem, bind_run, Collect.tally, Collect.ofExcept, himage, hid, h]
  rfl

variable (hskip : (skipExisting && existingIds.any (·.contains contentId)) = false)
include hskip

theorem processListItem_dryRun :
    processListItem out contentTypeId listItem true skipExisting existingIds w = (.ok (), w.fetched) := by
  simp only [processListItem, bind_run, Collect.tally, Collect.ofExcept, himage, hid, hskip]
  rfl

theorem processListItem_detailFailed {w' : World V SyncSummary} {e : Exc}
    (h : detailsOf out contentId contentTypeId w.fetched = (.error e, w')) :
    processListItem out contentTypeId listItem false skipExisting existingIds w =
      if e = .tourApiError then
        (.ok (), w'.count fun s => {s with skippedDetailFailed := s.skippedDetailFailed + 1})
      else (.error e, w') := by
  unfold World.fetched at h
  simp only [processListItem, bind_run, Collect.tally, Collect.ofExcept, Collect.attempt, himage, hid, hskip,
    Bool.false_eq_true, if_false, h]
  cases e <;> rfl

variable {common : Option Item} {images : List Item} {intro : Option Item} {w' w'' : World V SyncSummary}
  (hdetails : detailsOf out contentId contentTypeId w.fetched = (.ok (common, images, intro), w'))
include hdetails

theorem processListItem_saveFailed {e : Exc}
    (h : Collect.atomic out (saveListItem out.column contentTypeId contentId listItem firstimage common images intro)
      w' = (.error e, w'')) :
    processListItem out contentTypeId listItem false skipExisting existingIds w =
      if e.isDatabaseError = true then
        (.ok (), w''.count fun s => {s with skippedSaveFailed := s.skippedSaveFailed + 1})
      else (.error e, w'') := by
  unfold World.fetched at hdetails
  simp only [processListItem, bind_run, Collect.tally, Collect.ofExcept, Collect.attempt, himage, hid, hskip,
    Bool.false_eq_true, if_false, hdetails, h]
  cases e.isDatabaseError <;> rfl

theorem processListItem_saved {saved : Saved}
    (h : Collect.atomic out (saveListItem out.column contentTypeId contentId listItem firstimage common images intro)
      w' = (.ok saved, w'')) :
    processListItem out contentTypeId listItem false skipExisting existingIds w =
      (.ok (), w''.count (·.addSaved saved)) := by
  unfold World.fetched at hdetails
  simp only [processListItem, bind_run, Collect.tally, Collect.ofExcept, Collect.attempt, himage, hid, hskip,
    Bool.false_eq_true, if_false, hdetails, h]
  rfl

end
end TravelMaker
