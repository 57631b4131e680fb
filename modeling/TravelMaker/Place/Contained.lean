import TravelMaker.Place.Process

/-! One bad record.

`contained_iff`: a call of `_process_list_item` stops at most for exhausted keys, and
stores its item whole or not at all, exactly if the item's ids convert and what fails
first in its transaction is a `DatabaseError`. The store is never half written. -/
namespace TravelMaker
open Lib (Txn Decimal)

variable {V : Type}

section
variable (out : Outside) (contentTypeId : Int) (listItem : Item) (dryRun skipExisting : Bool)
  (existingIds : Option (List Int)) (w : World V SyncSummary)

/-- The item with its detail answers is stored in `d`, whole. -/
def FullyStored (d : Db V) : Prop :=
  ∃ firstimage contentId common images intro defaults c,
    blankToNone (listItem.get "firstimage") = some firstimage ∧
    listItem.intAt "contentid" = .ok contentId ∧
    (detailsOf out contentId contentTypeId w.fetched).1 = .ok (common, images, intro) ∧
    buildPlaceDefaults listItem common intro = .ok defaults ∧
    coordinates out.column defaults = .ok c ∧
    StoredAs (defaults.apply c.1 c.2 (w.db.rowFor w.seq contentId defaults))
      (imageRows images (some firstimage) (listItem.get "firstimage2"))
      (intro.map fun item => (buildPlaceInfoDefaults contentTypeId item).getD []) d

/-- The call lets the run go on unless the keys are exhausted, and the store is
either as it was or has the whole item. -/
structure Contained : Prop where
  returns : (processListItem out contentTypeId listItem dryRun skipExisting existingIds w).1 = .ok () ∨
    (processListItem out contentTypeId listItem dryRun skipExisting existingIds w).1 =
      .error .allKeysExhaustedError
  goesOn : ∀ rest : List Item,
    let run := Collect.forEach fun item => processListItem (V := V) out contentTypeId item dryRun skipExisting existingIds
    run (listItem :: rest) w = run rest
        (processListItem out contentTypeId listItem dryRun skipExisting existingIds w).2 ∨
      (run (listItem :: rest) w).1 = .error .allKeysExhaustedError
  whole : (processListItem out contentTypeId listItem dryRun skipExisting existingIds w).2.db = w.db ∨
    FullyStored out contentTypeId listItem w
      (processListItem out contentTypeId listItem dryRun skipExisting existingIds w).2.db

/-- The item has no image, or its id converts and: it is skipped, or the detail calls
fail as client errors, or its type converts too and the transaction fails, if at all,
with a `DatabaseError` first. -/
def Convertible : Prop :=
  blankToNone (listItem.get "firstimage") = none ∨
    ∃ contentId, listItem.intAt "contentid" = .ok contentId ∧
      ((skipExisting && existingIds.any (·.contains contentId)) = true ∨ dryRun = true ∨
        match detailError out w.calls.length contentId contentTypeId with
        | some e => e.isTourApiError = true
        | none => (∃ n, listItem.intAt "contenttypeid" = .ok n) ∧
            ∀ e, saveError (itemCoordinates out.column listItem) (out.fault w.transactions)
              (if (w.db.placeOf? contentId).isNone then 1 else 2) = some e → e.isDatabaseError = true)

end

variable {contentTypeId : Int} {listItem : Item} {dryRun skipExisting : Bool} {existingIds : Option (List Int)}
  {w : World V SyncSummary} {out : Outside}

/-- A call that returns, or ends on exhausted keys, and a store that is untouched or
has the whole item. -/
theorem contained_of {w' : World V SyncSummary} {r : Except Exc Unit}
    (h : processListItem out contentTypeId listItem dryRun skipExisting existingIds w = (r, w'))
    (hr : r = .ok () ∨ r = .error .allKeysExhaustedError)
    (hdb : w'.db = w.db ∨ FullyStored out contentTypeId listItem w w'.db) :
    Contained out contentTypeId listItem dryRun skipExisting existingIds w := by
  refine ⟨by rw [h]; exact hr, fun rest => ?_, by rw [h]; exact hdb⟩
  simp only [Collect.forEach, bind_run, h]
  rcases hr with rfl | rfl
  · exact .inl rfl
  · exact .inr rfl

theorem not_contained_of {w' : World V SyncSummary} {e : Exc}
    (h : processListItem out contentTypeId listItem dryRun skipExisting existingIds w = (.error e, w'))
    (he : e ≠ .allKeysExhaustedError) :
    ¬ Contained out contentTypeId listItem dryRun skipExisting existingIds w := by
  intro hc
  rcases hc.returns with hr | hr <;> rw [h] at hr
  · cases hr
  · cases hr
    exact he rfl

theorem toColumn_error {column : Decimal → Except DbExc ℚ} {x : Option Decimal} {e : Exc}
    (h : toColumn column x = .error e) : e.isTourApiError = false := by
  unfold toColumn at h
  split at h
  · cases h
  · split at h
    · cases h
    · rename_i e' _
      cases h
      exact e'.2

/-- The transaction raises no error of the client. -/
theorem saveError_isTourApiError {column : Decimal → Except DbExc ℚ} {fault : Option (Nat × DbExc)}
    {lookups : Nat} {e : Exc} (h : saveError (itemCoordinates column listItem) fault lookups = some e) :
    e.isTourApiError = false := by
  have hcoordinates : ∀ e, itemCoordinates column listItem = .error e → e.isTourApiError = false := by
    intro e he
    unfold itemCoordinates at he
    cases hlat : toColumn column (toDecimal (listItem.get "mapy")) with
    | error e' =>
      rw [hlat] at he
      cases he
      exact toColumn_error hlat
    | ok latitude =>
      rw [hlat] at he
      cases hlon : toColumn column (toDecimal (listItem.get "mapx")) with
      | error e' =>
        rw [hlon] at he
        cases he
        exact toColumn_error hlon
      | ok longitude =>
        rw [hlon] at he
        cases he
  cases hc : itemCoordinates column listItem with
  | ok c =>
    rw [hc] at h
    cases fault with
    | none => cases h
    | some fault =>
      cases h
      exact fault.2.2
  | error e₀ =>
    rw [hc] at h
    cases fault with
    | none =>
      cases h
      exact hcoordinates _ hc
    | some fault =>
      cases h
      split
      · exact fault.2.2
      · exact hcoordinates _ hc

theorem ne_allKeysExhausted {e : Exc} (h : e.isTourApiError = false) : e ≠ .allKeysExhaustedError := by
  intro heq
  subst heq
  cases h

theorem isTourApiError_iff {e : Exc} :
    e.isTourApiError = true ↔ e = .tourApiError ∨ e = .allKeysExhaustedError := by
  cases e <;> simp [Exc.isTourApiError]

section
variable {firstimage : String} {contentId : Int} (htags : TagsOk w.db.tags)
  (himage : blankToNone (listItem.get "firstimage") = some firstimage)
  (hid : listItem.intAt "contentid" = .ok contentId)
  (hskip : (skipExisting && existingIds.any (·.contains contentId)) = false)
include himage hid hskip

/-- A detail call fails with `e`. -/
theorem contained_iff_of_detailError {w' : World V SyncSummary} {e : Exc}
    (h : detailsOf out contentId contentTypeId w.fetched = (.error e, w')) (hdb : w'.db = w.db) :
    Contained out contentTypeId listItem false skipExisting existingIds w ↔ e.isTourApiError = true := by
  have hrun := processListItem_detailFailed himage hid hskip h
  rw [isTourApiError_iff]
  by_cases htour : e = .tourApiError
  · rw [if_pos htour] at hrun
    exact iff_of_true (contained_of hrun (.inl rfl) (.inl hdb)) (.inl htour)
  · rw [if_neg htour] at hrun
    rw [or_iff_right htour]
    by_cases hkeys : e = .allKeysExhaustedError
    · exact iff_of_true (contained_of hrun (.inr (by rw [hkeys])) (.inl hdb)) hkeys
    · exact iff_of_false (not_contained_of hrun hkeys) hkeys

variable {common : Option Item} {images : List Item} {intro : Option Item} {w' : World V SyncSummary}
  (hdetails : detailsOf out contentId contentTypeId w.fetched = (.ok (common, images, intro), w'))
  (hsame : SameStore w.fetched w')
include hdetails hsame

/-- The transaction fails with `e`. -/
theorem contained_iff_of_saveError {e : Exc} (he : e ≠ .allKeysExhaustedError)
    (h : (out.transaction w'.transactions (saveListItem out.column contentTypeId contentId listItem firstimage
      common images intro)).eval w'.db w'.seq = .error e) :
    Contained out contentTypeId listItem false skipExisting existingIds w ↔ e.isDatabaseError = true := by
  obtain ⟨hresult, hdb⟩ := atomic_run out (atomic_saveListItem out.column contentTypeId contentId listItem
    firstimage common images intro) w'
  rw [h] at hresult hdb
  have hrun := processListItem_saveFailed himage hid hskip hdetails (Prod.ext hresult rfl)
  by_cases hdbe : e.isDatabaseError = true
  · rw [if_pos hdbe] at hrun
    exact iff_of_true (contained_of hrun (.inl rfl) (.inl (hdb.trans hsame.db))) hdbe
  · rw [if_neg hdbe] at hrun
    exact iff_of_false (not_contained_of hrun he) hdbe

include htags in
/-- The details are there. -/
theorem contained_iff_of_details :
    Contained out contentTypeId listItem false skipExisting existingIds w ↔
      (∃ n, listItem.intAt "contenttypeid" = .ok n) ∧
        ∀ e, saveError (itemCoordinates out.column listItem) (out.fault w.transactions)
          (if (w.db.placeOf? contentId).isNone then 1 else 2) = some e → e.isDatabaseError = true := by
  have hdb : w'.db = w.db := hsame.db
  have ht : w'.transactions = w.transactions := hsame.transactions
  cases hdefaults : buildPlaceDefaults listItem common intro with
  | error e =>
    have htype : ¬ ∃ n, listItem.intAt "contenttypeid" = .ok n := by
      intro hn
      obtain ⟨defaults, h⟩ := (buildPlaceDefaults_ok common intro).mpr hn
      rw [hdefaults] at h
      cases h
    obtain ⟨htour, hdbe⟩ := intAt_error (buildPlaceDefaults_error hdefaults)
    rw [contained_iff_of_saveError himage hid hskip hdetails hsame (ne_allKeysExhausted htour)
      (saveTransaction_badType hdefaults), hdbe]
    exact iff_of_false (fun h => nomatch h) fun h => htype h.1
  | ok defaults =>
    have htype := (buildPlaceDefaults_ok common intro).mp ⟨defaults, hdefaults⟩
    rw [and_iff_right htype, ← hdb, ← ht]
    cases hsave : saveError (itemCoordinates out.column listItem) (out.fault w'.transactions)
        (if (w'.db.placeOf? contentId).isNone then 1 else 2) with
    | some e =>
      rw [contained_iff_of_saveError himage hid hskip hdetails hsame
        (ne_allKeysExhausted (saveError_isTourApiError hsave)) (saveTransaction_failed hdefaults hsave)]
      simp
    | none =>
      refine iff_of_true ?_ fun e he => nomatch he
      obtain ⟨c, hc, heval⟩ := saveTransaction_saved contentTypeId firstimage images w'.seq hdefaults hsave
      obtain ⟨hresult, hstore⟩ := atomic_run out (atomic_saveListItem out.column contentTypeId contentId listItem
        firstimage common images intro) w'
      rw [heval] at hresult hstore
      refine contained_of (processListItem_saved himage hid hskip hdetails (Prod.ext hresult rfl)) (.inl rfl)
        (.inr ⟨firstimage, contentId, common, images, intro, defaults, c, himage, hid, ?_, hdefaults, hc, ?_⟩)
      · rw [hdetails]
      · show StoredAs _ _ _ (Collect.atomic out _ w').2.db
        rw [hstore]
        have hseq : w'.seq = w.seq := hsame.seq
        rw [← hdb, ← hseq]
        exact storedAs_saved (hdb ▸ htags) fun _ => rfl

end

section
variable {firstimage : String} {contentId : Int}

theorem contained_iff_of_collected (htags : TagsOk w.db.tags)
    (himage : blankToNone (listItem.get "firstimage") = some firstimage)
    (hid : listItem.intAt "contentid" = .ok contentId)
    (hskip : (skipExisting && existingIds.any (·.contains contentId)) = false) :
    Contained out contentTypeId listItem false skipExisting existingIds w ↔
      match detailError out w.calls.length contentId contentTypeId with
      | some e => e.isTourApiError = true
      | none => (∃ n, listItem.intAt "contenttypeid" = .ok n) ∧
          ∀ e, saveError (itemCoordinates out.column listItem) (out.fault w.transactions)
            (if (w.db.placeOf? contentId).isNone then 1 else 2) = some e → e.isDatabaseError = true := by
  obtain ⟨hsame, hresult⟩ := detailsOf_run out contentId contentTypeId w.fetched
  rw [show w.fetched.calls = w.calls from rfl] at hresult
  cases hdetail : detailError out w.calls.length contentId contentTypeId with
  | some e =>
    rw [hdetail] at hresult
    exact contained_iff_of_detailError himage hid hskip (Prod.ext hresult rfl) hsame.db
  | none =>
    rw [hdetail] at hresult
    obtain ⟨⟨common, images, intro⟩, hresult⟩ := hresult
    exact contained_iff_of_details htags himage hid hskip (Prod.ext hresult rfl) hsame

end

/-- **One bad record stops the run exactly if it is not convertible**, and in no case
is it half written. -/
theorem contained_iff (out : Outside) (contentTypeId : Int) (listItem : Item) (dryRun skipExisting : Bool)
    (existingIds : Option (List Int)) (w : World V SyncSummary) (htags : TagsOk w.db.tags) :
    Contained out contentTypeId listItem dryRun skipExisting existingIds w ↔
      Convertible out contentTypeId listItem dryRun skipExisting existingIds w := by
  unfold Convertible
  cases himage : blankToNone (listItem.get "firstimage") with
  | none => exact iff_of_true (contained_of (processListItem_noImage himage) (.inl rfl) (.inl rfl)) (.inl rfl)
  | some firstimage =>
    rw [or_iff_right (fun h => nomatch h)]
    cases hid : listItem.intAt "contentid" with
    | error e =>
      refine iff_of_false (not_contained_of (processListItem_badId himage hid) ?_) fun ⟨_, h, _⟩ => nomatch h
      exact ne_allKeysExhausted (intAt_error hid).1
    | ok contentId =>
      simp only [Except.ok.injEq, exists_eq_left']
      cases hskip : skipExisting && existingIds.any (·.contains contentId) with
      | true =>
        exact iff_of_true (contained_of (processListItem_skipped himage hid hskip) (.inl rfl) (.inl rfl)) (.inl rfl)
      | false =>
        rw [or_iff_right (fun h => nomatch h)]
        cases dryRun with
        | true =>
          exact iff_of_true (contained_of (processListItem_dryRun himage hid hskip) (.inl rfl) (.inl rfl)) (.inl rfl)
        | false =>
          rw [or_iff_right (fun h => nomatch h)]
          exact contained_iff_of_collected htags himage hid hskip

/-- A store with one region tag and no place. -/
def seeded : World Unit SyncSummary where
  db := {tags := [{id := 1, tagType := regionTagType, tagName := "서울"}]}
  seq := 1
  summary := {}

theorem contained_iff_seeded :
    Contained silent 12 [("firstimage", .str "a"), ("contentid", .str "7"), ("contenttypeid", .int 12)]
        false false none seeded ↔
      Convertible silent 12 [("firstimage", .str "a"), ("contentid", .str "7"), ("contenttypeid", .int 12)]
        false false none seeded :=
  contained_iff silent 12 _ false false none seeded ⟨by decide, by decide⟩

/-- An item with an image and no content id ends the run with a `KeyError`. -/
theorem missing_contentid_escapes :
    ¬ Contained silent 12 [("firstimage", .str "a"), ("contenttypeid", .int 12)] false false none seeded := by
  have himage : blankToNone (Item.get [("firstimage", .str "a"), ("contenttypeid", .int 12)] "firstimage") =
      some "a" := by
    decide
  apply not_contained_of (processListItem_badId himage rfl)
  decide

end TravelMaker
