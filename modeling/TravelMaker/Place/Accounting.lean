import TravelMaker.Place.SyncItem

/-! The summary of `sync_all`.

An item that is counted is counted once more where it ends: skipped, failed, or stored.
`InBalance` says so of any part of a run that returns, together with the rows that are new;
it goes through the items, the pages and the types, whatever the client answers and
whichever transactions fail. -/
namespace TravelMaker
open Lib (Txn Decimal)

variable {V : Type}

/-- How many items came to an end, in all ways that there are. -/
def SyncSummary.ended (s : SyncSummary) : Nat :=
  s.skippedNoImage + s.skippedExisting + s.created + s.updated + s.skippedDetailFailed + s.skippedSaveFailed

/-- From `w` to `w'` each item fetched came to an end, each created one is a new row, and
each `PlaceInfo` goes with a place. -/
structure InBalance (w w' : World V SyncSummary) : Prop where
  fetched : w'.summary.fetched + w.summary.ended = w.summary.fetched + w'.summary.ended
  created : w'.db.places.length + w.summary.created = w.db.places.length + w'.summary.created
  info : w'.summary.infoSaved + (w.summary.created + w.summary.updated) ≤
    w.summary.infoSaved + (w'.summary.created + w'.summary.updated)

/-- Where a part of a run returns. -/
def KeepsBalance {α : Type} (x : Collect V SyncSummary α) : Prop := ∀ w a w', x w = (.ok a, w') → InBalance w w'

/-! ### Parts -/

section
variable {w w₁ w₂ : World V SyncSummary}

theorem InBalance.of_same (hsummary : w₁.summary = w.summary) (hplaces : w₁.db.places = w.db.places) : InBalance w w₁ := by
  constructor
  · rw [hsummary]
  · rw [hsummary, hplaces]
  · rw [hsummary]

theorem InBalance.refl (w : World V SyncSummary) : InBalance w w := .of_same rfl rfl

theorem InBalance.trans (h₁ : InBalance w w₁) (h₂ : InBalance w₁ w₂) : InBalance w w₂ := by
  obtain ⟨hfetched₁, hcreated₁, hinfo₁⟩ := h₁
  obtain ⟨hfetched₂, hcreated₂, hinfo₂⟩ := h₂
  constructor <;> omega

theorem composes_keepsBalance : Composes (V := V) KeepsBalance :=
  composes_of_returned (R := InBalance) InBalance.refl fun _ _ _ => InBalance.trans

end

/-- A part that neither counts nor stores. -/
structure Untouched {S : Type} (w w' : World V S) : Prop where
  summary : w'.summary = w.summary
  places : w'.db.places = w.db.places

theorem KeepsBalance.of_untouched {α : Type} {x : Collect V SyncSummary α} (h : ∀ w, Untouched w (x w).2) : KeepsBalance x := by
  intro w a w' hrun
  have hsame := h w
  rw [hrun] at hsame
  exact .of_same hsame.summary hsame.places

section
variable {S : Type} {out : Outside}

theorem composes_untouched : Composes (V := V) (S := S) fun x => ∀ w, Untouched w (x w).2 :=
  composes_of_trans (R := Untouched) (fun _ => ⟨rfl, rfl⟩) fun _ _ _ h h' =>
    ⟨h'.summary.trans h.summary, h'.places.trans h.places⟩

theorem untouched_detailsOf (out : Outside) (contentId contentTypeId : Int) (w : World V S) :
    Untouched w (detailsOf out contentId contentTypeId w).2 :=
  composes_untouched.detailsOf (fun _ _ _ => ⟨rfl, rfl⟩) contentId contentTypeId w

theorem untouched_query (w : World V S) : Untouched w (Collect.query out w).2 := by
  refine ⟨rfl, ?_⟩
  have hdb := (atomic_run out atomic_read w).2
  show (Collect.atomic out Txn.read w).2.db.places = _
  rw [hdb, transaction_eval]
  cases out.fault w.transactions <;> rfl

theorem untouched_safeList {x : Collect V S (List Item)} (hx : ∀ w, Untouched w (x w).2) (w : World V S) :
    Untouched w (safeList x w).2 := by
  refine composes_untouched.bind (x := Collect.attempt x) hx (fun answer w => ?_) w
  cases answer with
  | ok items => exact ⟨rfl, rfl⟩
  | error e => cases e <;> exact ⟨rfl, rfl⟩

end

/-! ### One item -/

theorem length_writePlace (d : Db V) (n : Nat) (contentId : Int) (defaults : PlaceDefaults) (f : Place → Place) :
    (d.writePlace n contentId defaults f).places.length =
      d.places.length + if (d.placeOf? contentId).isNone then 1 else 0 := by
  unfold Db.writePlace
  cases d.placeOf? contentId with
  | none => simp [Db.insertPlace]
  | some place => simp [Db.updatePlace]

section
variable (out : Outside) (contentTypeId contentId : Int) (listItem : Item) (firstimage : String) (common : Option Item)
  (images : List Item) (intro : Option Item)

variable {out contentTypeId contentId listItem firstimage common images intro} in
/-- What is stored is what is counted. -/
theorem saveTransaction_counts {d : Db V} {t n : Nat} {r : Saved × Db V × Nat}
    (h : (out.transaction t (saveListItem out.column contentTypeId contentId listItem firstimage common images intro)).eval
      d n = .ok r) :
    r.2.1.places.length = d.places.length + (if r.1.created then 1 else 0) ∧ r.1.infoSaved ≤ 1 := by
  cases hdefaults : buildPlaceDefaults listItem common intro with
  | error e =>
    rw [saveTransaction_badType hdefaults] at h
    cases h
  | ok defaults =>
    rw [transaction_eval] at h
    cases hfault : out.fault t with
    | some fault =>
      rw [hfault] at h
      dsimp only at h
      rw [saveListItem_eval_ok hdefaults] at h
      cases hc : itemCoordinates out.column listItem <;> rw [hc] at h <;> cases h
    | none =>
      rw [hfault] at h
      dsimp only at h
      rw [saveListItem_eval_ok hdefaults] at h
      cases hc : itemCoordinates out.column listItem with
      | error e =>
        rw [hc] at h
        cases h
      | ok c =>
        rw [hc] at h
        cases h
        refine ⟨?_, ?_⟩
        · rw [saved_places, length_writePlace]
          rfl
        · unfold savedCounts
          dsimp only
          split <;> decide

/-- The transaction as a part of the run: stored, or as if it had not been. -/
theorem atomic_saveListItem_run (w : World V SyncSummary) :
    (∃ saved w', Collect.atomic out (saveListItem out.column contentTypeId contentId listItem firstimage common images intro)
        w = (.ok saved, w') ∧ w'.summary = w.summary ∧
        w'.db.places.length = w.db.places.length + (if saved.created then 1 else 0) ∧ saved.infoSaved ≤ 1) ∨
      ∃ e w', Collect.atomic out (saveListItem out.column contentTypeId contentId listItem firstimage common images intro)
        w = (.error e, w') ∧ Untouched w w' := by
  obtain ⟨hresult, hdb⟩ := atomic_run out (atomic_saveListItem out.column contentTypeId contentId listItem firstimage
    common images intro) w
  cases heval : (out.transaction w.transactions
      (saveListItem out.column contentTypeId contentId listItem firstimage common images intro)).eval w.db w.seq with
  | ok r =>
    rw [heval] at hresult hdb
    obtain ⟨hlength, hinfo⟩ := saveTransaction_counts heval
    exact .inl ⟨r.1, _, Prod.ext hresult rfl, rfl, (congrArg (·.places.length) hdb).trans hlength, hinfo⟩
  | error e =>
    rw [heval] at hresult hdb
    exact .inr ⟨e, _, Prod.ext hresult rfl, rfl, congrArg Db.places hdb⟩

end

/-- The ways to count an item that is not stored. -/
inductive Skip : (SyncSummary → SyncSummary) → Prop
  | noImage : Skip fun s => {s with skippedNoImage := s.skippedNoImage + 1}
  | existing : Skip fun s => {s with skippedExisting := s.skippedExisting + 1}
  | detailFailed : Skip fun s => {s with skippedDetailFailed := s.skippedDetailFailed + 1}
  | saveFailed : Skip fun s => {s with skippedSaveFailed := s.skippedSaveFailed + 1}

section
variable {w w' : World V SyncSummary} {f : SyncSummary → SyncSummary}

theorem Skip.ended (hf : Skip f) (s : SyncSummary) : (f s).ended = s.ended + 1 := by
  cases hf <;> simp only [SyncSummary.ended] <;> omega

/-- One more item fetched, and one more that ended. -/
theorem inBalance_skip (hf : Skip f) (h : Untouched w.fetched w') : InBalance w (w'.count f) := by
  have hsummary : (w'.count f).summary = f w.fetched.summary := congrArg f h.summary
  have hplaces : (w'.count f).db.places = w.db.places := h.places
  constructor
  · have hfetched : (f w.fetched.summary).fetched = w.summary.fetched + 1 := by cases hf <;> rfl
    have hended : (f w.fetched.summary).ended = w.summary.ended + 1 := hf.ended _
    rw [hsummary, hfetched, hended]
    omega
  · rw [hsummary, hplaces]
    cases hf <;> rfl
  · rw [hsummary]
    cases hf <;> exact le_rfl

theorem inBalance_saved {saved : Saved} (hsummary : w'.summary = w.fetched.summary)
    (hlength : w'.db.places.length = w.db.places.length + (if saved.created then 1 else 0)) (hinfo : saved.infoSaved ≤ 1) :
    InBalance w (w'.count (·.addSaved saved)) := by
  have hcounted : (w'.count (·.addSaved saved)).summary = w.fetched.summary.addSaved saved :=
    congrArg (·.addSaved saved) hsummary
  have hplaces : (w'.count (·.addSaved saved)).db.places = w'.db.places := rfl
  constructor
  · rw [hcounted]
    simp only [SyncSummary.ended, SyncSummary.addSaved, World.fetched]
    split <;> omega
  · rw [hcounted, hplaces, hlength]
    simp only [SyncSummary.addSaved, World.fetched]
    omega
  · rw [hcounted]
    simp only [SyncSummary.addSaved, World.fetched]
    split <;> omega

end

section
variable {out : Outside} {contentTypeId : Int} {listItem : Item} {skipExisting : Bool} {existingIds : Option (List Int)}

/-- Every way that `_process_list_item` returns. -/
theorem processListItem_keepsBalance :
    KeepsBalance (V := V) (processListItem out contentTypeId listItem false skipExisting existingIds) := by
  intro w a w' hrun
  cases himage : blankToNone (listItem.get "firstimage") with
  | none =>
    rw [processListItem_noImage himage] at hrun
    cases hrun
    exact inBalance_skip .noImage ⟨rfl, rfl⟩
  | some firstimage =>
    cases hid : listItem.intAt "contentid" with
    | error e =>
      rw [processListItem_badId himage hid] at hrun
      cases hrun
    | ok contentId =>
      cases hskip : skipExisting && existingIds.any (·.contains contentId) with
      | true =>
        rw [processListItem_skipped himage hid hskip] at hrun
        cases hrun
        exact inBalance_skip .existing ⟨rfl, rfl⟩
      | false =>
        have hdetails := untouched_detailsOf out contentId contentTypeId w.fetched
        rcases hcalls : detailsOf out contentId contentTypeId w.fetched with ⟨e | ⟨common, images, intro⟩, w₁⟩
        · rw [hcalls] at hdetails
          rw [processListItem_detailFailed himage hid hskip hcalls] at hrun
          split at hrun
          · cases hrun
            exact inBalance_skip .detailFailed hdetails
          · cases hrun
        · rw [hcalls] at hdetails
          rcases atomic_saveListItem_run out contentTypeId contentId listItem firstimage common images intro w₁ with
            ⟨saved, w₂, hsave, hsummary, hlength, hinfo⟩ | ⟨e, w₂, hsave, hsame⟩
          · rw [processListItem_saved himage hid hskip hcalls hsave] at hrun
            cases hrun
            exact inBalance_saved (hsummary.trans hdetails.summary) (hlength.trans (by rw [hdetails.places]; rfl)) hinfo
          · rw [processListItem_saveFailed himage hid hskip hcalls hsave] at hrun
            split at hrun
            · cases hrun
              exact inBalance_skip .saveFailed ⟨hsame.summary.trans hdetails.summary, hsame.places.trans hdetails.places⟩
            · cases hrun

end

/-! ### The run -/

/-- A summary of its own that is added to the total. -/
theorem KeepsBalance.withSummary {x : Collect V SyncSummary Unit} (hx : KeepsBalance x) : KeepsBalance (withSummary x) := by
  intro w a w'' hrun
  unfold TravelMaker.withSummary at hrun
  rcases hinner : x {w with summary := {}} with ⟨e | ⟨⟩, w'⟩
  · rw [hinner] at hrun
    cases hrun
  · rw [hinner] at hrun
    cases hrun
    obtain ⟨hfetched, hcreated, hinfo⟩ := hx _ _ _ hinner
    constructor
    · simp only [SyncSummary.ended, SyncSummary.add] at hfetched ⊢
      omega
    · simp only [SyncSummary.add] at hcreated ⊢
      omega
    · simp only [SyncSummary.add] at hinfo ⊢
      omega

theorem syncAll_keepsBalance (out : Outside) (contentTypeIds : List Int) (numOfRows : Nat) (maxPages : Option Nat)
    (skipExisting : Bool) (arrange : Option String) :
    KeepsBalance (V := V) (syncAll out contentTypeIds numOfRows maxPages skipExisting false arrange) := by
  have htype : ∀ contentTypeId existingIds, KeepsBalance (V := V) (withSummary (forPages numOfRows maxPages
      (fun page => safeAreaBasedList out contentTypeId numOfRows page arrange)
      (fun listItem => processListItem out contentTypeId listItem false skipExisting existingIds) (out.lastPage + 1) 1)) := by
    intro contentTypeId existingIds
    apply KeepsBalance.withSummary
    apply composes_keepsBalance.forPages
    · exact fun page => .of_untouched (untouched_safeList fun _ => ⟨rfl, rfl⟩)
    · exact fun listItem => processListItem_keepsBalance
  refine composes_keepsBalance.forEach fun contentTypeId _ => ?_
  dsimp only
  split
  · exact composes_keepsBalance.bind (.of_untouched untouched_query) fun d => htype contentTypeId _
  · exact htype contentTypeId none

/-- **The books balance**, whenever a run of `sync_all` that stores returns. -/
theorem sync_all_balances {out : Outside} {contentTypeIds : List Int} {numOfRows : Nat} {maxPages : Option Nat}
    {skipExisting : Bool} {arrange : Option String} {w w' : World V SyncSummary} (hstart : w.summary = {})
    (hrun : syncAll out contentTypeIds numOfRows maxPages skipExisting false arrange w = (.ok (), w')) :
    w'.summary.fetched = w'.summary.skippedNoImage + w'.summary.skippedExisting + w'.summary.created + w'.summary.updated +
        w'.summary.skippedDetailFailed + w'.summary.skippedSaveFailed ∧
      w'.db.places.length = w.db.places.length + w'.summary.created ∧
      w'.summary.infoSaved ≤ w'.summary.created + w'.summary.updated := by
  obtain ⟨hfetched, hcreated, hinfo⟩ := syncAll_keepsBalance out contentTypeIds numOfRows maxPages skipExisting arrange w () w' hrun
  rw [hstart] at hfetched hcreated hinfo
  dsimp only [SyncSummary.ended] at hfetched hcreated hinfo
  exact ⟨by omega, by omega, by omega⟩

/-- One item with an image and one without. -/
def twoListed : Outside where
  get _
    | .areaBasedList 12 _ _ 1 _ => .ok [
        [("contentid", .str "1001"), ("contenttypeid", .str "12"), ("firstimage", .str "http://a/1.jpg")],
        [("contentid", .str "1002")]]
    | _ => .ok []
  fault _ := none
  column _ := .ok 0
  lastPage := 1
  finite t c items hpage hitems := by
    cases c with
    | areaBasedList contentTypeId ldongRegnCd numOfRows pageNo arrange =>
      have hlate : 1 < pageNo := of_decide_eq_true hpage
      split at hitems
      · rename_i h
        injection h with _ _ _ hfirst
        omega
      · exact (Except.ok.inj hitems).symm
    | _ => exact (Except.ok.inj hitems).symm

theorem sync_all_balances_twoListed : ∃ w' : World Nat SyncSummary,
    syncAll twoListed [12] 50 none true false none {db := {}, seq := 1, summary := {}} = (.ok (), w') ∧
      (w'.summary.fetched = w'.summary.skippedNoImage + w'.summary.skippedExisting + w'.summary.created + w'.summary.updated +
          w'.summary.skippedDetailFailed + w'.summary.skippedSaveFailed ∧
        w'.db.places.length = 0 + w'.summary.created ∧ w'.summary.infoSaved ≤ w'.summary.created + w'.summary.updated) := by
  have hreturns : (syncAll (V := Nat) twoListed [12] 50 none true false none {db := {}, seq := 1, summary := {}}).1 = .ok () := by
    decide +kernel
  rcases hrun : syncAll (V := Nat) twoListed [12] 50 none true false none {db := {}, seq := 1, summary := {}} with ⟨r, w'⟩
  rw [hrun] at hreturns
  obtain rfl : r = .ok () := hreturns
  exact ⟨w', rfl, sync_all_balances rfl hrun⟩

end TravelMaker
