import TravelMaker.Place.CleanTwice
import TravelMaker.Place.UpkeepRun

/-! Dry runs.

A dry run writes nothing. `backfill_details` and `clean_existing_place_info` count in it
what a real run counts: no later step of theirs reads what an earlier one wrote. -/
namespace TravelMaker
open Lib (Txn Decimal)

variable {V S : Type}

/-! ### The store -/

section
variable {I : Db V → Nat → Prop}

theorem Keeps.withSummary {x : Collect V SyncSummary Unit} (hx : Keeps I x) : Keeps I (withSummary x) := by
  intro w hw
  have hrun := hx {w with summary := {}} hw
  unfold TravelMaker.withSummary
  rcases hresult : x {w with summary := {}} with ⟨r, w'⟩
  rw [hresult] at hrun
  cases r <;> exact hrun

theorem keeps_processSyncItem (hseq : ∀ d n m, n ≤ m → I d n → I d m) (out : Outside) (contentTypeId : Int) (existing : Existing)
    {dryRun : Bool} {listItem : Item}
    (hsaved : dryRun = false → ∀ contentId, listItem.intAt "contentid" = .ok contentId → KeptBySavedOf I contentId)
    (hoff : dryRun = false → ∀ contentId, listItem.intAt "contentid" = .ok contentId → ∀ d n, I d n →
      I (d.deactivated contentId) n) :
    Keeps I (processSyncItem out contentTypeId existing dryRun listItem) := by
  refine (blind_keeps I).processSyncItem (keeps_processListItem_of hseq out contentTypeId false none hsaved)
    fun hdry contentId hid => ?_
  refine keeps_atomic hseq (atomic_deactivatePlace contentId) fun d n r h heval => ?_
  rw [deactivatePlace_eval] at heval
  cases heval
  exact hoff hdry contentId hid d n h

end

/-- The tables are still `d`. -/
def Still (d d' : Db V) (_ : Nat) : Prop := d' = d

section
variable (out : Outside) (d : Db V)

theorem still_mono : ∀ d' n m, n ≤ m → Still d d' n → Still d d' m := fun _ _ _ _ h => h

theorem unchanged_syncAll (contentTypeIds : List Int) (numOfRows : Nat) (maxPages : Option Nat) (skipExisting : Bool)
    (arrange : Option String) : Keeps (Still d) (syncAll out contentTypeIds numOfRows maxPages skipExisting true arrange) := by
  refine Keeps.forEach fun contentTypeId _ => ?_
  have hpages : ∀ existingIds, Keeps (Still d) (withSummary (forPages numOfRows maxPages
      (fun page => safeAreaBasedList out contentTypeId numOfRows page arrange)
      (fun listItem => processListItem out contentTypeId listItem true skipExisting existingIds) (out.lastPage + 1) 1)) := by
    intro existingIds
    refine Keeps.withSummary ((blind_keeps _).forPages (fun page => (blind_keeps _).safeList (keeps_call out _)) (fun item => ?_) _ _)
    exact keeps_processListItem_of (still_mono d) out contentTypeId skipExisting existingIds fun h => by cases h
  dsimp only
  split
  · exact (keeps_query (still_mono d) out).bind fun d' => (keeps_pure _).bind fun existingIds => hpages existingIds
  · exact (keeps_pure _).bind fun existingIds => hpages existingIds

theorem unchanged_syncIncremental (contentTypeIds : List Int) (numOfRows : Nat) (maxPages : Option Nat) :
    Keeps (Still d) (syncIncremental out contentTypeIds numOfRows maxPages true) := by
  refine Keeps.forEach fun contentTypeId _ => (keeps_query (still_mono d) out).bind fun d' => ?_
  refine Keeps.withSummary ((blind_keeps _).forPages (fun page => (blind_keeps _).safeList (keeps_call out _)) (fun item => ?_) _ _)
  exact keeps_processSyncItem (still_mono d) out contentTypeId _ (fun h => by cases h) fun h => by cases h

theorem unchanged_backfillDetails (contentTypeId : Option Int) (limit : Option Nat) (refreshInfo : Bool) :
    Keeps (Still d) (backfillDetails out contentTypeId limit true refreshInfo) :=
  keeps_backfillDetails (still_mono d) (fun h => by cases h) (fun h => by cases h) out contentTypeId limit refreshInfo

theorem unchanged_cleanExistingPlaceInfo (batchSize : Int) :
    Keeps (Still d) (cleanExistingPlaceInfo out true batchSize) :=
  (keeps_query (still_mono d) out).bind fun _ => (keeps_tally _).bind fun _ => keeps_pure ()

end

/-! ### Two runs side by side -/

/-- From worlds in `R` both parts end alike and in `R` again. -/
def Shadows {α : Type} (R : World V S → World V S → Prop) (x y : Collect V S α) : Prop :=
  ∀ w v, R w v → (x w).1 = (y v).1 ∧ R (x w).2 (y v).2

section
variable {α β : Type} {R : World V S → World V S → Prop}

theorem shadows_pure (a : α) : Shadows R (pure a) (pure a) := fun _ _ h => ⟨rfl, h⟩

theorem shadows_raise (e : Exc) : Shadows R (Collect.raise e : Collect V S α) (Collect.raise e) := fun _ _ h => ⟨rfl, h⟩

theorem shadows_ofExcept (x : Except Exc α) : Shadows R (Collect.ofExcept x) (Collect.ofExcept x) := fun _ _ h => ⟨rfl, h⟩

theorem Shadows.bind {x y : Collect V S α} {f g : α → Collect V S β} (h : Shadows R x y) (hf : ∀ a, Shadows R (f a) (g a)) :
    Shadows R (x >>= f) (y >>= g) := by
  intro w v hw
  obtain ⟨heq, hR⟩ := h w v hw
  simp only [bind_run]
  rcases hx : x w with ⟨r, w'⟩
  rcases hy : y v with ⟨s, v'⟩
  rw [hx, hy] at heq hR
  obtain rfl : r = s := heq
  cases r with
  | ok a => exact hf a w' v' hR
  | error e => exact ⟨rfl, hR⟩

theorem Shadows.attempt {x y : Collect V S α} (h : Shadows R x y) : Shadows R (Collect.attempt x) (Collect.attempt y) :=
  fun w v hw => (h w v hw).imp_left (congrArg Except.ok)

theorem Shadows.forEach {body body' : α → Collect V S Unit} {as : List α} (h : ∀ a ∈ as, Shadows R (body a) (body' a)) :
    Shadows R (Collect.forEach body as) (Collect.forEach body' as) := by
  induction as with
  | nil => exact shadows_pure ()
  | cons a rest ih =>
    rw [List.forall_mem_cons] at h
    exact h.1.bind fun _ => ih h.2

end

/-! ### Backfills and cleaning -/

/-- The same calls were made, and the same is counted. -/
structure SameCounts (w v : World V S) : Prop where
  calls : w.calls = v.calls
  summary : w.summary = v.summary

theorem shadows_tally (f : S → S) :
    Shadows (V := V) SameCounts (Collect.tally f : Collect V S Unit) (Collect.tally f) :=
  fun _ _ h => ⟨rfl, h.calls, congrArg f h.summary⟩

theorem shadows_call (out : Outside) (c : Call) :
    Shadows (V := V) SameCounts (Collect.call out c : Collect V S (List Item)) (Collect.call out c) := by
  intro w v h
  refine ⟨?_, congrArg (c :: ·) h.calls, h.summary⟩
  show out.get w.calls.length c = out.get v.calls.length c
  rw [h.calls]

section
variable {out : Outside} (hfault : ∀ t, out.fault t = none)
include hfault

/-- A write that does not fail is as good as none. -/
theorem shadows_unlessDry {p : Service V Unit} (hp : p.Atomic) (hok : ∀ d n, ∃ r, p.eval d n = .ok r)
    (dry dry' : Bool) : Shadows SameCounts (unlessDry dry (Collect.atomic out p) : Collect V S Unit)
      (unlessDry dry' (Collect.atomic out p)) := by
  have hrun : ∀ dry (w : World V S), (unlessDry dry (Collect.atomic out p) w).1 = .ok () ∧
      SameCounts (unlessDry dry (Collect.atomic out p) w).2 w := by
    intro dry w
    cases dry with
    | true => exact ⟨rfl, rfl, rfl⟩
    | false =>
      obtain ⟨r, hr⟩ := hok w.db w.seq
      show (Collect.atomic out p w).1 = _ ∧ SameCounts (Collect.atomic out p w).2 w
      rw [atomic_ok (hfault _) hp hr]
      exact ⟨rfl, rfl, rfl⟩
  intro w v h
  obtain ⟨hw, hcounts⟩ := hrun dry w
  obtain ⟨hv, hcounts'⟩ := hrun dry' v
  exact ⟨hw.trans hv.symm, hcounts.calls.trans (h.calls.trans hcounts'.calls.symm),
    hcounts.summary.trans (h.summary.trans hcounts'.summary.symm)⟩

theorem shadows_backfillTarget (dry dry' refreshInfo : Bool) (hasInfo : List Int) (target : BackfillTarget) (intro : Option Item) :
    Shadows (V := V) SameCounts (backfillTarget out dry refreshInfo hasInfo target intro)
      (backfillTarget out dry' refreshInfo hasInfo target intro) := by
  have htel : Shadows (V := V) SameCounts (backfillTel out dry target intro) (backfillTel out dry' target intro) := by
    refine (shadows_ofExcept _).bind fun key => ?_
    split
    · exact shadows_tally _
    · exact (shadows_unlessDry hfault (atomic_setTel target.id _) (fun _ _ => ⟨_, rfl⟩) dry dry').bind fun _ => shadows_tally _
  have hinfo : Shadows (V := V) SameCounts (backfillInfo out dry refreshInfo hasInfo target intro)
      (backfillInfo out dry' refreshInfo hasInfo target intro) := by
    unfold backfillInfo
    split
    · exact shadows_pure ()
    · dsimp only
      split
      · split
        · exact shadows_pure ()
        · exact (shadows_unlessDry hfault (atomic_updateOrCreateInfo target.id _) (fun _ _ => ⟨_, rfl⟩) dry dry').bind
            fun _ => shadows_tally _
      · exact shadows_pure ()
  exact (shadows_tally _).bind fun _ => htel.bind fun _ => hinfo

theorem shadows_backfillLoop (dry dry' refreshInfo : Bool) (hasInfo : List Int) (targets : List BackfillTarget) :
    Shadows (V := V) SameCounts (backfillLoop out dry refreshInfo hasInfo targets)
      (backfillLoop out dry' refreshInfo hasInfo targets) := by
  induction targets with
  | nil => exact shadows_pure ()
  | cons target rest ih =>
    refine (((shadows_call out _).bind fun _ => shadows_pure _).attempt).bind fun answer => ?_
    split
    · exact shadows_tally _
    · exact (shadows_tally _).bind fun _ => ih
    · exact shadows_raise _
    · exact (shadows_backfillTarget hfault dry dry' refreshInfo hasInfo target _).bind fun _ => ih

/-- **A dry backfill ends and counts as a real one.** -/
theorem backfillDetails_counts (contentTypeId : Option Int) (limit : Option Nat) (refreshInfo : Bool)
    (w : World V DetailBackfillSummary) :
    (backfillDetails out contentTypeId limit true refreshInfo w).1 = (backfillDetails out contentTypeId limit false refreshInfo w).1 ∧
      (backfillDetails out contentTypeId limit true refreshInfo w).2.summary =
        (backfillDetails out contentTypeId limit false refreshInfo w).2.summary := by
  unfold backfillDetails
  simp only [bind_run, query_ok (hfault _), Collect.tally]
  obtain ⟨heq, hcounts⟩ := shadows_backfillLoop hfault true false refreshInfo _ _ _ _ ⟨rfl, rfl⟩
  exact ⟨heq, hcounts.summary⟩

/-- The updates of a cleaning change no count. -/
theorem forEach_bulkUpdateTexts_counts (batches : List (List PlaceInfo)) (w : World V CleanInfoSummary) :
    (Collect.forEach (fun batch => Collect.atomic out (bulkUpdateTexts batch)) batches w).1 = .ok () ∧
      (Collect.forEach (fun batch => Collect.atomic out (bulkUpdateTexts batch)) batches w).2.summary = w.summary := by
  have hidle : Collect.forEach (fun _ => pure ()) batches w = (.ok (), w) := by
    induction batches with
    | nil => rfl
    | cons batch rest ih => exact ih
  have hbody : ∀ batch ∈ batches, Shadows (V := V) SameCounts
      (Collect.atomic out (bulkUpdateTexts batch) : Collect V CleanInfoSummary Unit) (pure ()) :=
    fun batch _ => shadows_unlessDry hfault (atomic_bulkUpdateTexts batch) (fun d n => ⟨_, bulkUpdateTexts_eval batch d n⟩) false true
  obtain ⟨heq, hcounts⟩ := Shadows.forEach hbody w w ⟨rfl, rfl⟩
  rw [hidle] at heq hcounts
  exact ⟨heq, hcounts.summary⟩

/-- **A dry cleaning counts as a real one**, which returns unless its batches have no size. -/
theorem cleanExistingPlaceInfo_counts (batchSize : Int) (w : World V CleanInfoSummary) :
    (cleanExistingPlaceInfo out true batchSize w).1 = .ok () ∧
      (cleanExistingPlaceInfo out true batchSize w).2.summary = (cleanExistingPlaceInfo out false batchSize w).2.summary ∧
      ((cleanExistingPlaceInfo out false batchSize w).1 = .ok () ↔ batchSize ≠ 0) := by
  rw [cleanExistingPlaceInfo_run (hfault _), cleanExistingPlaceInfo_run (hfault _), if_pos rfl, if_neg Bool.false_ne_true]
  refine ⟨rfl, ?_⟩
  unfold batchesOf
  by_cases hsize : batchSize = 0
  · rw [if_pos hsize]
    exact ⟨rfl, iff_of_false (fun h => by cases h) fun h => h hsize⟩
  · rw [if_neg hsize]
    obtain ⟨hok, hsummary⟩ := forEach_bulkUpdateTexts_counts hfault _
      {w with past := w.db :: w.past, summary := w.summary.counted (w.db.placeInfos.map cleanRow)}
    exact ⟨hsummary.symm, iff_of_true hok hsize⟩

end

end TravelMaker
