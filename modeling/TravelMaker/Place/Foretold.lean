import TravelMaker.Place.DryRun
import TravelMaker.Place.Pages

/-! A dry run of `sync_incremental`.

The real run stores rows while it loops. A type is read against the snapshot it began with,
and no later type lists what was stored, so a dry run decides alike. It makes no detail
calls: `SameAnswers` matches the listing calls of the two runs one by one. -/
namespace TravelMaker
open Lib (Txn Decimal)

variable {V S : Type}

/-! ### What an item counts -/

/-- The counters that a dry run of `sync_incremental` foresees. -/
def SyncSummary.foreseen (s : SyncSummary) : SyncSummary where
  fetched := s.fetched
  skippedNoImage := s.skippedNoImage
  deactivated := s.deactivated
  skippedUnchanged := s.skippedUnchanged

theorem foreseen_add (s t : SyncSummary) : (s.add t).foreseen = s.foreseen.add t.foreseen := rfl

theorem SyncSummary.add_empty (s : SyncSummary) : s.add {} = s := rfl

theorem SyncSummary.empty_add (s : SyncSummary) : SyncSummary.add {} s = s := by simp [SyncSummary.add]

theorem SyncSummary.add_assoc (s t u : SyncSummary) : (s.add t).add u = s.add (t.add u) := by
  simp [SyncSummary.add, Nat.add_assoc]

/-- A part of a run counts nothing, however it ends. -/
def CountsNothing {α : Type} (x : Collect V S α) : Prop := ∀ w, (x w).2.summary = w.summary

theorem composes_countsNothing : Composes (V := V) (S := S) CountsNothing :=
  composes_of_trans (R := fun w w' => w'.summary = w.summary) (fun _ => rfl) fun _ _ _ h h' => h'.trans h

/-- A part of a run that returns has counted `c`, of the counters that are foreseen. -/
def Counts {α : Type} (c : SyncSummary) (x : Collect V SyncSummary α) : Prop :=
  ∀ w a, (x w).1 = .ok a → (x w).2.summary.foreseen = w.summary.foreseen.add c

theorem CountsNothing.counts {α : Type} {x : Collect V SyncSummary α} (h : CountsNothing x) : Counts {} x := by
  intro w a _
  rw [h w, SyncSummary.add_empty]

theorem counts_tally {f : SyncSummary → SyncSummary} {c : SyncSummary} (h : ∀ s, (f s).foreseen = s.foreseen.add c) :
    Counts (V := V) c (Collect.tally f) := fun w _ _ => h w.summary

theorem Counts.bind {α β : Type} {c c' : SyncSummary} {x : Collect V SyncSummary α} {f : α → Collect V SyncSummary β}
    (hx : Counts c x) (hf : ∀ a, Counts c' (f a)) : Counts (c.add c') (x >>= f) := by
  intro w b hb
  rw [bind_run] at hb ⊢
  rcases hrun : x w with ⟨r, w'⟩
  rw [hrun] at hb
  cases r with
  | ok a =>
    have hfirst := hx w a (congrArg Prod.fst hrun)
    rw [hrun] at hfirst
    exact (hf a w' b hb).trans (by rw [hfirst, SyncSummary.add_assoc])
  | error e => cases hb

/-- After a part that counts nothing. -/
theorem Counts.after {α β : Type} {c : SyncSummary} {x : Collect V SyncSummary α} {f : α → Collect V SyncSummary β}
    (hx : CountsNothing x) (hf : ∀ a, Counts c (f a)) : Counts c (x >>= f) := by
  have h := hx.counts.bind hf
  rwa [SyncSummary.empty_add] at h

/-- An item that is collected. -/
def collectCounts (listItem : Item) : SyncSummary :=
  {fetched := 1, skippedNoImage := if blankToNone (listItem.get "firstimage") = none then 1 else 0}

/-- An item of the listing, by what is stored of its place. -/
def itemCounts (stored : Option (Option String)) (listItem : Item) : SyncSummary :=
  if blankToNone (listItem.get "showflag") = some "0" then {deactivated := if stored.isSome then 1 else 0}
  else if stored.all (changed (blankToNone (listItem.get "modifiedtime"))) then collectCounts listItem
  else {skippedUnchanged := 1}

theorem counts_processListItem (out : Outside) (contentTypeId : Int) (listItem : Item) (dryRun : Bool) :
    Counts (V := V) (collectCounts listItem) (processListItem out contentTypeId listItem dryRun) := by
  have hfetched : Counts (V := V) {fetched := 1} (Collect.tally fun s => {s with fetched := s.fetched + 1}) :=
    counts_tally fun _ => rfl
  have hraise : ∀ e, Counts (V := V) {} (Collect.raise e : Collect V SyncSummary Unit) := fun _ _ _ h => by cases h
  unfold processListItem collectCounts
  cases himage : blankToNone (listItem.get "firstimage") with
  | none =>
    refine (hfetched.bind fun _ => ?_ : Counts (SyncSummary.add {fetched := 1} {skippedNoImage := 1}) _)
    exact counts_tally fun _ => rfl
  | some firstimage =>
    refine (hfetched.bind fun _ => ?_ : Counts (SyncSummary.add {fetched := 1} {}) _)
    refine Counts.after (fun _ => rfl) fun contentId => ?_
    split
    · exact counts_tally fun _ => rfl
    · split
      · exact CountsNothing.counts fun _ => rfl
      · refine Counts.after (composes_countsNothing.detailsOf (fun _ _ _ => rfl) contentId contentTypeId) fun details => ?_
        split
        · exact counts_tally fun _ => rfl
        · exact hraise _
        · refine Counts.after (fun _ => rfl) fun saved => ?_
          split
          · split
            · exact counts_tally fun _ => rfl
            · exact hraise _
          · exact counts_tally fun _ => rfl

theorem counts_processSyncItem {listItem : Item} {contentId : Int} (hid : listItem.intAt "contentid" = .ok contentId)
    (out : Outside) (contentTypeId : Int) (existing : Existing) (dryRun : Bool) :
    Counts (V := V) (itemCounts (existing.lookup contentId) listItem) (processSyncItem out contentTypeId existing dryRun listItem) := by
  have hcollect := counts_processListItem (V := V) out contentTypeId listItem dryRun
  have hnothing : Counts (V := V) {} (pure () : Collect V SyncSummary Unit) := CountsNothing.counts fun _ => rfl
  have hbind : ∀ f : Int → Collect V SyncSummary Unit, (Collect.ofExcept (.ok contentId) >>= f) = f contentId := fun _ => rfl
  unfold processSyncItem itemCounts
  rw [hid, hbind]
  by_cases hflag : blankToNone (listItem.get "showflag") = some "0"
  · rw [if_pos hflag, if_pos hflag]
    cases existing.lookup contentId with
    | none => exact hnothing
    | some stored =>
      cases dryRun with
      | true => exact counts_tally fun _ => rfl
      | false => exact Counts.after (fun _ => rfl) fun _ => counts_tally fun _ => rfl
  · rw [if_neg hflag, if_neg hflag]
    cases existing.lookup contentId with
    | none => exact hcollect
    | some stored =>
      dsimp only
      rw [Option.all_some]
      split
      · exact hcollect
      · exact counts_tally fun _ => rfl

/-! ### The calls of a run -/

/-- A part of a run makes no calls but those in `Q`. -/
def CallsOnly {α : Type} (Q : Call → Prop) (x : Collect V S α) : Prop :=
  ∀ w, ∃ more, (x w).2.calls = more ++ w.calls ∧ ∀ c ∈ more, Q c

section
variable {α : Type} {Q : Call → Prop}

theorem callsOnly_of_none {x : Collect V S α} (h : ∀ w, (x w).2.calls = w.calls) : CallsOnly Q x :=
  fun w => ⟨[], h w, List.forall_mem_nil _⟩

theorem callsOnly_call {out : Outside} {c : Call} (hc : Q c) : CallsOnly Q (Collect.call out c : Collect V S (List Item)) :=
  fun _ => ⟨[c], rfl, List.forall_mem_singleton.mpr hc⟩

variable (Q) in
theorem blind_callsOnly : Blind (V := V) (S := S) (CallsOnly Q) := by
  refine blind_of_trans (R := fun w w' => ∃ more, w'.calls = more ++ w.calls ∧ ∀ c ∈ more, Q c) (fun w => ?_)
    (fun w w' w'' h h' => ?_) fun f w => ?_
  · exact ⟨[], rfl, List.forall_mem_nil _⟩
  · obtain ⟨more, hcalls, hmore⟩ := h
    obtain ⟨later, hlater, hq⟩ := h'
    exact ⟨later ++ more, by rw [hlater, hcalls, List.append_assoc], List.forall_mem_append.mpr ⟨hq, hmore⟩⟩
  · exact ⟨[], rfl, List.forall_mem_nil _⟩

theorem CallsOnly.mono {Q' : Call → Prop} {x : Collect V S α} (h : CallsOnly Q x) (hq : ∀ c, Q c → Q' c) : CallsOnly Q' x :=
  fun w => (h w).imp fun _ hmore => hmore.imp_right fun hall c hc => hq c (hall c hc)

theorem CallsOnly.suffix {x : Collect V S α} (h : CallsOnly Q x) (w : World V S) : w.calls <:+ (x w).2.calls :=
  (h w).imp fun _ hmore => hmore.1.symm

theorem callsOnly_atomic {out : Outside} (p : Service V α) : CallsOnly Q (Collect.atomic out p : Collect V S α) :=
  callsOnly_of_none fun _ => rfl

theorem CallsOnly.withSummary {x : Collect V SyncSummary Unit} (h : CallsOnly Q x) : CallsOnly Q (withSummary x) := by
  intro w
  have hcalls := h {w with summary := {}}
  unfold TravelMaker.withSummary
  rcases hrun : x {w with summary := {}} with ⟨r, w'⟩
  rw [hrun] at hcalls
  cases r <;> exact hcalls

end

/-- The call asks for no page of a listing. -/
def Call.NoPage (c : Call) : Prop := c.page? = none

/-- An item asks for no page. -/
theorem callsOnly_processSyncItem (out : Outside) (contentTypeId : Int) (existing : Existing) (dryRun : Bool) (listItem : Item) :
    CallsOnly (V := V) Call.NoPage (processSyncItem out contentTypeId existing dryRun listItem) := by
  have hrules := blind_callsOnly (V := V) (S := SyncSummary) Call.NoPage
  refine hrules.processSyncItem (hrules.processListItem (fun c hc => callsOnly_call hc) ?_) fun _ contentId _ => callsOnly_atomic _
  exact fun _ contentId _ firstimage common images intro => callsOnly_atomic _

/-! ### Two runs of `sync_incremental` -/

/-- How many pages of listings were asked for. -/
def pagesAsked (calls : List Call) : Nat := calls.countP (·.page?.isSome)

/-- Every page asked for by the run that made `calls` is answered as it is to a dry run,
which calls for pages only. -/
def SameAnswers (out dry : Outside) (calls : List Call) : Prop :=
  ∀ c before, c :: before <:+ calls → c.page?.isSome = true → out.get before.length c = dry.get (pagesAsked before) c

/-- The run that made `calls` was shown the content id under the type. -/
def ShownUnder (out : Outside) (calls : List Call) (contentTypeId contentId : Int) : Prop :=
  ∃ numOfRows page before items, .areaBasedSyncList contentTypeId numOfRows page :: before <:+ calls ∧
    out.get before.length (.areaBasedSyncList contentTypeId numOfRows page) = .ok items ∧
    ∃ item ∈ items, item.intAt "contentid" = .ok contentId

/-- No row is touched but those of the content ids that are done. -/
structure Apart (done : Int → Prop) (d₀ d : Db V) (seq : Nat) : Prop where
  ok : PlacesOk d seq
  rows : ∀ contentId, ¬ done contentId → d.placeOf? contentId = d₀.placeOf? contentId

/-- A real run in `w` and a dry one in `v`, both from `d₀`. -/
structure Alongside (done : Int → Prop) (d₀ : Db V) (w v : World V SyncSummary) : Prop where
  apart : Apart done d₀ w.db w.seq
  still : Still d₀ v.db v.seq
  asked : v.calls.length = pagesAsked w.calls
  counts : v.summary.foreseen = w.summary.foreseen

theorem apart_mono {done : Int → Prop} {d₀ : Db V} : ∀ d n m, n ≤ m → Apart done d₀ d n → Apart done d₀ d m :=
  fun _ _ _ hle h => {h with ok := h.ok.mono hle}

section
variable {done : Int → Prop} {d₀ : Db V} {contentId : Int} (hdone : done contentId)
include hdone

theorem apart_saved : KeptBySavedOf (Apart done d₀) contentId := by
  intro d n contentTypeId listItem firstimage images intro defaults f hf h
  have hplaces := saved_places d n contentTypeId contentId listItem firstimage images intro defaults f
  refine ⟨(placesOk_writePlace h.ok hf contentId defaults).congr hplaces, fun other hother => ?_⟩
  have hne : other ≠ contentId := fun heq => hother (heq ▸ hdone)
  unfold Db.placeOf?
  rw [hplaces]
  exact (placeOf?_writePlace_ne h.ok (fun p => (hf p).2) hne).trans (h.rows other hother)

theorem apart_deactivated {d : Db V} {n : Nat} (h : Apart done d₀ d n) : Apart done d₀ (d.deactivated contentId) n := by
  refine ⟨placesOk_deactivated h.ok contentId, fun other hother => ?_⟩
  have hne : other ≠ contentId := fun heq => hother (heq ▸ hdone)
  rw [← h.rows other hother]
  unfold Db.deactivated
  cases hplace : d.placeOf? contentId with
  | none => rfl
  | some place => exact placeOf?_updatePlace_ne h.ok deactivate_contentId hplace hne

end

/-- The same is known of a place whose row was not touched. -/
theorem Apart.lookup_existing {done : Int → Prop} {d₀ d : Db V} {seq : Nat} (h : Apart done d₀ d seq)
    (hids : (d₀.places.map (·.contentId)).Nodup) (contentTypeId : Int) {contentId : Int} (hnew : ¬ done contentId) :
    (d.existing contentTypeId).lookup contentId = (d₀.existing contentTypeId).lookup contentId := by
  unfold Db.existing
  rw [TravelMaker.lookup_existing h.ok.contentIds, TravelMaker.lookup_existing hids]
  exact congrArg (Option.bind · _) (h.rows contentId hnew)

/-- Where the first part returns, with no calls beyond `calls`, the second returns the same. -/
def Foretells {α : Type} (calls : List Call) (R : World V S → World V S → Prop) (x y : Collect V S α) : Prop :=
  ∀ w v a, R w v → (x w).1 = .ok a → (x w).2.calls <:+ calls → (y v).1 = .ok a ∧ R (x w).2 (y v).2

section
variable {α β : Type} {calls : List Call} {R : World V S → World V S → Prop}

theorem foretells_pure (a : α) : Foretells calls R (pure a) (pure a) := fun _ _ _ h hreturns _ => ⟨hreturns, h⟩

/-- What comes second is about the results that the first part has on the way to `calls`. -/
theorem Foretells.bind_of {x y : Collect V S α} {f g : α → Collect V S β} (h : Foretells calls R x y)
    (hgrows : ∀ a, CallsOnly (fun _ => True) (f a))
    (hf : ∀ a w, (x w).1 = .ok a → (x w).2.calls <:+ calls → Foretells calls R (f a) (g a)) :
    Foretells calls R (x >>= f) (y >>= g) := by
  intro w v b hR hreturns hcalls
  have hfirst := h w v
  have hsecond := fun a => hf a w
  simp only [bind_run] at hreturns hcalls ⊢
  rcases hx : x w with ⟨r, w'⟩
  rw [hx] at hreturns hcalls hfirst hsecond
  cases r with
  | error e => cases hreturns
  | ok a =>
    have hbefore : w'.calls <:+ calls := ((hgrows a).suffix w').trans hcalls
    obtain ⟨hy, hR'⟩ := hfirst a hR rfl hbefore
    rcases hrun : y v with ⟨r, v'⟩
    rw [hrun] at hy hR'
    obtain rfl : r = .ok a := hy
    exact hsecond a rfl hbefore w' v' b hR' hreturns hcalls

theorem Foretells.forEach {body body' : α → Collect V S Unit} (hgrows : ∀ a, CallsOnly (fun _ => True) (body a)) {as : List α}
    (h : ∀ a ∈ as, Foretells calls R (body a) (body' a)) : Foretells calls R (Collect.forEach body as) (Collect.forEach body' as) := by
  induction as with
  | nil => exact foretells_pure ()
  | cons a rest ih =>
    rw [List.forall_mem_cons] at h
    exact h.1.bind_of (fun _ => (blind_callsOnly _).forEach fun a _ => hgrows a) fun _ _ _ _ => ih h.2

theorem Foretells.forPages {numOfRows : Nat} {maxPages : Option Nat} {fetch fetch' : Nat → Collect V S (List Item)}
    {body body' : Item → Collect V S Unit} {Q : Item → Prop} (hfetch : ∀ page, Foretells calls R (fetch page) (fetch' page))
    (hfetchGrows : ∀ page, CallsOnly (fun _ => True) (fetch page)) (hbodyGrows : ∀ item, CallsOnly (fun _ => True) (body item))
    (hitems : ∀ page w items, (fetch page w).1 = .ok items → (fetch page w).2.calls <:+ calls → ∀ item ∈ items, Q item)
    (hbody : ∀ item, Q item → Foretells calls R (body item) (body' item)) (fuel page : Nat) :
    Foretells calls R (forPages numOfRows maxPages fetch body fuel page) (forPages numOfRows maxPages fetch' body' fuel page) := by
  have hend : CallsOnly (fun _ => True) (pure () : Collect V S Unit) := callsOnly_of_none fun _ => rfl
  have hgrows : ∀ fuel page, CallsOnly (fun _ => True) (TravelMaker.forPages numOfRows maxPages fetch body fuel page) :=
    (blind_callsOnly _).forPages hfetchGrows hbodyGrows
  induction fuel generalizing page with
  | zero => exact foretells_pure ()
  | succ fuel ih =>
    unfold TravelMaker.forPages
    split
    · exact foretells_pure ()
    · refine (hfetch page).bind_of (fun items => ?_) fun items w hanswer hcalls => ?_
      · split
        · exact hend
        · refine (blind_callsOnly _).bind ((blind_callsOnly _).forEach fun item _ => hbodyGrows item) fun _ => ?_
          split
          · exact hend
          · exact hgrows fuel (page + 1)
      · split
        · exact foretells_pure ()
        · have hpage : ∀ item ∈ items, Foretells calls R (body item) (body' item) :=
            fun item hitem => hbody item (hitems page w items hanswer hcalls item hitem)
          refine (Foretells.forEach hbodyGrows hpage).bind_of (fun _ => ?_) fun _ _ _ _ => ?_
          · split
            · exact hend
            · exact hgrows fuel (page + 1)
          · split
            · exact foretells_pure ()
            · exact ih (page + 1)

end

section
variable {out dry : Outside} {calls : List Call} {done : Int → Prop} {d₀ : Db V}

/-- A page of a listing. -/
theorem foretells_safeList (hsame : SameAnswers out dry calls) {c : Call} (hpage : c.page?.isSome = true) :
    Foretells calls (Alongside done d₀) (safeList (Collect.call out c)) (safeList (Collect.call dry c)) := by
  intro w v items h hreturns hcalls
  have hmade : ∀ (o : Outside) (w : World V SyncSummary), (safeList (Collect.call o c) w).2 = {w with calls := c :: w.calls} := by
    intro o w
    rw [safeList_call]
    split <;> rfl
  rw [hmade] at hcalls ⊢
  rw [hmade]
  have hget : out.get w.calls.length c = dry.get v.calls.length c := by
    rw [h.asked]
    exact hsame c w.calls hcalls hpage
  refine ⟨?_, h.apart, h.still, ?_, h.counts⟩
  · rw [safeList_call, hget] at hreturns
    rw [safeList_call]
    cases hanswer : dry.get v.calls.length c with
    | ok items =>
      rw [hanswer] at hreturns
      exact hreturns
    | error e =>
      rw [hanswer] at hreturns
      cases e <;> exact hreturns
  · show v.calls.length + 1 = pagesAsked (c :: w.calls)
    have hone : pagesAsked (c :: w.calls) = pagesAsked w.calls + 1 := List.countP_cons_of_pos hpage
    rw [hone, h.asked]

theorem pagesAsked_of_callsOnly {α : Type} {x : Collect V S α} (h : CallsOnly Call.NoPage x) (w : World V S) :
    pagesAsked (x w).2.calls = pagesAsked w.calls := by
  obtain ⟨more, hcalls, hmore⟩ := h w
  have hnone : more.countP (·.page?.isSome) = 0 := by
    refine List.countP_eq_zero.mpr fun c hc => ?_
    rw [show c.page? = none from hmore c hc]
    exact Bool.false_ne_true
  rw [hcalls, pagesAsked, List.countP_append, hnone, Nat.zero_add, pagesAsked]

/-- A dry run of an item returns, and makes no calls. -/
theorem processSyncItem_dry (dry : Outside) {item : Item} {contentId : Int} (hid : item.intAt "contentid" = .ok contentId) (contentTypeId : Int)
    (existing : Existing) (v : World V SyncSummary) : (processSyncItem dry contentTypeId existing true item v).1 = .ok () ∧
      (processSyncItem dry contentTypeId existing true item v).2.calls = v.calls := by
  have hcollect : (processListItem dry contentTypeId item true false none v).1 = .ok () ∧
      (processListItem dry contentTypeId item true false none v).2.calls = v.calls := by
    cases himage : blankToNone (item.get "firstimage") with
    | none =>
      rw [processListItem_noImage himage]
      exact ⟨rfl, rfl⟩
    | some firstimage =>
      rw [processListItem_dryRun himage hid rfl]
      exact ⟨rfl, rfl⟩
  simp only [processSyncItem, bind_run, Collect.ofExcept, hid]
  split
  · split <;> exact ⟨rfl, rfl⟩
  · cases existing.lookup contentId with
    | none => exact hcollect
    | some stored =>
      dsimp only
      split
      · exact hcollect
      · exact ⟨rfl, rfl⟩

/-- **An item of the listing**, of which both runs know the same. -/
theorem foretells_processSyncItem {contentTypeId : Int} {existing existing' : Existing} {item : Item}
    (hitem : ∀ contentId, item.intAt "contentid" = .ok contentId → done contentId ∧ existing.lookup contentId = existing'.lookup contentId) :
    Foretells calls (Alongside done d₀) (processSyncItem out contentTypeId existing false item)
      (processSyncItem dry contentTypeId existing' true item) := by
  intro w v a h hreturns _
  cases hid : item.intAt "contentid" with
  | error e =>
    simp only [processSyncItem, bind_run, Collect.ofExcept, hid] at hreturns
    cases hreturns
  | ok contentId =>
    obtain ⟨hdone, hknown⟩ := hitem contentId hid
    obtain ⟨hdry, hcalls⟩ := processSyncItem_dry dry hid contentTypeId existing' v
    have hreal := counts_processSyncItem hid out contentTypeId existing false w a hreturns
    have hforetold := counts_processSyncItem hid dry contentTypeId existing' true v () hdry
    have hthis : ∀ contentId', item.intAt "contentid" = .ok contentId' → contentId' = contentId := by
      intro contentId' hid'
      rw [hid] at hid'
      exact (Except.ok.inj hid').symm
    refine ⟨hdry, ?_, ?_, ?_, ?_⟩
    · refine keeps_processSyncItem apart_mono out contentTypeId existing (fun _ contentId' hid' => ?_)
        (fun _ contentId' hid' d n hd => ?_) w h.apart
      · exact hthis contentId' hid' ▸ apart_saved hdone
      · exact hthis contentId' hid' ▸ apart_deactivated hdone hd
    · exact keeps_processSyncItem (still_mono d₀) dry contentTypeId existing' (fun h => by cases h) (fun h => by cases h) v h.still
    · rw [hcalls, pagesAsked_of_callsOnly (callsOnly_processSyncItem out contentTypeId existing false item)]
      exact h.asked
    · rw [hforetold, hreal, hknown, h.counts]

/-- What the run is shown, it is shown under the type it asked for. -/
theorem shownUnder_of_safeList {contentTypeId : Int} {numOfRows page : Nat} {w : World V SyncSummary} {items : List Item}
    (hanswer : (safeAreaBasedSyncList out contentTypeId numOfRows page w).1 = .ok items)
    (hcalls : (safeAreaBasedSyncList out contentTypeId numOfRows page w).2.calls <:+ calls) {item : Item} (hitem : item ∈ items)
    {contentId : Int} (hid : item.intAt "contentid" = .ok contentId) : ShownUnder out calls contentTypeId contentId := by
  unfold safeAreaBasedSyncList Collect.areaBasedSyncList at hanswer hcalls
  rw [safeList_call] at hanswer hcalls
  cases hget : out.get w.calls.length (.areaBasedSyncList contentTypeId numOfRows page) with
  | ok items' =>
    rw [hget] at hanswer hcalls
    cases hanswer
    exact ⟨numOfRows, page, w.calls, items, hcalls, hget, item, hitem, hid⟩
  | error e =>
    rw [hget] at hanswer
    cases e <;> cases hanswer
    exact absurd hitem List.not_mem_nil

theorem Foretells.withSummary {x y : Collect V SyncSummary Unit} (h : Foretells calls (Alongside done d₀) x y) :
    Foretells calls (Alongside done d₀) (withSummary x) (withSummary y) := by
  intro w v a hR hreturns hcalls
  have hparts := h {w with summary := {}} {v with summary := {}} () ⟨hR.apart, hR.still, hR.asked, rfl⟩
  unfold TravelMaker.withSummary at hreturns hcalls ⊢
  rcases hx : x {w with summary := {}} with ⟨r, w'⟩
  rw [hx] at hreturns hcalls hparts
  cases r with
  | error e => cases hreturns
  | ok u =>
    obtain ⟨hy, hR'⟩ := hparts rfl hcalls
    rcases hrun : y {v with summary := {}} with ⟨r, v'⟩
    rw [hrun] at hy hR'
    obtain rfl : r = .ok () := hy
    refine ⟨rfl, hR'.apart, hR'.still, hR'.asked, ?_⟩
    show (v.summary.add v'.summary).foreseen = (w.summary.add w'.summary).foreseen
    rw [foreseen_add, foreseen_add, hR.counts, hR'.counts]

/-- One type, read against the tables it begins with. -/
def syncType (out : Outside) (contentTypeId : Int) (numOfRows : Nat) (maxPages : Option Nat) (dryRun : Bool) (d : Db V) :
    Collect V SyncSummary Unit :=
  withSummary (forPages numOfRows maxPages (fun page => safeAreaBasedSyncList out contentTypeId numOfRows page)
    (processSyncItem out contentTypeId (d.existing contentTypeId) dryRun) (out.lastPage + 1) 1)

variable {contentTypeId : Int} {numOfRows : Nat} {maxPages : Option Nat}

theorem callsOnly_syncType (dryRun : Bool) (d : Db V) :
    CallsOnly (fun _ => True) (syncType out contentTypeId numOfRows maxPages dryRun d) := by
  have hrules := blind_callsOnly (V := V) (S := SyncSummary) fun _ => True
  refine CallsOnly.withSummary (hrules.forPages (fun page => hrules.safeList (callsOnly_call trivial)) (fun item => ?_) _ _)
  exact (callsOnly_processSyncItem out contentTypeId _ dryRun item).mono fun _ _ => trivial

theorem callsOnly_syncIncremental (contentTypeIds : List Int) (dryRun : Bool) :
    CallsOnly (V := V) (fun _ => True) (syncIncremental out contentTypeIds numOfRows maxPages dryRun) :=
  (blind_callsOnly _).forEach fun _ _ => (blind_callsOnly _).bind (callsOnly_atomic _) fun d => callsOnly_syncType dryRun d

/-- **A type whose places have no touched row yet.** -/
theorem foretells_syncType (numOfRows : Nat) (maxPages : Option Nat) (hsame : SameAnswers out dry calls) (hlast : dry.lastPage = out.lastPage) {d : Db V} {seq : Nat}
    (h : Apart done d₀ d seq) (hids : (d₀.places.map (·.contentId)).Nodup)
    (hnew : ∀ contentId, ShownUnder out calls contentTypeId contentId → ¬ done contentId) :
    Foretells calls (Alongside (fun contentId => done contentId ∨ ShownUnder out calls contentTypeId contentId) d₀)
      (syncType out contentTypeId numOfRows maxPages false d) (syncType dry contentTypeId numOfRows maxPages true d₀) := by
  unfold syncType
  rw [hlast]
  have hgrows : ∀ item, CallsOnly (V := V) (fun _ => True) (processSyncItem out contentTypeId (d.existing contentTypeId) false item) :=
    fun item => (callsOnly_processSyncItem out contentTypeId _ false item).mono fun _ _ => trivial
  refine (Foretells.forPages
    (Q := fun item => ∀ contentId, item.intAt "contentid" = .ok contentId → ShownUnder out calls contentTypeId contentId)
    (fun page => foretells_safeList hsame rfl) (fun page => (blind_callsOnly _).safeList (callsOnly_call trivial)) hgrows
    (fun page w items hanswer hcalls item hitem contentId hid => shownUnder_of_safeList hanswer hcalls hitem hid)
    (fun item hshown => foretells_processSyncItem fun contentId hid => ?_) _ _).withSummary
  have hunder := hshown contentId hid
  exact ⟨.inr hunder, h.lookup_existing hids contentTypeId (hnew contentId hunder)⟩

theorem syncIncremental_cons {rest : List Int} {dryRun : Bool} {w : World V SyncSummary} (hfault : out.fault w.transactions = none) :
    syncIncremental out (contentTypeId :: rest) numOfRows maxPages dryRun w =
      (syncType out contentTypeId numOfRows maxPages dryRun w.db >>= fun _ => syncIncremental out rest numOfRows maxPages dryRun)
        {w with past := w.db :: w.past} := by
  unfold syncIncremental
  simp only [Collect.forEach]
  rw [bind_run, bind_run, query_ok hfault]
  rfl

theorem syncIncremental_cons_fault {rest : List Int} {dryRun : Bool} {w : World V SyncSummary} {fault : Nat × DbExc}
    (hfault : out.fault w.transactions = some fault) :
    ∃ e, (syncIncremental out (contentTypeId :: rest) numOfRows maxPages dryRun w).1 = .error e ∧ FromDatabase out e := by
  obtain ⟨e, w', hrun, -, -⟩ := query_fault hfault
  refine ⟨e, ?_, raises_query out w e (congrArg Prod.fst hrun)⟩
  unfold syncIncremental
  simp only [Collect.forEach]
  rw [bind_run, bind_run, hrun]

theorem foretold_syncIncremental (hsame : SameAnswers out dry calls) (hlast : dry.lastPage = out.lastPage)
    (hids : (d₀.places.map (·.contentId)).Nodup) {contentTypeIds : List Int}
    (hnew : ∀ id ∈ contentTypeIds, ∀ contentId, ShownUnder out calls id contentId → ¬ done contentId)
    (hpairs : contentTypeIds.Pairwise fun id id' => ∀ contentId, ShownUnder out calls id contentId → ¬ ShownUnder out calls id' contentId)
    {w v : World V SyncSummary} (h : Alongside done d₀ w v)
    (hreturns : (syncIncremental out contentTypeIds numOfRows maxPages false w).1 = .ok ())
    (hcalls : (syncIncremental out contentTypeIds numOfRows maxPages false w).2.calls <:+ calls) :
    (∃ e, (syncIncremental dry contentTypeIds numOfRows maxPages true v).1 = .error e ∧ FromDatabase dry e) ∨
      (syncIncremental dry contentTypeIds numOfRows maxPages true v).1 = .ok () ∧
      (syncIncremental dry contentTypeIds numOfRows maxPages true v).2.summary.foreseen =
        (syncIncremental out contentTypeIds numOfRows maxPages false w).2.summary.foreseen := by
  induction contentTypeIds generalizing done w v with
  | nil => exact .inr ⟨rfl, h.counts⟩
  | cons contentTypeId rest ih =>
    rw [List.forall_mem_cons] at hnew
    rw [List.pairwise_cons] at hpairs
    cases hfault : out.fault w.transactions with
    | some fault =>
      have hraised : ∃ e, (syncIncremental out (contentTypeId :: rest) numOfRows maxPages false w).1 = .error e ∧ FromDatabase out e :=
        syncIncremental_cons_fault hfault
      obtain ⟨e, he, -⟩ := hraised
      rw [he] at hreturns
      cases hreturns
    | none =>
      cases hdry : dry.fault v.transactions with
      | some fault => exact .inl (syncIncremental_cons_fault hdry)
      | none =>
        rw [syncIncremental_cons hfault, bind_run] at hreturns hcalls
        have hstill : v.db = d₀ := h.still
        rw [syncIncremental_cons hfault, syncIncremental_cons hdry, bind_run, bind_run, hstill]
        have htype := foretells_syncType numOfRows maxPages hsame hlast h.apart hids hnew.1
          {w with past := w.db :: w.past} {v with db := d₀, past := d₀ :: v.past} ()
          ⟨⟨h.apart.ok, fun contentId hnot => h.apart.rows contentId fun hd => hnot (.inl hd)⟩, rfl, h.asked, h.counts⟩
        rcases hreal : syncType out contentTypeId numOfRows maxPages false w.db {w with past := w.db :: w.past} with ⟨r, w'⟩
        rw [hreal] at hreturns hcalls htype
        cases r with
        | error e => cases hreturns
        | ok u =>
          have hbefore : w'.calls <:+ calls := ((callsOnly_syncIncremental rest false).suffix w').trans hcalls
          obtain ⟨hy, hR⟩ := htype rfl hbefore
          rcases hrun : syncType dry contentTypeId numOfRows maxPages true d₀ {v with db := d₀, past := d₀ :: v.past} with ⟨r, v'⟩
          rw [hrun] at hy hR
          obtain rfl : r = .ok () := hy
          refine ih (fun id hid contentId hshown hbefore => ?_) hpairs.2 hR hreturns hcalls
          rcases hbefore with hd | hfirst
          · exact hnew.2 id hid contentId hshown hd
          · exact hpairs.1 id hid contentId hfirst hshown

end

/-! ### All four -/

/-- **Dry runs touch nothing and count what real ones count.** -/
theorem dry_runs_foretell (out : Outside) :
    (∀ contentTypeIds numOfRows maxPages skipExisting arrange (w : World V SyncSummary),
      (syncAll out contentTypeIds numOfRows maxPages skipExisting true arrange w).2.db = w.db) ∧
    (∀ contentTypeIds numOfRows maxPages (w : World V SyncSummary),
      (syncIncremental out contentTypeIds numOfRows maxPages true w).2.db = w.db) ∧
    (∀ contentTypeId limit refreshInfo (w : World V DetailBackfillSummary),
      (backfillDetails out contentTypeId limit true refreshInfo w).2.db = w.db ∧ ((∀ t, out.fault t = none) →
        (backfillDetails out contentTypeId limit true refreshInfo w).1 = (backfillDetails out contentTypeId limit false refreshInfo w).1 ∧
        (backfillDetails out contentTypeId limit true refreshInfo w).2.summary =
          (backfillDetails out contentTypeId limit false refreshInfo w).2.summary)) ∧
    (∀ batchSize (w : World V CleanInfoSummary),
      (cleanExistingPlaceInfo out true batchSize w).2.db = w.db ∧ ((∀ t, out.fault t = none) →
        (cleanExistingPlaceInfo out true batchSize w).1 = .ok () ∧
        (cleanExistingPlaceInfo out true batchSize w).2.summary = (cleanExistingPlaceInfo out false batchSize w).2.summary ∧
        ((cleanExistingPlaceInfo out false batchSize w).1 = .ok () ↔ batchSize ≠ 0))) ∧
    ∀ (dry : Outside) (d : Db V) (seq : Nat) (contentTypeIds : List Int) (numOfRows : Nat) (maxPages : Option Nat),
      PlacesOk d seq → dry.lastPage = out.lastPage →
      let real := syncIncremental out contentTypeIds numOfRows maxPages false (World.start d seq)
      let foretold := syncIncremental dry contentTypeIds numOfRows maxPages true (World.start d seq)
      SameAnswers out dry real.2.calls →
      (contentTypeIds.Pairwise fun id id' => ∀ contentId,
        ShownUnder out real.2.calls id contentId → ¬ ShownUnder out real.2.calls id' contentId) →
      real.1 = .ok () →
        (∃ e, foretold.1 = .error e ∧ FromDatabase dry e) ∨
          foretold.1 = .ok () ∧ foretold.2.summary.foreseen = real.2.summary.foreseen := by
  refine ⟨?_, ?_, ?_, ?_, ?_⟩
  · intro contentTypeIds numOfRows maxPages skipExisting arrange w
    exact unchanged_syncAll out w.db contentTypeIds numOfRows maxPages skipExisting arrange w rfl
  · intro contentTypeIds numOfRows maxPages w
    exact unchanged_syncIncremental out w.db contentTypeIds numOfRows maxPages w rfl
  · intro contentTypeId limit refreshInfo w
    exact ⟨unchanged_backfillDetails out w.db contentTypeId limit refreshInfo w rfl,
      fun hfault => backfillDetails_counts hfault contentTypeId limit refreshInfo w⟩
  · intro batchSize w
    exact ⟨unchanged_cleanExistingPlaceInfo out w.db batchSize w rfl, fun hfault => cleanExistingPlaceInfo_counts hfault batchSize w⟩
  · intro dry d seq contentTypeIds numOfRows maxPages hok hlast real foretold hsame hpairs hreturns
    have hstart : Alongside (fun _ => False) d (World.start d seq) (World.start d seq) := ⟨⟨hok, fun _ _ => rfl⟩, rfl, rfl, rfl⟩
    exact foretold_syncIncremental hsame hlast hok.contentIds (fun _ _ _ _ => id) hpairs hstart hreturns (List.suffix_refl _)

theorem dry_runs_foretell_visits :
    (∀ w : World Unit DetailBackfillSummary, (backfillDetails (visitsUpstream ["20250101000000"]) (some 14) none true false w).2.summary =
      (backfillDetails (visitsUpstream ["20250101000000"]) (some 14) none false false w).2.summary) ∧
    (∀ w : World Unit CleanInfoSummary, (cleanExistingPlaceInfo (visitsUpstream ["20250101000000"]) true 1000 w).2.summary =
      (cleanExistingPlaceInfo (visitsUpstream ["20250101000000"]) false 1000 w).2.summary) ∧
    (syncIncremental (visitsUpstream ["20250101000000"]) [14] 1 none true (World.start (visited "20240101000000" true) 2)).1 = .ok () ∧
      (syncIncremental (visitsUpstream ["20250101000000"]) [14] 1 none true
          (World.start (visited "20240101000000" true) 2)).2.summary.foreseen =
        (syncIncremental (visitsUpstream ["20250101000000"]) [14] 1 none false
          (World.start (visited "20240101000000" true) 2)).2.summary.foreseen := by
  have hup := visits_upstream ["20250101000000"]
  obtain ⟨-, -, hbackfill, hclean, hsync⟩ := dry_runs_foretell (V := Unit) (visitsUpstream ["20250101000000"])
  refine ⟨fun w => ((hbackfill (some 14) none false w).2 hup.faultless).2, fun w => ((hclean 1000 w).2 hup.faultless).2.1, ?_⟩
  obtain ⟨w', hrun, -⟩ := syncIncremental_reads hup [14] (World.start (visited "20240101000000" true) 2) (visited_ok _ _)
  refine (hsync _ _ _ _ _ _ (visited_ok _ _) rfl (fun _ _ _ _ => rfl) (List.pairwise_singleton _ _)
    (congrArg Prod.fst hrun)).resolve_left fun h => ?_
  obtain ⟨e, -, t, fault, hfault, -⟩ := h
  rw [hup.faultless t] at hfault
  cases hfault

end TravelMaker
