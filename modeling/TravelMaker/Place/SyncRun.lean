import TravelMaker.Place.SyncItem

/-! A run of `sync_incremental` as a run of the mirror: items, pages, types. -/
namespace TravelMaker
open Lib (Txn Decimal)
open Lib.Mirror (Row Entry)

variable {V : Type}

/-! ### Items -/

/-- From `w` to `w'` the items are read against a snapshot. -/
structure Reads (contentTypeId : Int) (existing : Existing) (items : List Item) (w w' : World V SyncSummary) :
    Prop where
  ok : PlacesOk w'.db w'.seq
  follows : ∀ contentId, Follows contentId w w'
    (Lib.Mirror.follow contentTypeId (existing.known contentId) (entriesOf contentId items) (w.db.row contentId))
    (Lib.Mirror.Ascends contentTypeId (existing.known contentId) (w.db.row contentId) (entriesOf contentId items))
    (∃ e ∈ entriesOf contentId items, e.collected (existing.known contentId) = true)
  quiet : (∀ contentId, ∀ e ∈ entriesOf contentId items, e.collected (existing.known contentId) = false) → Quiet w w'

section
variable {contentTypeId : Int} {existing : Existing} {items items' : List Item} {w w₁ w₂ : World V SyncSummary}

theorem entriesOf_append (contentId : Int) (items items' : List Item) :
    entriesOf contentId (items ++ items') = entriesOf contentId items ++ entriesOf contentId items' := by
  rw [entriesOf, List.filter_append, List.map_append]
  rfl

theorem entriesOf_eq_nil {contentId : Int} (h : ∀ item ∈ items, item.contentId? ≠ some contentId) :
    entriesOf contentId items = [] := by
  rw [entriesOf, List.filter_eq_nil_iff.mpr fun item hitem => by simpa using h item hitem]
  rfl

theorem entriesOf_singleton {contentId : Int} {item : Item} (h : item.contentId? = some contentId) :
    entriesOf contentId [item] = [item.entry] := by
  rw [entriesOf, List.filter_cons_of_pos (by simp [h])]
  rfl

theorem Reads.trans (h₁ : Reads contentTypeId existing items w w₁) (h₂ : Reads contentTypeId existing items' w₁ w₂) :
    Reads contentTypeId existing (items ++ items') w w₂ := by
  refine ⟨h₂.ok, fun contentId => ?_, fun hnone => ?_⟩
  · have hrow := (h₁.follows contentId).row
    have hboth := (h₁.follows contentId).trans (h₂.follows contentId)
    rw [hrow] at hboth
    rw [entriesOf_append]
    apply hboth.congr Lib.Mirror.follow_append.symm Lib.Mirror.ascends_append.symm
    simp only [List.mem_append, or_and_right, exists_or]
  · simp only [entriesOf_append, List.forall_mem_append] at hnone
    exact (h₁.quiet fun contentId => (hnone contentId).1).trans (h₂.quiet fun contentId => (hnone contentId).2)

/-- A call for a page. -/
theorem Reads.call (hok : PlacesOk w.db w.seq) {c : Call} (hc : c.contentId? = none) :
    Reads contentTypeId existing [] w {w with calls := c :: w.calls} := by
  refine ⟨hok, fun contentId => ⟨rfl, (and_iff_left trivial).symm, ?_⟩, fun _ => ⟨rfl, rfl, rfl⟩⟩
  unfold DetailCalled
  rw [List.exists_mem_cons_iff, hc]
  simp [entriesOf]

theorem Reads.nil (hok : PlacesOk w.db w.seq) : Reads contentTypeId existing [] w w := by
  refine ⟨hok, fun contentId => ?_, fun _ => ⟨rfl, rfl, rfl⟩⟩
  refine (Follows.refl contentId w).congr rfl ?_ ?_
  · exact iff_of_true trivial trivial
  · exact iff_of_false id fun ⟨_, he, _⟩ => nomatch he

variable {out : Outside}

theorem processSyncItem_reads (hout : Succeeds out) {listItem : Item}
    (hitem : WellFormed out.column contentTypeId listItem) (hok : PlacesOk w.db w.seq) :
    ∃ w', processSyncItem out contentTypeId existing false listItem w = (.ok (), w') ∧
      Reads contentTypeId existing [listItem] w w' := by
  obtain ⟨contentId, hid⟩ := hitem.contentId
  obtain ⟨w', hrun, heffect, hquiet⟩ := processSyncItem_effect hout hok hitem hid existing
  have hitemId : listItem.contentId? = some contentId := by rw [Item.contentId?, hid]; rfl
  have hself := entriesOf_singleton hitemId
  have hother : ∀ other, other ≠ contentId → entriesOf other [listItem] = [] := by
    intro other hne
    apply entriesOf_eq_nil
    intro item hmem
    rw [List.mem_singleton.mp hmem, hitemId]
    exact fun heq => hne (Option.some.inj heq).symm
  refine ⟨w', hrun, heffect.ok, fun other => ?_, fun hnone => hquiet ?_⟩
  · by_cases hne : other = contentId
    · rw [hne, hself]
      exact heffect.follows_self.congr rfl (and_iff_left trivial).symm (by simp)
    · rw [hother other hne]
      apply (heffect.follows_other hne).congr rfl (iff_of_true trivial trivial)
      exact iff_of_false id fun ⟨_, he, _⟩ => nomatch he
  · apply hnone contentId listItem.entry
    rw [hself]
    exact List.mem_singleton_self _

variable (existing) in
theorem forEach_reads (hout : Succeeds out) (hitems : ∀ item ∈ items, WellFormed out.column contentTypeId item)
    (hok : PlacesOk w.db w.seq) :
    ∃ w', Collect.forEach (processSyncItem out contentTypeId existing false) items w = (.ok (), w') ∧
      Reads contentTypeId existing items w w' := by
  induction items generalizing w with
  | nil => exact ⟨w, rfl, Reads.nil hok⟩
  | cons item rest ih =>
    obtain ⟨w₁, hrun₁, h₁⟩ := processSyncItem_reads hout (hitems item List.mem_cons_self) hok
    obtain ⟨w₂, hrun₂, h₂⟩ := ih (fun i hi => hitems i (List.mem_cons_of_mem _ hi)) h₁.ok
    refine ⟨w₂, ?_, h₁.trans h₂⟩
    simp only [Collect.forEach, bind_run, hrun₁, hrun₂]

end

/-! ### Pages -/

/-- Every call and every statement succeeds; `listing` is what there is of each type,
well formed, in pages of `numOfRows`. -/
structure Upstream (out : Outside) (numOfRows : Nat) (listing : Int → List Item) : Prop extends Succeeds out where
  positive : 0 < numOfRows
  pages : ∀ t contentTypeId pageNo, out.get t (.areaBasedSyncList contentTypeId numOfRows pageNo) =
    .ok (((listing contentTypeId).drop ((pageNo - 1) * numOfRows)).take numOfRows)
  wellFormed : ∀ contentTypeId, ∀ item ∈ listing contentTypeId, WellFormed out.column contentTypeId item

section
variable {out : Outside} {numOfRows : Nat} {listing : Int → List Item} (hup : Upstream out numOfRows listing)
include hup

theorem safeAreaBasedSyncList_run (contentTypeId : Int) (page : Nat) (w : World V SyncSummary) :
    safeAreaBasedSyncList out contentTypeId numOfRows page w =
      (.ok (((listing contentTypeId).drop ((page - 1) * numOfRows)).take numOfRows),
        {w with calls := .areaBasedSyncList contentTypeId numOfRows page :: w.calls}) := by
  simp only [safeAreaBasedSyncList, safeList, bind_run, Collect.attempt, Collect.areaBasedSyncList, Collect.call,
    hup.pages]
  rfl

/-- The pages from `page` on are read, if the fuel covers them. -/
theorem forPages_reads (contentTypeId : Int) (existing : Existing) {fuel : Nat} (page : Nat)
    (w : World V SyncSummary) (hok : PlacesOk w.db w.seq) (hpage : 0 < page)
    (hfuel : ((listing contentTypeId).drop ((page - 1) * numOfRows)).length ≤ fuel * numOfRows) :
    ∃ w', forPages numOfRows none (fun page => safeAreaBasedSyncList out contentTypeId numOfRows page)
        (processSyncItem out contentTypeId existing false) fuel page w = (.ok (), w') ∧
      Reads contentTypeId existing ((listing contentTypeId).drop ((page - 1) * numOfRows)) w w' := by
  induction fuel generalizing page w with
  | zero =>
    rw [Nat.zero_mul, Nat.le_zero] at hfuel
    rw [List.eq_nil_of_length_eq_zero hfuel]
    exact ⟨w, rfl, Reads.nil hok⟩
  | succ fuel ih =>
    have hnext : (listing contentTypeId).drop ((page + 1 - 1) * numOfRows) =
        ((listing contentTypeId).drop ((page - 1) * numOfRows)).drop numOfRows := by
      rw [List.drop_drop, ← Nat.succ_mul]
      congr 2
      omega
    have hfetch := safeAreaBasedSyncList_run (V := V) hup contentTypeId page w
    have hitems : ∀ item ∈ ((listing contentTypeId).drop ((page - 1) * numOfRows)).take numOfRows,
        WellFormed out.column contentTypeId item := fun item hitem =>
      hup.wellFormed contentTypeId item (List.mem_of_mem_drop (List.mem_of_mem_take hitem))
    specialize ih (page + 1)
    rw [hnext] at ih
    generalize (listing contentTypeId).drop ((page - 1) * numOfRows) = rest at hfuel hfetch hitems ih ⊢
    unfold forPages
    simp only [Option.any_none, Bool.false_eq_true, if_false, bind_run, hfetch]
    have hcall : Reads contentTypeId existing [] w
        {w with calls := .areaBasedSyncList contentTypeId numOfRows page :: w.calls} := Reads.call hok rfl
    by_cases hempty : rest.take numOfRows = []
    · have hrest : rest = [] := by
        rcases List.take_eq_nil_iff.mp hempty with h | h
        · exact absurd h hup.positive.ne'
        · exact h
      rw [if_pos hempty, hrest]
      exact ⟨_, rfl, hcall⟩
    · obtain ⟨w₁, hrun, h₁⟩ := forEach_reads existing hup.toSucceeds hitems hcall.ok
      rw [if_neg hempty]
      simp only [bind_run, hrun]
      by_cases hlast : (rest.take numOfRows).length < numOfRows
      · have hall : rest.take numOfRows = rest := by
          apply List.take_of_length_le
          rw [List.length_take] at hlast
          omega
        rw [if_pos hlast]
        exact ⟨w₁, rfl, hall ▸ hcall.trans h₁⟩
      · rw [if_neg hlast]
        obtain ⟨w₂, hrun₂, h₂⟩ := ih w₁ h₁.ok (Nat.succ_pos page) (by
          rw [List.length_drop]
          rw [Nat.succ_mul] at hfuel
          omega)
        refine ⟨w₂, hrun₂, ?_⟩
        have hall := (hcall.trans h₁).trans h₂
        rwa [List.nil_append, List.take_append_drop] at hall

/-- The pages up to the last are enough. -/
theorem length_listing (contentTypeId : Int) : (listing contentTypeId).length ≤ out.lastPage * numOfRows := by
  have hempty := out.finite 0 (.areaBasedSyncList contentTypeId numOfRows (out.lastPage + 1)) _
    (by simp [Call.page?]) (hup.pages 0 contentTypeId (out.lastPage + 1))
  rcases List.take_eq_nil_iff.mp hempty with h | h
  · exact absurd h hup.positive.ne'
  · exact List.drop_eq_nil_iff.mp h

end

/-! ### Types -/

/-- The entries of a content id, type by type. -/
def listings (listing : Int → List Item) (contentId : Int) (contentTypeIds : List Int) :
    List (Int × List (Entry String)) :=
  contentTypeIds.map fun contentTypeId => (contentTypeId, entriesOf contentId (listing contentTypeId))

/-- From `w` to `w'` the listings are read, each against the snapshot of its beginning. -/
structure RunReads (listing : Int → List Item) (contentTypeIds : List Int) (w w' : World V SyncSummary) : Prop where
  ok : PlacesOk w'.db w'.seq
  follows : ∀ contentId, Follows contentId w w'
    (Lib.Mirror.run (listings listing contentId contentTypeIds) (w.db.row contentId))
    (Lib.Mirror.AscendsAll (w.db.row contentId) (listings listing contentId contentTypeIds))
    (Lib.Mirror.Collects (w.db.row contentId) (listings listing contentId contentTypeIds))
  quiet : (∀ contentId, ¬ Lib.Mirror.Collects (w.db.row contentId) (listings listing contentId contentTypeIds)) →
    Quiet w w'

section
variable {out : Outside} {numOfRows : Nat} {listing : Int → List Item} {contentTypeId : Int}
  {contentTypeIds : List Int} {w w₁ w₂ : World V SyncSummary}

theorem RunReads.cons (h₁ : Reads contentTypeId (w.db.existing contentTypeId) (listing contentTypeId) w w₁)
    (hok : PlacesOk w.db w.seq) (h₂ : RunReads listing contentTypeIds w₁ w₂) :
    RunReads listing (contentTypeId :: contentTypeIds) w w₂ := by
  refine ⟨h₂.ok, fun contentId => ?_, fun hnone => ?_⟩
  · have hboth := (h₁.follows contentId).trans (h₂.follows contentId)
    rw [(h₁.follows contentId).row, existing_known hok.contentIds] at hboth
    exact hboth
  · have hfirst : ∀ contentId, ¬ ((∃ e ∈ entriesOf contentId (listing contentTypeId),
        e.collected (Lib.Mirror.known contentTypeId (w.db.row contentId)) = true) ∨
        Lib.Mirror.Collects (Lib.Mirror.follow contentTypeId
          (Lib.Mirror.known contentTypeId (w.db.row contentId)) (entriesOf contentId (listing contentTypeId))
          (w.db.row contentId)) (listings listing contentId contentTypeIds)) := hnone
    refine (h₁.quiet fun contentId e he => ?_).trans (h₂.quiet fun contentId hc => ?_)
    · rw [existing_known hok.contentIds]
      exact Bool.eq_false_iff.mpr fun hc => hfirst contentId (.inl ⟨e, he, hc⟩)
    · rw [(h₁.follows contentId).row, existing_known hok.contentIds] at hc
      exact hfirst contentId (.inr hc)

variable (hup : Upstream out numOfRows listing)
include hup

/-- One type: the snapshot, the pages, the summary. -/
theorem syncType_reads (contentTypeId : Int) (w : World V SyncSummary) (hok : PlacesOk w.db w.seq) :
    ∃ w', (do
        let d ← Collect.query out
        withSummary (forPages numOfRows none (fun page => safeAreaBasedSyncList out contentTypeId numOfRows page)
          (processSyncItem out contentTypeId (d.existing contentTypeId) false) (out.lastPage + 1) 1) :
          Collect V SyncSummary Unit) w = (.ok (), w') ∧
      Reads contentTypeId (w.db.existing contentTypeId) (listing contentTypeId) w w' := by
  have hatomic : (Txn.read : Service V (Db V)).Atomic := fun _ => trivial
  have hquery : Collect.query out w = (.ok w.db, {w with past := w.db :: w.past}) :=
    atomic_ok (hup.faultless _) hatomic rfl
  have hfuel : ((listing contentTypeId).drop ((1 - 1) * numOfRows)).length ≤ (out.lastPage + 1) * numOfRows := by
    have hlength := length_listing hup contentTypeId
    rw [Nat.sub_self, Nat.zero_mul, List.drop_zero, Nat.succ_mul]
    omega
  obtain ⟨w', hrun, hreads⟩ := forPages_reads hup contentTypeId (w.db.existing contentTypeId) 1
    {w with past := w.db :: w.past, summary := {}} hok Nat.one_pos hfuel
  rw [Nat.sub_self, Nat.zero_mul, List.drop_zero] at hreads
  refine ⟨{w' with summary := w.summary.add w'.summary}, ?_, hreads.ok, fun contentId => ?_, fun hnone => ?_⟩
  · simp only [bind_run, hquery, withSummary, hrun]
  · obtain ⟨hrow, hback, hcalls⟩ := hreads.follows contentId
    refine ⟨hrow, ?_, hcalls⟩
    show NeverBack contentId w' ↔ _
    rw [hback]
    refine and_congr_left fun _ => ?_
    show (Lib.Mirror.time (w.db.row contentId) :: _ :: _).IsChain (· ≥ ·) ↔ _
    rw [List.isChain_cons_cons]
    exact and_iff_right le_rfl
  · obtain ⟨hshown, hcreated, hupdated⟩ := hreads.quiet hnone
    refine ⟨hshown, ?_, ?_⟩
    · show w.summary.created + w'.summary.created = _
      rw [hcreated]
      rfl
    · show w.summary.updated + w'.summary.updated = _
      rw [hupdated]
      rfl

/-- **`sync_incremental` is a run of the mirror**, for every content id. -/
theorem syncIncremental_reads (contentTypeIds : List Int) (w : World V SyncSummary) (hok : PlacesOk w.db w.seq) :
    ∃ w', syncIncremental out contentTypeIds numOfRows none false w = (.ok (), w') ∧
      RunReads listing contentTypeIds w w' := by
  induction contentTypeIds generalizing w with
  | nil =>
    refine ⟨w, rfl, hok, fun contentId => ?_, fun _ => ⟨rfl, rfl, rfl⟩⟩
    exact (Follows.refl contentId w).congr rfl (iff_of_true trivial trivial) Iff.rfl
  | cons contentTypeId rest ih =>
    obtain ⟨w₁, hrun₁, h₁⟩ := syncType_reads hup contentTypeId w hok
    obtain ⟨w₂, hrun₂, h₂⟩ := ih w₁ h₁.ok
    refine ⟨w₂, ?_, RunReads.cons h₁ hok h₂⟩
    unfold syncIncremental at hrun₂ ⊢
    simp only [Collect.forEach]
    rw [bind_run, hrun₁]
    exact hrun₂

end
/-- A run begins. -/
def World.start (db : Db V) (seq : Nat) : World V SyncSummary := {db := db, seq := seq, summary := {}}

/-- An upstream with a given listing of at most `most` items a type, and no details. -/
def upstreamOf (listing : Int → List Item) (most : Nat) (hmost : ∀ contentTypeId, (listing contentTypeId).length ≤ most) :
    Outside where
  get _
    | .areaBasedSyncList contentTypeId numOfRows pageNo =>
      .ok (((listing contentTypeId).drop ((pageNo - 1) * numOfRows)).take numOfRows)
    | _ => .ok []
  fault _ := none
  column _ := .ok 0
  lastPage := most
  finite t c items hpage hitems := by
    cases c with
    | areaBasedSyncList contentTypeId numOfRows pageNo =>
      cases hitems
      have hlate : most < pageNo := of_decide_eq_true hpage
      cases numOfRows with
      | zero => rfl
      | succ n =>
        have hskipped : most * 1 ≤ (pageNo - 1) * (n + 1) := Nat.mul_le_mul (by omega) (by omega)
        rw [List.drop_eq_nil_of_le, List.take_nil]
        have hlength := hmost contentTypeId
        omega
    | _ => exact (Except.ok.inj hitems).symm

theorem upstreamOf_upstream {listing : Int → List Item} {most numOfRows : Nat}
    (hmost : ∀ contentTypeId, (listing contentTypeId).length ≤ most) (hpositive : 0 < numOfRows)
    (hids : ∀ contentTypeId, ∀ item ∈ listing contentTypeId,
      (∃ contentId, item.intAt "contentid" = .ok contentId) ∧ item.intAt "contenttypeid" = .ok contentTypeId) :
    Upstream (upstreamOf listing most hmost) numOfRows listing where
  answers t c := by cases c <;> exact ⟨_, rfl⟩
  faultless _ := rfl
  positive := hpositive
  pages _ _ _ := rfl
  wellFormed contentTypeId item hitem := by
    obtain ⟨hid, htype⟩ := hids contentTypeId item hitem
    refine ⟨hid, htype, ?_⟩
    unfold itemCoordinates
    cases toDecimal (item.get "mapy") <;> cases toDecimal (item.get "mapx") <;> exact ⟨_, rfl⟩

/-- A place of culture, as the listings have it. -/
def visitedAt (modifiedtime : String) : Item := [
  ("contentid", .str "1006"),
  ("contenttypeid", .str "14"),
  ("firstimage", .str "a"),
  ("showflag", .str "1"),
  ("modifiedtime", .str modifiedtime)]

/-- A listing of the place at some times. -/
def visits (times : List String) (contentTypeId : Int) : List Item :=
  if contentTypeId = 14 then times.map visitedAt else []

theorem length_visits (times : List String) (contentTypeId : Int) :
    (visits times contentTypeId).length ≤ times.length := by
  unfold visits
  split
  · rw [List.length_map]
  · exact Nat.zero_le _

/-- The upstream of such a listing. -/
def visitsUpstream (times : List String) : Outside := upstreamOf (visits times) times.length (length_visits times)

theorem visits_upstream (times : List String) : Upstream (visitsUpstream times) 1 (visits times) := by
  refine upstreamOf_upstream _ Nat.one_pos fun contentTypeId item hitem => ?_
  unfold visits at hitem
  split at hitem
  · rename_i htype
    subst htype
    obtain ⟨time, -, rfl⟩ := List.mem_map.mp hitem
    exact ⟨⟨1006, rfl⟩, rfl⟩
  · cases hitem

/-- Tables with the place alone. -/
def visited (sourceModifiedAt : String) (isActive : Bool) : Db Unit where
  places := [{
    id := 1
    contentId := 1006
    contentTypeId := 14
    sourceModifiedAt := some sourceModifiedAt
    isActive := isActive }]

theorem visited_ok (sourceModifiedAt : String) (isActive : Bool) : PlacesOk (visited sourceModifiedAt isActive) 2 := by
  refine ⟨List.nodup_singleton _, List.nodup_singleton _, ?_⟩
  intro place hplace
  rw [List.mem_singleton.mp hplace]
  show (1 : Int) < 2
  decide

end TravelMaker
