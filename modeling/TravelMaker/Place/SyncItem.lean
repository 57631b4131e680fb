import TravelMaker.Place.Rows

/-! `sync_incremental` as a mirror.

With every call and every statement succeeding, a run does to the place of each content
id what `Lib.Mirror` says of a row. `processSyncItem_reads` is the step, and
`syncIncremental_reads` the run. -/
namespace TravelMaker
open Lib (Txn Decimal)
open Lib.Mirror (Row Entry stamp)

variable {V : Type}

/-! ### What a part of a run does to one content id -/

/-- A detail call for the content id was made. -/
def DetailCalled {S : Type} (contentId : Int) (w : World V S) : Prop :=
  ∃ c ∈ w.calls, c.contentId? = some contentId

/-- `source_modified_at` of the content id never went back, from the latest tables on. -/
def NeverBack {S : Type} (contentId : Int) (w : World V S) : Prop :=
  ((w.db :: w.past).map fun d => Lib.Mirror.time (d.row contentId)).IsChain (· ≥ ·)

/-- From `w` to `w'` the row of the content id becomes `r'`; `ascends` says that its time
did not go back on the way, `called` that its details were asked for. -/
structure Follows {S : Type} (contentId : Int) (w w' : World V S) (r' : Option (Row Int String))
    (ascends called : Prop) : Prop where
  row : w'.db.row contentId = r'
  back : NeverBack contentId w' ↔ NeverBack contentId w ∧ ascends
  calls : DetailCalled contentId w' ↔ DetailCalled contentId w ∨ called

def Place.shown (place : Place) : Place := {place with isActive := true}

/-- The tables up to `is_active`. -/
def Db.shown (d : Db V) : Db V := {d with places := d.places.map Place.shown}

/-- Nothing is created or updated, and the tables differ in `is_active` at most. -/
structure Quiet (w w' : World V SyncSummary) : Prop where
  shown : w'.db.shown = w.db.shown
  created : w'.summary.created = w.summary.created
  updated : w'.summary.updated = w.summary.updated

theorem Follows.refl {S : Type} (contentId : Int) (w : World V S) :
    Follows contentId w w (w.db.row contentId) True False :=
  ⟨rfl, (and_iff_left trivial).symm, (or_iff_left id).symm⟩

theorem Follows.trans {S : Type} {contentId : Int} {w₀ w₁ w₂ : World V S} {r₁ r₂ : Option (Row Int String)}
    {a₁ a₂ c₁ c₂ : Prop} (h₁ : Follows contentId w₀ w₁ r₁ a₁ c₁) (h₂ : Follows contentId w₁ w₂ r₂ a₂ c₂) :
    Follows contentId w₀ w₂ r₂ (a₁ ∧ a₂) (c₁ ∨ c₂) :=
  ⟨h₂.row, by rw [h₂.back, h₁.back, and_assoc], by rw [h₂.calls, h₁.calls, or_assoc]⟩

theorem Follows.congr {S : Type} {contentId : Int} {w w' : World V S} {r r' : Option (Row Int String)}
    {a a' c c' : Prop} (h : Follows contentId w w' r a c) (hr : r = r') (ha : a ↔ a') (hc : c ↔ c') :
    Follows contentId w w' r' a' c' :=
  ⟨h.row.trans hr, by rw [h.back, ha], by rw [h.calls, hc]⟩

theorem Quiet.trans {w₀ w₁ w₂ : World V SyncSummary} (h₁ : Quiet w₀ w₁) (h₂ : Quiet w₁ w₂) : Quiet w₀ w₂ :=
  ⟨h₂.shown.trans h₁.shown, h₂.created.trans h₁.created, h₂.updated.trans h₁.updated⟩

/-! ### One item -/

/-- What an item of `contentId` does: to its row, to the tables of the past, to the calls. -/
structure Effect (contentId : Int) (w w' : World V SyncSummary) (r' : Option (Row Int String)) (called : Prop) :
    Prop where
  ok : PlacesOk w'.db w'.seq
  row : w'.db.row contentId = r'
  others : ∀ other, other ≠ contentId → w'.db.row other = w.db.row other
  past : w'.db = w.db ∧ w'.past = w.past ∨ w'.past = w.db :: w.past
  calls : ∀ other, DetailCalled other w' ↔ DetailCalled other w ∨ (other = contentId ∧ called)

theorem neverBack_of_past {S : Type} {w w' : World V S} (other : Int)
    (h : w'.db = w.db ∧ w'.past = w.past ∨ w'.past = w.db :: w.past) :
    NeverBack other w' ↔ NeverBack other w ∧
      Lib.Mirror.time (w.db.row other) ≤ Lib.Mirror.time (w'.db.row other) := by
  unfold NeverBack
  rcases h with ⟨hdb, hpast⟩ | hpast
  · rw [hdb, hpast]
    exact (and_iff_left le_rfl).symm
  · rw [hpast, List.map_cons, List.map_cons, List.isChain_cons_cons, and_comm]

theorem Effect.follows_self {contentId : Int} {w w' : World V SyncSummary} {r' : Option (Row Int String)}
    {called : Prop} (h : Effect contentId w w' r' called) :
    Follows contentId w w' r' (Lib.Mirror.time (w.db.row contentId) ≤ Lib.Mirror.time r') called :=
  ⟨h.row, by rw [neverBack_of_past contentId h.past, h.row], by rw [h.calls, and_iff_right rfl]⟩

theorem Effect.follows_other {contentId other : Int} {w w' : World V SyncSummary} {r' : Option (Row Int String)}
    {called : Prop} (h : Effect contentId w w' r' called) (hne : other ≠ contentId) :
    Follows other w w' (w.db.row other) True False := by
  refine ⟨h.others other hne, ?_, ?_⟩
  · rw [neverBack_of_past other h.past, h.others other hne]
    exact and_congr_right fun _ => iff_of_true le_rfl trivial
  · rw [h.calls]
    exact or_congr_right (iff_of_false (fun hc => hne hc.1) id)

/-- The detail calls of an item, all answered. -/
theorem detailsOf_ok {S : Type} {out : Outside} (hout : Succeeds out) (contentId contentTypeId : Int)
    (w : World V S) : ∃ details new, detailsOf out contentId contentTypeId w =
        (.ok details, {w with calls := new ++ w.calls}) ∧ new ≠ [] ∧
      ∀ c ∈ new, c.contentId? = some contentId := by
  obtain ⟨common, hcommon⟩ := hout.answers w.calls.length (.detailCommon contentId)
  obtain ⟨images, himages⟩ := hout.answers (w.calls.length + 1) (.detailImage contentId)
  simp only [detailsOf, Collect.detailCommon, Collect.detailImage, Collect.detailIntro, bind_run, Collect.call,
    hcommon, pure_run, List.length_cons, himages]
  cases (placeInfoFieldMap contentTypeId).isSome with
  | false =>
    refine ⟨_, [.detailImage contentId, .detailCommon contentId], rfl, List.cons_ne_nil _ _, ?_⟩
    simp [Call.contentId?]
  | true =>
    obtain ⟨intro, hintro⟩ := hout.answers (w.calls.length + 1 + 1) (.detailIntro contentId contentTypeId)
    simp only [if_true, bind_run, Collect.call, List.length_cons, hintro]
    refine ⟨_, [.detailIntro contentId contentTypeId, .detailImage contentId, .detailCommon contentId], rfl,
      List.cons_ne_nil _ _, ?_⟩
    simp [Call.contentId?]

theorem Effect.idle {contentId : Int} {w w' : World V SyncSummary} (hok : PlacesOk w.db w.seq) (h : SameStore w w')
    (hcalls : w'.calls = w.calls) : Effect contentId w w' (w.db.row contentId) False where
  ok := by
    rw [h.db, h.seq]
    exact hok
  row := by rw [h.db]
  others _ _ := by rw [h.db]
  past := .inl ⟨h.db, h.past⟩
  calls other := by
    unfold DetailCalled
    rw [hcalls, and_false, or_false]

theorem Effect.congr {contentId : Int} {w w' : World V SyncSummary} {r r' : Option (Row Int String)} {c c' : Prop}
    (h : Effect contentId w w' r c) (hr : r = r') (hc : c ↔ c') : Effect contentId w w' r' c' :=
  ⟨h.ok, h.row.trans hr, h.others, h.past, fun other => by rw [h.calls, hc]⟩

/-! ### Deactivating a place -/

/-- The tables after `deactivatePlace`. -/
def Db.deactivated (d : Db V) (contentId : Int) : Db V :=
  match d.placeOf? contentId with
  | none => d
  | some place => d.updatePlace place.id Place.deactivate

theorem deactivate_contentId (place : Place) : place.deactivate.contentId = place.contentId := rfl

theorem deactivatePlace_eval (contentId : Int) (d : Db V) (n : Nat) :
    (deactivatePlace contentId).eval d n = .ok ((), d.deactivated contentId, n) := by
  unfold deactivatePlace Db.deactivated
  simp only [Txn.read_bind, Txn.eval]
  cases d.placeOf? contentId <;> rfl

theorem atomic_deactivatePlace (contentId : Int) : (deactivatePlace (V := V) contentId).Atomic := by
  unfold deactivatePlace
  simp only [Txn.read_bind]
  intro d
  dsimp only
  cases d.placeOf? contentId with
  | none => trivial
  | some place => exact fun _ => trivial

theorem placesOk_deactivated {d : Db V} {seq : Nat} (hok : PlacesOk d seq) (contentId : Int) :
    PlacesOk (d.deactivated contentId) seq := by
  unfold Db.deactivated
  split
  · exact hok
  · exact placesOk_updatePlace hok _ fun _ => ⟨rfl, rfl⟩

theorem row_deactivated (d : Db V) (contentId : Int) :
    (d.deactivated contentId).row contentId = Lib.Mirror.off (d.row contentId) := by
  unfold Db.deactivated Db.row
  cases hplace : d.placeOf? contentId with
  | none =>
    dsimp only
    rw [hplace]
    rfl
  | some place =>
    dsimp only
    rw [Db.placeOf?_updatePlace deactivate_contentId, hplace, Option.map_some, if_pos rfl]
    rfl

theorem row_deactivated_ne {d : Db V} {seq : Nat} (hok : PlacesOk d seq) {contentId other : Int}
    (hne : other ≠ contentId) : (d.deactivated contentId).row other = d.row other := by
  unfold Db.deactivated Db.row
  cases hplace : d.placeOf? contentId with
  | none => rfl
  | some place => exact congrArg _ (placeOf?_updatePlace_ne hok deactivate_contentId hplace hne)

theorem shown_deactivated (d : Db V) (contentId : Int) : (d.deactivated contentId).shown = d.shown := by
  unfold Db.deactivated
  split
  · rfl
  · unfold Db.shown Db.updatePlace
    dsimp only
    rw [List.map_map]
    congr 1
    refine List.map_congr_left fun p _ => ?_
    simp only [Function.comp_apply]
    split <;> rfl

/-! ### Storing a place -/

theorem saved_places (d : Db V) (n : Nat) (contentTypeId contentId : Int) (listItem : Item) (firstimage : String)
    (images : List Item) (intro : Option Item) (defaults : PlaceDefaults) (f : Place → Place) :
    (d.saved n contentTypeId contentId listItem firstimage images intro defaults f).places =
      (d.writePlace n contentId defaults f).places := by
  rw [Db.saved, Db.retag_places, Db.saveIntro_places, Db.saveImageRows_places]

theorem PlacesOk.congr {d d' : Db V} {seq : Nat} (h : PlacesOk d seq) (hplaces : d'.places = d.places) :
    PlacesOk d' seq :=
  ⟨hplaces ▸ h.ids, hplaces ▸ h.contentIds, hplaces ▸ h.fresh⟩

theorem row_congr {d d' : Db V} (hplaces : d'.places = d.places) (contentId : Int) :
    d'.row contentId = d.row contentId := by
  unfold Db.row Db.placeOf?
  rw [hplaces]

theorem buildPlaceDefaults_row (common intro : Option Item) {listItem : Item} {contentTypeId : Int}
    (h : listItem.intAt "contenttypeid" = .ok contentTypeId) : ∃ defaults,
      buildPlaceDefaults listItem common intro = .ok defaults ∧ ∀ latitude longitude place,
        (defaults.apply latitude longitude place).row =
          ⟨contentTypeId, stamp (blankToNone (listItem.get "modifiedtime")), true⟩ := by
  unfold buildPlaceDefaults
  rw [h]
  exact ⟨_, rfl, fun _ _ _ => rfl⟩

section
variable {out : Outside} {contentTypeId contentId : Int} {listItem : Item} {w : World V SyncSummary}
  (hout : Succeeds out) (hok : PlacesOk w.db w.seq) (hitem : WellFormed out.column contentTypeId listItem)
  (hid : listItem.intAt "contentid" = .ok contentId)
include hout hok hitem hid

/-- A collected item. -/
theorem processListItem_effect {firstimage : String} (himage : blankToNone (listItem.get "firstimage") = some firstimage) :
    ∃ w', processListItem out contentTypeId listItem false false none w = (.ok (), w') ∧
      Effect contentId w w' (some ⟨contentTypeId, listItem.entry.time, true⟩) True := by
  obtain ⟨⟨common, images, intro⟩, new, hdetails, hnew, hcalls⟩ := detailsOf_ok hout contentId contentTypeId w.fetched
  obtain ⟨defaults, hdefaults, hrow⟩ := buildPlaceDefaults_row common intro hitem.contentType
  obtain ⟨c, hc⟩ := hitem.coordinates
  have hf : ∀ p : Place, (defaults.apply c.1 c.2 p).id = p.id ∧ (defaults.apply c.1 c.2 p).contentId = p.contentId :=
    fun _ => ⟨rfl, rfl⟩
  have heval : (saveListItem out.column contentTypeId contentId listItem firstimage common images intro).eval
      w.db w.seq = _ := saveListItem_eval_ok hdefaults
  rw [hc] at heval
  refine ⟨_, processListItem_saved himage hid rfl hdetails (atomic_ok (hout.faultless _) (atomic_saveListItem ..) heval), ?_⟩
  have hplaces := saved_places w.db w.seq contentTypeId contentId listItem firstimage images intro defaults
    (defaults.apply c.1 c.2)
  constructor
  · exact (placesOk_writePlace hok hf contentId defaults).congr hplaces
  · show Db.row (Db.saved ..) _ = _
    rw [row_congr hplaces, Db.row, placeOf?_writePlace (fun p => (hf p).2), Option.map_some, hrow]
    rfl
  · intro other hne
    show Db.row (Db.saved ..) _ = _
    rw [row_congr hplaces, Db.row, placeOf?_writePlace_ne hok (fun p => (hf p).2) hne]
    rfl
  · exact .inr rfl
  · intro other
    show (∃ c ∈ new ++ w.calls, c.contentId? = some other) ↔ _
    simp only [List.mem_append, or_and_right, exists_or, and_true]
    rw [or_comm]
    refine or_congr_right ⟨?_, ?_⟩
    · intro h
      obtain ⟨c', hc', hother⟩ := h
      rw [hcalls c' hc'] at hother
      exact (Option.some.inj hother).symm
    · intro heq
      subst heq
      obtain ⟨c', hc'⟩ := List.exists_mem_of_ne_nil new hnew
      exact ⟨c', hc', hcalls c' hc'⟩

omit hitem hid hout in
/-- An item that is neither collected nor takes a place down. -/
theorem idle_effect {k : Option (WithBot String)} {w' : World V SyncSummary} (hsame : SameStore w w')
    (hcalls : w'.calls = w.calls) (hcreated : w'.summary.created = w.summary.created)
    (hupdated : w'.summary.updated = w.summary.updated) (hnot : listItem.entry.collected k = false)
    (hhidden : (listItem.entry.hidden && k.isSome) = false) :
    Effect contentId w w' (Lib.Mirror.step contentTypeId k (w.db.row contentId) listItem.entry)
        (listItem.entry.collected k = true) ∧
      (listItem.entry.collected k = false → Quiet w w') := by
  constructor
  · refine (Effect.idle hok hsame hcalls).congr ?_ ?_
    · rw [Lib.Mirror.step_of_not hnot, if_neg (by simp [hhidden])]
    · exact iff_of_false id (by simp [hnot])
  · exact fun _ => ⟨by rw [hsame.db], hcreated, hupdated⟩

omit hout hok hitem in
/-- A shown item is handed on unless its place is stored and no older. -/
theorem processSyncItem_shown (existing : Existing) (hflag : blankToNone (listItem.get "showflag") ≠ some "0") :
    processSyncItem out contentTypeId existing false listItem w =
      if (existing.known contentId).all (fun t => decide (t < listItem.entry.time)) = true then
        processListItem out contentTypeId listItem false false none w
      else (.ok (), w.count fun s => {s with skippedUnchanged := s.skippedUnchanged + 1}) := by
  unfold Existing.known
  simp only [processSyncItem, bind_run, Collect.ofExcept, hid, if_neg hflag]
  cases existing.lookup contentId with
  | none => rfl
  | some stored =>
    show (if changed _ stored = true then _ else _ : Collect V SyncSummary Unit) w = _
    rw [changed_eq, Option.map_some, Option.all_some]
    show (if decide (stamp stored < listItem.entry.time) = true then _ else _ : Collect V SyncSummary Unit) w = _
    split <;> rfl

/-- **One item, read against a snapshot.** -/
theorem processSyncItem_effect (existing : Existing) :
    ∃ w', processSyncItem out contentTypeId existing false listItem w = (.ok (), w') ∧
      Effect contentId w w'
        (Lib.Mirror.step contentTypeId (existing.known contentId) (w.db.row contentId) listItem.entry)
        (listItem.entry.collected (existing.known contentId) = true) ∧
      (listItem.entry.collected (existing.known contentId) = false → Quiet w w') := by
  by_cases hflag : blankToNone (listItem.get "showflag") = some "0"
  · have hhidden : listItem.entry.hidden = true := decide_eq_true hflag
    have hnot : listItem.entry.collected (existing.known contentId) = false := by
      rw [Lib.Mirror.Entry.collected, Lib.Mirror.Entry.storable, hhidden]
      rfl
    simp only [processSyncItem, bind_run, Collect.ofExcept, hid, if_pos hflag]
    cases hlookup : existing.lookup contentId with
    | none =>
      refine ⟨w, rfl, idle_effect hok ⟨rfl, rfl, rfl⟩ rfl rfl rfl hnot ?_⟩
      rw [Existing.known, hlookup]
      exact Bool.and_false _
    | some stored =>
      have hknown : (existing.known contentId).isSome = true := by rw [Existing.known, hlookup]; rfl
      simp only [Option.isSome_some, if_true, Bool.not_false, bind_run,
        atomic_ok (hout.faultless _) (atomic_deactivatePlace contentId) (deactivatePlace_eval contentId w.db w.seq)]
      refine ⟨_, rfl, ⟨placesOk_deactivated hok contentId, ?_, fun other hne => row_deactivated_ne hok hne, .inr rfl,
        fun other => ?_⟩, fun _ => ⟨shown_deactivated w.db contentId, rfl, rfl⟩⟩
      · rw [Lib.Mirror.step_of_not hnot, hhidden, hknown]
        exact row_deactivated w.db contentId
      · rw [hnot]
        exact (or_iff_left fun h => Bool.false_ne_true h.2).symm
  · have hshown : listItem.entry.hidden = false := decide_eq_false hflag
    have hstay : (listItem.entry.hidden && (existing.known contentId).isSome) = false := by rw [hshown, Bool.false_and]
    have hcollected : listItem.entry.collected (existing.known contentId) =
        (listItem.entry.complete && (existing.known contentId).all fun t => decide (t < listItem.entry.time)) := by
      rw [Lib.Mirror.Entry.collected, Lib.Mirror.Entry.storable, hshown]
      rfl
    rw [processSyncItem_shown hid existing hflag]
    cases hnewer : (existing.known contentId).all fun t => decide (t < listItem.entry.time) with
    | false =>
      rw [hnewer, Bool.and_false] at hcollected
      exact ⟨_, rfl, idle_effect hok ⟨rfl, rfl, rfl⟩ rfl rfl rfl hcollected hstay⟩
    | true =>
      rw [hnewer, Bool.and_true] at hcollected
      rw [if_pos rfl]
      cases himage : blankToNone (listItem.get "firstimage") with
      | none =>
        have hincomplete : listItem.entry.complete = false := by rw [Item.entry, himage]; rfl
        rw [hincomplete] at hcollected
        exact ⟨_, processListItem_noImage himage, idle_effect hok ⟨rfl, rfl, rfl⟩ rfl rfl rfl hcollected hstay⟩
      | some firstimage =>
        have hcomplete : listItem.entry.complete = true := by rw [Item.entry, himage]; rfl
        rw [hcomplete] at hcollected
        obtain ⟨w', hrun, heffect⟩ := processListItem_effect hout hok hitem hid himage
        refine ⟨w', hrun, heffect.congr (Lib.Mirror.step_collected hcollected _).symm
          (iff_of_true trivial hcollected), fun hnot => ?_⟩
        rw [hcollected] at hnot
        cases hnot

end
end TravelMaker
