import Mathlib.Algebra.GroupWithZero.Nat
import TravelMaker.Place.BackfillRun

/-! Interrupted runs of `backfill_details`.

The docstring of the source has it resume where it stopped: a place that has its phone
number is no target any more. But the phone number is written before the `PlaceInfo`, and
`resumable_iff` says that a run that stops between the two is not resumed. -/
namespace TravelMaker
open Lib (Txn Worklist)

variable {V : Type}

/-- Where a run stops. What a process that dies leaves is what it leaves if the write it
does not get to fails. -/
inductive Stop where
  /-- All keys are exhausted after so many answers. -/
  | keysExhausted (answered : Nat)
  /-- A statement of this transaction fails. -/
  | failure (transaction statement : Nat) (e : DbExc)

/-- The client and the database of a run that stops. -/
def stopping (answers : Int → Int → Option Item) (stop : Stop) : Outside where
  get t c :=
    match stop with
    | .keysExhausted answered => if answered ≤ t then .error .allKeysExhaustedError else .ok (listed answers c)
    | .failure .. => .ok (listed answers c)
  fault t :=
    match stop with
    | .keysExhausted _ => none
    | .failure transaction statement e => if t = transaction then some (statement, e) else none
  column _ := .ok 0
  lastPage := 0
  finite t c items hc h := by
    have hlisted : .ok (listed answers c) = (.ok items : Except Exc (List Item)) := by
      cases stop with
      | keysExhausted answered =>
        dsimp only at h
        split at h
        · cases h
        · exact h
      | failure => exact h
    exact (answering answers).finite t c items hc hlisted

section
variable (answers : Int → Int → Option Item)

theorem stopping_get (answered t : Nat) (c : Call) : (stopping answers (.keysExhausted answered)).get t c =
    if answered ≤ t then .error .allKeysExhaustedError else .ok (listed answers c) := rfl

theorem stopping_fault (answered t : Nat) : (stopping answers (.keysExhausted answered)).fault t = none := rfl

theorem stopping_answers (transaction statement : Nat) (e : DbExc) (t : Nat) (c : Call) :
    (stopping answers (.failure transaction statement e)).get t c = .ok (listed answers c) := rfl

end

section
variable (answers : Int → Int → Option Item) (contentTypeId : Option Int) (db : Db V) (seq : Nat) (stop : Stop)

def interruptedRun : Except Exc Unit × World V DetailBackfillSummary :=
  backfillDetails (stopping answers stop) contentTypeId none false false (World.fresh db seq)

/-- The next run, on what the interrupted one left. -/
def resumedRun : Except Exc Unit × World V DetailBackfillSummary :=
  backfillDetails (answering answers) contentTypeId none false false
    (World.fresh (interruptedRun answers contentTypeId db seq stop).2.db
      (interruptedRun answers contentTypeId db seq stop).2.seq)

def uninterruptedRun : Except Exc Unit × World V DetailBackfillSummary :=
  backfillDetails (answering answers) contentTypeId none false false (World.fresh db seq)

/-- The interruption makes no difference in the end. -/
structure Resumable : Prop where
  completes : (resumedRun answers contentTypeId db seq stop).1 = .ok () ∧
    (uninterruptedRun answers contentTypeId db seq).1 = .ok ()
  tel : ∀ id, ((resumedRun answers contentTypeId db seq stop).2.db.place? id).bind (·.tel) =
    ((uninterruptedRun answers contentTypeId db seq).2.db.place? id).bind (·.tel)
  info : ∀ id, (resumedRun answers contentTypeId db seq stop).2.db.placeInfo? id =
    (uninterruptedRun answers contentTypeId db seq).2.db.placeInfo? id

end

/-- How many writes a target takes. -/
def Db.writeCount (d : Db V) (answers : Int → Int → Option Item) (target : BackfillTarget) : Nat :=
  (if (telOf answers target).isSome then 1 else 0) +
    if (infoOf answers target).isSome && (d.placeInfo? target.id).isNone then 1 else 0

/-- The run stops at the `PlaceInfo` of a target whose phone number it has written. -/
def Torn (answers : Int → Int → Option Item) (contentTypeId : Option Int) (d : Db V) : Stop → Prop
  | .keysExhausted _ => False
  | .failure transaction _ _ => ∃ before target rest, d.backfillTargets contentTypeId none = before ++ target :: rest ∧
      transaction = 2 + (before.map (d.writeCount answers)).sum + 1 ∧ (telOf answers target).isSome = true ∧
      (infoOf answers target).isSome = true ∧ d.placeInfo? target.id = none

/-! ### What an interrupted run leaves -/

theorem bind_query_failed {S α : Type} {out : Outside} {w : World V S} (hfault : (out.fault w.transactions).isSome = true)
    (f : Db V → Collect V S α) : ((Collect.query out >>= f) w).2.db = w.db := by
  have hread : (Txn.read : Service V (Db V)).Atomic := fun _ => trivial
  obtain ⟨hresult, hdb⟩ := atomic_run out hread w
  obtain ⟨⟨n, e⟩, hfault⟩ := Option.isSome_iff_exists.mp hfault
  rw [transaction_eval, hfault] at hresult hdb
  have hrun : Collect.query out w = (.error e.1, (Collect.query out w).2) := Prod.ext hresult rfl
  rw [bind_run, hrun]
  exact hdb

section
variable {out : Outside} {answers : Int → Int → Option Item} {contentTypeId : Option Int} {limit : Option Nat}
  {db : Db V} {seq : Nat}

/-- A run that does not get to its loop. -/
theorem backfillDetails_unread (h : (out.fault 0).isSome = true ∨ (out.fault 1).isSome = true) :
    (backfillDetails out contentTypeId limit false false (World.fresh db seq)).2.db = db := by
  have hread : (Txn.read : Service V (Db V)).Atomic := fun _ => trivial
  cases hfault : out.fault 0 with
  | some fault => exact bind_query_failed (w := World.fresh db seq) (hfault ▸ rfl) _
  | none =>
    rw [hfault, or_iff_right (fun h => nomatch h)] at h
    unfold backfillDetails
    rw [bind_run, Collect.query, atomic_ok (w := World.fresh db seq) hfault hread rfl]
    let w : World V DetailBackfillSummary := {
      db := db
      seq := seq
      past := [db]
      summary := {target := (db.backfillTargets contentTypeId limit).length} }
    exact bind_query_failed (w := w) h _

/-! ### Exhausted keys -/

/-- A part of a run that does not call the client. -/
def KeepsCalls (x : Collect V DetailBackfillSummary Unit) : Prop := ∀ w, (x w).2.calls = w.calls

theorem backfillTarget_calls (target : BackfillTarget) (hasInfo : List Int) (intro : Option Item) :
    KeepsCalls (V := V) (backfillTarget out false false hasInfo target intro) :=
  (blind_of_trans (R := fun w w' => w'.calls = w.calls) (fun _ => rfl) (fun _ _ _ h h' => h'.trans h) fun _ _ => rfl).backfillTarget
    (fun _ _ => rfl) fun _ _ _ _ => rfl

/-- A loop whose keys are exhausted does the targets before. -/
theorem backfillLoop_keysExhausted {answered : Nat} {columns : List BackfillTarget} (hasInfo : List Int)
    (hget : ∀ t c, out.get t c = if answered ≤ t then .error .allKeysExhaustedError else .ok (listed answers c))
    (hfault : ∀ t, out.fault t = none) {targets : List BackfillTarget} (htargets : TargetsOk columns targets)
    (w : World V DetailBackfillSummary) (hcolumns : w.db.columns = columns) :
    (backfillLoop out false false hasInfo targets w).2.db.details =
        Worklist.apply (targetWrites answers hasInfo (targets.take (answered - w.calls.length))) w.db.details ∧
      (backfillLoop out false false hasInfo targets w).2.db.columns = columns := by
  induction targets generalizing w with
  | nil =>
    rw [List.take_nil]
    exact ⟨rfl, hcolumns⟩
  | cons target rest ih =>
    have hrest : TargetsOk columns rest := ⟨fun t ht => htargets.rows t (List.mem_cons_of_mem _ ht),
      fun t ht => htargets.keys t (List.mem_cons_of_mem _ ht)⟩
    by_cases hcalls : answered ≤ w.calls.length
    · have hstopped : out.get w.calls.length (.detailIntro target.contentId target.contentTypeId) =
          .error .allKeysExhaustedError := by
        rw [hget, if_pos hcalls]
      rw [Nat.sub_eq_zero_of_le hcalls, List.take_zero]
      simp only [backfillLoop, bind_run, Collect.attempt, Collect.detailIntro, Collect.call, hstopped]
      exact ⟨rfl, hcolumns⟩
    · have hanswered : out.get w.calls.length (.detailIntro target.contentId target.contentTypeId) =
          .ok (listed answers (.detailIntro target.contentId target.contentTypeId)) := by
        rw [hget, if_neg hcalls]
      have hmem := List.mem_cons_self (a := target) (l := rest)
      let w₁ : World V DetailBackfillSummary :=
        {w with calls := .detailIntro target.contentId target.contentTypeId :: w.calls}
      obtain ⟨hdetails, hkept, hok⟩ := writes_backfillTarget out answers (htargets.rows _ hmem)
        (htargets.keys _ hmem) hasInfo w₁ _ hcolumns ⟨fun _ _ => hfault _, .inl le_rfl⟩
      rw [if_pos le_rfl] at hok
      rw [List.take_length] at hdetails
      have hrun : backfillTarget out false false hasInfo target (introOf answers target) w₁ =
          (.ok (), (backfillTarget out false false hasInfo target (introOf answers target) w₁).2) := Prod.ext hok.1 rfl
      have hcount : answered - w.calls.length = (answered - w₁.calls.length) + 1 := by
        show _ = answered - (w.calls.length + 1) + 1
        omega
      have htake : targetWrites answers hasInfo ((target :: rest).take (answered - w.calls.length)) =
          (targetSteps answers target (hasInfo.contains target.id)).map (fun f => (target.id, f)) ++
            targetWrites answers hasInfo (rest.take (answered - w₁.calls.length)) := by
        rw [hcount, List.take_succ_cons]
        rfl
      obtain ⟨hdetails', hkept'⟩ := ih hrest _ hkept
      rw [backfillTarget_calls target hasInfo _ w₁, hdetails, ← Worklist.apply_append, ← htake] at hdetails'
      have hloop : backfillLoop out false false hasInfo (target :: rest) w = backfillLoop out false false hasInfo rest
          (backfillTarget out false false hasInfo target (introOf answers target) w₁).2 := by
        rw [backfillLoop_cons hanswered, bind_run]
        show (_ >>= _ : Collect V DetailBackfillSummary Unit) w₁ = _
        rw [bind_run, hrun]
      rw [hloop]
      exact ⟨hdetails', hkept'⟩

end

section
variable {answers : Int → Int → Option Item} {contentTypeId : Option Int} {db : Db V} {seq : Nat}
  (hids : (db.columns.map (·.id)).Nodup)
include hids

variable (answers contentTypeId seq) in
theorem interruptedRun_keysExhausted (answered : Nat) :
    (interruptedRun answers contentTypeId db seq (.keysExhausted answered)).2.db.details =
        Worklist.apply ((backfillWork answers contentTypeId db.columns).writes db.details
          (((backfillWork answers contentTypeId db.columns).targets (keysOf db.columns) db.details).take answered))
          db.details ∧
      (interruptedRun answers contentTypeId db seq (.keysExhausted answered)).2.db.columns = db.columns := by
  have htargets := targetsOk hids contentTypeId none
  obtain ⟨w, hdb, hcalls, -, hrun⟩ := backfillDetails_loop contentTypeId none db seq false
    (stopping_fault answers answered 0) (stopping_fault answers answered 1)
  obtain ⟨hdetails, hcolumns⟩ := backfillLoop_keysExhausted (db.hasInfo (db.backfillTargets contentTypeId none))
    (stopping_get answers answered) (stopping_fault answers answered) htargets w (congrArg Db.columns hdb)
  have htaken : TargetsOk db.columns ((db.backfillTargets contentTypeId none).take answered) :=
    ⟨fun t ht => htargets.rows t (List.mem_of_mem_take ht), fun t ht => htargets.keys t (List.mem_of_mem_take ht)⟩
  rw [hcalls, List.length_nil, Nat.sub_zero, hdb, targetWrites_eq htaken fun _ h => List.mem_of_mem_take h,
    List.map_take, backfillTargets_ids hids answers] at hdetails
  unfold interruptedRun
  rw [hrun]
  exact ⟨hdetails, hcolumns⟩

variable (answers contentTypeId seq) in
theorem interruptedRun_failure (transaction statement : Nat) (e : DbExc) :
    (interruptedRun answers contentTypeId db seq (.failure transaction statement e)).2.db.details =
        Worklist.apply (((backfillWork answers contentTypeId db.columns).writes db.details
          ((backfillWork answers contentTypeId db.columns).targets (keysOf db.columns) db.details)).take
            (transaction - 2)) db.details ∧
      (interruptedRun answers contentTypeId db seq (.failure transaction statement e)).2.db.columns = db.columns := by
  have hfault : ∀ t, (stopping answers (.failure transaction statement e)).fault t =
      if t = transaction then some (statement, e) else none := fun _ => rfl
  by_cases hlate : 2 ≤ transaction
  · obtain ⟨hdetails, hcolumns, -⟩ := backfillDetails_writes contentTypeId none seq hids
      (stopping_answers answers transaction statement e)
      (by rw [hfault, if_neg (by omega)]) (by rw [hfault, if_neg (by omega)]) (m := transaction - 2) rfl (by
        constructor
        · intro i hi
          rw [hfault, if_neg (by omega)]
        · rw [hfault, if_pos (by omega)]
          exact .inr rfl)
    rw [backfillTargets_ids hids answers] at hdetails
    exact ⟨hdetails, hcolumns⟩
  · have hunread : (interruptedRun answers contentTypeId db seq (.failure transaction statement e)).2.db = db := by
      apply backfillDetails_unread
      rw [hfault, hfault]
      rcases (show transaction = 0 ∨ transaction = 1 by omega) with rfl | rfl
      · exact .inl rfl
      · exact .inr rfl
    rw [hunread, show transaction - 2 = 0 by omega, List.take_zero]
    exact ⟨rfl, rfl⟩

theorem resumable_iff_run {stop : Stop}
    (hkept : (interruptedRun answers contentTypeId db seq stop).2.db.columns = db.columns) :
    Resumable answers contentTypeId db seq stop ↔
      (backfillWork answers contentTypeId db.columns).run (keysOf db.columns)
          (interruptedRun answers contentTypeId db seq stop).2.db.details =
        (backfillWork answers contentTypeId db.columns).run (keysOf db.columns) db.details := by
  have hids' : ((interruptedRun answers contentTypeId db seq stop).2.db.columns.map (·.id)).Nodup := hkept ▸ hids
  have hresumed : (resumedRun answers contentTypeId db seq stop).2.db.details = _ := backfillDetails_run _ _ hids'
  rw [hkept] at hresumed
  have huninterrupted : (uninterruptedRun answers contentTypeId db seq).2.db.details = _ := backfillDetails_run _ _ hids
  rw [← hresumed, ← huninterrupted]
  constructor
  · intro h
    funext id
    exact congrArg₂ Details.mk (h.tel id) (h.info id)
  · intro h
    exact {
      completes := ⟨(backfillDetails_answering hids').1, (backfillDetails_answering hids).1⟩
      tel := fun id => congrArg Details.tel (congrFun h id)
      info := fun id => congrArg Details.info (congrFun h id) }

end

/-! ### Between the two writes of a target -/

section
variable {answers : Int → Int → Option Item} {contentTypeId : Option Int} {columns : List BackfillTarget}
  {target : BackfillTarget} {x : Details}

/-- Some writes of a target, and not all: its phone number, and not its `PlaceInfo`. -/
theorem between_steps {j : Nat} (hj : 0 < j) (hlt : j < (targetSteps answers target x.info.isSome).length) :
    j = 1 ∧ (telOf answers target).isSome = true ∧ (infoOf answers target).isSome = true ∧ x.info = none := by
  have htels : (telOf answers target).toList.length ≤ 1 := Option.length_toList_le
  have hfields : (infoOf answers target).toList.length ≤ 1 := Option.length_toList_le
  unfold targetSteps at hlt
  cases hinfo : x.info with
  | some info =>
    rw [hinfo, Option.isSome_some, if_pos rfl, List.append_nil, List.length_map] at hlt
    omega
  | none =>
    rw [hinfo, Option.isSome_none, if_neg Bool.false_ne_true, List.length_append, List.length_map, List.length_map] at hlt
    refine ⟨by omega, ?_, ?_, rfl⟩
    · cases htel : telOf answers target with
      | some tel => rfl
      | none =>
        rw [htel, Option.toList_none, List.length_nil] at hlt
        omega
    · cases hnone : infoOf answers target with
      | some defaults => rfl
      | none =>
        rw [hnone, Option.toList_none, List.length_nil] at hlt
        omega

/-- What is torn stays torn: with a phone number the place is no target any more. -/
theorem torn_finish (hrow : rowOf columns target.id = some target)
    (hpending : (backfillWork answers contentTypeId columns).pending target.id x = true)
    (htel : (telOf answers target).isSome = true) (hinfo : (infoOf answers target).isSome = true) (hnone : x.info = none) :
    (backfillWork answers contentTypeId columns).finish target.id
        (Worklist.after (((backfillWork answers contentTypeId columns).steps target.id x).take 1) x) ≠
      (backfillWork answers contentTypeId columns).finish target.id x := by
  obtain ⟨tel, htel⟩ := Option.isSome_iff_exists.mp htel
  obtain ⟨defaults, hinfo⟩ := Option.isSome_iff_exists.mp hinfo
  have hfirst : Worklist.after (((backfillWork answers contentTypeId columns).steps target.id x).take 1) x =
      writeTel tel x := by
    rw [steps_of_row _ _ hrow, targetSteps, htel]
    rfl
  have hall : (backfillWork answers contentTypeId columns).finish target.id x =
      Worklist.after (targetSteps answers target x.info.isSome) x := by
    rw [Worklist.finish, if_pos hpending, steps_of_row _ _ hrow]
  rw [hfirst, finish_of_not_pending (not_pending rfl (telOf_ne_empty htel)), hall, after_targetSteps, hinfo]
  intro h
  have hsame := congrArg Details.info h
  rw [show (writeTel tel x).info = x.info from rfl, hnone] at hsame
  cases hsame

theorem length_targetSteps (d : Db V) : (targetSteps answers target (d.details target.id).info.isSome).length =
    d.writeCount answers target := by
  unfold targetSteps Db.writeCount
  rw [show (d.details target.id).info = d.placeInfo? target.id from rfl]
  cases telOf answers target <;> cases d.placeInfo? target.id <;> cases infoOf answers target <;> rfl

theorem length_writes {d : Db V} {targets : List BackfillTarget} (htargets : TargetsOk d.columns targets) :
    ((backfillWork answers contentTypeId d.columns).writes d.details (targets.map (·.id))).length =
      (targets.map (d.writeCount answers)).sum := by
  unfold Worklist.writes
  rw [List.flatMap_map, List.length_flatMap]
  refine congrArg List.sum (List.map_congr_left fun target htarget => ?_)
  rw [List.length_map, steps_of_row _ _ (htargets.rows target htarget), length_targetSteps]

end

/-! ### Which stops can be resumed -/

section
variable {answers : Int → Int → Option Item} {contentTypeId : Option Int} {db : Db V} {seq : Nat}
  (hids : (db.columns.map (·.id)).Nodup)
include hids

theorem resumable_failure (transaction statement : Nat) (e : DbExc) :
    Resumable answers contentTypeId db seq (.failure transaction statement e) ↔
      ∀ before target rest j, db.backfillTargets contentTypeId none = before ++ target :: rest →
        transaction - 2 = (before.map (db.writeCount answers)).sum + j → 0 < j →
        ¬ j < (targetSteps answers target (db.details target.id).info.isSome).length := by
  obtain ⟨hdetails, hkept⟩ := interruptedRun_failure answers contentTypeId seq hids transaction statement e
  have htargets := targetsOk hids contentTypeId none
  have hlist := backfillTargets_ids hids answers contentTypeId
  rw [resumable_iff_run hids hkept, hdetails, Worklist.resume_iff _ (nodup_keysOf hids) backfill_finish]
  constructor
  · intro h before target rest j hsplit hcut hj hlt
    have hmem : target ∈ db.backfillTargets contentTypeId none := hsplit ▸ List.mem_append_right _ List.mem_cons_self
    have hrow := htargets.rows target hmem
    have hbefore : TargetsOk db.columns before :=
      ⟨fun t ht => htargets.rows t (hsplit ▸ List.mem_append_left _ ht),
        fun t ht => htargets.keys t (hsplit ▸ List.mem_append_left _ ht)⟩
    rw [hsplit, List.map_append, List.map_cons] at hlist
    obtain ⟨rfl, htel, hinfo, hnone⟩ := between_steps hj hlt
    refine torn_finish hrow ?_ htel hinfo hnone (h _ _ _ 1 hlist.symm ?_ hj ?_)
    · exact ((backfillWork answers contentTypeId db.columns).mem_targets.mp
        (hlist ▸ List.mem_append_right _ List.mem_cons_self)).2
    · rw [length_writes hbefore]
      exact hcut
    · rwa [steps_of_row _ _ hrow]
  · intro h before id rest j hsplit hcut hj hlt
    rw [← hlist] at hsplit
    obtain ⟨before', tail, hall, rfl, htail⟩ := List.map_eq_append_iff.mp hsplit
    obtain ⟨target, rest', rfl, rfl, rfl⟩ := List.map_eq_cons_iff.mp htail
    have hmem : target ∈ db.backfillTargets contentTypeId none := hall ▸ List.mem_append_right _ List.mem_cons_self
    have hbefore : TargetsOk db.columns before' :=
      ⟨fun t ht => htargets.rows t (hall ▸ List.mem_append_left _ ht),
        fun t ht => htargets.keys t (hall ▸ List.mem_append_left _ ht)⟩
    rw [length_writes hbefore] at hcut
    rw [steps_of_row _ _ (htargets.rows target hmem)] at hlt
    exact absurd hlt (h before' target rest' j hall hcut hj)

theorem resumable_keysExhausted (answered : Nat) : Resumable answers contentTypeId db seq (.keysExhausted answered) := by
  obtain ⟨hdetails, hkept⟩ := interruptedRun_keysExhausted answers contentTypeId seq hids answered
  rw [resumable_iff_run hids hkept, hdetails]
  exact Worklist.resume_between _ (nodup_keysOf hids) backfill_finish (List.take_append_drop answered _).symm

/-- **A stopped run is resumed by the next one unless it is torn.** -/
theorem resumable_iff (stop : Stop) :
    Resumable answers contentTypeId db seq stop ↔ ¬ Torn answers contentTypeId db stop := by
  cases stop with
  | keysExhausted answered => exact iff_of_true (resumable_keysExhausted hids answered) not_false
  | failure transaction statement e =>
    rw [resumable_failure hids]
    constructor
    · intro h h
      obtain ⟨before, target, rest, hsplit, rfl, htel, hinfo, hnone⟩ := h
      apply h before target rest 1 hsplit (by omega) Nat.one_pos
      rw [length_targetSteps, Db.writeCount, htel, hinfo, hnone]
      exact Nat.lt_succ_self 1
    · intro h before target rest j hsplit hcut hj hlt
      obtain ⟨rfl, htel, hinfo, hnone⟩ := between_steps hj hlt
      exact h ⟨before, target, rest, hsplit, by omega, htel, hinfo, hnone⟩

end

/-! ### A torn run -/

/-- A place of culture without a phone number. -/
def unphoned : Db Unit where
  places := [{id := 1, contentId := 1006, contentTypeId := 14}]

/-- Its phone number and its hours. -/
def cultureIntro (_ _ : Int) : Option Item :=
  some [("infocenterculture", .str "02-123-4567"), ("usetimeculture", .str "09:00")]

/-- The process dies at transaction `t`. -/
def diesAt (t : Nat) : Stop := .failure t 0 ⟨.databaseError, rfl⟩

theorem nodup_unphoned : (unphoned.columns.map (·.id)).Nodup := List.nodup_singleton _

theorem resumable_iff_unphoned : Resumable cultureIntro none unphoned 2 (diesAt 2) ↔
    ¬ Torn cultureIntro none unphoned (diesAt 2) :=
  resumable_iff nodup_unphoned (diesAt 2)

/-- The phone number is stored, the `PlaceInfo` never. -/
theorem torn_loses_info : ¬ Resumable cultureIntro none unphoned 2 (diesAt 3) := by
  intro h
  rw [diesAt, resumable_failure nodup_unphoned] at h
  refine h [] ⟨1, 1006, 14⟩ [] 1 rfl rfl Nat.one_pos ?_
  decide

end TravelMaker
