import TravelMaker.Lib.Upsert
import TravelMaker.Lib.Worklist
import TravelMaker.Place.Process
import TravelMaker.Place.Backfill

/-! `backfill_details` as a work list.

With fixed answers, a run is a list of writes decided at its beginning
(`writes_backfillLoop`); what a failure or exhausted keys leave is a first part of it. -/
namespace TravelMaker
open Lib (Txn Worklist)

variable {V : Type}

/-- What a backfill is about: the phone number of a place and its `PlaceInfo`. -/
structure Details where
  tel : Option String
  info : Option PlaceInfo

def Db.details (d : Db V) (id : Int) : Details := ⟨(d.place? id).bind (·.tel), d.placeInfo? id⟩

/-- The columns of the places that a backfill leaves as they are. -/
def Db.columns (d : Db V) : List BackfillTarget := d.places.map Place.target

/-- The row of a place. -/
def rowOf (columns : List BackfillTarget) (id : Int) : Option BackfillTarget := columns.find? (·.id == id)

section
variable (answers : Int → Int → Option Item)

/-- What the client returns, where `detail_intro` answers this. -/
def listed : Call → List Item
  | .detailIntro contentId contentTypeId => (answers contentId contentTypeId).toList
  | _ => []

def introOf (target : BackfillTarget) : Option Item := answers target.contentId target.contentTypeId

/-- The phone number in the answer. -/
def telOf (target : BackfillTarget) : Option String :=
  (infocenterKey target.contentTypeId).bind fun key => cleanTel (((introOf answers target).getD []).get key)

/-- The fields of `PlaceInfo` in the answer. -/
def infoOf (target : BackfillTarget) : Option (List InfoDefault) :=
  (introOf answers target).bind (buildPlaceInfoDefaults target.contentTypeId)

def writeTel (tel : String) (x : Details) : Details := {x with tel := some tel}

def writeInfo (id : Int) (defaults : List InfoDefault) (x : Details) : Details :=
  {x with info := some (defaults.foldl PlaceInfo.set (x.info.getD {placeId := id}))}

/-- The writes of a target that has a `PlaceInfo` or has none. -/
def targetSteps (target : BackfillTarget) (hasInfo : Bool) : List (Details → Details) :=
  (telOf answers target).toList.map writeTel ++
    if hasInfo then [] else (infoOf answers target).toList.map (writeInfo target.id)

/-- `backfill_details` on places with the given columns. -/
def backfillWork (contentTypeId : Option Int) (columns : List BackfillTarget) : Worklist Int Details where
  pending id x := (rowOf columns id).any fun target =>
    (infocenterKey target.contentTypeId).isSome && (x.tel == none || x.tel == some "") &&
      contentTypeId.all (· == target.contentTypeId)
  steps id x := (rowOf columns id).elim [] fun target => targetSteps answers target x.info.isSome

end

/-! ### One run is enough for what it takes -/

section
variable {answers : Int → Int → Option Item} {contentTypeId : Option Int} {columns : List BackfillTarget}

theorem telOf_ne_empty {target : BackfillTarget} {tel : String} (h : telOf answers target = some tel) : tel ≠ "" := by
  obtain ⟨key, -, h⟩ := Option.bind_eq_some_iff.mp h
  exact cleanTel_ne_empty h

/-- A place with a phone number is not pending. -/
theorem not_pending {id : Int} {x : Details} {tel : String} (htel : x.tel = some tel) (hne : tel ≠ "") :
    (backfillWork answers contentTypeId columns).pending id x = false := by
  show (rowOf columns id).any _ = false
  cases rowOf columns id with
  | none => rfl
  | some target =>
    rw [Option.any_some, htel, show (some tel == none || some tel == some "") = false by simpa using hne,
      Bool.and_false, Bool.false_and]

theorem finish_of_not_pending {id : Int} {x : Details}
    (h : (backfillWork answers contentTypeId columns).pending id x = false) :
    (backfillWork answers contentTypeId columns).finish id x = x := by
  rw [Worklist.finish, h]
  rfl

variable (answers contentTypeId) in
theorem steps_of_row {id : Int} {target : BackfillTarget} (hrow : rowOf columns id = some target) (x : Details) :
    (backfillWork answers contentTypeId columns).steps id x = targetSteps answers target x.info.isSome := by
  show (rowOf columns id).elim _ _ = _
  rw [hrow]
  rfl

/-- Once the steps are done nothing of the target is left to do. -/
theorem after_targetSteps (target : BackfillTarget) (x : Details) :
    Worklist.after (targetSteps answers target x.info.isSome) x =
      ⟨(telOf answers target).or x.tel,
        x.info.or ((infoOf answers target).map fun defaults => defaults.foldl PlaceInfo.set {placeId := target.id})⟩ := by
  obtain ⟨tel, info⟩ := x
  unfold targetSteps Worklist.after
  cases telOf answers target <;> cases info <;> cases infoOf answers target <;> rfl

theorem backfill_finish (id : Int) (x : Details) :
    (backfillWork answers contentTypeId columns).finish id ((backfillWork answers contentTypeId columns).finish id x) =
      (backfillWork answers contentTypeId columns).finish id x := by
  cases hpending : (backfillWork answers contentTypeId columns).pending id x with
  | false => rw [finish_of_not_pending hpending, finish_of_not_pending hpending]
  | true =>
    have hfinish : (backfillWork answers contentTypeId columns).finish id x =
        Worklist.after ((backfillWork answers contentTypeId columns).steps id x) x := by
      rw [Worklist.finish, hpending]
      rfl
    rw [hfinish]
    cases hrow : rowOf columns id with
    | none =>
      have hsteps : (backfillWork answers contentTypeId columns).steps id x = [] := by
        show (rowOf columns id).elim _ _ = _
        rw [hrow]
        rfl
      rw [hsteps] at hfinish ⊢
      exact hfinish
    | some target =>
      have hsteps := fun y => steps_of_row answers contentTypeId hrow y
      rw [hsteps, after_targetSteps]
      cases htel : telOf answers target with
      | some tel => exact finish_of_not_pending (not_pending rfl (telOf_ne_empty htel))
      | none =>
        rw [Worklist.finish]
        split
        · rw [hsteps, after_targetSteps, htel]
          cases x.info <;> cases infoOf answers target <;> rfl
        · rfl

end
/-! ### Parts of a run as writes -/

/-- From transaction `t` on `m` succeed, and the next one fails unless there are `len` in all. -/
structure StopsAfter (out : Outside) (t m len : Nat) : Prop where
  free : ∀ i < m, out.fault (t + i) = none
  stops : len ≤ m ∨ (out.fault (t + m)).isSome = true

/-- A part of a run that performs these writes, one a transaction, until one fails. -/
def Writes {S : Type} (out : Outside) (columns : List BackfillTarget) (x : Collect V S Unit)
    (ws : List (Int × (Details → Details))) : Prop :=
  ∀ w m, w.db.columns = columns → StopsAfter out w.transactions m ws.length →
    (x w).2.db.details = Worklist.apply (ws.take m) w.db.details ∧ (x w).2.db.columns = columns ∧
      if ws.length ≤ m then (x w).1 = .ok () ∧ (x w).2.transactions = w.transactions + ws.length
      else ∃ e, (x w).1 = .error e

section
variable {S : Type} {out : Outside} {columns : List BackfillTarget} {x y : Collect V S Unit}
  {ws vs : List (Int × (Details → Details))}

theorem writes_pure : Writes (V := V) (S := S) out columns (pure ()) [] := by
  intro w m hcolumns _
  rw [List.take_nil, List.length_nil, if_pos (Nat.zero_le m)]
  exact ⟨rfl, hcolumns, rfl, rfl⟩

theorem writes_tally (f : S → S) : Writes (V := V) out columns (Collect.tally f) [] := by
  intro w m hcolumns _
  rw [List.take_nil, List.length_nil, if_pos (Nat.zero_le m)]
  exact ⟨rfl, hcolumns, rfl, rfl⟩

theorem Writes.bind (hx : Writes out columns x ws) (hy : Writes out columns y vs) :
    Writes out columns (do x; y) (ws ++ vs) := by
  intro w m hcolumns hstop
  rw [List.length_append] at hstop ⊢
  rw [List.take_append, bind_run]
  by_cases hm : ws.length ≤ m
  · obtain ⟨hdetails, hkept, hok⟩ := hx w m hcolumns ⟨hstop.free, .inl hm⟩
    rw [if_pos hm] at hok
    have hrun : x w = (.ok (), (x w).2) := Prod.ext hok.1 rfl
    rw [hrun]
    have hrest : StopsAfter out (x w).2.transactions (m - ws.length) vs.length := by
      rw [hok.2]
      constructor
      · intro i hi
        rw [Nat.add_assoc]
        exact hstop.free _ (by omega)
      · rw [show w.transactions + ws.length + (m - ws.length) = w.transactions + m by omega]
        exact hstop.stops.imp (by omega) id
    obtain ⟨hdetails', hkept', hok'⟩ := hy (x w).2 (m - ws.length) hkept hrest
    refine ⟨?_, hkept', ?_⟩
    · rw [Worklist.apply_append, ← hdetails]
      exact hdetails'
    · by_cases hall : ws.length + vs.length ≤ m
      · rw [if_pos (by omega)] at hok'
        rw [if_pos hall]
        refine ⟨hok'.1, ?_⟩
        show (y (x w).2).2.transactions = _
        rw [hok'.2, hok.2, Nat.add_assoc]
      · rw [if_neg (by omega)] at hok'
        rw [if_neg hall]
        exact hok'
  · have hfault : (out.fault (w.transactions + m)).isSome = true := hstop.stops.resolve_left (by omega)
    obtain ⟨hdetails, hkept, hok⟩ := hx w m hcolumns ⟨hstop.free, .inr hfault⟩
    rw [if_neg hm] at hok
    obtain ⟨e, he⟩ := hok
    have hrun : x w = (.error e, (x w).2) := Prod.ext he rfl
    rw [hrun, if_neg (by omega), show m - ws.length = 0 by omega, List.take_zero, List.append_nil]
    exact ⟨hdetails, hkept, e, rfl⟩

/-- A transaction that is one write. -/
theorem writes_atomic {p : Service V Unit} (hp : p.Atomic) {F : Db V → Db V} (heval : ∀ d n, p.eval d n = .ok ((), F d, n))
    {id : Int} {f : Details → Details} (hF : ∀ d : Db V, d.columns = columns →
      (F d).details = Function.update d.details id (f (d.details id)) ∧ (F d).columns = columns) :
    Writes (S := S) out columns (Collect.atomic out p) [(id, f)] := by
  intro w m hcolumns hstop
  obtain ⟨hresult, hdb⟩ := atomic_run out hp w
  rw [transaction_eval, heval] at hresult hdb
  cases m with
  | zero =>
    have hfault : (out.fault w.transactions).isSome = true := hstop.stops.resolve_left (by simp)
    obtain ⟨⟨n, e⟩, hfault⟩ := Option.isSome_iff_exists.mp hfault
    rw [hfault] at hresult hdb
    rw [List.take_zero, hdb, if_neg (by simp), hresult]
    exact ⟨rfl, hcolumns, _, rfl⟩
  | succ m =>
    have hfault : out.fault w.transactions = none := hstop.free 0 (Nat.succ_pos m)
    rw [hfault] at hresult hdb
    rw [hdb, hresult, if_pos (show [(id, f)].length ≤ m + 1 by simp), List.take_of_length_le (by simp)]
    exact ⟨(hF w.db hcolumns).1, (hF w.db hcolumns).2, rfl, rfl⟩

end

/-! ### The writes of a target -/

theorem setTel_eval (id : Int) (tel : String) (d : Db V) (n : Nat) :
    (setTel id tel).eval d n = .ok ((), d.updatePlace id (Place.withTel tel), n) := rfl

theorem atomic_setTel (id : Int) (tel : String) : (setTel (V := V) id tel).Atomic := fun _ => trivial

theorem updateOrCreateInfo_eval (placeId : Int) (defaults : List InfoDefault) (d : Db V) (n : Nat) :
    (updateOrCreateInfo placeId defaults).eval d n = .ok ((), d.saveInfo placeId defaults, n) := rfl

theorem atomic_updateOrCreateInfo (placeId : Int) (defaults : List InfoDefault) :
    (updateOrCreateInfo (V := V) placeId defaults).Atomic := fun _ _ => trivial

section
variable {columns : List BackfillTarget} {target : BackfillTarget}

theorem place?_updatePlace {f : Place → Place} (hf : ∀ p, (f p).id = p.id) (d : Db V) (id other : Int) :
    (d.updatePlace id f).place? other = (d.place? other).map fun p => if p.id = id then f p else p := by
  unfold Db.updatePlace Db.place?
  exact Lib.Upsert.find?_modify hf d.places other

theorem withTel_id (tel : String) (place : Place) : (place.withTel tel).id = place.id := rfl

/-- The phone number, on a place that exists. -/
theorem details_setTel {d : Db V} {id : Int} (hid : (d.place? id).isSome = true) (tel : String) :
    (d.updatePlace id (Place.withTel tel)).details =
        Function.update d.details id (writeTel tel (d.details id)) ∧
      (d.updatePlace id (Place.withTel tel)).columns = d.columns := by
  have hplace : ∀ other, (d.updatePlace id (Place.withTel tel)).place? other =
      (d.place? other).map fun p => if p.id = id then p.withTel tel else p :=
    place?_updatePlace (withTel_id tel) d id
  constructor
  · funext other
    unfold Db.details
    rw [hplace]
    by_cases hother : other = id
    · rw [hother, Function.update_self]
      obtain ⟨place, hsome⟩ := Option.isSome_iff_exists.mp hid
      rw [hsome, Option.map_some, if_pos (Db.place?_some hsome).2]
      rfl
    · rw [Function.update_of_ne hother]
      cases hsome : d.place? other with
      | none => rfl
      | some place =>
        rw [Option.map_some, if_neg fun h => hother ((Db.place?_some hsome).2.symm.trans h)]
        rfl
  · show (d.places.map _).map _ = d.places.map _
    rw [List.map_map]
    refine List.map_congr_left fun p _ => ?_
    simp only [Function.comp_apply]
    split <;> rfl

theorem details_saveInfo (d : Db V) (id : Int) (defaults : List InfoDefault) :
    (d.saveInfo id defaults).details = Function.update d.details id (writeInfo id defaults (d.details id)) ∧
      (d.saveInfo id defaults).columns = d.columns := by
  refine ⟨?_, rfl⟩
  funext other
  have hinfo := find?_upsertInfo id defaults d.placeInfos other
  by_cases hother : other = id
  · rw [hother, if_pos rfl] at hinfo
    rw [hother, Function.update_self]
    exact congrArg (Details.mk _) hinfo
  · rw [if_neg hother] at hinfo
    rw [Function.update_of_ne hother]
    exact congrArg (Details.mk _) hinfo

variable {out : Outside} {answers : Int → Int → Option Item}

theorem rowOf_columns (d : Db V) (id : Int) : rowOf d.columns id = (d.place? id).map Place.target := by
  unfold rowOf Db.columns Db.place?
  rw [List.find?_map]
  rfl

theorem place?_isSome {d : Db V} (hcolumns : d.columns = columns) (htarget : rowOf columns target.id = some target) :
    (d.place? target.id).isSome = true := by
  rw [← hcolumns, rowOf_columns] at htarget
  obtain ⟨place, hplace, -⟩ := Option.map_eq_some_iff.mp htarget
  rw [hplace]
  rfl

variable (htarget : rowOf columns target.id = some target)
include htarget

theorem writes_backfillTel (hkey : (infocenterKey target.contentTypeId).isSome = true) :
    Writes (V := V) out columns (backfillTel out false target (introOf answers target))
      ((telOf answers target).toList.map fun tel => (target.id, writeTel tel)) := by
  obtain ⟨key, hkey⟩ := Option.isSome_iff_exists.mp hkey
  have htel : telOf answers target = cleanTel (((introOf answers target).getD []).get key) := by
    rw [telOf, hkey, Option.bind_some]
  rw [backfillTel_eq out hkey, htel]
  cases cleanTel (((introOf answers target).getD []).get key) with
  | none =>
    rw [Option.elim_none]
    exact writes_tally _
  | some tel =>
    refine Writes.bind (writes_atomic (atomic_setTel target.id tel) (setTel_eval target.id tel) fun d hd => ?_)
      (writes_tally _)
    obtain ⟨hdetails, hkept⟩ := details_setTel (place?_isSome hd htarget) tel
    exact ⟨hdetails, hkept.trans hd⟩

omit htarget in
theorem writes_backfillInfo (hasInfo : List Int) :
    Writes (V := V) out columns (backfillInfo out false false hasInfo target (introOf answers target))
      (if hasInfo.contains target.id then [] else
        (infoOf answers target).toList.map fun defaults => (target.id, writeInfo target.id defaults)) := by
  unfold backfillInfo infoOf
  cases introOf answers target with
  | none =>
    rw [Option.bind_none, Option.toList_none, List.map_nil, ite_self]
    exact writes_pure
  | some item =>
    rw [Option.bind_some]
    dsimp only
    cases hasInfo.contains target.id with
    | true => exact writes_pure
    | false =>
      cases buildPlaceInfoDefaults target.contentTypeId item with
      | none => exact writes_pure
      | some defaults =>
        refine Writes.bind (writes_atomic (atomic_updateOrCreateInfo target.id defaults)
          (updateOrCreateInfo_eval target.id defaults) fun d hd => ?_) (writes_tally _)
        obtain ⟨hdetails, hkept⟩ := details_saveInfo d target.id defaults
        exact ⟨hdetails, hkept.trans hd⟩

variable (out answers) in
/-- The writes of one target. -/
theorem writes_backfillTarget (hkey : (infocenterKey target.contentTypeId).isSome = true) (hasInfo : List Int) :
    Writes (V := V) out columns (backfillTarget out false false hasInfo target (introOf answers target))
      ((targetSteps answers target (hasInfo.contains target.id)).map fun f => (target.id, f)) := by
  have hsteps : (targetSteps answers target (hasInfo.contains target.id)).map (fun f => (target.id, f)) =
      [] ++ ((telOf answers target).toList.map (fun tel => (target.id, writeTel tel)) ++
        if hasInfo.contains target.id then [] else
          (infoOf answers target).toList.map fun defaults => (target.id, writeInfo target.id defaults)) := by
    rw [targetSteps, List.map_append, List.map_map, List.nil_append]
    congr 1
    split
    · rfl
    · rw [List.map_map]
      rfl
  rw [hsteps]
  exact (writes_tally _).bind ((writes_backfillTel htarget hkey).bind (writes_backfillInfo hasInfo))

end

/-! ### The loop -/

/-- The client answers a detail call. -/
def noteCall {S : Type} (c : Call) : Collect V S Unit := fun w => (.ok (), {w with calls := c :: w.calls})

theorem writes_noteCall {S : Type} {out : Outside} {columns : List BackfillTarget} (c : Call) :
    Writes (V := V) (S := S) out columns (noteCall c) [] := by
  intro w m hcolumns _
  rw [List.take_nil, List.length_nil, if_pos (Nat.zero_le m)]
  exact ⟨rfl, hcolumns, rfl, rfl⟩

/-- Where a target is found again by its id, and its type has a phone key. -/
structure TargetsOk (columns : List BackfillTarget) (targets : List BackfillTarget) : Prop where
  rows : ∀ target ∈ targets, rowOf columns target.id = some target
  keys : ∀ target ∈ targets, (infocenterKey target.contentTypeId).isSome = true

/-- The writes of the targets. -/
def targetWrites (answers : Int → Int → Option Item) (hasInfo : List Int) (targets : List BackfillTarget) :
    List (Int × (Details → Details)) :=
  targets.flatMap fun target => (targetSteps answers target (hasInfo.contains target.id)).map fun f => (target.id, f)

section
variable {out : Outside} {answers : Int → Int → Option Item} {columns : List BackfillTarget} {hasInfo : List Int}

/-- An answered target. -/
theorem backfillLoop_cons {target : BackfillTarget} {rest : List BackfillTarget} {w : World V DetailBackfillSummary}
    (hget : out.get w.calls.length (.detailIntro target.contentId target.contentTypeId) =
      .ok (listed answers (.detailIntro target.contentId target.contentTypeId))) :
    backfillLoop out false false hasInfo (target :: rest) w = (do
      noteCall (.detailIntro target.contentId target.contentTypeId)
      backfillTarget out false false hasInfo target (introOf answers target)
      backfillLoop out false false hasInfo rest : Collect V DetailBackfillSummary Unit) w := by
  simp only [backfillLoop, bind_run, Collect.attempt, Collect.detailIntro, Collect.call, hget, noteCall, pure_run,
    listed, Option.head?_toList]
  rfl

theorem writes_backfillLoop {targets : List BackfillTarget} (htargets : TargetsOk columns targets)
    (hget : ∀ t c, out.get t c = .ok (listed answers c)) :
    Writes (V := V) out columns (backfillLoop out false false hasInfo targets)
      (targetWrites answers hasInfo targets) := by
  induction targets with
  | nil => exact writes_pure
  | cons target rest ih =>
    have hmem := List.mem_cons_self (a := target) (l := rest)
    have hrest := ih ⟨fun t ht => htargets.rows t (List.mem_cons_of_mem _ ht),
      fun t ht => htargets.keys t (List.mem_cons_of_mem _ ht)⟩
    have hloop : backfillLoop (V := V) out false false hasInfo (target :: rest) = _ :=
      funext fun w => backfillLoop_cons (hget w.calls.length _)
    rw [hloop]
    exact (writes_noteCall _).bind
      ((writes_backfillTarget out answers (htargets.rows _ hmem) (htargets.keys _ hmem) hasInfo).bind hrest)

end
end TravelMaker
