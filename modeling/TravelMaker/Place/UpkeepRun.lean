import TravelMaker.Place.Upkeep

/-! Histories of upkeep: when the deterministic tags stay in step.

An item that is stored is tagged, and a clean-up keeps the facilities of every place. A
backfill writes rows of `PlaceInfo` under tags that stay as they are: they stay in step
exactly when the rows keep the facilities of their places. -/
namespace TravelMaker
open Lib (Txn)
open Lib.History (states Along forall_states_iff)

variable {V : Type}

/-! ### What a backfill writes -/

/-- A row of `PlaceInfo` to be written: its place, and the fields. -/
abbrev InfoWrite := Int × List InfoDefault

section
variable (out : Outside) (refreshInfo : Bool) (hasInfo : List Int)

/-- The fields that an intro has for a target, where it may write them. -/
def infoAsked (target : BackfillTarget) (intro : Option Item) : Option (List InfoDefault) :=
  if !hasInfo.contains target.id || refreshInfo then infoOf (fun _ _ => intro) target else none

/-- The transaction after the next one, if there is one to open and it does not fail. -/
def nextTransaction (n : Nat) (asked : Bool) : Option Nat :=
  if asked then if (out.fault n).isNone then some (n + 1) else none else some n

/-- The transaction after those of a target. -/
def targetNext (n : Nat) (target : BackfillTarget) (intro : Option Item) : Option Nat :=
  (nextTransaction out n (telOf (fun _ _ => intro) target).isSome).bind fun n =>
    nextTransaction out n (infoAsked refreshInfo hasInfo target intro).isSome

/-- The rows that are written for the targets, from call `t` and transaction `n` on. A
transaction that fails ends the loop, and so does a call that fails for more than its target. -/
def infoWrites (t n : Nat) : List BackfillTarget → List InfoWrite
  | [] => []
  | target :: rest =>
    match out.get t (.detailIntro target.contentId target.contentTypeId) with
    | .error .tourApiError => infoWrites (t + 1) n rest
    | .error _ => []
    | .ok items =>
      match targetNext out refreshInfo hasInfo n target items.head? with
      | none => []
      | some n =>
        (infoAsked refreshInfo hasInfo target items.head?).toList.map (target.id, ·) ++ infoWrites (t + 1) n rest

theorem infoWrites_targets (t n : Nat) (targets : List BackfillTarget) :
    ((infoWrites out refreshInfo hasInfo t n targets).map (·.1)).Sublist (targets.map (·.id)) := by
  induction targets generalizing t n with
  | nil => exact .slnil
  | cons target rest ih =>
    unfold infoWrites
    split
    · exact (ih (t + 1) n).cons _
    · exact List.nil_sublist _
    · rename_i items _
      split
      · exact List.nil_sublist _
      · rename_i m _
        rw [List.map_append]
        cases infoAsked refreshInfo hasInfo target items.head? with
        | none => exact (ih (t + 1) m).cons _
        | some defaults => exact (ih (t + 1) m).cons_cons _

end

/-- The tables after writes of phone numbers and of these rows. -/
structure Backfilled (ws : List InfoWrite) (d d' : Db V) : Prop where
  infos : d'.placeInfos = ws.foldl (fun infos write => upsertInfo write.1 write.2 infos) d.placeInfos
  tags : d'.tags = d.tags
  placeTags : d'.placeTags = d.placeTags
  places : d'.places.map (fun p => (p.id, p.addressPrimary)) = d.places.map fun p => (p.id, p.addressPrimary)

theorem Backfilled.refl (d : Db V) : Backfilled [] d d := ⟨rfl, rfl, rfl, rfl⟩

theorem Backfilled.trans {ws vs : List InfoWrite} {d d' d'' : Db V} (h : Backfilled ws d d') (h' : Backfilled vs d' d'') :
    Backfilled (ws ++ vs) d d'' := by
  refine ⟨?_, h'.tags.trans h.tags, h'.placeTags.trans h.placeTags, h'.places.trans h.places⟩
  rw [List.foldl_append, ← h.infos]
  exact h'.infos

theorem backfilled_setTel (d : Db V) (id : Int) (tel : String) : Backfilled [] d (d.updatePlace id (Place.withTel tel)) := by
  refine ⟨rfl, rfl, rfl, ?_⟩
  show (d.places.map _).map _ = d.places.map _
  rw [List.map_map]
  refine List.map_congr_left fun place _ => ?_
  rw [Function.comp_apply]
  split <;> rfl

theorem backfilled_saveInfo (d : Db V) (id : Int) (defaults : List InfoDefault) :
    Backfilled [(id, defaults)] d (d.saveInfo id defaults) := ⟨rfl, rfl, rfl, rfl⟩

/-- A part of a run writes `ws`, and goes on at transaction `next` or not at all. -/
structure Leaves {S : Type} (x : Collect V S Unit) (w : World V S) (ws : List InfoWrite) (next : Option Nat) : Prop where
  written : Backfilled ws w.db (x w).2.db
  calls : (x w).2.calls = w.calls
  ends : next = none → ∃ e, (x w).1 = .error e
  goes : ∀ n, next = some n → (x w).1 = .ok () ∧ (x w).2.transactions = n

section
variable {S : Type} {x : Collect V S Unit} {w : World V S} {ws : List InfoWrite}

theorem leaves_tally (f : S → S) (w : World V S) : Leaves (Collect.tally f) w [] (some w.transactions) :=
  ⟨.refl w.db, rfl, (nomatch ·), fun _ h => ⟨rfl, Option.some.inj h⟩⟩

theorem leaves_pure (w : World V S) : Leaves (pure () : Collect V S Unit) w [] (some w.transactions) :=
  ⟨.refl w.db, rfl, (nomatch ·), fun _ h => ⟨rfl, Option.some.inj h⟩⟩

/-- One part after the other. -/
theorem Leaves.bind {next : Option Nat} {vs : Nat → List InfoWrite} {next' : Nat → Option Nat} {y : Unit → Collect V S Unit}
    (hx : Leaves x w ws next) (hy : ∀ w', next = some w'.transactions → Leaves (y ()) w' (vs w'.transactions) (next' w'.transactions)) :
    Leaves (x >>= y) w (ws ++ next.elim [] vs) (next.bind next') := by
  cases hnext : next with
  | none =>
    obtain ⟨e, he⟩ := hx.ends hnext
    have hrun : (x >>= y) w = (.error e, (x w).2) := by
      rw [bind_run, show x w = (.error e, (x w).2) from Prod.ext he rfl]
    rw [Option.elim_none, List.append_nil, Option.bind_none]
    refine ⟨?_, ?_, fun _ => ⟨e, ?_⟩, fun _ h => nomatch h⟩
    · rw [hrun]
      exact hx.written
    · rw [hrun]
      exact hx.calls
    · rw [hrun]
  | some n =>
    obtain ⟨hok, rfl⟩ := hx.goes n hnext
    have hrun : (x >>= y) w = y () (x w).2 := by
      rw [bind_run, show x w = (.ok (), (x w).2) from Prod.ext hok rfl]
    have hlast := hy (x w).2 hnext
    rw [Option.elim_some, Option.bind_some]
    refine ⟨?_, ?_, ?_, ?_⟩
    · rw [hrun]
      exact hx.written.trans hlast.written
    · rw [hrun]
      exact hlast.calls.trans hx.calls
    · rw [hrun]
      exact hlast.ends
    · rw [hrun]
      exact hlast.goes

theorem Leaves.tally {next : Option Nat} (hx : Leaves x w ws next) (f : S → S) :
    Leaves (x >>= fun _ => Collect.tally f) w ws next := by
  have hboth : Leaves (x >>= fun _ => Collect.tally f) w (ws ++ next.elim [] fun _ => []) (next.bind some) :=
    hx.bind fun w' _ => leaves_tally f w'
  cases next with
  | none => exact List.append_nil ws ▸ hboth
  | some n => exact List.append_nil ws ▸ hboth

/-- What is counted first does not matter. -/
theorem leaves_afterTally (w : World V S) (f : S → S) {next : Option Nat} (hx : Leaves x {w with summary := f w.summary} ws next) :
    Leaves (Collect.tally f >>= fun _ => x) w ws next := ⟨hx.written, hx.calls, hx.ends, hx.goes⟩

/-- A transaction with its one write. -/
theorem leaves_atomic {out : Outside} {p : Service V Unit} (hp : p.Atomic) {d' : Db V}
    (heval : p.eval w.db w.seq = .ok ((), d', w.seq)) (hwritten : Backfilled ws w.db d') :
    Leaves (Collect.atomic out p) w ((nextTransaction out w.transactions true).elim [] fun _ => ws)
      (nextTransaction out w.transactions true) := by
  unfold nextTransaction
  cases hfault : out.fault w.transactions with
  | none =>
    have hrun : Collect.atomic out p w = _ := atomic_ok hfault hp heval
    refine ⟨?_, ?_, (nomatch ·), fun n h => ?_⟩
    · rw [hrun]
      exact hwritten
    · rw [hrun]
    · rw [hrun]
      exact ⟨rfl, Option.some.inj h⟩
  | some fault =>
    obtain ⟨e, w', hrun, hdb, -⟩ := atomic_fault (S := S) hfault hp
    refine ⟨?_, rfl, fun _ => ⟨e, by rw [hrun]⟩, fun n h => nomatch h⟩
    rw [hrun, hdb]
    exact .refl w.db

end
/-! ### The targets of a backfill -/

section
variable {out : Outside} {refreshInfo : Bool} {hasInfo : List Int} {target : BackfillTarget}

theorem leaves_backfillTel (hkey : (infocenterKey target.contentTypeId).isSome = true) (intro : Option Item)
    (w : World V DetailBackfillSummary) : Leaves (backfillTel out false target intro) w []
      (nextTransaction out w.transactions (telOf (fun _ _ => intro) target).isSome) := by
  obtain ⟨key, hkey⟩ := Option.isSome_iff_exists.mp hkey
  have htel : telOf (fun _ _ => intro) target = cleanTel ((intro.getD []).get key) := by
    rw [telOf, hkey, Option.bind_some]
    rfl
  rw [backfillTel_eq out hkey, htel]
  cases cleanTel ((intro.getD []).get key) with
  | none =>
    rw [Option.elim_none]
    exact leaves_tally _ w
  | some tel =>
    have hwrite : Leaves (Collect.atomic out (setTel target.id tel)) w _ _ :=
      leaves_atomic (atomic_setTel target.id tel) (setTel_eval target.id tel w.db w.seq) (backfilled_setTel w.db target.id tel)
    have hnothing : ((nextTransaction out w.transactions true).elim [] fun _ => ([] : List InfoWrite)) = [] := by
      cases nextTransaction out w.transactions true <;> rfl
    rw [hnothing] at hwrite
    exact hwrite.tally _

theorem leaves_backfillInfo (intro : Option Item) (w : World V DetailBackfillSummary) :
    Leaves (backfillInfo out false refreshInfo hasInfo target intro) w
      ((nextTransaction out w.transactions (infoAsked refreshInfo hasInfo target intro).isSome).elim [] fun _ =>
        (infoAsked refreshInfo hasInfo target intro).toList.map (target.id, ·))
      (nextTransaction out w.transactions (infoAsked refreshInfo hasInfo target intro).isSome) := by
  unfold backfillInfo infoAsked infoOf introOf
  cases intro with
  | none =>
    rw [Option.bind_none, ite_self]
    exact leaves_pure w
  | some item =>
    rw [Option.bind_some]
    dsimp only
    split
    · cases buildPlaceInfoDefaults target.contentTypeId item with
      | none => exact leaves_pure w
      | some defaults =>
        exact (leaves_atomic (atomic_updateOrCreateInfo target.id defaults)
          (updateOrCreateInfo_eval target.id defaults w.db w.seq) (backfilled_saveInfo w.db target.id defaults)).tally _
    · exact leaves_pure w

variable (out refreshInfo hasInfo) in
theorem leaves_backfillTarget (hkey : (infocenterKey target.contentTypeId).isSome = true) (intro : Option Item)
    (w : World V DetailBackfillSummary) : Leaves (backfillTarget out false refreshInfo hasInfo target intro) w
      ((targetNext out refreshInfo hasInfo w.transactions target intro).elim [] fun _ =>
        (infoAsked refreshInfo hasInfo target intro).toList.map (target.id, ·))
      (targetNext out refreshInfo hasInfo w.transactions target intro) := by
  have hparts : ∀ w : World V DetailBackfillSummary, Leaves (do
      backfillTel out false target intro
      backfillInfo out false refreshInfo hasInfo target intro) w
      ([] ++ (nextTransaction out w.transactions (telOf (fun _ _ => intro) target).isSome).elim [] fun n =>
        (nextTransaction out n (infoAsked refreshInfo hasInfo target intro).isSome).elim [] fun _ =>
          (infoAsked refreshInfo hasInfo target intro).toList.map (target.id, ·))
      (targetNext out refreshInfo hasInfo w.transactions target intro) := fun w =>
    (leaves_backfillTel hkey intro w).bind fun w' _ => leaves_backfillInfo intro w'
  have htold : ([] ++ (nextTransaction out w.transactions (telOf (fun _ _ => intro) target).isSome).elim [] fun n =>
      (nextTransaction out n (infoAsked refreshInfo hasInfo target intro).isSome).elim [] fun _ =>
        (infoAsked refreshInfo hasInfo target intro).toList.map (target.id, ·)) =
      (targetNext out refreshInfo hasInfo w.transactions target intro).elim [] fun _ =>
        (infoAsked refreshInfo hasInfo target intro).toList.map (target.id, ·) := by
    unfold targetNext
    cases nextTransaction out w.transactions (telOf (fun _ _ => intro) target).isSome <;> rfl
  rw [← htold]
  exact leaves_afterTally w (fun s => {s with processed := s.processed + 1}) (hparts _)

variable (out refreshInfo hasInfo) in
/-- **What a backfill writes** of `PlaceInfo`. -/
theorem backfilled_backfillLoop {targets : List BackfillTarget}
    (hkeys : ∀ target ∈ targets, (infocenterKey target.contentTypeId).isSome = true) (w : World V DetailBackfillSummary) :
    Backfilled (infoWrites out refreshInfo hasInfo w.calls.length w.transactions targets) w.db
      (backfillLoop out false refreshInfo hasInfo targets w).2.db := by
  induction targets generalizing w with
  | nil => exact .refl w.db
  | cons target rest ih =>
    have hkey := hkeys target List.mem_cons_self
    have hrest := ih fun t ht => hkeys t (List.mem_cons_of_mem _ ht)
    cases hget : out.get w.calls.length (.detailIntro target.contentId target.contentTypeId) with
    | error e =>
      unfold infoWrites backfillLoop
      simp only [bind_run, Collect.attempt, Collect.detailIntro, Collect.call, hget]
      cases e with
      | tourApiError => exact hrest {w with calls := _ :: w.calls, summary := _}
      | _ => exact .refl w.db
    | ok items =>
      have hloop : backfillLoop out false refreshInfo hasInfo (target :: rest) w =
          (backfillTarget out false refreshInfo hasInfo target items.head? >>= fun _ =>
            backfillLoop out false refreshInfo hasInfo rest)
            {w with calls := .detailIntro target.contentId target.contentTypeId :: w.calls} := by
        simp only [backfillLoop, bind_run, Collect.attempt, Collect.detailIntro, Collect.call, hget, pure_run]
      have hparts := leaves_backfillTarget out refreshInfo hasInfo hkey items.head?
        {w with calls := .detailIntro target.contentId target.contentTypeId :: w.calls}
      generalize hw₀ : ({w with calls := .detailIntro target.contentId target.contentTypeId :: w.calls} :
        World V DetailBackfillSummary) = w₀ at hloop hparts
      have hdb : w₀.db = w.db := hw₀ ▸ rfl
      have hcalls : w₀.calls.length = w.calls.length + 1 := hw₀ ▸ rfl
      have htransactions : w₀.transactions = w.transactions := hw₀ ▸ rfl
      rw [htransactions] at hparts
      rw [hloop, bind_run]
      unfold infoWrites
      rw [hget]
      dsimp only
      cases hnext : targetNext out refreshInfo hasInfo w.transactions target items.head? with
      | none =>
        obtain ⟨e, he⟩ := hparts.ends hnext
        have hwritten := hparts.written
        rw [hnext, Option.elim_none, hdb] at hwritten
        rw [show backfillTarget out false refreshInfo hasInfo target items.head? w₀ = (.error e, _) from Prod.ext he rfl]
        exact hwritten
      | some n =>
        obtain ⟨hok, hn⟩ := hparts.goes n hnext
        have hwritten := hparts.written
        rw [hnext, Option.elim_some, hdb] at hwritten
        rw [show backfillTarget out false refreshInfo hasInfo target items.head? w₀ = (.ok (), _) from Prod.ext hok rfl]
        have htail := hrest (backfillTarget out false refreshInfo hasInfo target items.head? w₀).2
        rw [hn, hparts.calls, hcalls] at htail
        exact hwritten.trans htail

end
/-! ### A run of a backfill -/

section
variable {I : Db V → Nat → Prop} (hseq : ∀ d n m, n ≤ m → I d n → I d m) {dryRun : Bool}
  (htel : dryRun = false → ∀ id tel d n, I d n → I (d.updatePlace id (Place.withTel tel)) n)
  (hinfo : dryRun = false → ∀ id contentTypeId item defaults d n, buildPlaceInfoDefaults contentTypeId item = some defaults →
    I d n → I (d.saveInfo id defaults) n)
include hseq

theorem keeps_unlessDry {p : Service V Unit} (hp : p.Atomic)
    (h : dryRun = false → ∀ d n r, I d n → p.eval d n = .ok r → I r.2.1 r.2.2) (out : Outside) :
    Keeps I (unlessDry dryRun (Collect.atomic out p) : Collect V DetailBackfillSummary Unit) := by
  cases dryRun with
  | true => exact keeps_pure ()
  | false => exact keeps_atomic hseq hp (h rfl)

include htel hinfo

theorem keeps_backfillTarget (out : Outside) (refreshInfo : Bool) (hasInfo : List Int) (target : BackfillTarget)
    (intro : Option Item) : Keeps I (backfillTarget out dryRun refreshInfo hasInfo target intro) := by
  refine (blind_keeps I).backfillTarget (fun tel => ?_) fun item defaults hdefaults => ?_
  · refine keeps_unlessDry hseq (atomic_setTel target.id tel) (fun hdry d n r h heval => ?_) out
    cases heval
    exact htel hdry target.id tel d n h
  · refine keeps_unlessDry hseq (atomic_updateOrCreateInfo target.id defaults) (fun hdry d n r h heval => ?_) out
    cases heval
    exact hinfo hdry target.id target.contentTypeId item defaults d n hdefaults h

/-- What the writes keep, a run keeps. -/
theorem keeps_backfillDetails (out : Outside) (contentTypeId : Option Int) (limit : Option Nat) (refreshInfo : Bool) :
    Keeps I (backfillDetails out contentTypeId limit dryRun refreshInfo) := by
  have hloop : ∀ hasInfo targets, Keeps I (backfillLoop out dryRun refreshInfo hasInfo targets) := by
    intro hasInfo targets
    induction targets with
    | nil => exact keeps_pure ()
    | cons target rest ih =>
      refine (((keeps_call out _).bind fun _ => keeps_pure _).attempt).bind fun answer => ?_
      split
      · exact keeps_tally _
      · exact (keeps_tally _).bind fun _ => ih
      · exact keeps_raise _
      · exact (keeps_backfillTarget hseq htel hinfo out refreshInfo hasInfo target _).bind fun _ => ih
  exact (keeps_query hseq out).bind fun d => (keeps_tally _).bind fun _ => (keeps_query hseq out).bind fun d' => hloop _ _

end

/-- The rows of `PlaceInfo` that a run of `backfill_details` writes. -/
def backfillWrites (out : Outside) (contentTypeId : Option Int) (limit : Option Nat) (dryRun refreshInfo : Bool) (d : Db V) :
    List InfoWrite :=
  let targets := d.backfillTargets contentTypeId limit
  -- its two queries are transactions too
  if dryRun || (out.fault 0).isSome || (out.fault 1).isSome then []
  else infoWrites out refreshInfo (d.hasInfo targets) 0 2 targets

theorem backfilled_query_fault {S : Type} {out : Outside} {w : World V S} {fault : Nat × DbExc}
    (hfault : out.fault w.transactions = some fault) (f : Db V → Collect V S Unit) :
    Backfilled [] w.db ((Collect.query out >>= f) w).2.db := by
  obtain ⟨e, w', hrun, hdb, -⟩ := query_fault hfault
  rw [bind_run, hrun]
  dsimp only
  rw [hdb]
  exact .refl w.db

theorem backfilled_backfillDetails (out : Outside) (contentTypeId : Option Int) (limit : Option Nat) (dryRun refreshInfo : Bool)
    (db : Db V) (seq : Nat) : Backfilled (backfillWrites out contentTypeId limit dryRun refreshInfo db) db
      (backfillDetails out contentTypeId limit dryRun refreshInfo (World.fresh db seq)).2.db := by
  unfold backfillWrites
  dsimp only
  cases dryRun with
  | true =>
    have hkeeps : Keeps (fun d _ => Backfilled [] db d) (backfillDetails out contentTypeId limit true refreshInfo) := by
      refine keeps_backfillDetails (fun _ _ _ _ h => h) ?_ ?_ out contentTypeId limit refreshInfo
      · exact fun h => Bool.noConfusion h
      · exact fun h => Bool.noConfusion h
    exact hkeeps (World.fresh db seq) (.refl db)
  | false =>
    cases h₀ : out.fault 0 with
    | some fault =>
      exact backfilled_query_fault (w := World.fresh db seq) h₀ _
    | none =>
      cases h₁ : out.fault 1 with
      | some fault =>
        unfold backfillDetails
        rw [bind_run, query_ok (w := World.fresh db seq) h₀]
        dsimp only
        rw [bind_run]
        unfold Collect.tally
        dsimp only
        exact backfilled_query_fault (w := ⟨db, seq, [], [db], _⟩) h₁ _
      | none =>
        obtain ⟨w, hdb, hcalls, htransactions, hrun⟩ := backfillDetails_loop contentTypeId limit db seq refreshInfo h₀ h₁
        have hwritten := backfilled_backfillLoop out refreshInfo (db.hasInfo (db.backfillTargets contentTypeId limit))
          (fun target (htarget : target ∈ db.backfillTargets contentTypeId limit) => key_of_mem_backfillTargets htarget) w
        rw [hcalls, htransactions, hdb] at hwritten
        rw [hrun]
        exact hwritten


/-! ### The tags after a backfill -/

/-- The row of a place after a write. -/
def writtenInfo (d : Db V) (write : InfoWrite) : PlaceInfo :=
  write.2.foldl PlaceInfo.set ((d.placeInfo? write.1).getD {placeId := write.1})

/-- The row has the facilities that the place had before. -/
def SameFacilities (d : Db V) (write : InfoWrite) : Prop :=
  ∀ name, name ∈ facilityTagNames (some (writtenInfo d write)) ↔ name ∈ facilityTagNames (d.placeInfo? write.1)

/-- Each place is written at most once. -/
theorem placeInfo?_backfilled {ws : List InfoWrite} {d d' : Db V} (h : Backfilled ws d d') (hids : (ws.map (·.1)).Nodup)
    (id : Int) : (∀ defaults, (id, defaults) ∈ ws → d'.placeInfo? id = some (writtenInfo d (id, defaults))) ∧
      (id ∉ ws.map (·.1) → d'.placeInfo? id = d.placeInfo? id) := by
  have hfold : ∀ (ws : List InfoWrite) (infos : List PlaceInfo), (ws.map (·.1)).Nodup →
      (∀ defaults, (id, defaults) ∈ ws → (ws.foldl (fun infos write => upsertInfo write.1 write.2 infos) infos).find?
        (·.placeId == id) = some (defaults.foldl PlaceInfo.set ((infos.find? (·.placeId == id)).getD {placeId := id}))) ∧
      (id ∉ ws.map (·.1) → (ws.foldl (fun infos write => upsertInfo write.1 write.2 infos) infos).find? (·.placeId == id) =
        infos.find? (·.placeId == id)) := by
    intro ws
    induction ws with
    | nil => exact fun infos _ => ⟨fun _ hmem => (List.not_mem_nil hmem).elim, fun _ => rfl⟩
    | cons write rest ih =>
      intro infos hnodup
      obtain ⟨hnew, hrest⟩ := List.nodup_cons.mp hnodup
      obtain ⟨hin, hout⟩ := ih (upsertInfo write.1 write.2 infos) hrest
      have hinfo := find?_upsertInfo write.1 write.2 infos id
      refine ⟨fun defaults hmem => ?_, fun hnot => ?_⟩
      · rcases List.mem_cons.mp hmem with rfl | hmem
        · exact (hout hnew).trans (hinfo.trans (if_pos rfl))
        · have hmem' : id ∈ rest.map (·.1) := List.mem_map.mpr ⟨(id, defaults), hmem, rfl⟩
          have hne : id ≠ write.1 := fun heq => hnew (show write.1 ∈ rest.map (·.1) from heq ▸ hmem')
          rw [List.foldl_cons, hin defaults hmem, hinfo, if_neg hne]
      · rw [List.map_cons, List.mem_cons, not_or] at hnot
        rw [List.foldl_cons, hout hnot.2, hinfo, if_neg hnot.1]
  unfold Db.placeInfo? writtenInfo
  rw [h.infos]
  exact hfold ws d.placeInfos hids

theorem exists_of_map_eq {α β : Type} {f : α → β} {as bs : List α} (h : as.map f = bs.map f) {a : α} (ha : a ∈ as) :
    ∃ b ∈ bs, f b = f a := by
  rw [← List.mem_map, ← h]
  exact List.mem_map_of_mem ha

/-- A place whose tags were in step: they still are if it has the facilities that it had. -/
theorem Backfilled.tagsInStep_iff {ws : List InfoWrite} {d d' : Db V} (h : Backfilled ws d d') {p q : Place}
    (hpq : (q.id, q.addressPrimary) = (p.id, p.addressPrimary)) (hq : TagsInStep d q) : TagsInStep d' p ↔
      ∀ name, name ∈ facilityTagNames (d'.placeInfo? q.id) ↔ name ∈ facilityTagNames (d.placeInfo? q.id) := by
  obtain ⟨hid, haddress⟩ := Prod.mk.inj hpq
  have htagsOf : ∀ id, d'.tagsOf id = d.tagsOf id := by
    intro id
    unfold Db.tagsOf
    rw [h.tags, h.placeTags]
  constructor
  · intro hp name
    rw [← hq.facility name, ← htagsOf, hid]
    exact (hp.facility name).symm
  · intro hsame
    refine ⟨fun name => ?_, fun name => ?_⟩
    · rw [htagsOf, ← hid, ← haddress]
      exact hq.region name
    · rw [htagsOf, ← hid, hsame name]
      exact hq.facility name

/-- **The tags stay in step if and only if the rows keep the facilities.** -/
theorem inStep_backfilled {ws : List InfoWrite} {d d' : Db V} (h : Backfilled ws d d') (hids : (ws.map (·.1)).Nodup)
    (hplaces : ∀ write ∈ ws, write.1 ∈ d.places.map (·.id)) (hstep : InStep d) :
    InStep d' ↔ ∀ write ∈ ws, SameFacilities d write := by
  constructor
  · intro hafter write hwrite name
    obtain ⟨q, hq, hid⟩ := List.mem_map.mp (hplaces write hwrite)
    obtain ⟨p, hp, hpq⟩ := exists_of_map_eq h.places.symm hq
    have hsame := (h.tagsInStep_iff hpq.symm (hstep q hq)).mp (hafter p hp) name
    rw [hid, (placeInfo?_backfilled h hids write.1).1 write.2 hwrite] at hsame
    exact hsame
  · intro hsame p hp
    obtain ⟨q, hq, hpq⟩ := exists_of_map_eq h.places hp
    refine (h.tagsInStep_iff hpq (hstep q hq)).mpr fun name => ?_
    obtain ⟨hin, hout⟩ := placeInfo?_backfilled h hids q.id
    by_cases hmem : q.id ∈ ws.map (·.1)
    · obtain ⟨⟨id, defaults⟩, hwrite, hid⟩ := List.mem_map.mp hmem
      obtain rfl : id = q.id := hid
      rw [hin defaults hwrite]
      exact hsame _ hwrite name
    · rw [hout hmem]

/-! ### The tags after a clean-up -/

theorem placeInfo?_cleaned {d₀ d : Db V} (h : CleanedFrom d₀ d) (id : Int) :
    ∃ cleaned : Bool, d.placeInfo? id = (d₀.placeInfo? id).map fun info => if cleaned then (cleanRow info).1 else info := by
  obtain ⟨which, rfl⟩ := h
  refine ⟨which id, ?_⟩
  unfold Db.placeInfo?
  dsimp only
  rw [Lib.Upsert.find?_modify cleanRow_placeId]
  cases hinfo : d₀.placeInfos.find? (·.placeId == id) with
  | none => rfl
  | some info =>
    have hid : info.placeId = id := by simpa using List.find?_some hinfo
    rw [Option.map_some, Option.map_some, hid]

/-- A clean-up keeps the facilities of every place. -/
theorem facilityTagNames_cleaned {d₀ d : Db V} (hfees : ∀ info ∈ d₀.placeInfos, info.CleanFee) (h : CleanedFrom d₀ d)
    (id : Int) : facilityTagNames (d.placeInfo? id) = facilityTagNames (d₀.placeInfo? id) := by
  obtain ⟨cleaned, hinfo⟩ := placeInfo?_cleaned h id
  rw [hinfo]
  cases hold : d₀.placeInfo? id with
  | none => rfl
  | some info =>
    rw [Option.map_some]
    split
    · exact PlaceInfo.facilityTagNames_cleanRow (hfees info (List.mem_of_find?_eq_some hold))
    · rfl

theorem storeOk_cleaned {d₀ d : Db V} {seq : Nat} (hok : StoreOk d₀ seq) (h : CleanedFrom d₀ d) : StoreOk d seq := by
  obtain ⟨which, rfl⟩ := h
  refine ⟨hok.places.congr rfl, ?_, ?_, hok.seeded⟩
  · show ((d₀.placeInfos.map _).map _).Nodup
    rw [List.map_map]
    have hkey : (·.placeId) ∘ (fun info : PlaceInfo => if which info.placeId then (cleanRow info).1 else info) = (·.placeId) := by
      funext info
      rw [Function.comp_apply]
      split
      · exact cleanRow_placeId info
      · rfl
    rw [hkey]
    exact hok.infoIds
  · intro info hinfo
    obtain ⟨old, hold, rfl⟩ := List.mem_map.mp hinfo
    split
    · exact PlaceInfo.cleanFee_cleanRow old
    · exact hok.fees old hold

theorem inStep_cleaned {d₀ d : Db V} (hfees : ∀ info ∈ d₀.placeInfos, info.CleanFee) (h : CleanedFrom d₀ d)
    (hstep : InStep d₀) : InStep d := by
  have hnames := facilityTagNames_cleaned hfees h
  obtain ⟨which, rfl⟩ := h
  intro place hplace
  exact ⟨(hstep place hplace).region, fun name => (hnames place.id) ▸ (hstep place hplace).facility name⟩

/-! ### Histories -/

/-- **When a step keeps the tags in step.** An item and a clean-up always do; a backfill
does if the rows that it writes have the facilities that their places had. -/
def KeepsFacilities (b : Txn.Base (Db V)) : Upkeep → Prop
  | .backfillDetails out contentTypeId limit dryRun refreshInfo =>
    ∀ write ∈ backfillWrites out contentTypeId limit dryRun refreshInfo b.db, SameFacilities b.db write
  | _ => True

theorem seq_le_saveCleaned {s : Nat} (out : Outside) (dryRun : Bool) (batchSize : Int) :
    Keeps (V := V) (fun _ n => s ≤ n) (cleanExistingPlaceInfo out dryRun batchSize) := by
  have hseq : ∀ (d : Db V) n m, n ≤ m → s ≤ n → s ≤ m := fun _ _ _ hnm hs => Nat.le_trans hs hnm
  refine (keeps_query hseq out).bind fun d => (keeps_tally _).bind fun _ => ?_
  cases dryRun with
  | true => exact keeps_pure ()
  | false =>
    refine (keeps_ofExcept _).bind fun batches => Keeps.forEach fun batch _ =>
      keeps_atomic hseq (atomic_bulkUpdateTexts batch) fun d n r h heval => ?_
    rw [bulkUpdateTexts_eval] at heval
    cases heval
    exact h

theorem storeOk_step {b : Txn.Base (Db V)} (h : StoreOk b.db b.seq) (o : Upkeep) :
    StoreOk (Upkeep.step b o).db (Upkeep.step b o).seq := by
  have hmono : ∀ (d : Db V) n m, n ≤ m → StoreOk d n → StoreOk d m := fun _ _ _ => StoreOk.mono
  cases o with
  | processListItem out contentTypeId listItem dryRun skipExisting existingIds =>
    exact keeps_processListItem hmono (fun _ _ _ _ _ _ _ _ _ _ hf h => h.saved hf) out contentTypeId listItem dryRun
      skipExisting existingIds {db := b.db, seq := b.seq, summary := {}} h
  | backfillDetails out contentTypeId limit dryRun refreshInfo =>
    refine keeps_backfillDetails hmono ?_ ?_ out contentTypeId limit refreshInfo {db := b.db, seq := b.seq, summary := {}} h
    · intro _ id tel d n h
      exact ⟨placesOk_updatePlace h.places id fun p => ⟨rfl, rfl⟩, h.infoIds, h.fees, h.seeded⟩
    · intro _ id type item defaults d n hdefaults h
      exact h.saveInfo id (cleanFees_of_build hdefaults)
  | cleanExistingPlaceInfo out dryRun batchSize =>
    have hcleaned := cleanExistingPlaceInfo_cleans out dryRun batchSize {db := b.db, seq := b.seq, summary := {}} h.infoIds
    have hle : b.seq ≤ (Upkeep.step b (.cleanExistingPlaceInfo out dryRun batchSize)).seq :=
      seq_le_saveCleaned out dryRun batchSize {db := b.db, seq := b.seq, summary := {}} (Nat.le_refl b.seq)
    exact (storeOk_cleaned h hcleaned).mono hle

theorem backfilled_step (b : Txn.Base (Db V)) (out : Outside) (contentTypeId : Option Int) (limit : Option Nat)
    (dryRun refreshInfo : Bool) : Backfilled (backfillWrites out contentTypeId limit dryRun refreshInfo b.db) b.db
      (Upkeep.step b (.backfillDetails out contentTypeId limit dryRun refreshInfo)).db :=
  backfilled_backfillDetails out contentTypeId limit dryRun refreshInfo b.db b.seq

theorem inStep_step {b : Txn.Base (Db V)} (hok : StoreOk b.db b.seq) (hstep : InStep b.db) (o : Upkeep) :
    InStep (Upkeep.step b o).db ↔ KeepsFacilities b o := by
  cases o with
  | processListItem out contentTypeId listItem dryRun skipExisting existingIds =>
    refine iff_of_true ?_ trivial
    have hafter : UpToDate (Upkeep.step b (.processListItem out contentTypeId listItem dryRun skipExisting existingIds)).db
        (Upkeep.step b (.processListItem out contentTypeId listItem dryRun skipExisting existingIds)).seq :=
      keeps_processListItem (I := UpToDate) (fun _ _ _ hle h => ⟨h.1.mono hle, h.2⟩) (fun _ _ _ _ _ _ _ _ _ _ hf h => h.saved hf)
        out contentTypeId listItem dryRun skipExisting existingIds {db := b.db, seq := b.seq, summary := {}}
        (upToDate_iff.mpr ⟨hok, hstep⟩)
    exact (upToDate_iff.mp hafter).2
  | backfillDetails out contentTypeId limit dryRun refreshInfo =>
    have hsub : ((backfillWrites out contentTypeId limit dryRun refreshInfo b.db).map (·.1)).Sublist
        ((b.db.backfillTargets contentTypeId limit).map (·.id)) := by
      unfold backfillWrites
      dsimp only
      split
      · exact List.nil_sublist _
      · exact infoWrites_targets ..
    refine inStep_backfilled (backfilled_step b out contentTypeId limit dryRun refreshInfo) ?_ ?_ hstep
    · exact hsub.nodup (nodup_backfillTargets_ids hok.places.ids contentTypeId limit)
    · intro write hwrite
      obtain ⟨target, htarget, hid⟩ := List.mem_map.mp (hsub.subset (List.mem_map_of_mem hwrite))
      obtain ⟨place, hplace, -, rfl⟩ := mem_backfillTargets htarget
      exact List.mem_map.mpr ⟨place, hplace, hid⟩
  | cleanExistingPlaceInfo out dryRun batchSize =>
    refine iff_of_true (inStep_cleaned hok.fees ?_ hstep) trivial
    exact cleanExistingPlaceInfo_cleans out dryRun batchSize {db := b.db, seq := b.seq, summary := {}} hok.infoIds

/-- **The deterministic tags of every place stay in step** with its address and its
`PlaceInfo`, all along a history of upkeep of an empty store, if and only if no backfill
writes a row with other facilities than the place had. -/
theorem tags_in_step_iff {b : Txn.Base (Db V)} (hseeded : Seeded b.db.tags) (hplaces : b.db.places = [])
    (hinfos : b.db.placeInfos = []) (steps : List Upkeep) :
    (∀ t ∈ states Upkeep.step b steps, InStep t.db) ↔ Along Upkeep.step KeepsFacilities b steps := by
  have hempty : StoreOk b.db b.seq := by
    refine ⟨⟨?_, ?_, ?_⟩, ?_, ?_, hseeded⟩
    · exact hplaces ▸ List.nodup_nil
    · exact hplaces ▸ List.nodup_nil
    · exact fun place hplace => (List.not_mem_nil (hplaces ▸ hplace)).elim
    · exact hinfos ▸ List.nodup_nil
    · exact fun info hinfo => (List.not_mem_nil (hinfos ▸ hinfo)).elim
  refine forall_states_iff (K := fun b => StoreOk b.db b.seq) (fun _ o h => storeOk_step h o) (fun _ o hok hi => inStep_step hok hi o)
    hempty ?_ steps
  exact fun place hplace => (List.not_mem_nil (hplaces ▸ hplace)).elim

/-! ### An intro that is out later -/

/-- The tags of `TAG_SEEDS` of the two types. -/
def deterministicSeeds : List Tag :=
  let regions := ["서울", "인천", "대전", "대구", "광주", "부산", "울산", "세종", "경기", "강원", "충북", "충남", "전북", "전남",
    "경북", "경남", "제주"]
  let facilities := ["주차", "반려동물", "무료", "유아 동반", "카드 결제"]
  ((regions.map fun name => (regionTagType, name)) ++ facilities.map fun name => (facilityTagType, name)).zipIdx.map
    fun ((tagType, tagName), i) => ⟨i + 1, tagType, tagName⟩

theorem seeded_deterministicSeeds : Seeded deterministicSeeds := ⟨⟨by decide, by decide⟩, by decide, by decide⟩

/-- An empty place store under the seeds. -/
def seededStore : Txn.Base (Db Unit) := ⟨{tags := deterministicSeeds}, 1⟩

/-- A place is stored without an intro. -/
def storedFirst : Upkeep :=
  .processListItem (answering fun _ _ => none) 12 [("firstimage", .str "a"), ("contentid", .int 7), ("contenttypeid", .int 12)]
    false false none

/-- Later there is an intro, with a car park. -/
def carPark : Outside := answering fun _ _ => some [("parking", .str "가능")]

def lateIntro : List Upkeep := [storedFirst, .backfillDetails carPark none none false false]

/-- An intro with nothing but opening hours. -/
def openHours : Outside := answering fun _ _ => some [("usetime", .str "09:00")]

def lateHours : List Upkeep :=
  [storedFirst, .backfillDetails openHours none none false false, .cleanExistingPlaceInfo openHours false 500]

/-- A backfill with an intro writes the row of the intro. -/
theorem backfillWrites_storedFirst (intro : Item) :
    backfillWrites (answering fun _ _ => some intro) none none false false (Upkeep.step seededStore storedFirst).db =
      (buildPlaceInfoDefaults 12 intro).toList.map ((1 : Int), ·) := by
  have htargets : (Upkeep.step seededStore storedFirst).db.backfillTargets none none = [⟨1, 7, 12⟩] := rfl
  have hopens : ∀ n asked, ∃ n', nextTransaction (answering fun _ _ => some intro) n asked = some n' := by
    intro n asked
    cases asked <;> exact ⟨_, rfl⟩
  have hnext : ∃ n, targetNext (answering fun _ _ => some intro) false
      ((Upkeep.step seededStore storedFirst).db.hasInfo [⟨1, 7, 12⟩]) 2 ⟨1, 7, 12⟩ (some intro) = some n := by
    unfold targetNext
    obtain ⟨n, hn⟩ := hopens 2 (telOf (fun _ _ => some intro) ⟨1, 7, 12⟩).isSome
    rw [hn]
    exact hopens n _
  obtain ⟨n, hn⟩ := hnext
  unfold backfillWrites
  dsimp only
  rw [htargets]
  show infoWrites (answering fun _ _ => some intro) false _ 0 2 [⟨1, 7, 12⟩] = _
  rw [infoWrites]
  dsimp only [answering_get, listed, Option.toList_some, List.head?_cons]
  rw [hn]
  show (infoAsked false _ _ _).toList.map _ ++ [] = _
  unfold infoAsked
  rw [if_pos (by rfl), List.append_nil]
  rfl

theorem backfillWrites_openHours : backfillWrites openHours none none false false (Upkeep.step seededStore storedFirst).db =
    [(1, [.text .operatingHours (some "09:00"), .text .closedDays none, .flag .parking none, .text .accomCount none,
      .flag .pet none, .flag .babyCarriage none, .flag .creditCard none])] := by
  rw [openHours, backfillWrites_storedFirst]
  decide +kernel

/-- The backfill writes a row, and no facilities. -/
theorem keepsFacilities_lateHours : Along Upkeep.step KeepsFacilities seededStore lateHours := by
  refine ⟨trivial, ?_, trivial, trivial⟩
  show ∀ write ∈ backfillWrites openHours none none false false (Upkeep.step seededStore storedFirst).db, _
  have hnone : (Upkeep.step seededStore storedFirst).db.placeInfo? 1 = none := rfl
  rw [backfillWrites_openHours]
  refine List.forall_mem_singleton.mpr fun name => ?_
  unfold writtenInfo
  dsimp only
  rw [hnone]
  exact iff_of_eq (congrArg (name ∈ ·) rfl)

theorem tags_in_step_iff_lateHours : Along Upkeep.step KeepsFacilities seededStore lateHours ∧
    ((∀ t ∈ states Upkeep.step seededStore lateHours, InStep t.db) ↔
      Along Upkeep.step KeepsFacilities seededStore lateHours) :=
  ⟨keepsFacilities_lateHours, tags_in_step_iff seeded_deterministicSeeds rfl rfl lateHours⟩

theorem backfillWrites_carPark : backfillWrites carPark none none false false (Upkeep.step seededStore storedFirst).db =
    [(1, [.text .operatingHours none, .text .closedDays none, .flag .parking (some true), .text .accomCount none,
      .flag .pet none, .flag .babyCarriage none, .flag .creditCard none])] := by
  rw [carPark, backfillWrites_storedFirst]
  decide +kernel

/-- The place has a car park, and no tag that says so. -/
theorem car_park_untagged : ¬ ∀ t ∈ states Upkeep.step seededStore lateIntro, InStep t.db := by
  intro h
  have hlast := h _ (Lib.History.foldl_mem_states seededStore lateIntro)
  unfold lateIntro at hlast
  rw [List.foldl_cons, List.foldl_cons, List.foldl_nil] at hlast
  have hwritten := backfilled_step (Upkeep.step seededStore storedFirst) carPark none none false false
  have hplaces : (Upkeep.step seededStore storedFirst).db.places.map (fun p => (p.id, p.addressPrimary)) = [(1, none)] := rfl
  have hplaceTags : (Upkeep.step seededStore storedFirst).db.placeTags = [] := rfl
  have hnone : (Upkeep.step seededStore storedFirst).db.placeInfo? 1 = none := rfl
  rw [backfillWrites_carPark] at hwritten
  have hmem := List.mem_singleton_self ((1 : Int), (none : Option String))
  rw [← hplaces, ← hwritten.places] at hmem
  obtain ⟨place, hplace, hrow⟩ := List.mem_map.mp hmem
  have hinfo := (placeInfo?_backfilled hwritten (List.nodup_singleton _) place.id).1 _
    (List.mem_singleton.mpr (Prod.ext (Prod.mk.inj hrow).1 rfl))
  unfold writtenInfo at hinfo
  dsimp only at hinfo
  rw [(Prod.mk.inj hrow).1, hnone] at hinfo
  have hname : "주차" ∈ facilityTagNames ((Upkeep.step (Upkeep.step seededStore storedFirst)
      (.backfillDetails carPark none none false false)).db.placeInfo? place.id) := by
    rw [(Prod.mk.inj hrow).1, hinfo]
    decide
  obtain ⟨tag, htag, -⟩ := ((hlast place hplace).facility "주차").mpr hname
  have htagged := (mem_tagsOf.mp htag).2
  rw [hwritten.placeTags, hplaceTags] at htagged
  exact List.not_mem_nil htagged

end TravelMaker
