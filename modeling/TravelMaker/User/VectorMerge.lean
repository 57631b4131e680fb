import TravelMaker.User.Delivery

/-! The nightly batch beside the incremental task.

The content vector is read as the bag of logs it contains: the batch replaces it by
the logs it read, an incremental run adds its log. The batch neither looks at
`processed` nor takes the row before it reads the logs, so a log it read can be
applied later once more, and a log applied between its read and its write is lost.
`whole_exec_iff` says when the bag is right in the end. -/
namespace TravelMaker
open Lib (Txn)
open Lib.ReadCommitted

/-! ### Vectors as bags of logs -/

/-- A vector that remembers the logs it was made of. -/
abbrev Bag := List Int

def bagOps : VectorOps Bag where
  applyIncrementalUpdate v log _ := some (v.getD [] ++ [log.id])
  computeUserContentVector _ logs := some (logs.map (·.1.id))

namespace Db

/-- The logs that the vector of the user contains. -/
def contents (d : Db Bag) (u : Int) : Bag := (d.preferenceD u).contentVector.getD []

def logIds (d : Db Bag) (u : Int) : List Int := (d.actionLogs.filter (·.userId == u)).map (·.id)

def processedIds (d : Db Bag) (u : Int) : List Int :=
  (d.actionLogs.filter fun log => log.userId == u && log.processed).map (·.id)

end Db

/-- The vector of the user, if there is one, contains the processed logs, each once. -/
def Whole (u : Int) (d : Db Bag) : Prop :=
  s3ActionCountThreshold ≤ (d.preferenceD u).actionCount → (d.contents u).Perm (d.processedIds u)

theorem contents_incremented {log : UserActionLog} {v : Option Bag} {p : UserPreference Bag}
    (hv : v.isSome = true) (hcount : s3ActionCountThreshold ≤ p.actionCount + 1) :
    (p.incremented bagOps log v).contentVector.getD [] = p.contentVector.getD [] ++ [log.id] := by
  obtain ⟨x, rfl⟩ := Option.isSome_iff_exists.mp hv
  have hs3 : shouldBeS3 (p.actionCount + 1) = true := by simpa [shouldBeS3] using hcount
  simp [UserPreference.incremented, hs3, bagOps]

/-- A new log is not processed. -/
theorem processedIds_insertActionLog {log : UserActionLog} (h : log.processed = false) (d : Db Bag) (u : Int) :
    (d.insertActionLog log).processedIds u = d.processedIds u := by
  simp [Db.insertActionLog, Db.addActionLogs, Db.processedIds, h]

/-- The processed logs of a user among `logs`, after `logId` is marked. -/
theorem filter_mark_cons (u logId : Int) (log : UserActionLog) (rest : List UserActionLog) :
    (((log :: rest).map fun l => if l.id = logId then {l with processed := true} else l).filter
      fun l => l.userId == u && l.processed).map (·.id) =
    (if log.userId = u ∧ (log.id = logId ∨ log.processed = true) then [log.id] else []) ++
      ((rest.map fun l => if l.id = logId then {l with processed := true} else l).filter
        fun l => l.userId == u && l.processed).map (·.id) := by
  by_cases hid : log.id = logId <;> by_cases hu : log.userId = u <;> cases hp : log.processed <;>
    simp [hid, hu, hp]

/-- Marking a log of another user changes nothing for this one. -/
theorem processedIds_markProcessed_other {d : Db Bag} {u logId : Int}
    (h : ∀ log ∈ d.actionLogs, log.id = logId → log.userId ≠ u) :
    (d.markProcessed logId).processedIds u = d.processedIds u := by
  simp only [Db.processedIds, Db.markProcessed]
  induction hlogs : d.actionLogs generalizing d with
  | nil => rfl
  | cons log rest ih =>
    rw [hlogs] at h
    rw [filter_mark_cons, ih (d := {d with actionLogs := rest})
      (fun l hl => h l (List.mem_cons_of_mem _ hl)) rfl]
    have hiff : (log.userId = u ∧ (log.id = logId ∨ log.processed = true)) ↔
        (log.userId = u ∧ log.processed = true) :=
      and_congr_right fun hu => or_iff_right fun hid => h log List.mem_cons_self hid hu
    simp only [hiff]
    cases hp : log.processed <;> by_cases hu : log.userId = u <;> simp [hp, hu]

/-- Marking an unprocessed log of the user adds it. -/
theorem processedIds_markProcessed {d : Db Bag} {u logId : Int} {log : UserActionLog}
    (hnodup : (d.actionLogs.map (·.id)).Nodup) (hlog : log ∈ d.actionLogs) (hid : log.id = logId)
    (hu : log.userId = u) (hp : log.processed = false) :
    ((d.markProcessed logId).processedIds u).Perm (d.processedIds u ++ [logId]) := by
  simp only [Db.processedIds, Db.markProcessed]
  induction hlogs : d.actionLogs generalizing d with
  | nil => rw [hlogs] at hlog; cases hlog
  | cons x rest ih =>
    rw [hlogs] at hnodup hlog
    obtain ⟨hx, hrest⟩ := List.nodup_cons.mp hnodup
    rw [filter_mark_cons]
    rcases List.mem_cons.mp hlog with rfl | hmem
    · -- the log itself; the rest has other ids
      have hother : (Db.markProcessed logId {d with actionLogs := rest}).processedIds u =
          Db.processedIds {d with actionLogs := rest} u := processedIds_markProcessed_other fun l hl hl' =>
        absurd (List.mem_map.mpr ⟨l, hl, hl'.trans hid.symm⟩) hx
      simp only [Db.processedIds, Db.markProcessed] at hother
      rw [hother, if_pos ⟨hu, .inl hid⟩, List.filter_cons_of_neg (by simp [hp]), hid]
      exact List.perm_append_comm
    · have hne : x.id ≠ logId := fun h => hx (List.mem_map.mpr ⟨log, hmem, hid.trans h.symm⟩)
      have hperm := ih (d := {d with actionLogs := rest}) hrest hmem rfl
      simp only [hne, false_or]
      cases hxp : x.processed <;> by_cases hxu : x.userId = u <;>
        simp [hxp, hxu] <;> exact hperm

/-! ### The tasks -/

inductive VectorTask where
  | record (now : Instant) (userId : Int) (place : Place) (actionType : ActionType)
      (rating : Option Rating)
  | deliver (l : Delivery)
  | batch (now : Instant)
deriving DecidableEq

def VectorTask.program {V : Type} (ops : VectorOps V) : VectorTask → Service V Unit
  | .record now userId place actionType rating => do
    let _ ← recordAction now userId place actionType rating
    return ()
  | .deliver l => l.program ops
  | .batch now => recomputeUserContentVectorsBatch ops now

section
variable (u : Int) (d : Db Bag) (requests : List VectorTask)

/-- The log counts for every batch of the run. -/
def Recent (createdAt : Instant) : Prop :=
  ∀ now, .batch now ∈ requests → now - timedeltaDays behaviorLookbackDays ≤ createdAt

/-- Log ids are distinct, and every log is recent and of an embedded place. -/
structure LogsOk (c : Db Bag) : Prop where
  nodup : (c.actionLogs.map (·.id)).Nodup
  recent : ∀ log ∈ c.actionLogs, Recent requests log.createdAt
  embedded : ∀ log ∈ c.actionLogs, (c.contentVector? log.placeId).isSome = true
  features : c.placeFeatures = d.placeFeatures

/-- Logs stay, and stay processed. -/
def LogsGrow (c c' : Db Bag) : Prop :=
  ∀ log ∈ c.actionLogs, ∃ log' ∈ c'.actionLogs, log'.id = log.id ∧ log'.userId = log.userId ∧
    (log.processed = true → log'.processed = true)

def vectorProtocol : Protocol (Db Bag) RowKey (Option (UserPreference Bag)) where
  row := .preference u
  part := fun c => c.preference? u
  inv := LogsOk d requests
  unused := fun n c => ∀ log ∈ c.actionLogs, log.id ≠ n
  grows := LogsGrow
  refl := fun _ log hlog => ⟨log, hlog, rfl, rfl, id⟩
  trans := by
    intro c c' c'' h h' log hlog
    obtain ⟨log', hlog', hid, hu, hp⟩ := h log hlog
    obtain ⟨log'', hlog'', hid', hu', hp'⟩ := h' log' hlog'
    exact ⟨log'', hlog'', hid'.trans hid, hu'.trans hu, fun hlp => hp' (hp hlp)⟩

/-- A log is delivered once its transaction has committed; the place of an action is
embedded. -/
def VectorTask.Allowed (l : VectorTask) (c : Db Bag) : Prop :=
  l ∈ requests ∧ match l with
    | .record now _ place _ _ => Recent requests now ∧ (d.contentVector? place.id).isSome = true
    | .deliver l => ∃ log ∈ c.actionLogs, log.id = l.logId ∧ log.userId = l.userId
    | .batch _ => True

/-- What the tasks commit. -/
inductive VectorRule : VectorTask → RowKnowledge Bag → Prop where
  | record {now : Instant} {w : Int} {place : Place} {actionType : ActionType} {rating : Option Rating}
      {k : RowKnowledge Bag} (log : UserActionLog) (hlog : k.log = [Db.insertActionLog log]) (hheld : k.held = none)
      (hid : ∃ n ∈ k.drawn, log.id = (n : Int)) (hnew : log.processed = false)
      (hrecent : Recent requests log.createdAt)
      (hplace : (d.contentVector? log.placeId).isSome = true) :
      VectorRule (.record now w place actionType rating) k
  | deliver {l : Delivery} {k : RowKnowledge Bag} (hrule : IncrementalRule bagOps u l.userId l.logId k)
      (c₀ : Db Bag) (hseen : k.seen = some c₀) (hok : LogsOk d requests c₀)
      (hlog : ∃ log ∈ c₀.actionLogs, log.id = l.logId ∧ log.userId = l.userId) : VectorRule (.deliver l) k
  | nothing {now : Instant} {k : RowKnowledge Bag} (hlog : k.log = []) (hheld : k.held = none) :
      VectorRule (.batch now) k
  | batch {now : Instant} {k : RowKnowledge Bag} (w : Int) (c₀ : Db Bag) (hseen : k.seen = some c₀)
      (hok : LogsOk d requests c₀) (hheld : k.held.isSome = true ↔ w = u)
      (hlog : k.log = [Db.saveContentVector w (some (c₀.logIds w))]) : VectorRule (.batch now) k

end

variable {u : Int} {d : Db Bag} {requests : List VectorTask}

/-- All logs of the user enter the vector that the batch computes. -/
theorem recentLogs_ids {c : Db Bag} (h : LogsOk d requests c) {now : Instant}
    (hnow : .batch now ∈ requests) (w : Int) :
    computeUserContentVectorForUser bagOps now c w = some (c.logIds w) := by
  have hfilter : (c.actionLogs.filter fun log =>
      log.userId == w && decide (now - timedeltaDays behaviorLookbackDays ≤ log.createdAt)) =
        c.actionLogs.filter (·.userId == w) := by
    refine List.filter_congr fun log hlog => ?_
    rw [decide_eq_true (h.recent log hlog now hnow), Bool.and_true]
  have hmap : ∀ logs : List UserActionLog, (∀ log ∈ logs, log ∈ c.actionLogs) →
      (logs.filterMap fun log => (c.contentVector? log.placeId).map fun v => (log, v)).map (·.1.id) =
        logs.map (·.id) := by
    intro logs hlogs
    induction logs with
    | nil => rfl
    | cons log rest ih =>
      obtain ⟨v, hv⟩ := Option.isSome_iff_exists.mp (h.embedded log (hlogs log List.mem_cons_self))
      rw [List.filterMap_cons_some (b := (log, v)) (by rw [hv]; rfl), List.map_cons, List.map_cons,
        ih fun l hl => hlogs l (List.mem_cons_of_mem _ hl)]
  simp only [computeUserContentVectorForUser, bagOps, Db.recentLogs, hfilter, Db.logIds]
  rw [hmap _ fun log hlog => (List.mem_filter.mp hlog).1]

theorem guarded_record {now : Instant} {w : Int} {place : Place} {actionType : ActionType}
    {rating : Option Rating} {k : RowKnowledge Bag} (hlog : k.log = []) (hheld : k.held = none)
    (hrecent : Recent requests now) (hplace : (d.contentVector? place.id).isSome = true) :
    Guarded (vectorProtocol u d requests)
      (VectorRule u d requests (.record now w place actionType rating)) k
      (VectorTask.program bagOps (.record now w place actionType rating)) := by
  simp only [VectorTask.program, recordAction, Txn.read_bind, Txn.query_bind, guarded_query, hlog, replay_nil]
  intro c hc
  cases computeFinalWeight actionType c place rating with
  | error e => trivial
  | ok weight =>
    simp only [Txn.fresh_bind, Txn.nextval_bind, Txn.put_bind, Txn.write_bind, Txn.pure_eq, Txn.ret_bind,
      guarded_nextval, guarded_write, guarded_ret]
    intro n _ c' hc'
    rw [take_ne (by simp [vectorProtocol])]
    let log : UserActionLog := {
      id := n
      userId := w
      placeId := place.id
      actionType := actionType
      weight := weight
      createdAt := now }
    refine .record log ?_ hheld ⟨n, List.mem_cons_self, rfl⟩ rfl hrecent hplace
    show k.log ++ _ = _
    rw [hlog]
    rfl

theorem guarded_recomputeEach {now : Instant} (hnow : .batch now ∈ requests)
    (preferences : List (UserPreference Bag)) {k : RowKnowledge Bag} (hlog : k.log = []) (hheld : k.held = none) :
    Guarded (vectorProtocol u d requests) (VectorRule u d requests (.batch now)) k
      (recomputeEach bagOps now preferences) := by
  induction preferences generalizing k with
  | nil => exact .nothing hlog hheld
  | cons preference rest ih =>
    simp only [recomputeEach, Txn.read_bind, Txn.put_bind, Txn.orRaise_bind, Txn.commitNow_bind,
      guarded_query, guarded_write, hlog, replay_nil]
    intro c hc c₁ hc₁
    split
    · refine ⟨.batch preference.userId c rfl hc.inv ?_ ?_, fun c₂ hc₂ => ih rfl rfl⟩
      · by_cases hw : preference.userId = u
        · subst hw
          refine iff_of_true ?_ rfl
          exact congrArg (fun k => Option.isSome (Knowledge.held k))
            (take_row (vectorProtocol preference.userId d requests))
        · rw [take_ne (by simp [vectorProtocol, hw])]
          simp [Knowledge.write, Knowledge.look, hheld, hw]
      · rw [recentLogs_ids hc.inv hnow]
        simp [Knowledge.write, Knowledge.take, Knowledge.look, hlog]
    · trivial

theorem guarded_task (l : VectorTask) (c : Db Bag) (hl : l.Allowed d requests c) :
    Guarded (vectorProtocol u d requests) (VectorRule u d requests l) (Knowledge.look {} c)
      (l.program bagOps) := by
  obtain ⟨hmem, hl⟩ := hl
  cases l with
  | record now w place actionType rating => exact guarded_record rfl rfl hl.1 hl.2
  | deliver l =>
    refine guarded_incremental rfl (fun _ => rfl) rfl rfl fun k c₀ hc₀ hseen hrule => ?_
    obtain ⟨log, hlog, hid, hu⟩ := hl
    obtain ⟨log', hlog', hid', hu', -⟩ := hc₀.seen c rfl log hlog
    exact .deliver hrule c₀ hseen hc₀.inv ⟨log', hlog', hid'.trans hid, hu'.trans hu⟩
  | batch now =>
    simp only [VectorTask.program, recomputeUserContentVectorsBatch, Txn.read_bind, guarded_query]
    exact fun c' _ => guarded_recomputeEach hmem _ rfl rfl

/-! ### What a commit keeps -/

/-- The logs before and after `logId` is marked correspond. -/
theorem mem_markProcessed {c : Db Bag} {logId : Int} {log : UserActionLog}
    (h : log ∈ (c.markProcessed logId).actionLogs) : ∃ log' ∈ c.actionLogs,
      log.id = log'.id ∧ log.placeId = log'.placeId ∧ log.createdAt = log'.createdAt := by
  obtain ⟨log', hlog', rfl⟩ := List.mem_map.mp h
  refine ⟨log', hlog', ?_⟩
  split <;> exact ⟨rfl, rfl, rfl⟩

theorem logsGrow_markProcessed (c : Db Bag) (logId : Int) : LogsGrow c (c.markProcessed logId) := by
  intro log hlog
  refine ⟨_, List.mem_map_of_mem hlog, ?_⟩
  split
  · exact ⟨rfl, rfl, fun _ => rfl⟩
  · exact ⟨rfl, rfl, id⟩

theorem LogsOk.congr {c c' : Db Bag} (h : LogsOk d requests c) (hlogs : c'.actionLogs = c.actionLogs)
    (hfeatures : c'.placeFeatures = c.placeFeatures) : LogsOk d requests c' where
  nodup := by rw [hlogs]; exact h.nodup
  recent := by rw [hlogs]; exact h.recent
  embedded := by
    rw [hlogs]
    intro log hlog
    rw [Db.contentVector?, hfeatures]
    exact h.embedded log hlog
  features := hfeatures.trans h.features

theorem LogsOk.markProcessed {c : Db Bag} (h : LogsOk d requests c) (logId : Int) :
    LogsOk d requests (c.markProcessed logId) where
  nodup := by
    have hids : (c.markProcessed logId).actionLogs.map (·.id) = c.actionLogs.map (·.id) := by
      rw [Db.markProcessed, List.map_map]
      exact List.map_congr_left fun log _ => by
        simp only [Function.comp_apply]
        split <;> rfl
    rw [hids]
    exact h.nodup
  recent := by
    intro log hlog
    obtain ⟨log', hlog', -, -, ht⟩ := mem_markProcessed hlog
    rw [ht]
    exact h.recent log' hlog'
  embedded := by
    intro log hlog
    obtain ⟨log', hlog', -, hp, -⟩ := mem_markProcessed hlog
    rw [hp]
    exact h.embedded log' hlog'
  features := h.features

theorem LogsOk.insertActionLog {c : Db Bag} (h : LogsOk d requests c) {log : UserActionLog}
    (hid : ∀ l ∈ c.actionLogs, l.id ≠ log.id) (hrecent : Recent requests log.createdAt)
    (hplace : (d.contentVector? log.placeId).isSome = true) :
    LogsOk d requests (c.insertActionLog log) := by
  have hmem : ∀ l ∈ (c.insertActionLog log).actionLogs, l ∈ c.actionLogs ∨ l = log := by
    intro l hl
    rcases List.mem_append.mp hl with hl | hl
    · exact .inl hl
    · exact .inr (List.mem_singleton.mp hl)
  refine ⟨?_, fun l hl => ?_, fun l hl => ?_, h.features⟩
  · show ((c.actionLogs ++ [log]).map (·.id)).Nodup
    rw [List.map_append]
    refine h.nodup.append (List.nodup_singleton _) fun id hold hnew => ?_
    obtain ⟨l, hl, rfl⟩ := List.mem_map.mp hold
    exact hid l hl (List.mem_singleton.mp hnew)
  · rcases hmem l hl with hl | rfl
    · exact h.recent l hl
    · exact hrecent
  · rcases hmem l hl with hl | rfl
    · exact h.embedded l hl
    · show (c.contentVector? l.placeId).isSome = true
      rw [Db.contentVector?, h.features]
      exact hplace

/-- What a task leaves of the logs: they are as they were, with a new one, or with one marked. -/
theorem VectorRule.logs {l : VectorTask} {k : RowKnowledge Bag} {c : Db Bag} (hr : VectorRule u d requests l k) :
    (replay k.log c).placeFeatures = c.placeFeatures ∧
      ((replay k.log c).actionLogs = c.actionLogs ∨
        (∃ log, (∃ n ∈ k.drawn, log.id = (n : Int)) ∧ Recent requests log.createdAt ∧
          (d.contentVector? log.placeId).isSome = true ∧ (replay k.log c).actionLogs = c.actionLogs ++ [log]) ∨
        ∃ logId, (replay k.log c).actionLogs = (c.markProcessed logId).actionLogs) := by
  cases hr with
  | record log hlog hheld hid hnew hrecent hplace =>
    rw [hlog]
    exact ⟨rfl, .inr (.inl ⟨log, hid, hrecent, hplace, rfl⟩)⟩
  | deliver hrule c₀ hseen hok hrow =>
    rcases hrule with ⟨c₁, h⟩ | ⟨c₁, log, p, h⟩
    · rw [h.log]
      exact ⟨rfl, .inl rfl⟩
    · exact ⟨h.features, .inr (.inr ⟨_, h.logs⟩)⟩
  | nothing hlog hheld =>
    rw [hlog]
    exact ⟨rfl, .inl rfl⟩
  | batch w c₀ hseen hok hheld hlog =>
    rw [hlog]
    exact ⟨rfl, .inl rfl⟩

theorem vector_discipline : Discipline (vectorProtocol u d requests) (VectorTask.program bagOps)
    (VectorTask.Allowed d requests) (VectorRule u d requests) where
  guarded := fun l c hl _ => guarded_task l c hl
  keeps := by
    intro l k c hr hc
    obtain ⟨hfeatures, hlogs | ⟨log, ⟨n, hn, hid⟩, hrecent, hplace, hlogs⟩ | ⟨logId, hlogs⟩⟩ := hr.logs (c := c)
    · exact hc.inv.congr hlogs hfeatures
    · have hinserted : LogsOk d requests (c.insertActionLog log) :=
        hc.inv.insertActionLog (fun l hl => hid ▸ hc.drawn n hn l hl) hrecent hplace
      exact hinserted.congr hlogs hfeatures
    · exact (hc.inv.markProcessed logId).congr hlogs hfeatures
  clean := by
    intro l k c hr hc hnone
    cases hr with
    | record log hlog hheld hid hnew hrecent hplace =>
      rw [hlog]
      rfl
    | deliver hrule c₀ hseen hok hrow =>
      rcases hrule with ⟨c₁, h⟩ | ⟨c₁, log, p, h⟩
      · rw [h.log]
        rfl
      · refine h.other fun hw => ?_
        obtain ⟨x, hx, -⟩ := h.held hw
        rw [hx] at hnone
        cases hnone
    | nothing hlog hheld =>
      rw [hlog]
      rfl
    | batch w c₀ hseen hok hheld hlog =>
      have hw : ¬ u = w := fun hw => by
        have := hheld.mpr hw.symm
        rw [hnone] at this
        cases this
      rw [hlog]
      exact (Db.preference?_saveContentVector w u _ c).trans (if_neg hw)
  fresh := by
    intro l k c n hr hc hn hunused log' hlog'
    obtain ⟨-, hlogs | ⟨log, ⟨m, hm, hid⟩, -, -, hlogs⟩ | ⟨logId, hlogs⟩⟩ := hr.logs (c := c)
    · exact hunused log' (hlogs ▸ hlog')
    · rw [hlogs] at hlog'
      rcases List.mem_append.mp hlog' with hold | hnew
      · exact hunused log' hold
      · rw [List.mem_singleton.mp hnew, hid]
        exact fun h => hn (Int.ofNat_inj.mp h ▸ hm)
    · rw [hlogs] at hlog'
      obtain ⟨log, hlog, hid, -⟩ := mem_markProcessed hlog'
      rw [hid]
      exact hunused log hlog
  grows := by
    intro l k c hr hc log hlog
    obtain ⟨-, hlogs | ⟨new, -, -, -, hlogs⟩ | ⟨logId, hlogs⟩⟩ := hr.logs (c := c)
    · exact ⟨log, hlogs ▸ hlog, rfl, rfl, id⟩
    · exact ⟨log, hlogs ▸ List.mem_append_left _ hlog, rfl, rfl, id⟩
    · rw [hlogs]
      exact logsGrow_markProcessed c logId log hlog

/-! ### One step -/

/-- A connection that holds the row of the user is about to commit: the task it
runs, and the data it last looked at. -/
def CommitsRow (u : Int) (s : State (Db Bag) RowKey Exc Unit VectorTask) (a : Action VectorTask)
    (l : VectorTask) (seen : Option (Db Bag)) : Prop :=
  ∃ i p, a = .advance i ∧ (s.sessions i).work = some (l, p) ∧ p.Commits ∧
    s.holder (.preference u) = some i ∧ (s.sessions i).seen = seen

/-- A commit of `l` keeps a whole vector whole: an applied log is still unprocessed,
and one that takes the user to the threshold finds the processed logs in the vector. -/
def KeptBy (u : Int) (c : Db Bag) : VectorTask → Prop
  | .record .. => True
  | .deliver l => (c.preferenceD u).actionCount + 1 < s3ActionCountThreshold ∨
      ((c.unprocessedLog? l.logId).isSome = true ∧
        ((c.preferenceD u).actionCount + 1 = s3ActionCountThreshold →
          (c.contents u).Perm (c.processedIds u)))
  | .batch _ => (c.preferenceD u).actionCount < s3ActionCountThreshold

/-- A commit of `l` makes the vector whole: a batch has read exactly the logs that
are processed by now, or a second application supplies the one log that is missing. -/
def MendedBy (u : Int) (c : Db Bag) (seen : Option (Db Bag)) : VectorTask → Prop
  | .record .. => False
  | .deliver l => c.unprocessedLog? l.logId = none ∧ (c.contents u ++ [l.logId]).Perm (c.processedIds u)
  | .batch _ => ∃ c₀, seen = some c₀ ∧ (c₀.logIds u).Perm (c.processedIds u)

def KeepsWhole (u : Int) (s : State (Db Bag) RowKey Exc Unit VectorTask) (a : Action VectorTask) : Prop :=
  ∀ l seen, CommitsRow u s a l seen → KeptBy u s.committed l

def MendsWhole (u : Int) (s : State (Db Bag) RowKey Exc Unit VectorTask) (a : Action VectorTask) : Prop :=
  ∃ l seen, CommitsRow u s a l seen ∧ MendedBy u s.committed seen l

/-- The run of a delivery has returned only with its log processed. -/
def ReturnsProcessed (s : State (Db Bag) RowKey Exc Unit VectorTask) : Prop :=
  ∀ l, .deliver l ∈ s.returned → ∃ log ∈ s.committed.actionLogs, log.id = l.logId ∧ log.processed = true

theorem Whole.congr {c c' : Db Bag} (hp : c'.preference? u = c.preference? u)
    (hids : c'.processedIds u = c.processedIds u) : Whole u c' ↔ Whole u c := by
  unfold Whole Db.contents
  rw [preferenceD_congr hp, hids]

theorem processedIds_congr {c c' : Db Bag} (h : c'.actionLogs = c.actionLogs) (u : Int) :
    c'.processedIds u = c.processedIds u := by
  rw [Db.processedIds, Db.processedIds, h]

/-- Log ids are unique. -/
theorem LogsOk.eq_of_id {c : Db Bag} (h : LogsOk d requests c) {log log' : UserActionLog}
    (hlog : log ∈ c.actionLogs) (hlog' : log' ∈ c.actionLogs) (hid : log.id = log'.id) : log = log' :=
  List.inj_on_of_nodup_map h.nodup hlog hlog' hid

section
variable {s s' : State (Db Bag) RowKey Exc Unit VectorTask} {i : Nat} {v : Option (Option (UserPreference Bag))}
  {a : Action VectorTask} {l : VectorTask}

/-- A step that commits the row is judged by its task. -/
theorem mends_or_keeps_of_commit {R : VectorTask → RowKnowledge Bag → Prop}
    (hcommit : Commit (vectorProtocol u d requests) R s s' i l v) (hv : v.isSome = true) (P : Prop) :
    MendsWhole u s (.advance i) ∨ (P ∧ KeepsWhole u s (.advance i)) ↔
      MendedBy u s.committed (s.sessions i).seen l ∨ (P ∧ KeptBy u s.committed l) := by
  obtain ⟨p, hw, hp⟩ := hcommit.work
  have hrow : CommitsRow u s (.advance i) l (s.sessions i).seen :=
    ⟨i, p, rfl, hw, hp, hcommit.holder.mp hv, rfl⟩
  have honly : ∀ l' seen, CommitsRow u s (.advance i) l' seen → l' = l ∧ (s.sessions i).seen = seen := by
    intro l' seen h
    obtain ⟨i', p', hi, hw', -, -, hseen⟩ := h
    cases hi
    rw [hw] at hw'
    cases hw'
    exact ⟨rfl, hseen⟩
  refine or_congr ⟨?_, fun h => ⟨l, _, hrow, h⟩⟩ (and_congr_right fun _ => ⟨fun h => h l _ hrow, ?_⟩)
  · intro h
    obtain ⟨l', seen, hrow', h⟩ := h
    obtain ⟨rfl, rfl⟩ := honly l' seen hrow'
    exact h
  · intro h l' seen hrow'
    rw [(honly l' seen hrow').1]
    exact h

/-- A step that does not commit the row counts as one that keeps. -/
theorem mends_or_keeps_of_not (h : ∀ l seen, ¬ CommitsRow u s a l seen) (P : Prop) :
    MendsWhole u s a ∨ (P ∧ KeepsWhole u s a) ↔ P := by
  have hmends : ¬ MendsWhole u s a := fun ⟨l, seen, hrow, _⟩ => h l seen hrow
  have hkeeps : KeepsWhole u s a := fun l seen hrow => absurd hrow (h l seen)
  rw [or_iff_right hmends, and_iff_left hkeeps]

/-- Marking a processed log changes nothing. -/
theorem processedIds_markProcessed_again {c : Db Bag} {logId : Int}
    (h : ∀ log ∈ c.actionLogs, log.id = logId → log.processed = true) :
    (c.markProcessed logId).processedIds u = c.processedIds u := by
  have hsame : (c.markProcessed logId).actionLogs = c.actionLogs := by
    show c.actionLogs.map _ = c.actionLogs
    refine (List.map_congr_left fun log hlog => ?_).trans (List.map_id _)
    show _ = log
    split
    · rename_i hid
      rw [← h log hlog hid]
    · rfl
  rw [processedIds_congr hsame]

/-- What an application for the user makes of the vector. -/
theorem whole_applied {l : Delivery} {c₀ : Db Bag} {log : UserActionLog} {p : UserPreference Bag}
    (hfits : Fits (vectorProtocol u d requests) (s.knowledge i v) s.committed)
    (happ : Applies bagOps u u l.logId (s.knowledge i v) c₀ log p)
    (hok : LogsOk d requests c₀) {row : UserActionLog} (hrow : row ∈ s.committed.actionLogs)
    (hid : row.id = l.logId) (hu : row.userId = u) :
    Whole u (replay (s.knowledge i v).log s.committed) ↔
      (s3ActionCountThreshold ≤ (s.committed.preferenceD u).actionCount + 1 →
        if (s.committed.unprocessedLog? l.logId).isSome = true then
          (s.committed.contents u).Perm (s.committed.processedIds u)
        else (s.committed.contents u ++ [l.logId]).Perm (s.committed.processedIds u)) := by
  have hpref := happ.row (fun _ => rfl) hfits
  have hembedded := hok.embedded log (Db.unprocessedLog?_some happ.found).1
  have hlogId : log.id = l.logId := (Db.unprocessedLog?_some happ.found).2.1
  have hunique : ∀ log' ∈ s.committed.actionLogs, log'.id = l.logId → log' = row :=
    fun log' hlog' hid' => hfits.inv.eq_of_id hlog' hrow (hid'.trans hid.symm)
  rw [Whole, processedIds_congr happ.logs, Db.contents, Db.preferenceD, hpref, Option.getD_some,
    incremented_actionCount]
  refine forall_congr' fun hcount => ?_
  rw [contents_incremented hembedded hcount, hlogId]
  split
  · -- the row is unprocessed, and so the mark adds it
    rename_i hfresh
    obtain ⟨log', hlog'⟩ := Option.isSome_iff_exists.mp hfresh
    obtain ⟨hmem', hid', hp'⟩ := Db.unprocessedLog?_some hlog'
    have hids := processedIds_markProcessed hfits.inv.nodup hrow hid hu (hunique log' hmem' hid' ▸ hp')
    exact ⟨fun h => List.perm_append_right_iff [l.logId] |>.mp (h.trans hids),
      fun h => (h.append_right _).trans hids.symm⟩
  · -- the row is processed already
    rename_i hfresh
    have hnone := Option.not_isSome_iff_eq_none.mp hfresh
    rw [processedIds_markProcessed_again fun log' hlog' hid' => ?_]
    · rfl
    · simpa [hid'] using List.find?_eq_none.mp hnone log' hlog'

/-- An application for another user does not concern this one. -/
theorem whole_other {w logId : Int} {c₀ : Db Bag} {log : UserActionLog} {p : UserPreference Bag}
    (hfits : Fits (vectorProtocol u d requests) (s.knowledge i v) s.committed)
    (happ : Applies bagOps u w logId (s.knowledge i v) c₀ log p) (hw : w ≠ u)
    {row : UserActionLog} (hrow : row ∈ s.committed.actionLogs) (hid : row.id = logId)
    (hu : row.userId = w) : Whole u (replay (s.knowledge i v).log s.committed) ↔ Whole u s.committed := by
  refine Whole.congr (happ.other hw) ((processedIds_congr happ.logs u).trans ?_)
  refine processedIds_markProcessed_other fun x hx hxid => ?_
  rw [hfits.inv.eq_of_id hx hrow (hxid.trans hid.symm), hu]
  exact hw

/-- A batch leaves the vector whole if it has read the processed logs. -/
theorem whole_saved (c c₀ : Db Bag) (u : Int) :
    Whole u (c.saveContentVector u (some (c₀.logIds u))) ↔
      (s3ActionCountThreshold ≤ (c.preferenceD u).actionCount → (c₀.logIds u).Perm (c.processedIds u)) := by
  have hpref := Db.preference?_saveContentVector u u (some (c₀.logIds u)) c
  rw [if_pos rfl] at hpref
  rw [Whole, Db.contents, Db.preferenceD, hpref, Db.preferenceD]
  cases c.preference? u with
  | none => simp [s3ActionCountThreshold]
  | some p => rfl

/-- A commit without a row is not one of the row. -/
theorem not_commitsRow {R : VectorTask → RowKnowledge Bag → Prop}
    (hcommit : Commit (vectorProtocol u d requests) R s s' i l v) (hv : v = none) (l' : VectorTask)
    (seen : Option (Db Bag)) : ¬ CommitsRow u s (.advance i) l' seen := by
  intro h
  subst hv
  obtain ⟨i', p, hi, -, -, hholder, -⟩ := h
  cases hi
  cases hcommit.holder.mpr hholder

/-- The commit of a delivery that applies its log. -/
theorem whole_delivered {R : VectorTask → RowKnowledge Bag → Prop} {m : Delivery} {c₀ : Db Bag} {log row : UserActionLog}
    {p : UserPreference Bag} (hcommit : Commit (vectorProtocol u d requests) R s s' i (.deliver m) v)
    (happ : Applies bagOps u m.userId m.logId (s.knowledge i v) c₀ log p) (hok : LogsOk d requests c₀)
    (hrow : row ∈ s.committed.actionLogs) (hid : row.id = m.logId) (hu : row.userId = m.userId) :
    Whole u (replay (s.knowledge i v).log s.committed) ↔
      MendsWhole u s (.advance i) ∨ (Whole u s.committed ∧ KeepsWhole u s (.advance i)) := by
  by_cases hmu : m.userId = u
  · rw [hmu] at happ hu
    obtain ⟨x, hx, -⟩ := happ.held rfl
    have hv : v.isSome = true := by rw [show v = some x from hx]; rfl
    rw [whole_applied hcommit.fits happ hok hrow hid hu, mends_or_keeps_of_commit hcommit hv]
    cases hfresh : s.committed.unprocessedLog? m.logId with
    | none =>
      simp only [MendedBy, KeptBy, Whole, hfresh]
      grind
    | some log' =>
      simp only [MendedBy, KeptBy, Whole, hfresh]
      grind
  · rw [mends_or_keeps_of_not (not_commitsRow hcommit (happ.apart hmu))]
    exact whole_other hcommit.fits happ hmu hrow hid hu

/-- The commit of a batch that has read `c₀`, for one user. -/
theorem whole_batch {R : VectorTask → RowKnowledge Bag → Prop} {now : Instant} {w : Int} {c₀ : Db Bag}
    (hcommit : Commit (vectorProtocol u d requests) R s s' i (.batch now) v) (hseen : (s.sessions i).seen = some c₀)
    (hheld : v.isSome = true ↔ w = u) :
    Whole u (s.committed.saveContentVector w (some (c₀.logIds w))) ↔
      MendsWhole u s (.advance i) ∨ (Whole u s.committed ∧ KeepsWhole u s (.advance i)) := by
  by_cases hwu : w = u
  · subst hwu
    apply (whole_saved s.committed c₀ w).trans
    simp only [mends_or_keeps_of_commit hcommit (hheld.mpr rfl), MendedBy, KeptBy, Whole, hseen]
    grind
  · have hnone : v = none := Option.not_isSome_iff_eq_none.mp fun hv => hwu (hheld.mp hv)
    rw [mends_or_keeps_of_not (not_commitsRow hcommit hnone)]
    refine Whole.congr ((Db.preference?_saveContentVector w u _ _).trans (if_neg (Ne.symm hwu))) ?_
    exact processedIds_congr rfl u

end

/-- **One step makes the vector whole or keeps it so, exactly if its commit does.** -/
theorem whole_step {s s' : State (Db Bag) RowKey Exc Unit VectorTask} {a : Action VectorTask}
    (hsound : Sound (vectorProtocol u d requests) (VectorRule u d requests) s)
    (ha : ∀ i l, a = .start i l → l.Allowed d requests s.committed)
    (hs : step (VectorTask.program bagOps) s a = some s') :
    Whole u s'.committed ↔ MendsWhole u s a ∨ (Whole u s.committed ∧ KeepsWhole u s a) := by
  obtain ⟨-, hsilent | ⟨i, l, v, rfl, hcommit⟩⟩ := step_guarded vector_discipline hsound ha hs
  · rw [hsilent.committed, mends_or_keeps_of_not]
    intro l seen h
    obtain ⟨i, p, hi, hw, hp, -⟩ := h
    exact hsilent.step i l p hi hw hp
  rw [hcommit.committed]
  have hrule := hcommit.rule
  cases hrule with
  | record log hlog hheld hid hnew hrecent hplace =>
    rw [mends_or_keeps_of_not (not_commitsRow hcommit hheld), hlog]
    exact Whole.congr rfl (processedIds_insertActionLog hnew s.committed u)
  | deliver hrule c₀ hseen hok hrow =>
    rcases hrule with ⟨c₁, hign⟩ | ⟨c₁, log, q, happ⟩
    · rw [mends_or_keeps_of_not (not_commitsRow hcommit hign.held), hign.log, replay_nil]
    obtain ⟨row₀, hrow₀, hid₀, hu₀⟩ := hrow
    obtain ⟨row, hrow, hid, hu, -⟩ := hcommit.fits.seen c₀ hseen row₀ hrow₀
    have hsame : c₁ = c₀ := Option.some.inj (happ.seen.symm.trans hseen)
    subst hsame
    exact whole_delivered hcommit happ hok hrow (hid.trans hid₀) (hu.trans hu₀)
  | nothing hlog hheld =>
    rw [mends_or_keeps_of_not (not_commitsRow hcommit hheld), hlog, replay_nil]
  | batch w c₀ hseen hok hheld hlog =>
    rw [hlog]
    exact whole_batch hcommit hseen hheld

/-- A delivery returns only once its log is processed. -/
theorem returned_step {s s' : State (Db Bag) RowKey Exc Unit VectorTask} {a : Action VectorTask}
    (hsound : Sound (vectorProtocol u d requests) (VectorRule u d requests) s)
    (h : ReturnsProcessed s) (ha : ∀ i l, a = .start i l → l.Allowed d requests s.committed)
    (hs : step (VectorTask.program bagOps) s a = some s') : ReturnsProcessed s' := by
  obtain ⟨-, hsilent | ⟨i, l, v, rfl, hcommit⟩⟩ := step_guarded vector_discipline hsound ha hs
  · intro l hl
    rw [hsilent.returned] at hl
    rw [hsilent.committed]
    exact h l hl
  have hgrow : LogsGrow s.committed s'.committed :=
    hcommit.committed ▸ vector_discipline.grows l _ _ hcommit.rule hcommit.fits
  have hold : ∀ l', .deliver l' ∈ s.returned →
      ∃ log ∈ s'.committed.actionLogs, log.id = l'.logId ∧ log.processed = true := by
    intro l' hl'
    obtain ⟨log, hlog, hid, hp⟩ := h l' hl'
    obtain ⟨log', hlog', hid', -, hp'⟩ := hgrow log hlog
    exact ⟨log', hlog', hid'.trans hid, hp' hp⟩
  intro l' hl'
  have hl'' : l = .deliver l' ∨ .deliver l' ∈ s.returned := by
    rcases hcommit.returned with hret | hret <;> rw [hret] at hl'
    · exact (List.mem_cons.mp hl').imp_left Eq.symm
    · exact .inr hl'
  rcases hl'' with rfl | hl''
  · obtain ⟨hrule, c₀, hseen, hok, row₀, hrow₀, hid₀, -⟩ : IncrementalRule bagOps u l'.userId l'.logId
        (s.knowledge i v) ∧ ∃ c₀, (s.knowledge i v).seen = some c₀ ∧ LogsOk d requests c₀ ∧
          ∃ log ∈ c₀.actionLogs, log.id = l'.logId ∧ log.userId = l'.userId := by
      cases hcommit.rule with
      | deliver hrule c₀ hseen hok hrow => exact ⟨hrule, c₀, hseen, hok, hrow⟩
    obtain ⟨row, hrow, hid, -, hp⟩ := hcommit.fits.seen c₀ hseen row₀ hrow₀
    rcases hrule with ⟨c₁, hign⟩ | ⟨c₁, log, q, happ⟩
    · -- it was processed when the run looked
      have hsame : c₁ = c₀ := Option.some.inj (hign.seen.symm.trans hseen)
      have hrow₀p : row₀.processed = true := by
        have hnone := List.find?_eq_none.mp (hsame ▸ hign.found) row₀ hrow₀
        simpa [hid₀] using hnone
      rw [hcommit.committed, hign.log]
      exact ⟨row, hrow, hid.trans hid₀, hp hrow₀p⟩
    · refine ⟨{row with processed := true}, ?_, hid.trans hid₀, rfl⟩
      rw [hcommit.committed, happ.logs]
      exact List.mem_map.mpr ⟨row, hrow, if_pos (hid.trans hid₀)⟩
  · exact hold l' hl''

/-! ### Any interleaving -/

/-- What a request must meet to be allowed, apart from the log it delivers. -/
theorem allowed_start {s : State (Db Bag) RowKey Exc Unit VectorTask} {a : Action VectorTask}
    (hrecords : ∀ now w place actionType rating, .record now w place actionType rating ∈ requests →
      Recent requests now ∧ (d.contentVector? place.id).isSome = true)
    (hstarted : ∀ i l, a = .start i l → l ∈ requests)
    (hdelivered : ∀ i l, a = .start i (.deliver l) →
      ∃ log ∈ s.committed.actionLogs, log.id = l.logId ∧ log.userId = l.userId) :
    ∀ i l, a = .start i l → l.Allowed d requests s.committed := by
  intro i l ha
  refine ⟨hstarted i l ha, ?_⟩
  cases l with
  | record now w place actionType rating => exact hrecords now w place actionType rating (hstarted i _ ha)
  | deliver l => exact hdelivered i l ha
  | batch now => trivial

/-- Once every log of the user is processed, the processed logs are all of them. -/
theorem processedIds_eq_logIds {c : Db Bag}
    (h : ∀ log ∈ c.actionLogs, log.userId = u → log.processed = true) : c.processedIds u = c.logIds u := by
  rw [Db.processedIds, Db.logIds]
  congr 1
  refine List.filter_congr fun log hlog => ?_
  by_cases hu : log.userId = u
  · rw [h log hlog hu, Bool.and_true]
  · simp [hu]

theorem LogsOk.nodup_logIds {c : Db Bag} (h : LogsOk d requests c) : (c.logIds u).Nodup :=
  h.nodup.sublist (List.filter_sublist.map _)

/-- **Every log is in the vector once, exactly if every commit since the last that
mends it keeps it whole.** For any interleaving of actions, deliveries and batches,
once every log of the user is processed or had a run of its delivery return. -/
theorem whole_exec_iff (u : Int) (d : Db Bag) (seq : Nat) (actions : List (Action VectorTask))
    (hnodup : (d.actionLogs.map (·.id)).Nodup) (hseq : ∀ log ∈ d.actionLogs, log.id < seq)
    (hrecent : ∀ log ∈ d.actionLogs, Recent (started actions) log.createdAt)
    (hembedded : ∀ log ∈ d.actionLogs, (d.contentVector? log.placeId).isSome = true)
    (hrecords : ∀ now w place actionType rating, .record now w place actionType rating ∈ started actions →
      Recent (started actions) now ∧ (d.contentVector? place.id).isSome = true)
    {s : State (Db Bag) RowKey Exc Unit VectorTask}
    (hrun : exec (VectorTask.program bagOps) (.idle d seq) actions = some s)
    (hdelivered : Along (VectorTask.program bagOps)
      (fun s a => ∀ i l, a = .start i (.deliver l) →
        ∃ log ∈ s.committed.actionLogs, log.id = l.logId ∧ log.userId = l.userId) (.idle d seq) actions)
    (hdone : ∀ log ∈ s.committed.actionLogs, log.userId = u →
      log.processed = true ∨ .deliver ⟨u, log.id⟩ ∈ s.returned) :
    (s3ActionCountThreshold ≤ (s.committed.preferenceD u).actionCount →
        (s.committed.contents u).Perm (s.committed.logIds u) ∧ (s.committed.contents u).Nodup) ↔
      Since (VectorTask.program bagOps) (MendsWhole u) (KeepsWhole u) (Whole u d) (.idle d seq) actions := by
  have hall := (along_started (fun l hl => hl) (.idle d seq)).and hdelivered
  obtain ⟨⟨hsound, hR⟩, hiff⟩ := exec_since
    (I := fun s => Sound (vectorProtocol u d (started actions)) (VectorRule u d (started actions)) s ∧
      ReturnsProcessed s)
    (W := fun s => Whole u s.committed)
    (fun s a s' h hC hs => by
      have ha := allowed_start hrecords hC.1 hC.2
      exact ⟨⟨(step_guarded vector_discipline h.1 ha hs).1, returned_step h.1 h.2 ha hs⟩,
        whole_step h.1 ha hs⟩)
    ⟨sound_idle ⟨hnodup, hrecent, hembedded, rfl⟩ (fun n hn log hlog hid => by
        have := hseq log hlog
        omega), fun l hl => nomatch hl⟩ Iff.rfl hall hrun
  refine Iff.trans ?_ hiff
  have hprocessed : ∀ log ∈ s.committed.actionLogs, log.userId = u → log.processed = true := by
    intro log hlog hu
    rcases hdone log hlog hu with hp | hret
    · exact hp
    · obtain ⟨log', hlog', hid, hp⟩ := hR _ hret
      exact hsound.inv.eq_of_id hlog' hlog hid ▸ hp
  rw [Whole, processedIds_eq_logIds hprocessed]
  exact forall_congr' fun _ => and_iff_left_of_imp fun hperm => hperm.nodup_iff.mpr hsound.inv.nodup_logIds

def Db.bookmarkLog (id : Int) (processed : Bool) : UserActionLog where
  id := id
  userId := 1
  placeId := 1
  actionType := .bookmark
  weight := ⟨8 / 10, 10⟩
  createdAt := 0
  processed := processed

/-- One user at the threshold: ten processed logs, all of them in the vector. -/
def Db.tenLogs : Db Bag where
  users := [{id := 1}]
  places := [{id := 1, contentId := 1, contentTypeId := 12}]
  placeFeatures := [{placeId := 1, contentVector := some []}]
  preferences := [{userId := 1, actionCount := 10, contentVector := some [1, 2, 3, 4, 5, 6, 7, 8, 9, 10]}]
  actionLogs := [1, 2, 3, 4, 5, 6, 7, 8, 9, 10].map fun id => Db.bookmarkLog id true

/-- An eleventh log is committed; the batch reads it and saves before it is delivered. -/
def batchBeforeDelivery : List (Action VectorTask) :=
  .start 0 (.record 0 1 {id := 1, contentId := 1, contentTypeId := 12} .bookmark none) ::
    List.replicate 4 (.advance 0) ++ .start 0 (.batch 0) :: List.replicate 5 (.advance 0) ++
      .start 0 (.deliver ⟨1, 11⟩) :: List.replicate 5 (.advance 0)

theorem batch_counts_log_twice :
    ∃ s, exec (VectorTask.program bagOps) (.idle Db.tenLogs 11) batchBeforeDelivery = some s ∧
      Whole 1 Db.tenLogs ∧ (∀ l ∈ started batchBeforeDelivery, l ∈ s.returned) ∧
      (∀ log ∈ s.committed.actionLogs, log.processed = true) ∧
      s3ActionCountThreshold ≤ (s.committed.preferenceD 1).actionCount ∧
      ¬ ((s.committed.contents 1).Perm (s.committed.logIds 1) ∧ (s.committed.contents 1).Nodup) := by
  have h : (exec (VectorTask.program bagOps) (.idle Db.tenLogs 11) batchBeforeDelivery).map
      (fun s => (decide (∀ l ∈ started batchBeforeDelivery, l ∈ s.returned),
        decide (∀ log ∈ s.committed.actionLogs, log.processed = true),
        (s.committed.preferenceD 1).actionCount, s.committed.contents 1)) =
      some (true, true, 11, [1, 2, 3, 4, 5, 6, 7, 8, 9, 10, 11, 11]) := by
    decide +kernel
  obtain ⟨s, hs, hsnd⟩ := Option.map_eq_some_iff.mp h
  simp only [Prod.mk.injEq, decide_eq_true_eq] at hsnd
  obtain ⟨hreturned, hprocessed, hcount, hcontents⟩ := hsnd
  refine ⟨s, hs, fun _ => ?_, hreturned, hprocessed, ?_, fun honce => ?_⟩
  · decide
  · rw [hcount]
    decide
  · rw [hcontents] at honce
    exact absurd honce.2 (by decide)

/-- An eleventh log is committed. -/
def eleventhRecorded : List (Action VectorTask) :=
  .start 0 (.record 0 1 {id := 1, contentId := 1, contentTypeId := 12} .bookmark none) :: List.replicate 4 (.advance 0)

/-- It is delivered before the batch reads it. -/
def deliveryBeforeBatch : List (Action VectorTask) :=
  .start 0 (.deliver ⟨1, 11⟩) :: (List.replicate 5 (.advance 0) ++ .start 0 (.batch 0) :: List.replicate 5 (.advance 0))

theorem whole_exec_iff_deliveryBeforeBatch :
    ∃ s, exec (VectorTask.program bagOps) (.idle Db.tenLogs 11) (eleventhRecorded ++ deliveryBeforeBatch) = some s ∧
      (s.committed.preferenceD 1).actionCount = 11 ∧
      ((s3ActionCountThreshold ≤ (s.committed.preferenceD 1).actionCount →
          (s.committed.contents 1).Perm (s.committed.logIds 1) ∧ (s.committed.contents 1).Nodup) ↔
        Since (VectorTask.program bagOps) (MendsWhole 1) (KeepsWhole 1) (Whole 1 Db.tenLogs) (.idle Db.tenLogs 11)
          (eleventhRecorded ++ deliveryBeforeBatch)) := by
  have h : (exec (VectorTask.program bagOps) (.idle Db.tenLogs 11) (eleventhRecorded ++ deliveryBeforeBatch)).map
      (fun s => (decide (∀ log ∈ s.committed.actionLogs, log.processed = true), (s.committed.preferenceD 1).actionCount)) =
        some (true, 11) := by
    decide +kernel
  obtain ⟨s, hs, hend⟩ := Option.map_eq_some_iff.mp h
  obtain ⟨hprocessed, hcount⟩ := Prod.mk.inj hend
  have hstarted : started (eleventhRecorded ++ deliveryBeforeBatch) =
      [.record 0 1 {id := 1, contentId := 1, contentTypeId := 12} .bookmark none, .deliver ⟨1, 11⟩, .batch 0] := rfl
  have hrecent : Recent (started (eleventhRecorded ++ deliveryBeforeBatch)) 0 := by
    intro now hnow
    simp only [hstarted, List.mem_cons, reduceCtorEq, VectorTask.batch.injEq, List.not_mem_nil, or_false, false_or] at hnow
    rw [hnow]
    decide
  refine ⟨s, hs, hcount, whole_exec_iff 1 _ 11 _ (by decide) (by decide) ?_ (by decide) ?_ hs ?_ ?_⟩
  · intro log hlog
    have hcreated : ∀ log ∈ Db.tenLogs.actionLogs, log.createdAt = 0 := by decide
    rw [hcreated log hlog]
    exact hrecent
  · intro now w place actionType rating hmem
    simp only [hstarted, List.mem_cons, reduceCtorEq, VectorTask.record.injEq, List.not_mem_nil, or_false] at hmem
    obtain ⟨rfl, rfl, rfl, -, -⟩ := hmem
    exact ⟨hrecent, by decide⟩
  · have hlog : (exec (VectorTask.program bagOps) (.idle Db.tenLogs 11) eleventhRecorded).map
        (fun t => decide (∃ log ∈ t.committed.actionLogs, log.id = 11 ∧ log.userId = 1)) = some true := by
      decide +kernel
    refine Along.append ?_ fun t ht => ⟨fun i l hl => ?_, ?_⟩
    · simp [eleventhRecorded, List.replicate, Along]
    · cases hl
      rw [ht] at hlog
      exact of_decide_eq_true (Option.some.inj hlog)
    · intro t' _
      simp [List.replicate, Along]
  · exact fun log hlog _ => .inl (of_decide_eq_true hprocessed log hlog)

end TravelMaker
