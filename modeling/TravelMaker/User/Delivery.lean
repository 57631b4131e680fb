import Mathlib.Data.List.Perm.Subperm
import TravelMaker.User.PreferenceRow

/-! At-least-once delivery of behaviour logs.

A log may be delivered several times, to any workers. Each run looks for the log
with `processed=False` first and takes the preference row afterwards, so two runs
can both find the log and both apply it, one after the other. `applied_once_iff`:
every log is applied once exactly if no run commits an application of a log that
has been processed meanwhile. -/
namespace TravelMaker
open Lib (Txn)
open Lib.ReadCommitted

variable {V : Type}

/-- The arguments of the task. -/
structure Delivery where
  userId : Int
  logId : Int
deriving DecidableEq, Repr

def Delivery.program (ops : VectorOps V) (l : Delivery) : Service V Unit :=
  updateUserContentVectorIncremental ops l.userId l.logId

/-- The distinct logs of the user that were delivered. -/
def deliveredLogs (u : Int) (actions : List (Action Delivery)) : List Int :=
  (((started actions).filter (·.userId == u)).map (·.logId)).dedup

/-- The preference after these logs, in this order. -/
def applyLogs (ops : VectorOps V) (d : Db V) (logs : List UserActionLog) (p : UserPreference V) :
    UserPreference V :=
  logs.foldl (fun p log => p.incremented ops log (d.contentVector? log.placeId)) p

/-- Each log of the user counts once, and each was applied to the vector at most once. -/
structure AppliedOnce (ops : VectorOps V) (u : Int) (d : Db V) (delivered : List Int) (c : Db V) : Prop where
  count : (c.preferenceD u).actionCount = delivered.length
  vector : ∃ logs : List UserActionLog, (logs.map (·.id)).Nodup ∧ (∀ log ∈ logs, log.id ∈ delivered) ∧
    c.preferenceD u = applyLogs ops d logs (d.preferenceD u)

/-- A connection that is about to commit an application for the user applies a log
that nobody has processed meanwhile. -/
def CommitsFresh (u : Int) (s : State (Db V) RowKey Exc Unit Delivery) (a : Action Delivery) : Prop :=
  ∀ i l p, a = .advance i → (s.sessions i).work = some (l, p) → p.Commits → (s.sessions i).log ≠ [] →
    l.userId = u → (s.committed.unprocessedLog? l.logId).isSome = true

theorem applyLogs_append (ops : VectorOps V) (d : Db V) (logs : List UserActionLog) (log : UserActionLog)
    (p : UserPreference V) : applyLogs ops d (logs ++ [log]) p =
      (applyLogs ops d logs p).incremented ops log (d.contentVector? log.placeId) := by
  simp [applyLogs]

theorem applyLogs_actionCount (ops : VectorOps V) (d : Db V) (logs : List UserActionLog)
    (p : UserPreference V) : (applyLogs ops d logs p).actionCount = p.actionCount + logs.length := by
  induction logs generalizing p with
  | nil => rfl
  | cons log rest ih =>
    show (applyLogs ops d rest (p.incremented ops log _)).actionCount = _
    rw [ih, incremented_actionCount, List.length_cons]
    omega

/-! ### The protocol of one user's row -/

section
variable (ops : VectorOps V) (u : Int) (d : Db V) (requests : List Delivery)

/-- Logs only become processed, and places keep their vectors. -/
structure LogsOf (c : Db V) : Prop where
  logs : ∀ id log, c.unprocessedLog? id = some log → d.unprocessedLog? id = some log
  features : c.placeFeatures = d.placeFeatures

def deliveryProtocol : Protocol (Db V) RowKey (Option (UserPreference V)) where
  row := .preference u
  part := fun c => c.preference? u
  inv := LogsOf d
  grows := fun c c' => (∀ id, c.unprocessedLog? id = none → c'.unprocessedLog? id = none) ∧
    c'.placeFeatures = c.placeFeatures
  refl := fun _ => ⟨fun _ h => h, rfl⟩
  trans := fun h h' => ⟨fun id hid => h'.1 id (h.1 id hid), h'.2.trans h.2⟩

/-- A delivered run, and what it commits. -/
def DeliveryRule (l : Delivery) (k : RowKnowledge V) : Prop :=
  l ∈ requests ∧ IncrementalRule ops u l.userId l.logId k

/-- `order` lists the applied logs of the user. -/
structure Applied (s : State (Db V) RowKey Exc Unit Delivery) (order : List UserActionLog) : Prop where
  sound : Sound (deliveryProtocol u d) (DeliveryRule ops u requests) s
  row : s.committed.preferenceD u = applyLogs ops d order (d.preferenceD u)
  marked : ∀ l ∈ requests, l.userId = u →
    (s.committed.unprocessedLog? l.logId = none ↔ l.logId ∈ order.map (·.id))
  returned : ∀ l ∈ s.returned, l ∈ requests ∧ (l.userId = u → l.logId ∈ order.map (·.id))
  delivered : ∀ log ∈ order, ∃ l ∈ requests, l.userId = u ∧ l.logId = log.id

end

variable {ops : VectorOps V} {u : Int} {d : Db V} {requests : List Delivery}

theorem delivery_discipline : Discipline (deliveryProtocol u d) (Delivery.program ops)
    (fun l _ => l ∈ requests) (DeliveryRule ops u requests) where
  guarded := fun l c hl _ => guarded_incremental rfl (fun _ => rfl) rfl rfl fun _ _ _ _ hk => ⟨hl, hk⟩
  keeps := by
    intro l k c h hc
    obtain ⟨-, ⟨c₀, h⟩ | ⟨c₀, log, p, h⟩⟩ := h
    · rw [h.log]
      exact hc.inv
    · refine ⟨fun id log' hid => ?_, h.features.trans hc.inv.features⟩
      rw [h.unprocessed] at hid
      split at hid
      · cases hid
      · exact hc.inv.logs id log' hid
  clean := by
    intro l k c h hc hnone
    obtain ⟨-, ⟨c₀, h⟩ | ⟨c₀, log, p, h⟩⟩ := h
    · rw [h.log]
      rfl
    · refine h.other fun hw => ?_
      obtain ⟨x, hx, -⟩ := h.held hw
      rw [hx] at hnone
      cases hnone
  fresh := fun _ _ _ _ _ _ _ _ => trivial
  grows := by
    intro l k c h hc
    obtain ⟨-, ⟨c₀, h⟩ | ⟨c₀, log, p, h⟩⟩ := h
    · rw [h.log]
      exact ⟨fun _ hid => hid, rfl⟩
    · refine ⟨fun id hid => ?_, h.features⟩
      rw [h.unprocessed, hid, ite_self]

/-! ### One step -/

/-- What the committing connection `i` must meet for its request `l`. -/
theorem commitsFresh_iff {s : State (Db V) RowKey Exc Unit Delivery} {i : Nat} {l : Delivery}
    {p : Service V Unit} (hw : (s.sessions i).work = some (l, p)) (hp : p.Commits) :
    CommitsFresh u s (.advance i) ↔ ((s.sessions i).log ≠ [] → l.userId = u →
      (s.committed.unprocessedLog? l.logId).isSome = true) := by
  constructor
  · exact fun h => h i l p rfl hw hp
  · intro h i' l' p' hi hw' _
    cases hi
    rw [hw] at hw'
    cases hw'
    exact h

/-- The logs of two users are different. -/
theorem logId_ne (hlogs : ∀ l ∈ requests, ∃ log, d.unprocessedLog? l.logId = some log ∧ log.userId = l.userId)
    {l l' : Delivery} (hl : l ∈ requests) (hl' : l' ∈ requests) (hu : l.userId ≠ l'.userId) :
    l.logId ≠ l'.logId := by
  intro hid
  obtain ⟨log, h, hlog⟩ := hlogs l hl
  obtain ⟨log', h', hlog'⟩ := hlogs l' hl'
  rw [hid, h'] at h
  cases h
  exact hu (hlog.symm.trans hlog')

theorem preferenceD_congr {c c' : Db V} (h : c'.preference? u = c.preference? u) :
    c'.preferenceD u = c.preferenceD u := by
  rw [Db.preferenceD, Db.preferenceD, h]

/-- Who has returned after a commit for `l`. -/
theorem mem_returned {R : Delivery → RowKnowledge V → Prop}
    {s s' : State (Db V) RowKey Exc Unit Delivery} {i : Nat} {l l' : Delivery}
    {v : Option (Option (UserPreference V))} (h : Commit (deliveryProtocol u d) R s s' i l v)
    (hl' : l' ∈ s'.returned) : l' = l ∨ l' ∈ s.returned := by
  rcases h.returned with hret | hret <;> rw [hret] at hl'
  · exact List.mem_cons.mp hl'
  · exact .inr hl'

section
variable {s s' : State (Db V) RowKey Exc Unit Delivery} {order : List UserActionLog} {i : Nat} {l : Delivery}
  {v : Option (Option (UserPreference V))} {c₀ : Db V} {log : UserActionLog} {q : UserPreference V}

/-- A run that found its log processed changes nothing. -/
theorem Applied.ignores (h : Applied ops u d requests s order)
    (hcommit : Commit (deliveryProtocol u d) (DeliveryRule ops u requests) s s' i l v)
    (hsound : Sound (deliveryProtocol u d) (DeliveryRule ops u requests) s')
    (hign : Ignores l.logId (s.knowledge i v) c₀) : Applied ops u d requests s' order := by
  have hl := hcommit.rule.1
  have hc : s'.committed = s.committed := by rw [hcommit.committed, hign.log, replay_nil]
  refine ⟨hsound, hc ▸ h.row, hc ▸ h.marked, fun l' hl' => ?_, h.delivered⟩
  rcases mem_returned hcommit hl' with rfl | hl'
  · exact ⟨hl, fun hu => (h.marked l' hl hu).mp ((hcommit.fits.seen c₀ hign.seen).1 _ hign.found)⟩
  · exact h.returned l' hl'

/-- A run for another user leaves the row alone. -/
theorem Applied.other
    (hlogs : ∀ l ∈ requests, ∃ log, d.unprocessedLog? l.logId = some log ∧ log.userId = l.userId)
    (h : Applied ops u d requests s order)
    (hcommit : Commit (deliveryProtocol u d) (DeliveryRule ops u requests) s s' i l v)
    (hsound : Sound (deliveryProtocol u d) (DeliveryRule ops u requests) s')
    (happ : Applies ops u l.userId l.logId (s.knowledge i v) c₀ log q) (hu : l.userId ≠ u) :
    Applied ops u d requests s' order := by
  have hl := hcommit.rule.1
  refine ⟨hsound, ?_, fun l' hl' hu' => ?_, fun l' hl' => ?_, h.delivered⟩
  · rw [hcommit.committed, preferenceD_congr (happ.other hu)]
    exact h.row
  · rw [hcommit.committed, happ.unprocessed, if_neg (logId_ne hlogs hl' hl (by rw [hu']; exact Ne.symm hu))]
    exact h.marked l' hl' hu'
  · rcases mem_returned hcommit hl' with rfl | hl'
    · exact ⟨hl, fun hu' => absurd hu' hu⟩
    · exact h.returned l' hl'

/-- A run for the user applies its log to the row. -/
theorem Applied.own (h : Applied ops u d requests s order)
    (hcommit : Commit (deliveryProtocol u d) (DeliveryRule ops u requests) s s' i l v)
    (hsound : Sound (deliveryProtocol u d) (DeliveryRule ops u requests) s')
    (happ : Applies ops u l.userId l.logId (s.knowledge i v) c₀ log q) (hu : l.userId = u) :
    Applied ops u d requests s' (order ++ [log]) := by
  have hl := hcommit.rule.1
  have hid : log.id = l.logId := (Db.unprocessedLog?_some happ.found).2.1
  have hmem : ∀ id, id ∈ (order ++ [log]).map (·.id) ↔ id = l.logId ∨ id ∈ order.map (·.id) := by
    intro id
    rw [List.map_append, List.mem_append, List.map_singleton, List.mem_singleton, hid, or_comm]
  have hfeatures : c₀.contentVector? log.placeId = d.contentVector? log.placeId := by
    have hseen : s.committed.placeFeatures = c₀.placeFeatures := (hcommit.fits.seen c₀ happ.seen).2
    rw [Db.contentVector?, Db.contentVector?, ← hseen, hcommit.fits.inv.features]
  refine ⟨hsound, ?_, fun l' hl' hu' => ?_, fun l' hl' => ?_, fun log' hlog' => ?_⟩
  · have happ' := happ
    rw [hu] at happ'
    rw [hcommit.committed, Db.preferenceD, happ'.row (fun _ => rfl) hcommit.fits, Option.getD_some,
      applyLogs_append, ← h.row, hfeatures]
  · rw [hcommit.committed, happ.unprocessed, hmem, ← h.marked l' hl' hu']
    by_cases hl'' : l'.logId = l.logId <;> simp [hl'']
  · rcases mem_returned hcommit hl' with rfl | hl'
    · exact ⟨hl, fun _ => (hmem _).mpr (.inl rfl)⟩
    · exact ⟨(h.returned l' hl').1, fun hu' => (hmem _).mpr (.inr ((h.returned l' hl').2 hu'))⟩
  · rcases List.mem_append.mp hlog' with hlog' | hlog'
    · exact h.delivered log' hlog'
    · rw [List.mem_singleton.mp hlog']
      exact ⟨l, hl, hu, hid.symm⟩

end

/-- A step keeps the account of the applied logs, and keeps them distinct exactly if
what it commits is fresh. -/
theorem applied_step
    (hlogs : ∀ l ∈ requests, ∃ log, d.unprocessedLog? l.logId = some log ∧ log.userId = l.userId)
    {s s' : State (Db V) RowKey Exc Unit Delivery} {order : List UserActionLog} {a : Action Delivery}
    (h : Applied ops u d requests s order) (ha : ∀ i l, a = .start i l → l ∈ requests)
    (hs : step (Delivery.program ops) s a = some s') :
    ∃ order', Applied ops u d requests s' order' ∧
      ((order'.map (·.id)).Nodup ↔ (order.map (·.id)).Nodup ∧ CommitsFresh u s a) := by
  obtain ⟨hsound, hsilent | ⟨i, l, v, rfl, hcommit⟩⟩ := step_guarded delivery_discipline h.sound ha hs
  · refine ⟨order, ⟨hsound, hsilent.committed ▸ h.row, hsilent.committed ▸ h.marked,
      hsilent.returned ▸ h.returned, h.delivered⟩, (and_iff_left fun i l p hi hw hp => ?_).symm⟩
    exact absurd hp (hsilent.step i l p hi hw)
  obtain ⟨p, hw, hp⟩ := hcommit.work
  rw [commitsFresh_iff hw hp]
  obtain ⟨hl, ⟨c₀, hign⟩ | ⟨c₀, log, q, happ⟩⟩ := hcommit.rule
  · have hlog : (s.sessions i).log = [] := hign.log
    exact ⟨order, h.ignores hcommit hsound hign, (and_iff_left fun hne => absurd hlog hne).symm⟩
  by_cases hu : l.userId = u
  · refine ⟨order ++ [log], h.own hcommit hsound happ hu, ?_⟩
    have hid : log.id = l.logId := (Db.unprocessedLog?_some happ.found).2.1
    have hlog : (s.sessions i).log ≠ [] := by
      rw [show (s.sessions i).log = _ from happ.log]
      exact List.cons_ne_nil _ _
    rw [List.map_append, List.map_singleton, ← List.concat_eq_append, List.nodup_concat, hid, and_comm]
    refine and_congr_right fun _ => ?_
    rw [← h.marked l hl hu, ← ne_eq, Option.ne_none_iff_isSome]
    exact ⟨fun hsome _ _ => hsome, fun hall => hall hlog hu⟩
  · exact ⟨order, h.other hlogs hcommit hsound happ hu, (and_iff_left fun _ hu' => absurd hu' hu).symm⟩

/-! ### Any interleaving -/

theorem mem_deliveredLogs {u id : Int} {actions : List (Action Delivery)} :
    id ∈ deliveredLogs u actions ↔ ∃ l ∈ started actions, l.userId = u ∧ l.logId = id := by
  simp [deliveredLogs, and_assoc]

/-- As many elements as distinct ones: no repetition. -/
theorem nodup_of_length_eq {as bs : List Int} (hb : bs.Nodup) (hmem : ∀ x, x ∈ as ↔ x ∈ bs)
    (hlen : as.length = bs.length) : as.Nodup :=
  ((List.subperm_of_subset hb fun x hx => (hmem x).mpr hx).perm_of_length_le (Nat.le_of_eq hlen)).nodup hb

/-- **Each log is applied exactly once, exactly if no run commits an application of
a log that was processed meanwhile.** For deliveries of committed logs, any number
of times and to any workers, interleaved statement by statement, with runs lost and
retried: once every delivered run has returned. -/
theorem applied_once_iff (ops : VectorOps V) (u : Int) (d : Db V) (seq : Nat)
    (actions : List (Action Delivery)) (hcount : (d.preferenceD u).actionCount = 0)
    (hlogs : ∀ l ∈ started actions, ∃ log, d.unprocessedLog? l.logId = some log ∧ log.userId = l.userId)
    {s : State (Db V) RowKey Exc Unit Delivery}
    (hrun : exec (Delivery.program ops) (.idle d seq) actions = some s)
    (hdone : ∀ l ∈ started actions, l ∈ s.returned) :
    AppliedOnce ops u d (deliveredLogs u actions) s.committed ↔
      Along (Delivery.program ops) (CommitsFresh u) (.idle d seq) actions := by
  have hstart : Applied ops u d (started actions) (.idle d seq) [] := by
    refine ⟨sound_idle ⟨fun _ _ h => h, rfl⟩ fun _ _ => trivial, rfl, fun l hl _ => ?_,
      (fun _ hl => nomatch hl), fun _ hlog => nomatch hlog⟩
    obtain ⟨log, hlog, -⟩ := hlogs l hl
    show d.unprocessedLog? l.logId = none ↔ _
    simp [hlog]
  obtain ⟨order, h, hiff⟩ := exec_ghost (I := Applied ops u d (started actions))
    (N := fun order => (order.map (·.id)).Nodup) (C := CommitsFresh u)
    (fun s g a s' hs ha hstep => applied_step hlogs hs ha hstep) hstart
    (along_started (fun l hl => hl) _) hrun
  have hmem : ∀ id, id ∈ order.map (·.id) ↔ id ∈ deliveredLogs u actions := by
    intro id
    rw [mem_deliveredLogs]
    constructor
    · intro hid
      obtain ⟨log, hlog, rfl⟩ := List.mem_map.mp hid
      exact h.delivered log hlog
    · intro h
      obtain ⟨l, hl, hu, rfl⟩ := h
      exact (h.returned l (hdone l hl)).2 hu
  have hlength : (s.committed.preferenceD u).actionCount = (order.map (·.id)).length := by
    rw [h.row, applyLogs_actionCount, hcount, List.length_map, Nat.zero_add]
  rw [(hiff.trans (and_iff_right List.nodup_nil)).symm]
  constructor
  · intro honce
    exact nodup_of_length_eq (List.nodup_dedup _) hmem (hlength.symm.trans honce.count)
  · intro hnodup
    refine ⟨?_, order, hnodup, fun log hlog => (hmem _).mp (List.mem_map_of_mem hlog), h.row⟩
    rw [hlength]
    exact ((List.perm_ext_iff_of_nodup hnodup (List.nodup_dedup _)).mpr hmem).length_eq

/-- One user with one log, on a place without a vector. -/
def Db.oneLog : Db Unit where
  users := [{id := 1}]
  places := [{id := 1, contentId := 1, contentTypeId := 12}]
  actionLogs := [{
    id := 1
    userId := 1
    placeId := 1
    actionType := .bookmark
    weight := ⟨8 / 10, 10⟩
    createdAt := 0 }]

def noVectors : VectorOps Unit := ⟨fun _ _ _ => none, fun _ _ => none⟩

/-- The log is delivered to two workers; both look for it before either has the row. -/
def deliveredTwice : List (Action Delivery) :=
  [.start 0 ⟨1, 1⟩, .start 1 ⟨1, 1⟩, .advance 0, .advance 1] ++
    List.replicate 4 (.advance 0) ++ List.replicate 4 (.advance 1)

theorem duplicate_delivery_counts_twice :
    ∃ s, exec (Delivery.program noVectors) (.idle Db.oneLog 2) deliveredTwice = some s ∧
      (∀ l ∈ started deliveredTwice, l ∈ s.returned) ∧
      ¬ AppliedOnce noVectors 1 Db.oneLog (deliveredLogs 1 deliveredTwice) s.committed := by
  have h : (exec (Delivery.program noVectors) (.idle Db.oneLog 2) deliveredTwice).map
      (fun s => ((s.committed.preferenceD 1).actionCount, s.returned)) = some (2, [⟨1, 1⟩, ⟨1, 1⟩]) := by
    decide +kernel
  obtain ⟨s, hs, hsnd⟩ := Option.map_eq_some_iff.mp h
  obtain ⟨hcount, hreturned⟩ := Prod.mk.injEq .. ▸ hsnd
  refine ⟨s, hs, by rw [hreturned]; decide, fun honce => ?_⟩
  have := honce.count
  rw [hcount] at this
  exact absurd this (by decide)

/-- The log is delivered twice, the second time after the first run is done. -/
def deliveredAgain : List (Action Delivery) :=
  .start 0 ⟨1, 1⟩ :: List.replicate 5 (.advance 0) ++ [.start 1 ⟨1, 1⟩, .advance 1, .advance 1]

theorem applied_once_iff_deliveredAgain :
    ∃ s, exec (Delivery.program noVectors) (.idle Db.oneLog 2) deliveredAgain = some s ∧
      (AppliedOnce noVectors 1 Db.oneLog (deliveredLogs 1 deliveredAgain) s.committed ↔
        Along (Delivery.program noVectors) (CommitsFresh 1) (.idle Db.oneLog 2) deliveredAgain) := by
  have h : (exec (Delivery.program noVectors) (.idle Db.oneLog 2) deliveredAgain).map (·.returned) =
      some [⟨1, 1⟩, ⟨1, 1⟩] := by
    decide +kernel
  obtain ⟨s, hs, hreturned⟩ := Option.map_eq_some_iff.mp h
  refine ⟨s, hs, applied_once_iff noVectors 1 Db.oneLog 2 deliveredAgain rfl ?_ hs ?_⟩
  · intro l hl
    have hl : l = ⟨1, 1⟩ := by simpa [deliveredAgain, started] using hl
    subst hl
    exact ⟨_, rfl, rfl⟩
  · rw [hreturned]
    decide

end TravelMaker
