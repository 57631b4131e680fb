import TravelMaker.Lib.Guarded
import TravelMaker.User.ContentVector

/-! The incremental task from the point of view of one user's preference row.

Whatever else runs, a run of the task for a user commits one of two things: nothing,
because it found its log processed, or the log applied to the row as it was when the
run took it, which is the row as it is at the commit. -/
namespace TravelMaker
open Lib (Txn)
open Lib.ReadCommitted

variable {V : Type} {ops : VectorOps V} {u w logId : Int}

/-- What a transaction knows of the row of one user. -/
abbrev RowKnowledge (V : Type) := Knowledge (Db V) (Option (UserPreference V))

/-- The run found no unprocessed log and wrote nothing. -/
structure Ignores (logId : Int) (k : RowKnowledge V) (c₀ : Db V) : Prop where
  seen : k.seen = some c₀
  found : c₀.unprocessedLog? logId = none
  held : k.held = none
  log : k.log = []

/-- The run for the user `w` found `log` and applied it to the instance `p`. -/
structure Applies (ops : VectorOps V) (u w logId : Int) (k : RowKnowledge V) (c₀ : Db V)
    (log : UserActionLog) (p : UserPreference V) : Prop where
  seen : k.seen = some c₀
  found : c₀.unprocessedLog? logId = some log
  user : p.userId = w
  held : w = u → ∃ x, k.held = some x ∧ p = x.getD {userId := u}
  apart : w ≠ u → k.held = none
  log : k.log = [Db.ensurePreference w,
    Db.savePreference (p.incremented ops log (c₀.contentVector? log.placeId)), Db.markProcessed logId]

/-- What a run of the task commits. -/
def IncrementalRule (ops : VectorOps V) (u w logId : Int) (k : RowKnowledge V) : Prop :=
  (∃ c₀, Ignores logId k c₀) ∨ ∃ c₀ log p, Applies ops u w logId k c₀ log p

@[simp] theorem incremented_userId (log : UserActionLog) (v : Option V) (p : UserPreference V) :
    (p.incremented ops log v).userId = p.userId := by
  simp only [UserPreference.incremented]
  split <;> rfl

@[simp] theorem incremented_actionCount (log : UserActionLog) (v : Option V) (p : UserPreference V) :
    (p.incremented ops log v).actionCount = p.actionCount + 1 := by
  simp only [UserPreference.incremented]
  split <;> rfl

theorem preferenceD_userId (d : Db V) (u : Int) : (d.preferenceD u).userId = u := by
  unfold Db.preferenceD
  cases h : d.preference? u with
  | none => rfl
  | some p => exact Db.preference?_some h

theorem guarded_incremental {pr : Protocol (Db V) RowKey (Option (UserPreference V))}
    (hrow : pr.row = .preference u) (hpart : ∀ c, pr.part c = c.preference? u)
    {R : RowKnowledge V → Prop} {k : RowKnowledge V} (hlog : k.log = []) (hheld : k.held = none)
    (hR : ∀ k' c₀, Fits pr k c₀ → k'.seen = some c₀ → IncrementalRule ops u w logId k' → R k') :
    Guarded pr R k (updateUserContentVectorIncremental ops w logId) := by
  simp only [updateUserContentVectorIncremental, Txn.read_bind, guarded_query, hlog, replay_nil]
  intro c hc
  cases hfound : c.unprocessedLog? logId with
  | none => exact hR _ c hc rfl (.inl ⟨c, rfl, hfound, hheld, hlog⟩)
  | some log =>
    simp only [getOrCreatePreference, Txn.put_bind, Txn.write_bind, Txn.pure_eq, Txn.ret_bind,
      guarded_write, Txn.orRaise]
    intro c₁ hc₁ c₂ hc₂ c₃ hc₃
    split
    · rw [take_ne (by rw [hrow]; simp)]
      refine hR _ c hc rfl
        (.inr ⟨c, log, c₁.preferenceD w, rfl, hfound, preferenceD_userId c₁ w, ?_, fun hw => ?_, ?_⟩)
      · intro heq
        subst heq
        refine ⟨c₁.preference? w, ?_, rfl⟩
        have htook : ((k.look c).take pr (.preference w) c₁).held = some (c₁.preference? w) := by
          rw [← hrow, take_row, hpart]
        have hsame : pr.part c₂ = c₁.preference? w := hc₂.held _ htook
        show (((k.look c).take pr (.preference w) c₁ |>.write _).take pr (.preference w) c₂).held = _
        rw [← hrow, take_row, hsame]
      · have hne : RowKey.preference w ≠ pr.row := by
          rw [hrow]
          exact fun h => hw (RowKey.preference.inj h)
        rw [take_ne hne, take_ne hne]
        exact hheld
      · simp only [Knowledge.write, Knowledge.take, Knowledge.look, hlog]
        rfl
    · trivial

/-! ### What is left at the commit -/

variable {k : RowKnowledge V} {c c₀ : Db V} {log : UserActionLog} {p : UserPreference V}

/-- The row of another user is not touched. -/
theorem Applies.other (h : Applies ops u w logId k c₀ log p) (hw : w ≠ u) :
    (replay k.log c).preference? u = c.preference? u := by
  have hne : ¬ u = p.userId := by rw [h.user]; exact Ne.symm hw
  rw [h.log]
  show ((c.ensurePreference w).savePreference _).preference? u = _
  rw [Db.preference?_savePreference, incremented_userId, if_neg hne, Db.preference?_ensurePreference,
    if_neg (Ne.symm hw)]

/-- The row of the user takes the log. -/
theorem Applies.row {pr : Protocol (Db V) RowKey (Option (UserPreference V))}
    (hpart : ∀ c, pr.part c = c.preference? u) (h : Applies ops u u logId k c₀ log p) (hc : Fits pr k c) :
    (replay k.log c).preference? u =
      some ((c.preferenceD u).incremented ops log (c₀.contentVector? log.placeId)) := by
  obtain ⟨x, hx, rfl⟩ := h.held rfl
  have hsame : c.preference? u = x := by rw [← hpart, hc.held x hx]
  have hp : x.getD {userId := u} = c.preferenceD u := by rw [Db.preferenceD, hsame]
  rw [h.log, hp]
  show ((c.ensurePreference u).savePreference _).preference? u = _
  rw [Db.preference?_savePreference, incremented_userId, preferenceD_userId, if_pos rfl,
    Db.preference?_ensurePreference, if_pos rfl, Option.map_some]

/-- The log is marked. -/
theorem Applies.unprocessed (h : Applies ops u w logId k c₀ log p) (id : Int) :
    (replay k.log c).unprocessedLog? id = if id = logId then none else c.unprocessedLog? id := by
  rw [h.log]
  show (((c.ensurePreference w).savePreference _).markProcessed logId).unprocessedLog? id = _
  rw [Db.unprocessedLog?_markProcessed]
  congr 1
  show (c.ensurePreference w).unprocessedLog? id = _
  unfold Db.ensurePreference
  split <;> rfl

theorem Applies.logs (h : Applies ops u w logId k c₀ log p) :
    (replay k.log c).actionLogs = (c.markProcessed logId).actionLogs := by
  rw [h.log]
  show ((c.ensurePreference w).markProcessed logId).actionLogs = _
  unfold Db.ensurePreference
  split <;> rfl

theorem Applies.features (h : Applies ops u w logId k c₀ log p) :
    (replay k.log c).placeFeatures = c.placeFeatures := by
  rw [h.log]
  show (c.ensurePreference w).placeFeatures = _
  unfold Db.ensurePreference
  split <;> rfl

end TravelMaker
