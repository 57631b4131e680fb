import Mathlib.Data.List.Induction
import Mathlib.Logic.Basic

/-! Histories of requests.

A system that serves requests one after the other is a total step on its state. A
property that depends on more than what the requests keep by themselves holds in
every state of a history exactly when each step, taken where the property still
holds, is one that keeps it. -/
namespace TravelMaker.Lib.History

universe u v
variable {S : Type u} {O : Type v}

/-- The states of a history, the first one included. -/
def states (step : S → O → S) : S → List O → List S
  | s, [] => [s]
  | s, o :: rest => s :: states step (step s o) rest

/-- Each request of the history meets `C` in the state it is served in. -/
def Along (step : S → O → S) (C : S → O → Prop) : S → List O → Prop
  | _, [] => True
  | s, o :: rest => C s o ∧ Along step C (step s o) rest

variable {step : S → O → S}

theorem mem_states_self (s : S) (ops : List O) : s ∈ states step s ops := by
  cases ops with
  | nil => exact List.mem_singleton_self s
  | cons o rest => exact List.mem_cons_self

theorem forall_states_cons {I : S → Prop} {s : S} {o : O} {rest : List O} :
    (∀ t ∈ states step s (o :: rest), I t) ↔ I s ∧ ∀ t ∈ states step (step s o) rest, I t :=
  List.forall_mem_cons

/-- A state of a history that goes on is one of before, or one of after. -/
theorem states_append {s t : S} {before after : List O} (ht : t ∈ states step s (before ++ after)) :
    t ∈ states step s before ∨ t ∈ states step (before.foldl step s) after := by
  induction before generalizing s with
  | nil => exact .inr ht
  | cons o rest ih =>
    rcases List.mem_cons.mp ht with rfl | ht
    · exact .inl List.mem_cons_self
    · exact (ih ht).imp_left (List.mem_cons_of_mem _)

/-- What every request keeps holds in every state. -/
theorem states_invariant {I : S → Prop} (hI : ∀ s o, I s → I (step s o)) {s : S} (hs : I s) (ops : List O) :
    ∀ t ∈ states step s ops, I t := by
  induction ops generalizing s with
  | nil => exact List.forall_mem_singleton.mpr hs
  | cons o rest ih => exact forall_states_cons.mpr ⟨hs, ih (hI s o hs)⟩

theorem foldl_mem_states (s : S) (ops : List O) : ops.foldl step s ∈ states step s ops := by
  induction ops generalizing s with
  | nil => exact List.mem_singleton_self s
  | cons o rest ih => exact List.mem_cons_of_mem _ (ih _)

/-- What every request keeps, once it holds, holds in the end. -/
theorem foldl_of_states {P : S → Prop} (hP : ∀ s o, P s → P (step s o)) {s t : S} {ops : List O}
    (ht : t ∈ states step s ops) (h : P t) : P (ops.foldl step s) := by
  have hkeep : ∀ (rest : List O) (s : S), P s → P (rest.foldl step s) := by
    intro rest
    induction rest with
    | nil => exact fun _ h => h
    | cons o rest ih => exact fun s h => ih _ (hP s o h)
  induction ops generalizing s with
  | nil => exact List.mem_singleton.mp ht ▸ h
  | cons o rest ih =>
    rcases List.mem_cons.mp ht with rfl | ht
    · exact hkeep rest _ (hP _ o h)
    · exact ih ht

/-- **When a property holds all along.** Beside an invariant `K` of every request,
`I` holds in every state if and only if each request meets the condition under
which it keeps `I`. -/
theorem forall_states_iff {K I : S → Prop} {C : S → O → Prop} (hK : ∀ s o, K s → K (step s o))
    (hI : ∀ s o, K s → I s → (I (step s o) ↔ C s o)) {s : S} (hs : K s) (h : I s) (ops : List O) :
    (∀ t ∈ states step s ops, I t) ↔ Along step C s ops := by
  induction ops generalizing s with
  | nil =>
    constructor
    · intro _
      trivial
    · intro _ t ht
      rw [List.mem_singleton.mp ht]
      exact h
  | cons o rest ih =>
    rw [forall_states_cons]
    constructor
    · intro hall
      have hnext : I (step s o) := hall.2 _ (mem_states_self _ _)
      exact ⟨(hI s o hs h).mp hnext, (ih (hK s o hs) hnext).mp hall.2⟩
    · intro hC
      exact ⟨h, (ih (hK s o hs) ((hI s o hs h).mpr hC.1)).mpr hC.2⟩

/-- A condition that holds in each state that the history goes through. -/
theorem along_of_states {I : S → Prop} {C : S → O → Prop} (hC : ∀ s o, I s → C s o) {s : S} {ops : List O}
    (h : ∀ t ∈ states step s ops, I t) : Along step C s ops := by
  induction ops generalizing s with
  | nil => trivial
  | cons o rest ih =>
    obtain ⟨hs, hrest⟩ := forall_states_cons.mp h
    exact ⟨hC s o hs, ih hrest⟩

/-- Conditions that agree wherever the history gets to. -/
theorem along_congr {K : S → Prop} {A B : S → O → Prop} (hK : ∀ s o, K s → K (step s o))
    (h : ∀ s o, K s → (A s o ↔ B s o)) {s : S} (hs : K s) (ops : List O) : Along step A s ops ↔ Along step B s ops := by
  induction ops generalizing s with
  | nil => exact Iff.rfl
  | cons o rest ih => exact and_congr (h s o hs) (ih (hK s o hs))

/-- The same, request by request. -/
theorem along_iff {C : S → O → Prop} {s : S} {ops : List O} :
    Along step C s ops ↔ ∀ before o after, ops = before ++ o :: after → C (before.foldl step s) o := by
  induction ops generalizing s with
  | nil => exact iff_of_true trivial fun before o after h => by simp at h
  | cons first rest ih =>
    rw [Along, ih]
    constructor
    · rintro ⟨hfirst, hrest⟩ before o after h
      cases before with
      | nil =>
        obtain ⟨rfl, rfl⟩ := List.cons.inj h
        exact hfirst
      | cons other before =>
        obtain ⟨rfl, rfl⟩ := List.cons.inj h
        exact hrest before o after rfl
    · intro h
      exact ⟨h [] first rest rfl, fun before o after heq => h (first :: before) o after (congrArg _ heq)⟩

/-- What holds in the end and not at first came to hold with some request, and held from there on. -/
theorem became {P : S → Prop} {s : S} {ops : List O} (hs : ¬ P s) (hend : P (ops.foldl step s)) :
    ∃ before o after, ops = before ++ o :: after ∧ ¬ P (before.foldl step s) ∧
      ∀ t ∈ states step (step (before.foldl step s) o) after, P t := by
  induction ops using List.reverseRecOn with
  | nil => exact absurd hend hs
  | append_singleton ops last ih =>
    rw [List.foldl_append] at hend
    by_cases hbefore : P (ops.foldl step s)
    · obtain ⟨before, o, after, rfl, hnot, hfrom⟩ := ih hbefore
      refine ⟨before, o, after ++ [last], by simp, hnot, fun t ht => ?_⟩
      rw [List.foldl_append] at hbefore hend
      rcases states_append ht with ht | ht
      · exact hfrom t ht
      · rcases List.mem_cons.mp ht with rfl | ht
        · exact hbefore
        · rw [List.mem_singleton.mp ht]
          exact hend
    · exact ⟨ops, last, [], rfl, hbefore, List.forall_mem_singleton.mpr hend⟩

/-! ### Two systems -/

section
universe w x
variable {A : Type w} {T : Type x}

/-- What the requests of a history are answered. -/
def answers (serve : S → O → A × S) : S → List O → List A
  | _, [] => []
  | s, o :: rest => (serve s o).1 :: answers serve (serve s o).2 rest

/-- **A simulation shows in the answers**: if related states answer a request alike and are
related afterwards, whole histories are answered alike. -/
theorem answers_refine (serve : S → O → A × S) (spec : T → O → A × T) (Rel : T → S → Prop)
    (hstep : ∀ t s o, Rel t s → (serve s o).1 = (spec t o).1 ∧ Rel (spec t o).2 (serve s o).2) {t : T} {s : S}
    (h : Rel t s) (ops : List O) : answers serve s ops = answers spec t ops ∧
      Rel (ops.foldl (fun t o => (spec t o).2) t) (ops.foldl (fun s o => (serve s o).2) s) := by
  induction ops generalizing t s with
  | nil => exact ⟨rfl, h⟩
  | cons o rest ih =>
    obtain ⟨hanswer, hnext⟩ := hstep t s o h
    obtain ⟨hrest, hend⟩ := ih hnext
    exact ⟨congrArg₂ List.cons hanswer hrest, hend⟩

/-- A specification that leaves a choice has a run with these answers. -/
def Explained (spec : T → O → A → T → Prop) : T → List O → List A → Prop
  | _, [], answered => answered = []
  | t, o :: rest, answered => ∃ a t' later, answered = a :: later ∧ spec t o a t' ∧ Explained spec t' rest later

/-- `answers_refine` for such a specification. -/
theorem answers_explained (serve : S → O → A × S) (spec : T → O → A → T → Prop) (Rel : T → S → Prop)
    (hstep : ∀ t s o, Rel t s → ∃ t', spec t o (serve s o).1 t' ∧ Rel t' (serve s o).2) {t : T} {s : S}
    (h : Rel t s) (ops : List O) : Explained spec t ops (answers serve s ops) := by
  induction ops generalizing t s with
  | nil => rfl
  | cons o rest ih =>
    obtain ⟨t', hspec, hnext⟩ := hstep t s o h
    exact ⟨_, t', _, rfl, hspec, ih hnext⟩

end

end TravelMaker.Lib.History
