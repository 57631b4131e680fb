import Mathlib.Logic.Function.Basic
import TravelMaker.Lib.Transaction

/-! READ COMMITTED, statement by statement.

Any number of connections run `Txn` programs on shared data. A statement sees the
data committed when it starts plus its own transaction's writes; a lock or a
write on a row waits until no other connection holds that row and then reads
again; locks last until the transaction ends; a transaction can be lost at any
point (an error, a crash, a deadlock victim) and may be started again later.

`Guarded` builds on this: a discipline for programs that share one locked row. -/
namespace TravelMaker.Lib.ReadCommitted
open Function (update)

/-- The uncommitted writes of a transaction, oldest first, on top of the data. -/
def replay {D : Type} (log : List (D → D)) (c : D) : D := log.foldl (fun d f => f d) c

@[simp] theorem replay_nil {D : Type} (c : D) : replay [] c = c := rfl

@[simp] theorem replay_cons {D : Type} (f : D → D) (log : List (D → D)) (c : D) :
    replay (f :: log) c = replay log (f c) := rfl

@[simp] theorem replay_append {D : Type} (log log' : List (D → D)) (c : D) :
    replay (log ++ log') c = replay log' (replay log c) := by
  simp [replay]

/-- One connection: the request it serves and what is left of it, its uncommitted
writes, the data that were committed when it last looked (at the start, or at its
last query) and the ids its transaction has drawn. -/
structure Session (D K E α L : Type) where
  work : Option (L × Txn D K E α) := none
  log : List (D → D) := []
  seen : Option D := none
  drawn : List Nat := []

/-- The committed data, the id sequence, the connections, who holds each row lock,
and the requests that have returned, latest first. -/
structure State (D K E α L : Type) where
  committed : D
  seq : Nat
  sessions : Nat → Session D K E α L := fun _ => {}
  holder : K → Option Nat := fun _ => none
  returned : List L := []

/-- What happens next: connection `i` takes up a request, executes its next
statement, or is lost. -/
inductive Action (L : Type) where
  | start (i : Nat) (l : L)
  | advance (i : Nat)
  | abort (i : Nat)
deriving DecidableEq

variable {D K E α L : Type} [DecidableEq K]

namespace State

/-- Nothing runs yet. -/
def idle (committed : D) (seq : Nat) : State D K E α L := {committed := committed, seq := seq}

/-- The data a statement of connection `i` sees. -/
def view (s : State D K E α L) (i : Nat) : D := replay (s.sessions i).log s.committed

/-- The row is free for connection `i`, or already its own. -/
def available (s : State D K E α L) (i : Nat) (key : K) : Bool :=
  s.holder key == none || s.holder key == some i

/-- Connection `i` ends its transaction and goes idle: its locks are released. -/
def close (s : State D K E α L) (i : Nat) : State D K E α L :=
  {s with
    sessions := update s.sessions i {}
    holder := fun key => if s.holder key = some i then none else s.holder key}

def set (s : State D K E α L) (i : Nat) (x : Session D K E α L) : State D K E α L :=
  {s with sessions := update s.sessions i x}

def take (s : State D K E α L) (i : Nat) (key : K) : State D K E α L :=
  {s with holder := update s.holder key (some i)}

/-- The next statement of connection `i`; `none` while it waits for a row. -/
def execute (s : State D K E α L) (i : Nat) (l : L) : Txn D K E α → Option (State D K E α L)
  | .ret _ => some {s.close i with committed := s.view i, returned := l :: s.returned}
  | .raise _ => some (s.close i)
  | .nextval k =>
    some {s.set i {s.sessions i with work := some (l, k s.seq), drawn := s.seq :: (s.sessions i).drawn} with
      seq := s.seq + 1}
  | .query k =>
    some (s.set i {s.sessions i with work := some (l, k (s.view i)), seen := some s.committed})
  | .lock key k =>
    if s.available i key then
      some ((s.set i {s.sessions i with work := some (l, k (s.view i))}).take i key)
    else none
  | .write key f k =>
    if s.available i key then
      some ((s.set i
        {s.sessions i with work := some (l, k (s.view i)), log := (s.sessions i).log ++ [f]}).take i key)
    else none
  | .commit k =>
    some {(s.close i).set i {work := some (l, k), seen := some (s.view i)} with committed := s.view i}

end State

/-- One action; `none` where it cannot happen. -/
def step (client : L → Txn D K E α) (s : State D K E α L) : Action L → Option (State D K E α L)
  | .start i l =>
    match (s.sessions i).work with
    | none => some (s.set i {work := some (l, client l), seen := some s.committed})
    | some _ => none
  | .advance i =>
    match (s.sessions i).work with
    | none => none
    | some (l, p) => s.execute i l p
  | .abort i =>
    match (s.sessions i).work with
    | none => none
    | some _ => some (s.close i)

/-- The state after a list of actions, each possible in its turn. -/
def exec (client : L → Txn D K E α) (s : State D K E α L) : List (Action L) → Option (State D K E α L)
  | [] => some s
  | a :: rest => (step client s a).bind fun s' => exec client s' rest

/-- The requests taken up along a list of actions. -/
def started : List (Action L) → List L
  | [] => []
  | .start _ l :: rest => l :: started rest
  | _ :: rest => started rest

/-- No connection is serving a request. -/
def Quiet (s : State D K E α L) : Prop := ∀ i, (s.sessions i).work = none

/-- `C` holds before every action of the run. -/
def Along (client : L → Txn D K E α) (C : State D K E α L → Action L → Prop) :
    State D K E α L → List (Action L) → Prop
  | _, [] => True
  | s, a :: rest => C s a ∧ ∀ s', step client s a = some s' → Along client C s' rest

/-- From the last mending action on (from the start and `ok`, if none mends) every
action keeps. -/
def Since (client : L → Txn D K E α) (Mends Keeps : State D K E α L → Action L → Prop) :
    Prop → State D K E α L → List (Action L) → Prop
  | ok, _, [] => ok
  | ok, s, a :: rest =>
    ∀ s', step client s a = some s' → Since client Mends Keeps (Mends s a ∨ (ok ∧ Keeps s a)) s' rest

/-- A run begins with a step that is possible. -/
theorem exec_cons {client : L → Txn D K E α} {s s' : State D K E α L} {a : Action L} {rest : List (Action L)}
    (hrun : exec client s (a :: rest) = some s') : ∃ t, step client s a = some t ∧ exec client t rest = some s' :=
  Option.bind_eq_some_iff.mp hrun

/-- A property kept by every step holds after every run. -/
theorem exec_invariant {client : L → Txn D K E α} {I : State D K E α L → Prop}
    {C : State D K E α L → Action L → Prop}
    (hstep : ∀ s a s', I s → C s a → step client s a = some s' → I s') {s s' : State D K E α L}
    {as : List (Action L)} (h : I s) (hC : Along client C s as) (hrun : exec client s as = some s') :
    I s' := by
  induction as generalizing s with
  | nil => cases hrun; exact h
  | cons a rest ih =>
    obtain ⟨t, hs, hrun⟩ := exec_cons hrun
    exact ih (hstep s a t h hC.1 hs) (hC.2 t hs) hrun

/-- A property that each step establishes or keeps holds after a run exactly if it was
kept since it was last established. -/
theorem exec_since {client : L → Txn D K E α} {I W : State D K E α L → Prop}
    {A Mends Keeps : State D K E α L → Action L → Prop}
    (hstep : ∀ s a s', I s → A s a → step client s a = some s' →
      I s' ∧ (W s' ↔ Mends s a ∨ (W s ∧ Keeps s a))) {ok : Prop} {s s' : State D K E α L}
    {as : List (Action L)} (h : I s) (hok : W s ↔ ok) (hA : Along client A s as)
    (hrun : exec client s as = some s') : I s' ∧ (W s' ↔ Since client Mends Keeps ok s as) := by
  induction as generalizing s ok with
  | nil =>
    cases hrun
    exact ⟨h, hok⟩
  | cons a rest ih =>
    obtain ⟨t, hs, hrun⟩ := exec_cons hrun
    obtain ⟨ht, hW⟩ := hstep s a t h hA.1 hs
    rw [hok] at hW
    obtain ⟨hI, hsince⟩ := ih ht hW (hA.2 t hs) hrun
    refine ⟨hI, hsince.trans ⟨fun hrest t' ht' => ?_, fun hall => hall t hs⟩⟩
    rw [hs] at ht'
    cases ht'
    exact hrest

/-- With a ghost value `g` carried along: if each step keeps the invariant and keeps
`N` exactly under `C`, a run keeps `N` exactly if all its steps are under `C`. -/
theorem exec_ghost {G : Type} {client : L → Txn D K E α} {I : State D K E α L → G → Prop} {N : G → Prop}
    {A C : State D K E α L → Action L → Prop}
    (hstep : ∀ s g a s', I s g → A s a → step client s a = some s' → ∃ g', I s' g' ∧ (N g' ↔ N g ∧ C s a))
    {s s' : State D K E α L} {g : G} {as : List (Action L)} (h : I s g) (hA : Along client A s as)
    (hrun : exec client s as = some s') : ∃ g', I s' g' ∧ (N g' ↔ N g ∧ Along client C s as) := by
  induction as generalizing s g with
  | nil =>
    cases hrun
    exact ⟨g, h, (and_iff_left trivial).symm⟩
  | cons a rest ih =>
    obtain ⟨t, hs, hrun⟩ := exec_cons hrun
    obtain ⟨g₁, h₁, hN₁⟩ := hstep s g a t h hA.1 hs
    obtain ⟨g₂, h₂, hN₂⟩ := ih h₁ (hA.2 t hs) hrun
    refine ⟨g₂, h₂, ?_⟩
    rw [hN₂, hN₁, and_assoc]
    refine and_congr_right fun _ => and_congr_right fun _ => ⟨fun hC t' ht' => ?_, fun hC => hC t hs⟩
    rw [hs] at ht'
    cases ht'
    exact hC

theorem Along.and {client : L → Txn D K E α} {C C' : State D K E α L → Action L → Prop}
    {s : State D K E α L} {as : List (Action L)} (h : Along client C s as) (h' : Along client C' s as) :
    Along client (fun s a => C s a ∧ C' s a) s as := by
  induction as generalizing s with
  | nil => trivial
  | cons a rest ih => exact ⟨⟨h.1, h'.1⟩, fun t ht => ih (h.2 t ht) (h'.2 t ht)⟩

/-- A condition on the requests taken up holds along the run. -/
theorem Along.append {client : L → Txn D K E α} {C : State D K E α L → Action L → Prop} {s : State D K E α L}
    {before after : List (Action L)} (h : Along client C s before)
    (hafter : ∀ t, exec client s before = some t → Along client C t after) : Along client C s (before ++ after) := by
  induction before generalizing s with
  | nil => exact hafter s rfl
  | cons a rest ih =>
    exact ⟨h.1, fun t ht => ih (h.2 t ht) fun last hlast => hafter last (Option.bind_eq_some_iff.mpr ⟨t, ht, hlast⟩)⟩

theorem along_started {client : L → Txn D K E α} {Admits : L → Prop} {as : List (Action L)}
    (h : ∀ l ∈ started as, Admits l) (s : State D K E α L) :
    Along client (fun _ a => ∀ i l, a = .start i l → Admits l) s as := by
  induction as generalizing s with
  | nil => trivial
  | cons a rest ih =>
    refine ⟨fun i l ha => h l ?_, fun s' _ => ih (fun l hl => h l ?_) s'⟩
    · rw [ha]
      exact List.mem_cons_self
    · cases a with
      | start => exact List.mem_cons_of_mem _ hl
      | advance => exact hl
      | abort => exact hl

end TravelMaker.Lib.ReadCommitted
