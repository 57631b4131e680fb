import Mathlib.Tactic.Choose
import TravelMaker.Lib.Guarded

/-! One request after the other.

A program without a commit of its own commits when it returns. If what each request commits
is, on an abstract value of the data, what a sequential specification says of it, then any
interleaving has the outcome of its requests served one after the other, in the order in which
they returned (`exec_linearizes`). -/
namespace TravelMaker.Lib.ReadCommitted
open Function (update update_self update_of_ne)

variable {D K E α L P S : Type} [DecidableEq K] {client : L → Txn D K E α} {s s' : State D K E α L}

/-! ### Programs that commit when they return -/

/-- What is left of each program has no commit before its end. -/
def AtomicSessions (s : State D K E α L) : Prop := ∀ i l p, (s.sessions i).work = some (l, p) → p.Atomic

omit [DecidableEq K] in
/-- One connection moves on, to a program that is atomic too. -/
theorem AtomicSessions.update (h : AtomicSessions s) {i : Nat} {x : Session D K E α L}
    (hsessions : s'.sessions = update s.sessions i x) (hx : ∀ l p, x.work = some (l, p) → p.Atomic) :
    AtomicSessions s' := by
  intro j l p hwork
  rw [hsessions] at hwork
  by_cases hj : j = i
  · subst hj
    rw [update_self] at hwork
    exact hx l p hwork
  · rw [update_of_ne hj] at hwork
    exact h j l p hwork

omit [DecidableEq K] in
theorem AtomicSessions.close (h : AtomicSessions s) (i : Nat) : AtomicSessions (s.close i) :=
  h.update rfl fun _ _ hwork => nomatch hwork

omit [DecidableEq K] in
theorem AtomicSessions.set (h : AtomicSessions s) (i : Nat) {l : L} {p : Txn D K E α} (hp : p.Atomic)
    {log : List (D → D)} {seen : Option D} {drawn : List Nat} : AtomicSessions (s.set i ⟨some (l, p), log, seen, drawn⟩) :=
  h.update rfl fun _ _ hwork => by cases hwork; exact hp

theorem AtomicSessions.execute (h : AtomicSessions s) {i : Nat} {l : L} {p : Txn D K E α} (hp : p.Atomic)
    (hs : s.execute i l p = some s') : AtomicSessions s' := by
  cases p with
  | ret a =>
    cases hs
    exact h.close i
  | raise e =>
    cases hs
    exact h.close i
  | nextval k =>
    cases hs
    exact h.set i (hp _)
  | query k =>
    cases hs
    exact h.set i (hp _)
  | lock key k =>
    simp only [State.execute] at hs
    split at hs
    · cases hs
      exact h.set i (hp _)
    · cases hs
  | write key f k =>
    simp only [State.execute] at hs
    split at hs
    · cases hs
      exact h.set i (hp _)
    · cases hs
  | commit k => exact absurd hp id

theorem AtomicSessions.step (hclient : ∀ l, (client l).Atomic) (h : AtomicSessions s) {a : Action L}
    (hs : step client s a = some s') : AtomicSessions s' := by
  cases a with
  | start i l =>
    simp only [ReadCommitted.step] at hs
    split at hs
    · cases hs
      exact h.set i (hclient l)
    · cases hs
  | advance i =>
    simp only [ReadCommitted.step] at hs
    split at hs
    · cases hs
    · rename_i l p hwork
      exact h.execute (h i l p hwork) hs
  | abort i =>
    simp only [ReadCommitted.step] at hs
    split at hs
    · cases hs
    · cases hs
      exact h.close i

/-- A commit of such programs is a return. -/
theorem Commit.returned_of_atomic {pr : Protocol D K P} {R : L → Knowledge D P → Prop} {i : Nat} {l : L} {v : Option P}
    (hc : Commit pr R s s' i l v) (h : AtomicSessions s) (hs : step client s (.advance i) = some s') :
    s'.returned = l :: s.returned := by
  obtain ⟨p, hwork, hp⟩ := hc.work
  have hatomic := h i l p hwork
  simp only [ReadCommitted.step, hwork] at hs
  cases p with
  | ret a =>
    cases hs
    rfl
  | commit k => exact absurd hatomic id
  | raise e => exact absurd hp id
  | nextval k => exact absurd hp id
  | query k => exact absurd hp id
  | lock key k => exact absurd hp id
  | write key f k => exact absurd hp id

/-! ### The sequential run -/

variable {pr : Protocol D K P} {Allowed : L → D → Prop} {R : L → Knowledge D P → Prop}

/-- **Any interleaving is a sequential run**: the requests that returned, in that order and
each by its specification, lead to what the data are. -/
theorem exec_linearizes (abs : D → S) (hd : Discipline pr client Allowed R) (hclient : ∀ l, (client l).Atomic)
    {spec : L → S → Option S} (hspec : ∀ l k c, R l k → Fits pr k c → spec l (abs c) = some (abs (replay k.log c)))
    {d : D} {n : Nat} (hinv : pr.inv d) (hn : ∀ m, n ≤ m → pr.unused m d) {as : List (Action L)}
    (hall : Along client (fun s a => ∀ i l, a = .start i l → Allowed l s.committed) (.idle d n) as)
    (hrun : exec client (.idle d n) as = some s) :
    pr.inv s.committed ∧ s.returned.foldrM spec (abs d) = some (abs s.committed) := by
  have hstep : ∀ s a s', (Sound pr R s ∧ AtomicSessions s ∧ s.returned.foldrM spec (abs d) = some (abs s.committed)) →
      (∀ i l, a = .start i l → Allowed l s.committed) → step client s a = some s' →
        Sound pr R s' ∧ AtomicSessions s' ∧ s'.returned.foldrM spec (abs d) = some (abs s'.committed) := by
    intro s a s' h ha hs
    obtain ⟨hsound, hatomic, hsum⟩ := h
    obtain ⟨hsound', hsilent | ⟨i, l, v, rfl, hcommit⟩⟩ := step_guarded hd hsound ha hs
    · exact ⟨hsound', hatomic.step hclient hs, by rw [hsilent.committed, hsilent.returned, hsum]⟩
    · refine ⟨hsound', hatomic.step hclient hs, ?_⟩
      rw [hcommit.returned_of_atomic hatomic hs, List.foldrM_cons, hsum, hcommit.committed]
      exact hspec l _ _ hcommit.rule hcommit.fits
  have hstart : AtomicSessions (.idle d n : State D K E α L) := fun _ _ _ h => nomatch h
  obtain ⟨hsound, -, hsum⟩ := exec_invariant hstep ⟨sound_idle hinv hn, hstart, rfl⟩ hall hrun
  exact ⟨hsound.inv, hsum⟩

/-! ### Key by key -/

section
variable {κ : Type} [DecidableEq κ] {key : L → κ} {spec : L → S → Option S}

/-- The specification for the values of all keys: a request is about one of them. -/
def onKey (key : L → κ) (spec : L → S → Option S) (l : L) (f : κ → S) : Option (κ → S) :=
  (spec l (f (key l))).map (update f (key l))

/-- The specification as one key sees it. -/
def atKey (key : L → κ) (spec : L → S → Option S) (k : κ) (l : L) (x : S) : Option S :=
  if key l = k then spec l x else some x

/-- What is sequential for each key is sequential for all of them. -/
theorem foldrM_onKey {x y : κ → S} {ls : List L} (h : ∀ k, ls.foldrM (atKey key spec k) (x k) = some (y k)) :
    ls.foldrM (onKey key spec) x = some y := by
  induction ls generalizing y with
  | nil =>
    have hxy : x = y := funext fun k => Option.some.inj (h k)
    rw [hxy]
    rfl
  | cons l rest ih =>
    have hz : ∀ k, ∃ z, rest.foldrM (atKey key spec k) (x k) = some z ∧ atKey key spec k l z = some (y k) := by
      intro k
      have hk := h k
      rw [List.foldrM_cons] at hk
      exact Option.bind_eq_some_iff.mp hk
    choose z hrest hl using hz
    have hown : spec l (z (key l)) = some (y (key l)) := by simpa [atKey] using hl (key l)
    have hothers : update z (key l) (y (key l)) = y := by
      funext k
      by_cases hk : k = key l
      · rw [hk, update_self]
      · rw [update_of_ne hk]
        simpa [atKey, Ne.symm hk] using hl k
    rw [List.foldrM_cons, ih hrest]
    simp [onKey, hown, hothers]

end
end TravelMaker.Lib.ReadCommitted
