import TravelMaker.Lib.ReadCommitted

/-! Programs that share one locked row.

A `Protocol` fixes a row lock, the part of the data that belongs to it, an
invariant of the committed data, which ids the data use, and an order in which
commits may only move the data upwards. `Guarded` follows a program with what is
known of its transaction (`Knowledge`): the value the guarded part had when the
lock was taken, the data it last looked at, the ids it drew and its uncommitted
writes. It asks that whatever the program commits is allowed by a rule `R`.

A `Discipline` is a family of such programs whose commits keep the protocol:
without the lock they leave the guarded part alone. `step_guarded` is its
soundness: along any interleaving each commit is one that `R` allows on data that
fit what the transaction knows, and nothing else moves the committed data. -/
namespace TravelMaker.Lib.ReadCommitted
open Function (update)

variable {D K E α L P : Type}

/-! ### What a transaction knows -/

structure Protocol (D K P : Type) where
  /-- The row lock. -/
  row : K
  /-- The part of the data it guards. -/
  part : D → P
  /-- What every commit keeps. -/
  inv : D → Prop := fun _ => True
  /-- The id does not occur in the data. -/
  unused : Nat → D → Prop := fun _ _ => True
  /-- Commits move the data upwards only. -/
  grows : D → D → Prop := fun _ _ => True
  refl : ∀ c, grows c c := by exact fun _ => trivial
  trans : ∀ {c c' c''}, grows c c' → grows c' c'' → grows c c'' := by exact fun _ _ => trivial

/-- What is known of a transaction: the guarded part since it holds the row (`none`
before that), the data it last looked at, the ids it drew and what it wrote. -/
structure Knowledge (D P : Type) where
  held : Option P := none
  seen : Option D := none
  drawn : List Nat := []
  log : List (D → D) := []

/-- The committed data are as the transaction relies on. -/
structure Fits (pr : Protocol D K P) (k : Knowledge D P) (c : D) : Prop where
  inv : pr.inv c
  held : ∀ x, k.held = some x → pr.part c = x
  seen : ∀ d, k.seen = some d → pr.grows d c
  drawn : ∀ n ∈ k.drawn, pr.unused n c

/-- What connection `i` knows, with `v` for the guarded part. -/
def State.knowledge (s : State D K E α L) (i : Nat) (v : Option P) : Knowledge D P :=
  ⟨v, (s.sessions i).seen, (s.sessions i).drawn, (s.sessions i).log⟩

theorem available_holder [DecidableEq K] {s : State D K E α L} {i : Nat} {key : K}
    (h : s.available i key = true) : s.holder key = none ∨ s.holder key = some i := by
  simpa [State.available] using h

theorem close_holder [DecidableEq K] {s : State D K E α L} {κ : K} {i j : Nat} (hj : j ≠ i) :
    ((s.close i).holder κ = some j ↔ s.holder κ = some j) := by
  simp only [State.close]
  split
  · rename_i h
    rw [h]
    constructor
    · intro hh; cases hh
    · intro hh; exact absurd (Option.some.inj hh).symm hj
  · rfl

theorem close_holder_self [DecidableEq K] (s : State D K E α L) (κ : K) (i : Nat) :
    (s.close i).holder κ ≠ some i := by
  simp only [State.close]
  split
  · exact fun h => nomatch h
  · assumption

def Knowledge.write (k : Knowledge D P) (f : D → D) : Knowledge D P := {k with log := k.log ++ [f]}

def Knowledge.look (k : Knowledge D P) (c : D) : Knowledge D P := {k with seen := some c}

def Knowledge.draw (k : Knowledge D P) (n : Nat) : Knowledge D P := {k with drawn := n :: k.drawn}

section
variable {pr : Protocol D K P} {k : Knowledge D P} {c : D}

theorem Fits.write (h : Fits pr k c) (f : D → D) : Fits pr (k.write f) c := ⟨h.inv, h.held, h.seen, h.drawn⟩

theorem Fits.look (h : Fits pr k c) : Fits pr (k.look c) c :=
  ⟨h.inv, h.held, (fun _ hd => Option.some.inj hd ▸ pr.refl c), h.drawn⟩

theorem Fits.draw (h : Fits pr k c) {n : Nat} (hn : pr.unused n c) : Fits pr (k.draw n) c :=
  ⟨h.inv, h.held, h.seen, fun m hm => by
    rcases List.mem_cons.mp hm with rfl | hm
    · exact hn
    · exact h.drawn m hm⟩

/-- A transaction that has only looked at the data. -/
theorem fits_look (h : pr.inv c) : Fits pr (Knowledge.look {} c) c :=
  ⟨h, (fun _ hx => nomatch hx), (fun _ hd => Option.some.inj hd ▸ pr.refl c), fun _ hn => nomatch hn⟩

end

variable [DecidableEq K]

/-- What is known once the row `key` is held. -/
def Knowledge.take (pr : Protocol D K P) (k : Knowledge D P) (key : K) (c : D) : Knowledge D P :=
  {k with held := if key = pr.row then some (pr.part c) else k.held}

section
variable {pr : Protocol D K P} {k : Knowledge D P} {c : D}

theorem take_row (pr : Protocol D K P) : k.take pr pr.row c = {k with held := some (pr.part c)} := by
  simp [Knowledge.take]

theorem take_ne {key : K} (h : key ≠ pr.row) : k.take pr key c = k := by
  simp [Knowledge.take, h]

theorem Fits.take (h : Fits pr k c) (key : K) : Fits pr (k.take pr key c) c := by
  refine ⟨h.inv, fun x hx => ?_, h.seen, h.drawn⟩
  simp only [Knowledge.take] at hx
  split at hx
  · exact Option.some.inj hx
  · exact h.held x hx

end

/-! ### Disciplined programs -/

section
variable (pr : Protocol D K P)

/-- Whatever the program commits, `R` allows. Each statement may see any committed
data that fit what is known. -/
def Guarded (R : Knowledge D P → Prop) : Knowledge D P → Txn D K E α → Prop
  | k, .ret _ => R k
  | _, .raise _ => True
  | k, .nextval f => ∀ n, n ∉ k.drawn → Guarded R (k.draw n) (f n)
  | k, .query f => ∀ c, Fits pr k c → Guarded R (k.look c) (f (replay k.log c))
  | k, .lock key f => ∀ c, Fits pr k c → Guarded R (k.take pr key c) (f (replay k.log c))
  | k, .write key g f => ∀ c, Fits pr k c → Guarded R ((k.take pr key c).write g) (f (replay k.log c))
  | k, .commit p => R k ∧ ∀ c, Fits pr k c → Guarded R (Knowledge.look {} (replay k.log c)) p

section
variable {pr} {R : Knowledge D P → Prop} {k : Knowledge D P}

theorem guarded_ret (a : α) : Guarded pr R k (.ret a : Txn D K E α) ↔ R k := Iff.rfl

theorem guarded_nextval (f : Nat → Txn D K E α) :
    Guarded pr R k (.nextval f) ↔ ∀ n, n ∉ k.drawn → Guarded pr R (k.draw n) (f n) := Iff.rfl

theorem guarded_query (f : D → Txn D K E α) : Guarded pr R k (.query f) ↔
    ∀ c, Fits pr k c → Guarded pr R (k.look c) (f (replay k.log c)) := Iff.rfl

theorem guarded_lock (key : K) (f : D → Txn D K E α) : Guarded pr R k (.lock key f) ↔
    ∀ c, Fits pr k c → Guarded pr R (k.take pr key c) (f (replay k.log c)) := Iff.rfl

theorem guarded_write (key : K) (g : D → D) (f : D → Txn D K E α) : Guarded pr R k (.write key g f) ↔
    ∀ c, Fits pr k c → Guarded pr R ((k.take pr key c).write g) (f (replay k.log c)) := Iff.rfl

end

/-- Programs that may run together. A request `l` may be taken up on committed data
with `Allowed l`. -/
structure Discipline (client : L → Txn D K E α) (Allowed : L → D → Prop)
    (R : L → Knowledge D P → Prop) : Prop where
  guarded : ∀ l c, Allowed l c → pr.inv c → Guarded pr (R l) (Knowledge.look {} c) (client l)
  keeps : ∀ l k c, R l k → Fits pr k c → pr.inv (replay k.log c)
  clean : ∀ l k c, R l k → Fits pr k c → k.held = none → pr.part (replay k.log c) = pr.part c
  fresh : ∀ l k c n, R l k → Fits pr k c → n ∉ k.drawn → pr.unused n c → pr.unused n (replay k.log c)
  grows : ∀ l k c, R l k → Fits pr k c → pr.grows c (replay k.log c)

/-- What holds of a connection in the middle of a run. -/
structure Holds (R : L → Knowledge D P → Prop) (s : State D K E α L) (i : Nat) (l : L)
    (p : Txn D K E α) (v : Option P) : Prop where
  holder : v.isSome = true ↔ s.holder pr.row = some i
  fits : Fits pr (s.knowledge i v) s.committed
  guarded : Guarded pr (R l) (s.knowledge i v) p

/-- The invariant of a run of disciplined programs. -/
structure Sound (R : L → Knowledge D P → Prop) (s : State D K E α L) : Prop where
  inv : pr.inv s.committed
  below : ∀ n, s.seq ≤ n → pr.unused n s.committed
  drawn : ∀ i, ∀ n ∈ (s.sessions i).drawn, n < s.seq
  apart : ∀ i j n, n ∈ (s.sessions i).drawn → n ∈ (s.sessions j).drawn → i = j
  idle : ∀ i, (s.sessions i).work = none → s.holder pr.row ≠ some i
  busy : ∀ i l p, (s.sessions i).work = some (l, p) → ∃ v, Holds pr R s i l p v

/-- Connection `i` commits, for the request `l`, writes that `R` allows. -/
structure Commit (R : L → Knowledge D P → Prop) (s s' : State D K E α L) (i : Nat) (l : L)
    (v : Option P) : Prop where
  holder : v.isSome = true ↔ s.holder pr.row = some i
  rule : R l (s.knowledge i v)
  fits : Fits pr (s.knowledge i v) s.committed
  work : ∃ p, (s.sessions i).work = some (l, p) ∧ p.Commits
  returned : s'.returned = l :: s.returned ∨ s'.returned = s.returned
  committed : s'.committed = replay (s.knowledge i v).log s.committed

/-- A step that commits nothing. -/
structure Silent (s s' : State D K E α L) (a : Action L) : Prop where
  committed : s'.committed = s.committed
  returned : s'.returned = s.returned
  step : ∀ i l p, a = .advance i → (s.sessions i).work = some (l, p) → ¬ p.Commits

end

variable {pr : Protocol D K P} {client : L → Txn D K E α} {Allowed : L → D → Prop}
  {R : L → Knowledge D P → Prop}

theorem sound_idle {d : D} {n : Nat} (h : pr.inv d) (hn : ∀ m, n ≤ m → pr.unused m d) :
    Sound pr R (State.idle d n : State D K E α L) where
  inv := h
  below := hn
  drawn := fun _ _ h => nomatch h
  apart := fun _ _ _ h => nomatch h
  idle := fun _ _ h => nomatch h
  busy := fun _ _ _ h => nomatch h

/-- What a step of one connection leaves of the data the others rely on: the
guarded part if it does not hold the row, the order, and the ids it did not draw. -/
structure Rely (pr : Protocol D K P) (s s' : State D K E α L) (i : Nat) : Prop where
  inv : pr.inv s'.committed
  part : s.holder pr.row ≠ some i → pr.part s'.committed = pr.part s.committed
  grows : pr.grows s.committed s'.committed
  unused : ∀ n, n ∉ (s.sessions i).drawn → pr.unused n s.committed → pr.unused n s'.committed

theorem Rely.refl {s s' : State D K E α L} (h : Sound pr R s) (hc : s'.committed = s.committed) (i : Nat) :
    Rely pr s s' i where
  inv := hc ▸ h.inv
  part := fun _ => by rw [hc]
  grows := by rw [hc]; exact pr.refl _
  unused := fun _ _ hn => by rw [hc]; exact hn

/-- A connection that the step does not touch still knows what it knew. -/
theorem Holds.frame {s s' : State D K E α L} {i j : Nat} {l : L} {p : Txn D K E α} {v : Option P}
    (h : Holds pr R s j l p v) (hsession : s'.sessions j = s.sessions j)
    (hholder : s'.holder pr.row = some j ↔ s.holder pr.row = some j) (hr : Rely pr s s' i) (hji : j ≠ i)
    (hapart : ∀ n ∈ (s.sessions j).drawn, n ∉ (s.sessions i).drawn) :
    Holds pr R s' j l p v := by
  have hknow : s'.knowledge j v = s.knowledge j v := by simp only [State.knowledge, hsession]
  refine ⟨h.holder.trans hholder.symm, ?_, by rw [hknow]; exact h.guarded⟩
  rw [hknow]
  refine ⟨hr.inv, fun x hx => ?_, fun d hd => pr.trans (h.fits.seen d hd) hr.grows,
    fun n hn => hr.unused n (hapart n hn) (h.fits.drawn n hn)⟩
  rw [hr.part fun hi => ?_]
  · exact h.fits.held x hx
  · -- the lock has one holder
    have hj := h.holder.mp (by rw [show v = some x from hx]; rfl)
    rw [hi] at hj
    exact hji (Option.some.inj hj).symm

/-- The untouched connections, in the form the step lemmas use: connection `i` moves,
locks move only to or from it, and what it drew since is new. -/
theorem Sound.frame {s s' : State D K E α L} (h : Sound pr R s) (i : Nat) (hr : Rely pr s s' i)
    (hsessions : ∀ j, j ≠ i → s'.sessions j = s.sessions j)
    (hholder : ∀ j, j ≠ i → (s'.holder pr.row = some j ↔ s.holder pr.row = some j))
    (hseq : s.seq ≤ s'.seq)
    (hdrawn : ∀ n ∈ (s'.sessions i).drawn, n ∈ (s.sessions i).drawn ∨ (s.seq ≤ n ∧ n < s'.seq))
    (hidle : (s'.sessions i).work = none → s'.holder pr.row ≠ some i)
    (hbusy : ∀ l p, (s'.sessions i).work = some (l, p) → ∃ v, Holds pr R s' i l p v) :
    Sound pr R s' := by
  have hlt : ∀ n ∈ (s'.sessions i).drawn, n < s'.seq := fun n hn => by
    rcases hdrawn n hn with hn | hn
    · exact Nat.lt_of_lt_of_le (h.drawn i n hn) hseq
    · exact hn.2
  -- what `i` has now, no other connection has
  have hnew : ∀ j, j ≠ i → ∀ n ∈ (s'.sessions i).drawn, n ∉ (s.sessions j).drawn := by
    intro j hj n hn hm
    rcases hdrawn n hn with hold | hge
    · exact hj (h.apart j i n hm hold)
    · have := h.drawn j n hm
      omega
  refine ⟨hr.inv, fun n hn => ?_, fun j n hn => ?_, fun j₁ j₂ n h₁ h₂ => ?_, fun j hj => ?_, fun j l p hj => ?_⟩
  · refine hr.unused n (fun hm => ?_) (h.below n (Nat.le_trans hseq hn))
    have := h.drawn i n hm
    omega
  · by_cases hji : j = i
    · subst hji
      exact hlt n hn
    · rw [hsessions j hji] at hn
      exact Nat.lt_of_lt_of_le (h.drawn j n hn) hseq
  · by_cases h1 : j₁ = i
    · by_cases h2 : j₂ = i
      · rw [h1, h2]
      · rw [hsessions j₂ h2] at h₂
        exact absurd h₂ (hnew j₂ h2 n (h1 ▸ h₁))
    · rw [hsessions j₁ h1] at h₁
      by_cases h2 : j₂ = i
      · exact absurd h₁ (hnew j₁ h1 n (h2 ▸ h₂))
      · rw [hsessions j₂ h2] at h₂
        exact h.apart j₁ j₂ n h₁ h₂
  · by_cases hji : j = i
    · subst hji
      exact hidle hj
    · rw [hsessions j hji] at hj
      exact fun hh => h.idle j hj ((hholder j hji).mp hh)
  · by_cases hji : j = i
    · subst hji
      exact hbusy l p hj
    · rw [hsessions j hji] at hj
      obtain ⟨v, hv⟩ := h.busy j l p hj
      exact ⟨v, hv.frame (hsessions j hji) (hholder j hji) hr hji fun n hn hm => hji (h.apart j i n hn hm)⟩

/-! ### One step -/

/-- Taking the row `key` when it is available. -/
theorem take_holder {s : State D K E α L} {κ : K} {i j : Nat} {key : K} (h : s.available i key = true)
    (hj : j ≠ i) : (update s.holder key (some i) κ = some j ↔ s.holder κ = some j) := by
  by_cases hk : κ = key
  · subst hk
    rw [Function.update_self]
    constructor
    · intro hh
      exact absurd (Option.some.inj hh).symm hj
    · intro hh
      rcases available_holder h with hn | hs
      · rw [hn] at hh
        cases hh
      · rw [hs] at hh
        exact absurd (Option.some.inj hh).symm hj
  · rw [Function.update_of_ne hk]

/-- After taking `key`, the guarded part is known exactly by its holder. -/
theorem take_held {s : State D K E α L} {i : Nat} {key : K} {k : Knowledge D P}
    (h : k.held.isSome = true ↔ s.holder pr.row = some i) :
    (k.take pr key s.committed).held.isSome = true ↔
      update s.holder key (some i) pr.row = some i := by
  by_cases hk : key = pr.row
  · rw [hk, take_row, Function.update_self]
    exact ⟨fun _ => rfl, fun _ => rfl⟩
  · rw [take_ne hk, Function.update_of_ne (Ne.symm hk)]
    exact h

/-- A connection that goes on with `p`, knowing `k`. -/
theorem Sound.resume {s s' : State D K E α L} (h : Sound pr R s) {i : Nat} {l : L} {p : Txn D K E α}
    {k : Knowledge D P} (hr : Rely pr s s' i)
    (hsessions : s'.sessions = update s.sessions i ⟨some (l, p), k.log, k.seen, k.drawn⟩)
    (hholder : ∀ j, j ≠ i → (s'.holder pr.row = some j ↔ s.holder pr.row = some j))
    (hseq : s.seq ≤ s'.seq)
    (hdrawn : ∀ n ∈ k.drawn, n ∈ (s.sessions i).drawn ∨ (s.seq ≤ n ∧ n < s'.seq))
    (hv : k.held.isSome = true ↔ s'.holder pr.row = some i) (hfits : Fits pr k s'.committed)
    (hg : Guarded pr (R l) k p) : Sound pr R s' := by
  have hself : s'.sessions i = ⟨some (l, p), k.log, k.seen, k.drawn⟩ := by
    rw [hsessions, Function.update_self]
  have hknow : s'.knowledge i k.held = k := by simp only [State.knowledge, hself]
  refine h.frame i hr (fun j hj => ?_) hholder hseq ?_ (fun hw => ?_) (fun l' p' hw => ?_)
  · rw [hsessions, Function.update_of_ne hj]
  · rw [hself]
    exact hdrawn
  · rw [hself] at hw
    cases hw
  · rw [hself] at hw
    cases hw
    exact ⟨k.held, hv, by rw [hknow]; exact hfits, by rw [hknow]; exact hg⟩

/-- A connection that goes idle; `d` is what is committed then. -/
theorem Sound.close {s s' : State D K E α L} (h : Sound pr R s) {i : Nat} (hr : Rely pr s s' i)
    (hsessions : s'.sessions = (s.close i).sessions) (hholder : s'.holder = (s.close i).holder)
    (hseq : s'.seq = s.seq) : Sound pr R s' := by
  have hself : s'.sessions i = {} := by
    rw [hsessions]
    exact Function.update_self ..
  refine h.frame i hr (fun j hj => ?_) (fun j hj => ?_) (Nat.le_of_eq hseq.symm) (fun n hn => ?_)
    (fun _ => ?_) (fun l p hp => ?_)
  · rw [hsessions]
    exact Function.update_of_ne hj _ _
  · rw [hholder]
    exact close_holder hj
  · rw [hself] at hn
    cases hn
  · rw [hholder]
    exact close_holder_self s pr.row i
  · rw [hself] at hp
    cases hp

/-- What a commit that `R` allows leaves to the others. -/
theorem Discipline.rely (hd : Discipline pr client Allowed R) {s s' : State D K E α L} {i : Nat} {l : L}
    {v : Option P} (hr : R l (s.knowledge i v)) (hfits : Fits pr (s.knowledge i v) s.committed)
    (hv : v.isSome = true ↔ s.holder pr.row = some i)
    (hc : s'.committed = replay (s.sessions i).log s.committed) : Rely pr s s' i where
  inv := hc ▸ hd.keeps l _ _ hr hfits
  part := by
    intro hi
    rw [hc]
    apply hd.clean l _ _ hr hfits
    show v = none
    cases v with
    | none => rfl
    | some x => exact absurd (hv.mp rfl) hi
  grows := hc ▸ hd.grows l _ _ hr hfits
  unused := fun n hn hu => hc ▸ hd.fresh l _ _ n hr hfits hn hu

/-- One statement of a disciplined program. -/
theorem execute_guarded (hd : Discipline pr client Allowed R) {s s' : State D K E α L} {i : Nat} {l : L}
    {p : Txn D K E α} (h : Sound pr R s) (hw : (s.sessions i).work = some (l, p))
    (hs : s.execute i l p = some s') :
    Sound pr R s' ∧ ((s'.committed = s.committed ∧ s'.returned = s.returned ∧ ¬ p.Commits) ∨
      ∃ v, Commit pr R s s' i l v) := by
  obtain ⟨v, hv, hfits, hg⟩ := h.busy i l p hw
  have hdrawn : ∀ n ∈ (s.sessions i).drawn, n ∈ (s.sessions i).drawn ∨ (s.seq ≤ n ∧ n < s.seq) :=
    fun n hn => .inl hn
  cases p with
  | ret a =>
    cases hs
    exact ⟨h.close (hd.rely hg hfits hv rfl) rfl rfl rfl,
      .inr ⟨v, hv, hg, hfits, ⟨_, hw, trivial⟩, .inl rfl, rfl⟩⟩
  | raise e =>
    cases hs
    exact ⟨h.close (.refl h (by rfl) i) rfl rfl rfl, .inl ⟨rfl, rfl, id⟩⟩
  | nextval f =>
    cases hs
    have hnew : s.seq ∉ (s.sessions i).drawn := fun hm => Nat.lt_irrefl _ (h.drawn i _ hm)
    refine ⟨?_, .inl ⟨rfl, rfl, id⟩⟩
    refine h.resume (k := (s.knowledge i v).draw s.seq) (.refl h (by rfl) i) rfl (fun _ _ => Iff.rfl)
      (Nat.le_succ _) (fun n hn => ?_) hv (hfits.draw (h.below _ (Nat.le_refl _))) (hg _ hnew)
    rcases List.mem_cons.mp hn with rfl | hn
    · exact .inr ⟨Nat.le_refl _, Nat.lt_succ_self _⟩
    · exact .inl hn
  | query f =>
    cases hs
    exact ⟨h.resume (k := (s.knowledge i v).look s.committed) (.refl h (by rfl) i) rfl (fun _ _ => Iff.rfl)
      (Nat.le_refl _) hdrawn hv hfits.look (hg _ hfits), .inl ⟨rfl, rfl, id⟩⟩
  | lock key f =>
    simp only [State.execute] at hs
    split at hs
    · rename_i hav
      cases hs
      exact ⟨h.resume (k := (s.knowledge i v).take pr key s.committed) (.refl h (by rfl) i) rfl
        (fun j hj => take_holder hav hj) (Nat.le_refl _) hdrawn (take_held hv) (hfits.take key)
        (hg _ hfits), .inl ⟨rfl, rfl, id⟩⟩
    · cases hs
  | write key g f =>
    simp only [State.execute] at hs
    split at hs
    · rename_i hav
      cases hs
      exact ⟨h.resume (k := ((s.knowledge i v).take pr key s.committed).write g) (.refl h (by rfl) i) rfl
        (fun j hj => take_holder hav hj) (Nat.le_refl _) hdrawn (take_held hv) ((hfits.take key).write g)
        (hg _ hfits), .inl ⟨rfl, rfl, id⟩⟩
    · cases hs
  | commit q =>
    cases hs
    have hrely : Rely pr s {(s.close i).set i {work := some (l, q), seen := some (s.view i)} with
        committed := s.view i} i := hd.rely hg.1 hfits hv rfl
    refine ⟨?_, .inr ⟨v, hv, hg.1, hfits, ⟨_, hw, trivial⟩, .inr rfl, rfl⟩⟩
    exact h.resume (k := Knowledge.look {} (s.view i)) hrely (Function.update_idem ..)
      (fun j hj => close_holder hj) (Nat.le_refl _) (fun _ hn => nomatch hn)
      ⟨(fun hh => nomatch hh), fun hh => absurd hh (close_holder_self s pr.row i)⟩ (fits_look hrely.inv)
      (hg.2 _ hfits)

/-- **One step of disciplined programs**: the invariant is kept, and either nothing
is committed or one connection commits writes that `R` allows. -/
theorem step_guarded (hd : Discipline pr client Allowed R) {s s' : State D K E α L} {a : Action L}
    (h : Sound pr R s) (ha : ∀ i l, a = .start i l → Allowed l s.committed)
    (hs : step client s a = some s') :
    Sound pr R s' ∧ (Silent s s' a ∨ ∃ i l v, a = .advance i ∧ Commit pr R s s' i l v) := by
  cases a with
  | start i l =>
    simp only [step] at hs
    split at hs
    · rename_i hidle
      cases hs
      refine ⟨?_, .inl ⟨rfl, rfl, fun _ _ _ hh => nomatch hh⟩⟩
      exact h.resume (k := Knowledge.look {} s.committed) (.refl h (by rfl) i) rfl (fun _ _ => Iff.rfl)
        (Nat.le_refl _) (fun _ hn => nomatch hn)
        ⟨(fun hh => nomatch hh), fun hh => absurd hh (h.idle i hidle)⟩ (fits_look h.inv)
        (hd.guarded l _ (ha i l rfl) h.inv)
    · cases hs
  | abort i =>
    simp only [step] at hs
    split at hs
    · cases hs
    · cases hs
      exact ⟨h.close (.refl h (by rfl) i) rfl rfl rfl, .inl ⟨rfl, rfl, fun _ _ _ hh => nomatch hh⟩⟩
  | advance i =>
    simp only [step] at hs
    split at hs
    · cases hs
    · rename_i l p hw
      obtain ⟨hsound, ⟨hc, hret, hp⟩ | ⟨v, hv⟩⟩ := execute_guarded hd h hw hs
      · refine ⟨hsound, .inl ⟨hc, hret, fun i' l' p' hi hw' => ?_⟩⟩
        cases hi
        rw [hw] at hw'
        cases hw'
        exact hp
      · exact ⟨hsound, .inr ⟨i, l, v, rfl, hv⟩⟩

/-- **A property of the committed data that every allowed commit keeps** holds after
any interleaving. -/
theorem exec_guarded (hd : Discipline pr client Allowed R) {Q : D → Prop}
    (hQ : ∀ l k c, R l k → Fits pr k c → Q c → Q (replay k.log c)) {d : D} {n : Nat} (hinv : pr.inv d)
    (hn : ∀ m, n ≤ m → pr.unused m d) (hq : Q d) {as : List (Action L)}
    (hall : Along client (fun s a => ∀ i l, a = .start i l → Allowed l s.committed) (.idle d n) as)
    {s : State D K E α L} (hrun : exec client (.idle d n) as = some s) : Q s.committed := by
  have hstep : ∀ s a s', Sound pr R s ∧ Q s.committed → (∀ i l, a = .start i l → Allowed l s.committed) →
      step client s a = some s' → Sound pr R s' ∧ Q s'.committed := by
    intro s a s' h ha hs
    obtain ⟨hsound, hsilent | ⟨i, l, v, -, hcommit⟩⟩ := step_guarded hd h.1 ha hs
    · exact ⟨hsound, hsilent.committed ▸ h.2⟩
    · refine ⟨hsound, ?_⟩
      rw [hcommit.committed]
      exact hQ l _ _ hcommit.rule hcommit.fits h.2
  exact (exec_invariant hstep ⟨sound_idle hinv hn, hq⟩ hall hrun).2

end TravelMaker.Lib.ReadCommitted
