import Mathlib.Logic.Function.Basic

/-! Database programs, one statement at a time.

A `Txn` is what one database connection still has to do: statements that read
what they see, statements that take a row lock, statements that write, a draw
from an id sequence, a commit, or an exception that ends it. The same program has
two meanings. `run` executes it alone, which is what a request does when no other
one is in flight; `ReadCommitted` interleaves many of them statement by
statement. An exception leaves the last committed data, whatever was written
since: this is the atomic block. -/
namespace TravelMaker.Lib

/-- What a connection still does on data `D` with row locks `K` and exceptions `E`.
A continuation receives the data its statement saw. -/
inductive Txn (D K E α : Type) where
  /-- Leave the atomic block: commit and return. -/
  | ret (a : α)
  /-- An exception that leaves the atomic block: roll back. -/
  | raise (e : E)
  /-- Draw from an id sequence; a rollback does not give the value back. -/
  | nextval (k : Nat → Txn D K E α)
  /-- A `SELECT`. -/
  | query (k : D → Txn D K E α)
  /-- A `SELECT … FOR UPDATE`: take the row lock, then read. -/
  | lock (key : K) (k : D → Txn D K E α)
  /-- An `INSERT`, `UPDATE` or `DELETE`: take the row lock, read, then write. -/
  | write (key : K) (f : D → D) (k : D → Txn D K E α)
  /-- Commit and go on in a new transaction. -/
  | commit (k : Txn D K E α)

namespace Txn
variable {D K E α β : Type}

def bind : Txn D K E α → (α → Txn D K E β) → Txn D K E β
  | .ret a, q => q a
  | .raise e, _ => .raise e
  | .nextval k, q => .nextval fun n => (k n).bind q
  | .query k, q => .query fun d => (k d).bind q
  | .lock key k, q => .lock key fun d => (k d).bind q
  | .write key f k, q => .write key f fun d => (k d).bind q
  | .commit k, q => .commit (k.bind q)

instance : Monad (Txn D K E) where
  pure := .ret
  bind := .bind

@[simp] theorem pure_eq (a : α) : (pure a : Txn D K E α) = .ret a := rfl
@[simp] theorem ret_bind (a : α) (q : α → Txn D K E β) : (ret a : Txn D K E α) >>= q = q a := rfl
@[simp] theorem raise_bind (e : E) (q : α → Txn D K E β) :
    (raise e : Txn D K E α) >>= q = .raise e := rfl
@[simp] theorem nextval_bind (k : Nat → Txn D K E α) (q : α → Txn D K E β) :
    nextval k >>= q = .nextval fun n => k n >>= q := rfl
@[simp] theorem query_bind (k : D → Txn D K E α) (q : α → Txn D K E β) :
    query k >>= q = .query fun d => k d >>= q := rfl
@[simp] theorem lock_bind (key : K) (k : D → Txn D K E α) (q : α → Txn D K E β) :
    lock key k >>= q = .lock key fun d => k d >>= q := rfl
@[simp] theorem write_bind (key : K) (f : D → D) (k : D → Txn D K E α) (q : α → Txn D K E β) :
    write key f k >>= q = .write key f fun d => k d >>= q := rfl
@[simp] theorem commit_bind (k : Txn D K E α) (q : α → Txn D K E β) :
    commit k >>= q = .commit (k >>= q) := rfl

theorem bind_ret (p : Txn D K E α) : p >>= ret = p := by
  induction p with
  | ret a => rfl
  | raise e => rfl
  | nextval k ih => exact congrArg nextval (funext ih)
  | query k ih => exact congrArg query (funext ih)
  | lock key k ih => exact congrArg (lock key) (funext ih)
  | write key f k ih => exact congrArg (write key f) (funext ih)
  | commit k ih => exact congrArg commit ih

theorem bind_bind {γ : Type} (p : Txn D K E α) (q : α → Txn D K E β) (r : β → Txn D K E γ) :
    p >>= q >>= r = p >>= fun a => q a >>= r := by
  induction p with
  | ret a => rfl
  | raise e => rfl
  | nextval k ih => exact congrArg nextval (funext ih)
  | query k ih => exact congrArg query (funext ih)
  | lock key k ih => exact congrArg (lock key) (funext ih)
  | write key f k ih => exact congrArg (write key f) (funext ih)
  | commit k ih => exact congrArg commit ih

instance : LawfulMonad (Txn D K E) :=
  LawfulMonad.mk' _ bind_ret (fun _ _ => rfl) bind_bind

/-- What a plain `SELECT` sees. -/
def read : Txn D K E D := .query .ret

/-- The next id. -/
def fresh : Txn D K E Nat := .nextval .ret

/-- What `SELECT … FOR UPDATE` sees once it has the row. -/
def forUpdate (key : K) : Txn D K E D := .lock key .ret

/-- Write a row; the result is the data the statement found. -/
def put (key : K) (f : D → D) : Txn D K E D := .write key f .ret

/-- Commit what was written so far. -/
def commitNow : Txn D K E Unit := .commit (.ret ())

/-- A computation that may raise, inside a program. -/
def lift : Except E α → Txn D K E α
  | .ok a => .ret a
  | .error e => .raise e

/-- Raise `e` where the check fails. -/
def orRaise (c : Prop) [Decidable c] (e : E) : Txn D K E Unit :=
  if c then .ret () else .raise e

@[simp] theorem lift_ok (a : α) : (lift (.ok a) : Txn D K E α) = .ret a := rfl
@[simp] theorem lift_error (e : E) : (lift (.error e) : Txn D K E α) = .raise e := rfl
@[simp] theorem read_bind (q : D → Txn D K E β) : read >>= q = .query q := rfl
@[simp] theorem fresh_bind (q : Nat → Txn D K E β) : fresh >>= q = .nextval q := rfl
@[simp] theorem forUpdate_bind (key : K) (q : D → Txn D K E β) :
    forUpdate key >>= q = .lock key q := rfl
@[simp] theorem put_bind (key : K) (f : D → D) (q : D → Txn D K E β) :
    put key f >>= q = .write key f q := rfl
@[simp] theorem commitNow_bind (q : Unit → Txn D K E β) : commitNow >>= q = .commit (q ()) := rfl
@[simp] theorem orRaise_bind (c : Prop) [Decidable c] (e : E) (q : Unit → Txn D K E β) :
    orRaise c e >>= q = if c then q () else .raise e := by
  unfold orRaise
  split <;> rfl

/-! ### Running a program alone -/

/-- How a program ended, the data it left and the next id of the sequence. -/
structure Outcome (D E α : Type) where
  result : Except E α
  committed : D
  current : D
  seq : Nat

/-- The program alone, from the committed data, what its open transaction made of
it, and the id sequence. -/
def run : Txn D K E α → D → D → Nat → Outcome D E α
  | .ret a, _, v, n => ⟨.ok a, v, v, n⟩
  | .raise e, c, _, n => ⟨.error e, c, c, n⟩
  | .nextval k, c, v, n => (k n).run c v (n + 1)
  | .query k, c, v, n => (k v).run c v n
  | .lock _ k, c, v, n => (k v).run c v n
  | .write _ f k, c, v, n => (k v).run c (f v) n
  | .commit k, _, v, n => k.run v v n

/-- The committed data and the id sequence: what a request starts from and leaves. -/
structure Base (D : Type) where
  db : D
  seq : Nat

/-- A request served alone. -/
def perform (p : Txn D K E α) (b : Base D) : Except E α × Base D :=
  let o := p.run b.db b.db b.seq
  (o.result, ⟨o.current, o.seq⟩)

/-- The next step commits: the program is done, or starts a new transaction. -/
def Commits : Txn D K E α → Prop
  | .ret _ | .commit _ => True
  | _ => False

/-! ### Atomic blocks as functions -/

/-- No statement of the program commits before its end. -/
def Atomic : Txn D K E α → Prop
  | .ret _ | .raise _ => True
  | .nextval k => ∀ n, (k n).Atomic
  | .query k | .lock _ k | .write _ _ k => ∀ d, (k d).Atomic
  | .commit _ => False

/-- What an atomic block returns, what it makes of the data, and the next id. -/
def eval : Txn D K E α → D → Nat → Except E (α × D × Nat)
  | .ret a, v, n => .ok (a, v, n)
  | .raise e, _, _ => .error e
  | .nextval k, v, n => (k n).eval v (n + 1)
  | .query k, v, n => (k v).eval v n
  | .lock _ k, v, n => (k v).eval v n
  | .write _ f k, v, n => (k v).eval (f v) n
  | .commit k, v, n => k.eval v n

theorem eval_bind (p : Txn D K E α) (q : α → Txn D K E β) (v : D) (n : Nat) :
    (p >>= q).eval v n = (p.eval v n).bind fun r => (q r.1).eval r.2.1 r.2.2 := by
  induction p generalizing v n with
  | ret a => rfl
  | raise e => rfl
  | nextval k ih => exact ih n v (n + 1)
  | query k ih => exact ih v v n
  | lock key k ih => exact ih v v n
  | write key f k ih => exact ih v (f v) n
  | commit k ih => exact ih v n

theorem eval_bind_ok {p : Txn D K E α} {v : D} {n : Nat} {r : α × D × Nat} (h : p.eval v n = .ok r)
    (q : α → Txn D K E β) : (p >>= q).eval v n = (q r.1).eval r.2.1 r.2.2 := by
  rw [eval_bind, h]
  rfl

theorem eval_bind_error {p : Txn D K E α} {v : D} {n : Nat} {e : E} (h : p.eval v n = .error e)
    (q : α → Txn D K E β) : (p >>= q).eval v n = .error e := by
  rw [eval_bind, h]
  rfl

theorem Atomic.bind {p : Txn D K E α} {q : α → Txn D K E β} (hp : p.Atomic) (hq : ∀ a, (q a).Atomic) :
    (p >>= q).Atomic := by
  induction p with
  | ret a => exact hq a
  | raise e => trivial
  | nextval k ih => exact fun n => ih n (hp n)
  | query k ih => exact fun d => ih d (hp d)
  | lock key k ih => exact fun d => ih d (hp d)
  | write key f k ih => exact fun d => ih d (hp d)
  | commit k => exact hp.elim

theorem atomic_lift (x : Except E α) : (lift x : Txn D K E α).Atomic := by
  cases x <;> trivial

theorem atomic_orRaise (c : Prop) [Decidable c] (e : E) : (orRaise c e : Txn D K E Unit).Atomic := by
  unfold orRaise
  split <;> trivial

/-- The data an atomic block leaves: what it made of them, or what was there before. -/
def settled (c : D) : Except E (α × D × Nat) → D
  | .ok r => r.2.1
  | .error _ => c

theorem Atomic.run_eq {p : Txn D K E α} (hp : p.Atomic) (c v : D) (n : Nat) :
    (p.run c v n).result = (p.eval v n).map (·.1) ∧
      (p.run c v n).current = settled c (p.eval v n) := by
  induction p generalizing v n with
  | ret a => exact ⟨rfl, rfl⟩
  | raise e => exact ⟨rfl, rfl⟩
  | nextval k ih => exact ih n (hp n) v (n + 1)
  | query k ih => exact ih v (hp v) v n
  | lock key k ih => exact ih v (hp v) v n
  | write key f k ih => exact ih v (hp v) (f v) n
  | commit k => exact hp.elim

theorem Atomic.run_ok {p : Txn D K E α} (hp : p.Atomic) {v : D} {n : Nat} {r : α × D × Nat}
    (h : p.eval v n = .ok r) (c : D) : p.run c v n = ⟨.ok r.1, r.2.1, r.2.1, r.2.2⟩ := by
  induction p generalizing v n with
  | ret a =>
    cases h
    rfl
  | raise e => cases h
  | nextval k ih => exact ih n (hp n) h
  | query k ih => exact ih v (hp v) h
  | lock key k ih => exact ih v (hp v) h
  | write key f k ih => exact ih v (hp v) h
  | commit k => exact hp.elim

/-- **A request is all or nothing**: an atomic block that returns leaves what it made
of the data, one that raises leaves them as they were. -/
theorem Atomic.perform_eq {p : Txn D K E α} (hp : p.Atomic) (b : Base D) :
    (p.perform b).1 = (p.eval b.db b.seq).map (·.1) ∧
      (p.perform b).2.db = settled b.db (p.eval b.db b.seq) :=
  hp.run_eq b.db b.db b.seq

theorem Atomic.perform_ok {p : Txn D K E α} (hp : p.Atomic) {b : Base D} {r : α × D × Nat}
    (h : p.eval b.db b.seq = .ok r) : p.perform b = (.ok r.1, ⟨r.2.1, r.2.2⟩) := by
  rw [perform, hp.run_ok h]

/-- Ids are drawn and not given back. -/
theorem le_run_seq (p : Txn D K E α) (c v : D) (n : Nat) : n ≤ (p.run c v n).seq := by
  induction p generalizing c v n with
  | ret a => exact Nat.le_refl n
  | raise e => exact Nat.le_refl n
  | nextval k ih => exact Nat.le_trans (Nat.le_succ n) (ih n c v (n + 1))
  | query k ih => exact ih v c v n
  | lock key k ih => exact ih v c v n
  | write key f k ih => exact ih v c (f v) n
  | commit k ih => exact ih v v n

/-- An exception leaves the data as they were. -/
theorem Atomic.perform_error {p : Txn D K E α} (hp : p.Atomic) {b : Base D} {e : E}
    (h : p.eval b.db b.seq = .error e) : ∃ n, b.seq ≤ n ∧ p.perform b = (.error e, ⟨b.db, n⟩) := by
  obtain ⟨hresult, hcurrent⟩ := hp.run_eq b.db b.db b.seq
  rw [h] at hresult hcurrent
  refine ⟨_, le_run_seq p b.db b.db b.seq, ?_⟩
  rw [perform, hresult, hcurrent]
  rfl

/-! ### Outside an atomic block -/

/-- The program outside any atomic block: each write commits by itself. -/
def autocommit : Txn D K E α → Txn D K E α
  | .ret a => .ret a
  | .raise e => .raise e
  | .nextval k => .nextval fun n => (k n).autocommit
  | .query k => .query fun d => (k d).autocommit
  | .lock key k => .lock key fun d => (k d).autocommit
  | .write key f k => .write key f fun d => .commit (k d).autocommit
  | .commit k => .commit k.autocommit

theorem eval_autocommit (p : Txn D K E α) (v : D) (n : Nat) : p.autocommit.eval v n = p.eval v n := by
  induction p generalizing v n with
  | ret a => rfl
  | raise e => rfl
  | nextval k ih => exact ih n v (n + 1)
  | query k ih => exact ih v v n
  | lock key k ih => exact ih v v n
  | write key f k ih => exact ih v (f v) n
  | commit k ih => exact ih v n

/-- The data with all that the program writes, also before an exception. -/
def left : Txn D K E α → D → Nat → D
  | .ret _, v, _ | .raise _, v, _ => v
  | .nextval k, v, n => (k n).left v (n + 1)
  | .query k, v, n | .lock _ k, v, n => (k v).left v n
  | .write _ f k, v, n => (k v).left (f v) n
  | .commit k, v, n => k.left v n

theorem left_bind_ok {p : Txn D K E α} {v : D} {n : Nat} {r : α × D × Nat} (h : p.eval v n = .ok r)
    (q : α → Txn D K E β) : (p >>= q).left v n = (q r.1).left r.2.1 r.2.2 := by
  induction p generalizing v n with
  | ret a =>
    cases h
    rfl
  | raise e => cases h
  | nextval k ih => exact ih n h
  | query k ih => exact ih v h
  | lock key k ih => exact ih v h
  | write key f k ih => exact ih v h
  | commit k ih => exact ih h

theorem left_bind_error {p : Txn D K E α} {v : D} {n : Nat} {e : E} (h : p.eval v n = .error e)
    (q : α → Txn D K E β) : (p >>= q).left v n = p.left v n := by
  induction p generalizing v n with
  | ret a => cases h
  | raise e' => rfl
  | nextval k ih => exact ih n h
  | query k ih => exact ih v h
  | lock key k ih => exact ih v h
  | write key f k ih => exact ih v h
  | commit k ih => exact ih h

/-- **Outside an atomic block nothing is taken back**: what was written before an exception stays. -/
theorem perform_autocommit (p : Txn D K E α) (b : Base D) :
    (p.autocommit.perform b).1 = (p.eval b.db b.seq).map (·.1) ∧ (p.autocommit.perform b).2.db = p.left b.db b.seq := by
  have hrun : ∀ v n, (p.autocommit.run v v n).result = (p.eval v n).map (·.1) ∧
      (p.autocommit.run v v n).current = p.left v n := by
    induction p with
    | ret a => exact fun _ _ => ⟨rfl, rfl⟩
    | raise e => exact fun _ _ => ⟨rfl, rfl⟩
    | nextval k ih => exact fun v n => ih n v (n + 1)
    | query k ih => exact fun v n => ih v v n
    | lock key k ih => exact fun v n => ih v v n
    | write key f k ih => exact fun v n => ih v (f v) n
    | commit k ih => exact fun v n => ih v n
  exact hrun b.db b.seq

/-- Wherever it commits, a program that returns leaves what it made of the data. -/
theorem perform_of_eval_ok {p : Txn D K E α} {b : Base D} {r : α × D × Nat} (h : p.eval b.db b.seq = .ok r) :
    p.perform b = (.ok r.1, ⟨r.2.1, r.2.2⟩) := by
  have hrun : ∀ c v n, p.eval v n = .ok r → p.run c v n = ⟨.ok r.1, r.2.1, r.2.1, r.2.2⟩ := by
    clear h
    induction p with
    | ret a =>
      intro c v n h
      cases h
      rfl
    | raise e => exact fun _ _ _ h => nomatch h
    | nextval k ih => exact fun c v n h => ih n c v (n + 1) h
    | query k ih => exact fun c v n h => ih v c v n h
    | lock key k ih => exact fun c v n h => ih v c v n h
    | write key f k ih => exact fun c v n h => ih v c (f v) n h
    | commit k ih => exact fun _ v n h => ih v v n h
  rw [perform, hrun _ _ _ h]

/-! ### Failing statements -/

/-- The program with its statement `n` raising `e`, counted from 0; if it has fewer
statements, its commit raises `e`. -/
def failAt (e : E) : (n : Nat) → Txn D K E α → Txn D K E α
  | _, .raise e' => .raise e'
  | _, .ret _ | 0, .nextval _ | 0, .query _ | 0, .lock .. | 0, .write .. | 0, .commit _ => .raise e
  | n + 1, .nextval k => .nextval fun m => failAt e n (k m)
  | n + 1, .query k => .query fun d => failAt e n (k d)
  | n + 1, .lock key k => .lock key fun d => failAt e n (k d)
  | n + 1, .write key f k => .write key f fun d => failAt e n (k d)
  | n + 1, .commit k => .commit (failAt e n k)

/-- How many statements are executed until the program returns or raises. -/
def length : Txn D K E α → D → Nat → Nat
  | .ret _, _, _ | .raise _, _, _ => 0
  | .nextval k, v, n => (k n).length v (n + 1) + 1
  | .query k, v, n | .lock _ k, v, n => (k v).length v n + 1
  | .write _ f k, v, n => (k v).length (f v) n + 1
  | .commit k, v, n => k.length v n + 1

/-- What follows an exception is not executed. -/
theorem length_bind_error {p : Txn D K E α} {v : D} {n : Nat} {e : E} (h : p.eval v n = .error e)
    (q : α → Txn D K E β) : (p >>= q).length v n = p.length v n := by
  induction p generalizing v n with
  | ret a => cases h
  | raise e' => rfl
  | nextval k ih => exact congrArg (· + 1) (ih n h)
  | query k ih => exact congrArg (· + 1) (ih v h)
  | lock key k ih => exact congrArg (· + 1) (ih v h)
  | write key f k ih => exact congrArg (· + 1) (ih v h)
  | commit k ih => exact congrArg (· + 1) (ih h)

theorem Atomic.failAt {p : Txn D K E α} (hp : p.Atomic) (e : E) (n : Nat) : (p.failAt e n).Atomic := by
  induction p generalizing n with
  | ret a => cases n <;> trivial
  | raise e' => cases n <;> trivial
  | commit k => exact hp.elim
  | nextval k ih | query k ih | lock key k ih | write key f k ih =>
    cases n with
    | zero => trivial
    | succ n => exact fun x => ih x (hp x) n

/-- `e` cuts a computation short: at its end, or before its own exception if `early`. -/
def cutShort {ρ : Type} (e : E) (early : Bool) : Except E ρ → Except E ρ
  | .ok _ => .error e
  | .error e' => .error (if early then e else e')

theorem cutShort_first {ρ : Type} (e : E) (len : Nat) (x : Except E ρ) :
    cutShort e (decide (0 < len + 1)) x = .error e := by
  rw [decide_eq_true (Nat.succ_pos len)]
  cases x <;> rfl

/-- The first exception wins: that of the statement, or one of the program before it. -/
theorem eval_failAt (p : Txn D K E α) (e : E) (m : Nat) (v : D) (n : Nat) :
    (p.failAt e m).eval v n = cutShort e (decide (m < p.length v n)) (p.eval v n) := by
  induction p generalizing m v n with
  | ret a => cases m <;> rfl
  | raise e' => cases m <;> rfl
  | nextval k ih =>
    cases m with
    | zero => exact (cutShort_first e _ _).symm
    | succ m =>
      simp only [Txn.failAt, eval, length, Nat.add_lt_add_iff_right]
      exact ih n m v (n + 1)
  | commit k ih =>
    cases m with
    | zero => exact (cutShort_first e _ _).symm
    | succ m =>
      simp only [Txn.failAt, eval, length, Nat.add_lt_add_iff_right]
      exact ih m v n
  | query k ih | lock key k ih | write key f k ih =>
    cases m with
    | zero => exact (cutShort_first e _ _).symm
    | succ m =>
      simp only [Txn.failAt, eval, length, Nat.add_lt_add_iff_right]
      exact ih _ m _ n

/-! ### Savepoints -/

/-- Writes that were kept back, in their order, and then `p`. -/
def release (writes : List (K × (D → D))) (p : Txn D K E α) : Txn D K E α :=
  writes.foldr (fun w k => .write w.1 w.2 fun _ => k) p

/-- A program inside a savepoint: an exception takes back what it wrote and goes to
`handler`. Its writes are kept back until it ends; its statements see them, and the
rows stay locked. -/
def attempt (handler : E → Txn D K E α) : List (K × (D → D)) → Txn D K E α → Txn D K E α
  | writes, .ret a => release writes (.ret a)
  | _, .raise e => handler e
  | writes, .nextval k => .nextval fun n => attempt handler writes (k n)
  | writes, .query k => .query fun d => attempt handler writes (k (writes.foldl (fun d w => w.2 d) d))
  | writes, .lock key k => .lock key fun d => attempt handler writes (k (writes.foldl (fun d w => w.2 d) d))
  | writes, .write key f k => .lock key fun d =>
    attempt handler (writes ++ [(key, f)]) (k (writes.foldl (fun d w => w.2 d) d))
  | writes, .commit k => release writes (.commit (attempt handler [] k))

/-- `try … except` around a nested atomic block. -/
def tryCatch (p : Txn D K E α) (handler : E → Txn D K E α) : Txn D K E α := attempt handler [] p

theorem eval_release (writes : List (K × (D → D))) (p : Txn D K E α) (v : D) (n : Nat) :
    (release writes p).eval v n = p.eval (writes.foldl (fun d w => w.2 d) v) n := by
  induction writes generalizing v with
  | nil => rfl
  | cons w rest ih => exact ih (w.2 v)

theorem eval_attempt {p : Txn D K E α} (hp : p.Atomic) (handler : E → Txn D K E α) (writes : List (K × (D → D)))
    (v : D) (n : Nat) :
    (∀ r, p.eval (writes.foldl (fun d w => w.2 d) v) n = .ok r → (attempt handler writes p).eval v n = .ok r) ∧
      ∀ e, p.eval (writes.foldl (fun d w => w.2 d) v) n = .error e →
        ∃ m, n ≤ m ∧ (attempt handler writes p).eval v n = (handler e).eval v m := by
  induction p generalizing writes v n with
  | ret a =>
    refine ⟨fun r h => ?_, fun e h => nomatch h⟩
    rw [attempt, eval_release]
    exact h
  | raise e =>
    refine ⟨fun r h => (nomatch h), fun e' h => ⟨n, Nat.le_refl n, ?_⟩⟩
    cases h
    rfl
  | nextval k ih =>
    obtain ⟨hok, herror⟩ := ih n (hp n) writes v (n + 1)
    refine ⟨hok, fun e h => ?_⟩
    obtain ⟨m, hm, heq⟩ := herror e h
    exact ⟨m, Nat.le_of_succ_le hm, heq⟩
  | query k ih => exact ih _ (hp _) writes v n
  | lock key k ih => exact ih _ (hp _) writes v n
  | write key f k ih =>
    have h := ih (writes.foldl (fun d w => w.2 d) v) (hp _) (writes ++ [(key, f)]) v n
    rw [List.foldl_append] at h
    exact h
  | commit k => exact hp.elim

/-- The savepoint is left with what the program wrote. -/
theorem eval_tryCatch_ok {p : Txn D K E α} (hp : p.Atomic) {v : D} {n : Nat} {r : α × D × Nat}
    (h : p.eval v n = .ok r) (handler : E → Txn D K E α) : (p.tryCatch handler).eval v n = .ok r :=
  (eval_attempt hp handler [] v n).1 r h

/-- The handler starts from the data that the program found. -/
theorem eval_tryCatch_error {p : Txn D K E α} (hp : p.Atomic) {v : D} {n : Nat} {e : E} (h : p.eval v n = .error e)
    (handler : E → Txn D K E α) : ∃ m, n ≤ m ∧ (p.tryCatch handler).eval v n = (handler e).eval v m :=
  (eval_attempt hp handler [] v n).2 e h

theorem Atomic.tryCatch {p : Txn D K E α} (hp : p.Atomic) {handler : E → Txn D K E α}
    (hhandler : ∀ e, (handler e).Atomic) : (p.tryCatch handler).Atomic := by
  have hrelease : ∀ (writes : List (K × (D → D))) (a : α), (release (E := E) writes (.ret a)).Atomic := by
    intro writes a
    induction writes with
    | nil => trivial
    | cons w rest ih => exact fun _ => ih
  suffices h : ∀ writes, (attempt handler writes p).Atomic from h []
  induction p with
  | ret a => exact fun writes => hrelease writes a
  | raise e => exact fun _ => hhandler e
  | nextval k ih => exact fun writes n => ih n (hp n) writes
  | query k ih => exact fun writes d => ih _ (hp _) writes
  | lock key k ih => exact fun writes d => ih _ (hp _) writes
  | write key f k ih => exact fun writes d => ih _ (hp _) _
  | commit k => exact hp.elim

end Txn
end TravelMaker.Lib
