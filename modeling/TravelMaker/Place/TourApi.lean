import TravelMaker.Database
import TravelMaker.Lib.Decimal

/-! The Tour API client and the database, as a collection run meets them.

A run is one process: it calls the client, which may fail, and opens transactions,
which may fail at any statement. What the two do is data of the model (`Outside`);
the run itself is a `Collect` program, and what it did is left in its `World`. -/
namespace TravelMaker
open Lib (Txn)

/-! ### Items -/

/-- A float, by its `str` and its integer part. -/
inductive PyFloat where
  | finite (text : String) (trunc : Int)
  | infinity (negative : Bool)
  | nan
deriving DecidableEq, Repr

/-- A value of a JSON object, where it is no object or array itself. -/
inductive Scalar where
  | null
  | bool (b : Bool)
  | int (n : Int)
  | float (f : PyFloat)
  | str (s : String)
deriving DecidableEq, Repr

/-- `str(value)`. -/
def Scalar.toStr : Scalar → String
  | .null => "None"
  | .bool b => if b then "True" else "False"
  | .int n => toString n
  | .float (.finite text _) => text
  | .float (.infinity negative) => if negative then "-inf" else "inf"
  | .float .nan => "nan"
  | .str s => s

/-- `int(value)`. -/
def Scalar.toInt : Scalar → Except Exc Int
  | .null => .error .typeError
  | .bool b => .ok (if b then 1 else 0)
  | .int n => .ok n
  | .float (.finite _ trunc) => .ok trunc
  | .float (.infinity _) => .error .overflowError
  | .float .nan => .error (.valueError "cannot convert float NaN to integer")
  | .str s =>
    match Lib.Text.int? s with
    | some n => .ok n
    | none => .error (.valueError "invalid literal for int() with base 10")

/-- A JSON object of scalars. -/
abbrev Item := List (String × Scalar)

namespace Item

/-- `item.get(key)`. -/
def get (item : Item) (key : String) : Scalar := (item.lookup key).getD .null

/-- `int(item[key])`. -/
def intAt (item : Item) (key : String) : Except Exc Int :=
  match item.lookup key with
  | none => .error (.keyError key)
  | some value => value.toInt

end Item

/-! ### Runs -/

/-- A request of the client. -/
inductive Call where
  | areaBasedList (contentTypeId : Int) (ldongRegnCd : Option String) (numOfRows pageNo : Nat)
      (arrange : Option String)
  | areaBasedSyncList (contentTypeId : Int) (numOfRows pageNo : Nat)
  | detailCommon (contentId : Int)
  | detailImage (contentId : Int)
  | detailIntro (contentId contentTypeId : Int)
deriving DecidableEq, Repr

/-- The page of a listing. -/
def Call.page? : Call → Option Nat
  | .areaBasedList _ _ _ pageNo _ | .areaBasedSyncList _ _ pageNo => some pageNo
  | _ => none

/-- The place of a detail call. -/
def Call.contentId? : Call → Option Int
  | .detailCommon contentId | .detailImage contentId | .detailIntro contentId _ => some contentId
  | _ => none

/-- What the database and the framework raise: no error of the client. -/
abbrev DbExc := {e : Exc // e.isTourApiError = false}

/-- What is not under the control of the run. -/
structure Outside where
  /-- What `TourApiClient._get` answers to the `t`-th call. -/
  get : (t : Nat) → Call → Except Exc (List Item)
  /-- The statement of the `t`-th transaction that fails, if any, and how. -/
  fault : (t : Nat) → Option (Nat × DbExc)
  /-- What the framework makes of a number for a coordinate column. -/
  column : Lib.Decimal → Except DbExc ℚ
  /-- The listings are finite: no page after the last has items. -/
  lastPage : Nat
  finite : ∀ t c items, c.page?.any (lastPage < ·) → get t c = .ok items → items = []

/-- A client without answers, on a database that never fails. -/
def silent : Outside where
  get _ _ := .ok []
  fault _ := none
  column _ := .ok 0
  lastPage := 0
  finite _ _ _ _ h := (Except.ok.inj h).symm

/-- A program as the `t`-th transaction. -/
def Outside.transaction {V α : Type} (out : Outside) (t : Nat) (p : Service V α) : Service V α :=
  match out.fault t with
  | none => p
  | some (n, e) => p.failAt e n

/-- What a run has so far: the tables, the ids, its calls and the tables before each
of its transactions (latest first), and its summary. -/
structure World (V S : Type) where
  db : Db V
  seq : Nat
  calls : List Call := []
  past : List (Db V) := []
  summary : S

/-- How many transactions were opened. -/
def World.transactions {V S : Type} (w : World V S) : Nat := w.past.length

/-- A part of a run; what it did before an exception stays done. -/
def Collect (V S α : Type) : Type := World V S → Except Exc α × World V S

namespace Collect
variable {V S α β : Type}

def bind (x : Collect V S α) (f : α → Collect V S β) : Collect V S β := fun w =>
  match x w with
  | (.ok a, w') => f a w'
  | (.error e, w') => (.error e, w')

instance : Monad (Collect V S) where
  pure a := fun w => (.ok a, w)
  bind := bind

def raise (e : Exc) : Collect V S α := fun w => (.error e, w)

def ofExcept (x : Except Exc α) : Collect V S α := fun w => (x, w)

/-- `try`: the result or the exception of a part. -/
def attempt (x : Collect V S α) : Collect V S (Except Exc α) := fun w => (.ok (x w).1, (x w).2)

/-- Count in the summary. -/
def tally (f : S → S) : Collect V S Unit := fun w => (.ok (), {w with summary := f w.summary})

/-- `for a in as`. -/
def forEach (body : α → Collect V S Unit) : List α → Collect V S Unit
  | [] => pure ()
  | a :: rest => do
    body a
    forEach body rest

variable (out : Outside)

def call (c : Call) : Collect V S (List Item) := fun w =>
  (out.get w.calls.length c, {w with calls := c :: w.calls})

/-- A transaction of its own. -/
def atomic (p : Service V α) : Collect V S α := fun w =>
  let (result, base) := (out.transaction w.transactions p).perform ⟨w.db, w.seq⟩
  (result, {w with db := base.db, seq := base.seq, past := w.db :: w.past})

/-- A `SELECT` of its own. -/
def query : Collect V S (Db V) := atomic out Txn.read

/-! The methods of the client. -/

def areaBasedList (contentTypeId : Int) (ldongRegnCd : Option String) (numOfRows pageNo : Nat)
    (arrange : Option String) : Collect V S (List Item) :=
  call out (.areaBasedList contentTypeId ldongRegnCd numOfRows pageNo arrange)

def areaBasedSyncList (contentTypeId : Int) (numOfRows pageNo : Nat) : Collect V S (List Item) :=
  call out (.areaBasedSyncList contentTypeId numOfRows pageNo)

def detailCommon (contentId : Int) : Collect V S (Option Item) := do
  return (← call out (.detailCommon contentId)).head?

def detailImage (contentId : Int) : Collect V S (List Item) := call out (.detailImage contentId)

def detailIntro (contentId contentTypeId : Int) : Collect V S (Option Item) := do
  return (← call out (.detailIntro contentId contentTypeId)).head?

end Collect

variable {V S α β : Type}

@[simp] theorem pure_run (a : α) (w : World V S) : (pure a : Collect V S α) w = (.ok a, w) := rfl

theorem bind_run (x : Collect V S α) (f : α → Collect V S β) (w : World V S) :
    (x >>= f) w = match x w with
      | (.ok a, w') => f a w'
      | (.error e, w') => (.error e, w') := rfl

end TravelMaker
