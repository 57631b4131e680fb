import TravelMaker.Database
import TravelMaker.Lib.Upsert

/-! Accounts: `withdraw_user` of `KakaoAuthService` and the nightly
`purge_withdrawn_users`. -/
namespace TravelMaker
open Lib (Txn)
open Lib.Txn (Base)

variable {V α : Type}

def withdrawReasons : List String := ["서비스 불만족", "개인정보", "기타"]
def recoveryWindowDays : Int := 14

def invalidWithdrawReasonError : Exc := .api 400 "잘못된 탈퇴 사유입니다."
def alreadyWithdrawnError : Exc := .api 409 "이미 탈퇴한 계정입니다."
/-- The framework's own `NotAuthenticated`; `detail` is its text in the language of the site. -/
def notAuthenticated (detail : String) : Exc := .api 401 detail

namespace Db

def modifyUser (id : Int) (f : User → User) (d : Db V) : Db V :=
  {d with users := d.users.map fun u => if u.id = id then f u else u}

/-- A deleted user takes along the rows that belong to them; reviews that other
users linked to their routes lose the link. -/
def deleteUser (id : Int) (d : Db V) : Db V :=
  let routeIds := (d.routes.filter (·.userId == id)).map (·.id)
  let unlink (r : Review) : Review :=
    if r.routeId.any routeIds.contains then {r with routeId := none} else r
  {d with
    users := d.users.filter (·.id != id)
    socialUsers := d.socialUsers.filter (·.userId != id)
    routes := d.routes.filter (·.userId != id)
    reviews := (d.reviews.filter (·.userId != id)).map unlink
    bookmarks := d.bookmarks.filter (·.userId != id)
    actionLogs := d.actionLogs.filter (·.userId != id)
    preferences := d.preferences.filter (·.userId != id)}

end Db

/-- `user` is the account of the request, as it was when the request was
authenticated. -/
def withdrawUser (now : Instant) (user : User) (reason : String) : Service V Unit := do
  Txn.orRaise (reason ∈ withdrawReasons) invalidWithdrawReasonError
  Txn.orRaise user.isActive alreadyWithdrawnError
  let d ← Txn.put (.user user.id)
    (Db.modifyUser user.id fun u => {u with isActive := false, deletedAt := some now})
  Txn.orRaise (d.users.any (·.id == user.id)) .databaseError

/-- Withdrawn for longer than the recovery window. -/
def User.expired (cutoff : Instant) (user : User) : Bool :=
  !user.isActive && user.deletedAt.any (· < cutoff)

def deleteEach : List User → Service V Unit
  | [] => pure ()
  | user :: rest => do
    let _ ← Txn.put (.user user.id) (Db.deleteUser user.id)
    deleteEach rest

def purgeWithdrawnUsers (now : Instant) : Service V Unit := do
  let cutoff := now - timedeltaDays recoveryWindowDays
  let d ← Txn.read
  deleteEach (d.users.filter (·.expired cutoff))

/-! ### Accounts by id -/

/-- Withdrawal and recovery change an account in place. -/
theorem user?_modifyUser {f : User → User} (hf : ∀ u, (f u).id = u.id) (d : Db V) (id other : Int) :
    (d.modifyUser id f).user? other = (d.user? other).map fun u => if u.id = id then f u else u := by
  unfold Db.user? Db.modifyUser
  exact Lib.Upsert.find?_modify hf d.users other

theorem isSome_modifyUser {f : User → User} (d : Db V) (id other : Int) (hf : ∀ u, (f u).id = u.id) :
    ((d.modifyUser id f).user? other).isSome = (d.user? other).isSome := by
  rw [user?_modifyUser hf, Option.isSome_map]

theorem user?_id {d : Db V} {id : Int} {user : User} (h : d.user? id = some user) : user.id = id := by
  simpa using List.find?_some h

theorem user?_of_mem {d : Db V} {user : User} (h : user ∈ d.users) : (d.user? user.id).isSome = true :=
  List.find?_isSome.mpr ⟨user, h, beq_self_eq_true _⟩

/-! ### What the account services write -/

/-- Withdrawing marks the user and touches no review. -/
theorem withdrawUser_cases (now : Instant) (user : User) (reason : String) (b : Base (Db V)) :
    ((withdrawUser now user reason).perform b).2 = b ∨
      ((withdrawUser now user reason).perform b).2 = ⟨b.db.modifyUser user.id fun u =>
        {u with isActive := false, deletedAt := some now}, b.seq⟩ := by
  simp only [withdrawUser, Txn.perform, Txn.orRaise_bind]
  split
  · split
    · simp only [Txn.put_bind, Txn.run]
      rw [Txn.orRaise]
      split
      · exact .inr rfl
      · exact .inl rfl
    · exact .inl rfl
  · exact .inl rfl

theorem run_deleteEach (users : List User) (c v : Db V) (n : Nat) (q : Unit → Service V α) :
    (deleteEach users >>= q).run c v n = (q ()).run c (users.foldl (fun d u => d.deleteUser u.id) v) n := by
  induction users generalizing v with
  | nil => rfl
  | cons u rest ih => simp [deleteEach, Txn.run, ih]

/-- The users a purge at `now` deletes. -/
def Db.purged (d : Db V) (now : Instant) : List User :=
  d.users.filter (·.expired (now - timedeltaDays recoveryWindowDays))

theorem purgeWithdrawnUsers_perform (now : Instant) (b : Base (Db V)) :
    ((purgeWithdrawnUsers now).perform b).2 =
      ⟨(b.db.purged now).foldl (fun d u => d.deleteUser u.id) b.db, b.seq⟩ := by
  have h := run_deleteEach (V := V) (α := Unit) (b.db.purged now) b.db b.db b.seq pure
  rw [bind_pure] at h
  simp only [purgeWithdrawnUsers, Txn.perform, Txn.read_bind, Txn.run]
  rw [Db.purged] at h
  rw [h]
  rfl

end TravelMaker
