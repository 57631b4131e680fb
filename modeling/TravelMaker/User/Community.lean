import Mathlib.Data.Finset.Card
import TravelMaker.User.Follow
import TravelMaker.User.Lifecycle
import TravelMaker.User.ProfilePicture

/-! Accounts, profiles and follows, in any order.

The tables keep follows as rows with ids and foreign keys. `Circle` is what they are for: accounts,
and a set of pairs of them. `community_refines`: over any history the tables answer as the circle
does, a follow takes part in as many counts as it should, and none outlives its accounts. -/
namespace TravelMaker
open Lib (Txn)
open Lib.Txn (Base)
open Lib.History (answers)
open Lib.Email (LowerCase)

variable {V : Type}

/-! ### Requests and answers -/

inductive CommunityCall (s : Storage) where
  | account (call : AccountCall)
  | profile (userId : Int) (data : ProfileUpdateData s)
  | follow (userId targetUserId : Int)
  | unfollow (userId targetUserId : Int)
  /-- `PublicProfileView`, for an account that is signed in, or for anybody. -/
  | publicProfile (viewer : Option Int) (userId : Int)

structure CommunityRequest (s : Storage) where
  now : Instant
  call : CommunityCall s

/-- `PublicUserSerializer`. -/
structure PublicUser where
  id : Int
  nickname : String
  bio : String
  profileImgUrl : String
  followerCount : Nat
  followingCount : Nat
  isFollowing : Bool
deriving DecidableEq, Repr

inductive CommunityAnswer where
  | done
  | signedIn (userId : Int) (isNewUser : Bool)
  | publicUser (user : PublicUser)
deriving DecidableEq, Repr

def userNotFound : Exc := .api 404 "사용자를 찾을 수 없습니다."

/-- `User.objects.get(id=…, is_active=True)`, and the account of a request that is signed in. -/
def Db.activeUser? (d : Db V) (userId : Int) : Option User := (d.user? userId).filter (·.isActive)

/-- What a login, a withdrawal or a purge is answered. The token of an account that was withdrawn or
deleted counts for nothing, and `WithdrawView` leaves the text of the refusal to the framework. -/
def accountAnswer (c : LowerCase) (detail : String) (b : Base (Db V)) (r : AccountRequest) :
    Except Exc CommunityAnswer :=
  match r.call with
  | .login draw data => (serveLogin c r.now draw data b).1.map fun found => .signedIn found.1.id found.2
  | .withdraw userId reason =>
    match b.db.activeUser? userId with
    | some user => ((withdrawUser r.now user reason).perform b).1.map fun _ => .done
    | none => .error (notAuthenticated detail)
  | .purge => .ok .done

/-! ### The tables -/

/-- The accounts and the rows of `follow`, each table with its own ids. -/
structure Community (V : Type) where
  accounts : Base (Db V) := ⟨{}, 0⟩
  follows : Base (List Follow) := ⟨[], 0⟩

namespace Community
variable (c : LowerCase) (detail : String) {s : Storage}

def network (m : Community V) : Network V := ⟨m.accounts.db, m.follows.db⟩

/-- A call of `FollowService` served alone. -/
def call (m : Community V) (p : FollowCall V Unit) : Except Exc CommunityAnswer × Community V :=
  let (result, b) := p.perform ⟨m.network, m.follows.seq⟩
  (result.map fun _ => .done, {m with follows := ⟨b.db.follows, b.seq⟩})

/-- `on_delete=CASCADE`, on both foreign keys. -/
def cascade (userId : Int) (follows : List Follow) : List Follow :=
  follows.filter fun f => f.followerId ≠ userId ∧ f.followingId ≠ userId

/-- The rows that go with the accounts a request deletes. -/
def afterAccount (m : Community V) (r : AccountRequest) : List Follow :=
  match r.call with
  | .purge => (m.accounts.db.purged r.now).foldl (fun follows u => cascade u.id follows) m.follows.db
  | _ => m.follows.db

/-- `PublicUserSerializer` on the account `user`. -/
def publicUser (m : Community V) (viewer : Option Int) (user : User) : PublicUser where
  id := user.id
  nickname := user.nickname
  bio := user.bio
  profileImgUrl := user.profileImgUrl
  followerCount := (m.follows.db.filter (·.followingId == user.id)).length
  followingCount := (m.follows.db.filter (·.followerId == user.id)).length
  isFollowing := (viewer.bind m.accounts.db.activeUser?).any fun me =>
    m.follows.db.any fun f => f.followerId == me.id && f.followingId == user.id

def serve (m : Community V) (r : CommunityRequest s) : Except Exc CommunityAnswer × Community V :=
  match r.call with
  | .account call =>
    (accountAnswer c detail m.accounts ⟨r.now, call⟩,
      ⟨serveAccount c m.accounts ⟨r.now, call⟩, ⟨m.afterAccount ⟨r.now, call⟩, m.follows.seq⟩⟩)
  | .profile userId data =>
    let (result, b) := servePatch s m.accounts ⟨userId, data⟩
    (result.map fun _ => .done, {m with accounts := b})
  | .follow userId targetUserId =>
    match m.accounts.db.activeUser? userId with
    | none => (.error authRequired, m)
    | some me => m.call (TravelMaker.follow r.now me.id targetUserId)
  | .unfollow userId targetUserId =>
    match m.accounts.db.activeUser? userId with
    | none => (.error authRequired, m)
    | some me => m.call (TravelMaker.unfollow me.id targetUserId)
  | .publicProfile viewer userId =>
    match m.accounts.db.activeUser? userId with
    | none => (.error userNotFound, m)
    | some user => (.ok (.publicUser (m.publicUser viewer user)), m)

end Community

/-! ### The circle -/

/-- Accounts, and who of them follows whom. -/
structure Circle (V : Type) where
  accounts : Base (Db V) := ⟨{}, 0⟩
  follows : Finset (Int × Int) := ∅

namespace Circle
variable (c : LowerCase) (detail : String) {s : Storage}

def publicUser (a : Circle V) (viewer : Option Int) (user : User) : PublicUser where
  id := user.id
  nickname := user.nickname
  bio := user.bio
  profileImgUrl := user.profileImgUrl
  followerCount := (a.follows.filter (·.2 = user.id)).card
  followingCount := (a.follows.filter (·.1 = user.id)).card
  isFollowing := (viewer.bind a.accounts.db.activeUser?).any fun me => decide ((me.id, user.id) ∈ a.follows)

def serve (a : Circle V) (r : CommunityRequest s) : Except Exc CommunityAnswer × Circle V :=
  match r.call with
  | .account call =>
    let accounts := serveAccount c a.accounts ⟨r.now, call⟩
    -- a follow is between two accounts
    (accountAnswer c detail a.accounts ⟨r.now, call⟩, ⟨accounts,
      a.follows.filter fun pair => (accounts.db.user? pair.1).isSome = true ∧ (accounts.db.user? pair.2).isSome = true⟩)
  | .profile userId data =>
    ((servePatch s a.accounts ⟨userId, data⟩).1.map fun _ => .done,
      {a with accounts := (servePatch s a.accounts ⟨userId, data⟩).2})
  | .follow userId targetUserId =>
    if (a.accounts.db.activeUser? userId).isNone then (.error authRequired, a)
    else if userId = targetUserId then (.error (.api 400 "자기 자신을 팔로우할 수 없습니다."), a)
    else if (a.accounts.db.activeUser? targetUserId).isNone then (.error userNotFound, a)
    else if (userId, targetUserId) ∈ a.follows then (.error (.api 409 "이미 팔로우한 사용자입니다."), a)
    else (.ok .done, {a with follows := insert (userId, targetUserId) a.follows})
  | .unfollow userId targetUserId =>
    if (a.accounts.db.activeUser? userId).isNone then (.error authRequired, a)
    else if (userId, targetUserId) ∈ a.follows then
      (.ok .done, {a with follows := a.follows.erase (userId, targetUserId)})
    else (.error (.api 404 "팔로우 관계가 없습니다."), a)
  | .publicProfile viewer userId =>
    match a.accounts.db.activeUser? userId with
    | none => (.error userNotFound, a)
    | some user => (.ok (.publicUser (a.publicUser viewer user)), a)

end Circle

/-! ### Names -/

section
variable {c : LowerCase} {b : Base (Db V)}

/-- The accounts by their ids and names. -/
def Db.names (d : Db V) : List (Int × String) := d.users.map fun u => (u.id, u.nickname)

theorem names_modifyUser (d : Db V) (id : Int) {f : User → User} (hid : ∀ u, (f u).id = u.id)
    (hname : ∀ u, (f u).nickname = u.nickname) : (d.modifyUser id f).names = d.names := by
  rw [Db.names, Db.modifyUser, List.map_map]
  refine List.map_congr_left fun u _ => ?_
  rw [Function.comp_apply]
  split
  · rw [hid, hname]
  · rfl

/-- Who is there by the names. -/
theorem isSome_user?_iff {d : Db V} {id : Int} : (d.user? id).isSome = true ↔ ∃ name, (id, name) ∈ d.names := by
  simp [Db.user?, Db.names, List.find?_isSome]

/-- A login keeps the names, but for that of a new account, which was free. -/
theorem names_login (h : AccountsOk c b) (now : Instant) (draw : Nat → Fin 90000) (data : KakaoAccount) :
    (serveLogin c now draw data b).2.db.names = b.db.names ∨
      ∃ id name, b.db.NicknameFree name ∧ (serveLogin c now draw data b).2.db.names = b.db.names ++ [(id, name)] := by
  obtain ⟨x, houtcome, hok, herror⟩ := serveLogin_outcome h now draw data
  have hraised : ∀ e, x = .error e → (serveLogin c now draw data b).2.db.names = b.db.names := by
    intro e he
    obtain ⟨n, -, heq⟩ := herror e he
    rw [heq]
  have hresumed : ∀ {user : User} {r : User × Db V}, resumed now user b.db = .ok r → r.2.names = b.db.names := by
    intro user r hr
    unfold resumed at hr
    split at hr
    · cases hr
      rfl
    · split at hr
      · cases hr
        exact names_modifyUser _ _ (fun _ => rfl) fun _ => rfl
      · cases hr
  cases houtcome with
  | noEmail | noNickname | unstorable | lost => exact .inl (hraised _ rfl)
  | @linked user _ _ =>
    cases hr : resumed now user b.db with
    | ok r =>
      rw [hok _ (by rw [hr]; rfl)]
      exact .inl (hresumed hr)
    | error e => exact .inl (hraised e (by rw [hr]; rfl))
  | @created columns nickname _ _ hfree _ _ =>
    rw [hok _ rfl]
    exact .inr ⟨b.seq, nickname, hfree, List.map_append⟩
  | @relinked columns u user m _ _ _ _ _ _ _ =>
    cases hr : resumed now user b.db with
    | ok r =>
      rw [hok _ (by rw [hr]; rfl)]
      exact .inl (hresumed hr)
    | error e => exact .inl (hraised e (by rw [hr]; rfl))

/-- No two accounts go by one name. -/
def Db.NamesApart (d : Db V) : Prop := (d.names.map Prod.snd).Nodup

theorem namesApart_concat {d d' : Db V} (h : d.NamesApart) {id : Int} {name : String} (hfree : d.NicknameFree name)
    (hnames : d'.names = d.names ++ [(id, name)]) : d'.NamesApart := by
  rw [Db.NamesApart, hnames]
  refine nodup_map_concat h fun other hother heq => ?_
  obtain ⟨u, hu, rfl⟩ := List.mem_map.mp hother
  exact hfree u hu heq

theorem names_deleteUsers (users : List User) (d : Db V) :
    (users.foldl (fun d u => d.deleteUser u.id) d).names = d.names.filter fun p => users.all (·.id ≠ p.1) := by
  rw [Db.names, deleteUsers_users, Db.names, List.filter_map]
  refine congrArg (List.map _) (List.filter_congr fun u _ => ?_)
  rw [Bool.eq_iff_iff]
  simp

/-! ### Profile updates -/

variable {s : Storage}

/-- What `ProfileView.patch` makes of an account. -/
structure ProfileEdits (data : ProfileUpdateData s) (f : User → User) : Prop where
  id : ∀ u, (f u).id = u.id
  email : ∀ u, (f u).email = u.email
  isActive : ∀ u, (f u).isActive = u.isActive
  deletedAt : ∀ u, (f u).deletedAt = u.deletedAt
  nickname : ∀ u, (f u).nickname = data.nickname.getD u.nickname

theorem edits_assign (data : ProfileUpdateData s) : ProfileEdits data data.assign :=
  ⟨fun _ => rfl, fun _ => rfl, fun _ => rfl, fun _ => rfl, fun _ => rfl⟩

theorem edits_picture (data : ProfileUpdateData s) (url : String) :
    ProfileEdits data fun u => {data.assign u with profileImgUrl := url} :=
  ⟨fun _ => rfl, fun _ => rfl, fun _ => rfl, fun _ => rfl, fun _ => rfl⟩

/-- An update that is accepted edits the account that is signed in, under a name that no other has. -/
theorem servePatch_edits (b : Base (Db V)) (r : ProfileRequest s) :
    (∃ e n, b.seq ≤ n ∧ servePatch s b r = (.error e, ⟨b.db, n⟩)) ∨
      ∃ (key : Option String) (user : User) (f : User → User), NicknameAvailable b.db r.data.nickname user.id ∧ ProfileEdits r.data f ∧
        servePatch s b r = (.ok key, ⟨b.db.modifyUser user.id f, b.seq⟩) := by
  have heval := patchProfile_eval s r.userId r.data b.db b.seq
  have hraised : ∀ e, (patchProfile s r.userId r.data).eval b.db b.seq = .error e →
      ∃ e n, b.seq ≤ n ∧ servePatch s b r = (.error e, ⟨b.db, n⟩) := by
    intro e he
    obtain ⟨n, hn, heq⟩ := (atomic_patchProfile s r.userId r.data).perform_error he
    exact ⟨e, n, hn, heq⟩
  split at heval
  · exact .inl (hraised _ heval)
  · rename_i user haccount
    split at heval
    · rename_i havailable
      split at heval
      · exact .inr ⟨_, user, r.data.assign, havailable, edits_assign r.data,
          (atomic_patchProfile s r.userId r.data).perform_ok heval⟩
      · rename_i url _
        split at heval
        · exact .inl (hraised _ heval)
        · rename_i column _
          refine .inr ⟨replaced s user url, user, _, havailable, edits_picture r.data (.ofList column), ?_⟩
          refine ((atomic_patchProfile s r.userId r.data).perform_ok heval).trans ?_
          refine congrArg (fun d => (_, (⟨d, b.seq⟩ : Base (Db V)))) ?_
          unfold Db.modifyUser
          rw [List.map_map]
          refine congrArg (fun users => {b.db with users := users}) (List.map_congr_left fun u _ => ?_)
          by_cases hid : u.id = user.id
          · have hassigned : (r.data.assign u).id = user.id := hid
            simp only [Function.comp_apply, if_pos hid, if_pos hassigned]
          · simp only [Function.comp_apply, if_neg hid]
    · exact .inl (hraised _ heval)

theorem AccountsOk.edit (h : AccountsOk c b) (id : Int) {data : ProfileUpdateData s} {f : User → User} (hf : ProfileEdits data f) :
    AccountsOk c ⟨b.db.modifyUser id f, b.seq⟩ := by
  have hmem : ∀ {P : User → Prop}, (∀ u, P u → P (f u)) → (∀ u ∈ b.db.users, P u) →
      ∀ u ∈ (b.db.modifyUser id f).users, P u := by
    intro P hP hall u hu
    obtain ⟨u', hu', rfl⟩ := List.mem_map.mp hu
    split
    · exact hP u' (hall u' hu')
    · exact hall u' hu'
  have hmap : ∀ {β : Type} (g : User → β), (∀ u, g (f u) = g u) → (b.db.modifyUser id f).users.map g = b.db.users.map g := by
    intro β g hg
    rw [Db.modifyUser, List.map_map]
    refine List.map_congr_left fun u _ => ?_
    rw [Function.comp_apply]
    split
    · exact hg u
    · rfl
  constructor
  · rw [hmap (·.id) hf.id]
    exact h.ids
  · exact hmem (P := fun u => u.id < b.seq) (fun u hu => by rw [hf.id]; exact hu) h.fresh
  · rw [hmap (·.email) hf.email]
    exact h.emails
  · exact hmem (P := fun u => Lib.Email.stored? c 255 u.email.toList = some u.email.toList)
      (fun u hu => by rw [hf.email]; exact hu) h.stored
  · exact hmem (P := fun u => u.isActive = false ↔ u.deletedAt.isSome = true)
      (fun u hu => by rw [hf.isActive, hf.deletedAt]; exact hu) h.status
  · exact h.links
  · intro link hlink
    rw [isSome_modifyUser _ _ _ hf.id]
    exact h.owner link hlink
  · exact hmem (P := fun u => ∃ id : UInt64, ⟨u.id, .kakao, toString id⟩ ∈ b.db.socialUsers)
      (fun u hu => by rw [hf.id]; exact hu) h.linked

/-- A name that is free for its account stays its own. -/
theorem namesApart_edit (h : AccountsOk c b) (hnames : b.db.NamesApart) {user : User} {data : ProfileUpdateData s}
    {f : User → User} (hf : ProfileEdits data f) (havailable : NicknameAvailable b.db data.nickname user.id) :
    (b.db.modifyUser user.id f).NamesApart := by
  have hids : b.db.users.Nodup := h.ids.of_map
  have hnick : ∀ u ∈ b.db.users, ∀ v ∈ b.db.users, u.nickname = v.nickname → u = v := by
    refine List.inj_on_of_nodup_map ?_
    rw [Db.NamesApart, Db.names, List.map_map] at hnames
    exact hnames
  -- the account of the update against another one
  have hother : ∀ u ∈ b.db.users, ∀ v ∈ b.db.users, u.id = user.id → v.id ≠ user.id → (f u).nickname ≠ v.nickname := by
    intro u hu v hv hself hne heq
    rw [hf.nickname] at heq
    cases hnickname : data.nickname with
    | none =>
      rw [hnickname] at heq
      rw [hnick u hu v hv heq] at hself
      exact hne hself
    | some name =>
      rw [hnickname] at heq
      exact hne (havailable v hv (by rw [hnickname]; exact congrArg some heq.symm))
  rw [Db.NamesApart, Db.names, List.map_map, Db.modifyUser, List.map_map]
  refine hids.map_on fun u hu v hv heq => ?_
  simp only [Function.comp_apply] at heq
  split at heq
  · rename_i hself
    split at heq
    · rename_i hself'
      exact List.inj_on_of_nodup_map h.ids hu hv (hself.trans hself'.symm)
    · rename_i hne
      exact absurd heq (hother u hu v hv hself hne)
  · rename_i hne
    split at heq
    · rename_i hself
      exact absurd heq.symm (hother v hv u hu hself hne)
    · exact hnick u hu v hv heq

/-! ### Follows served alone -/

theorem follow_eval (now : Instant) (u t : Int) (n : Network V) (m : Nat) :
    (follow now u t).eval n m =
      if u = t then .error (.api 400 "자기 자신을 팔로우할 수 없습니다.")
      else if n.isActiveUser t = false then .error (.api 404 "사용자를 찾을 수 없습니다.")
      else if n.followsOf (u, t) = [] ∧ (n.db.user? u).isSome = true ∧ (n.db.user? t).isSome = true then
        .ok ((), n.insertFollow ⟨m, u, t, now⟩, m + 1)
      else .error (.api 409 "이미 팔로우한 사용자입니다.") := by
  unfold follow Txn.orRaise
  by_cases hself : u = t
  · rw [if_neg (not_not.mpr hself), if_pos hself]
    rfl
  · rw [if_pos hself, if_neg hself]
    simp only [Txn.ret_bind, Txn.read_bind, Txn.eval]
    cases hactive : n.isActiveUser t with
    | false => rfl
    | true =>
      simp only [if_true, reduceCtorEq, if_false, insertFollowRow, Txn.ret_bind, Txn.fresh_bind, Txn.put_bind, Txn.eval,
        Txn.orRaise]
      split
      · rename_i hfree
        exact (if_pos hfree).symm
      · rename_i hfree
        exact (if_neg hfree).symm

theorem unfollow_eval (u t : Int) (n : Network V) (m : Nat) :
    (unfollow u t).eval n m =
      match (n.followsOf (u, t)).head? with
      | none => .error (.api 404 "팔로우 관계가 없습니다.")
      | some row => .ok ((), n.deleteFollow row, m) := by
  simp only [unfollow, deleteFollows, Txn.read_bind, Txn.query_bind, Txn.eval]
  cases hrow : (n.followsOf (u, t)).head? with
  | none => rfl
  | some row =>
    have hthere : row ∈ n.follows := (Network.mem_followsOf.mp (List.mem_of_mem_head? hrow)).1
    simp only [deleteFollowRow, Txn.forUpdate_bind, Txn.lock_bind, Txn.eval, if_pos hthere]
    rfl

end

/-! ### The tables stand for a circle -/

namespace Community

/-- What holds of the tables in every state. -/
structure Ok (c : LowerCase) (m : Community V) : Prop where
  accounts : AccountsOk c m.accounts
  names : m.accounts.db.NamesApart
  pairs : (m.follows.db.map (·.pair)).Nodup
  apart : ∀ f ∈ m.follows.db, f.followerId ≠ f.followingId
  ends : ∀ f ∈ m.follows.db, (m.accounts.db.user? f.followerId).isSome = true ∧
    (m.accounts.db.user? f.followingId).isSome = true

def circle (m : Community V) : Circle V := ⟨m.accounts, (m.follows.db.map (·.pair)).toFinset⟩

theorem ok_start (c : LowerCase) : Ok (V := V) c {} where
  accounts := accountsOk_start c
  names := List.nodup_nil
  pairs := List.nodup_nil
  apart _ h := nomatch h
  ends _ h := nomatch h

section
variable {c : LowerCase} {m : Community V} {s : Storage}

theorem mem_circle {pair : Int × Int} : pair ∈ m.circle.follows ↔ ∃ f ∈ m.follows.db, f.pair = pair := by
  simp [circle]

theorem circle_filter (m : Community V) (p : Int × Int → Prop) [DecidablePred p] :
    ((m.follows.db.filter fun f => decide (p f.pair)).map (·.pair)).toFinset = m.circle.follows.filter p := by
  ext pair
  simp only [Finset.mem_filter, mem_circle, List.mem_toFinset, List.mem_map, List.mem_filter, decide_eq_true_eq]
  constructor
  · rintro ⟨f, ⟨hf, hp⟩, rfl⟩
    exact ⟨⟨f, hf, rfl⟩, hp⟩
  · rintro ⟨⟨f, hf, rfl⟩, hp⟩
    exact ⟨f, ⟨hf, hp⟩, rfl⟩

/-- A count of rows is a count of pairs. -/
theorem card_circle (h : m.Ok c) (p : Int × Int → Prop) [DecidablePred p] :
    (m.circle.follows.filter p).card = (m.follows.db.filter fun f => decide (p f.pair)).length := by
  rw [← circle_filter, List.toFinset_card_of_nodup (h.pairs.sublist (List.filter_sublist.map _)), List.length_map]

theorem publicUser_eq (h : m.Ok c) (viewer : Option Int) (user : User) :
    m.publicUser viewer user = m.circle.publicUser viewer user := by
  have hfollowing : ∀ me : User, (m.follows.db.any fun f => f.followerId == me.id && f.followingId == user.id) =
      decide ((me.id, user.id) ∈ m.circle.follows) := by
    intro me
    rw [Bool.eq_iff_iff, decide_eq_true_eq, mem_circle, List.any_eq_true]
    refine exists_congr fun f => and_congr_right fun _ => ?_
    rw [Bool.and_eq_true, beq_iff_eq, beq_iff_eq, Follow.pair, Prod.mk.injEq]
  have hby : ∀ g : Follow → Int, (m.follows.db.filter (g · == user.id)).length =
      (m.follows.db.filter fun f => decide (g f = user.id)).length := fun g =>
    congrArg List.length (List.filter_congr fun f _ => beq_eq_decide _ _)
  unfold publicUser Circle.publicUser
  rw [card_circle h, card_circle h, hby (·.followingId), hby (·.followerId)]
  exact congrArg _ (congrArg (fun p => Option.any p (viewer.bind m.accounts.db.activeUser?)) (funext hfollowing))

theorem isActiveUser_eq (h : m.Ok c) (userId : Int) :
    m.network.isActiveUser userId = (m.accounts.db.activeUser? userId).isSome := by
  rw [Bool.eq_iff_iff, Network.isActiveUser, List.any_eq_true, Option.isSome_iff_exists]
  simp only [Db.activeUser?, Option.filter_eq_some_iff, Bool.and_eq_true, beq_iff_eq]
  constructor
  · rintro ⟨u, hu, rfl, hactive⟩
    exact ⟨u, h.accounts.user? hu, hactive⟩
  · rintro ⟨u, hfound, hactive⟩
    exact ⟨u, List.mem_of_find?_eq_some hfound, user?_id hfound, hactive⟩

theorem activeUser?_some {d : Db V} {userId : Int} {me : User} (h : d.activeUser? userId = some me) :
    me.id = userId ∧ (d.user? userId).isSome = true := by
  obtain ⟨hfound, -⟩ := Option.filter_eq_some_iff.mp h
  exact ⟨user?_id hfound, Option.isSome_iff_exists.mpr ⟨me, hfound⟩⟩

/-! ### Accounts -/

/-- The accounts after a request, by their names: of a new account, or the old ones without those
that a purge deletes. -/
theorem names_serveAccount (h : m.Ok c) (r : AccountRequest) :
    (∃ id name, m.accounts.db.NicknameFree name ∧
        (serveAccount c m.accounts r).db.names = m.accounts.db.names ++ [(id, name)]) ∧ r.call ≠ .purge ∨
      (serveAccount c m.accounts r).db.names = m.accounts.db.names ∧ r.call ≠ .purge ∨
        r.call = .purge ∧ (serveAccount c m.accounts r).db.names =
          m.accounts.db.names.filter fun p => (m.accounts.db.purged r.now).all (·.id ≠ p.1) := by
  unfold serveAccount
  split
  · rename_i draw data hcall
    have hnot : r.call ≠ .purge := by rw [hcall]; exact fun heq => nomatch heq
    rcases names_login h.accounts r.now draw data with hsame | hnew
    · exact .inr (.inl ⟨hsame, hnot⟩)
    · exact .inl ⟨hnew, hnot⟩
  · rename_i userId reason hcall
    have hnot : r.call ≠ .purge := by rw [hcall]; exact fun heq => nomatch heq
    refine .inr (.inl ⟨?_, hnot⟩)
    split
    · rename_i user huser
      rcases withdrawUser_cases r.now user reason m.accounts with heq | heq
      · rw [heq]
      · rw [heq]
        exact names_modifyUser _ _ (fun _ => rfl) fun _ => rfl
    · rfl
  · rename_i hcall
    refine .inr (.inr ⟨hcall, ?_⟩)
    rw [servePurge, purgeWithdrawnUsers_perform]
    exact names_deleteUsers _ _

theorem foldl_cascade (users : List User) (follows : List Follow) :
    users.foldl (fun follows u => cascade u.id follows) follows =
      follows.filter fun f => users.all fun u => u.id ≠ f.followerId ∧ u.id ≠ f.followingId := by
  induction users generalizing follows with
  | nil => simp
  | cons u rest ih =>
    rw [List.foldl_cons, ih, cascade, List.filter_filter]
    refine List.filter_congr fun f _ => ?_
    simp only [List.all_cons, Bool.and_comm, ne_comm]

/-- The rows that stay are those between accounts that stay. -/
theorem afterAccount_eq (h : m.Ok c) (r : AccountRequest) :
    m.afterAccount r = m.follows.db.filter fun f =>
      ((serveAccount c m.accounts r).db.user? f.followerId).isSome = true ∧
        ((serveAccount c m.accounts r).db.user? f.followingId).isSome = true := by
  have hall : r.call ≠ .purge →
      (∀ id, (m.accounts.db.user? id).isSome = true → ((serveAccount c m.accounts r).db.user? id).isSome = true) →
        m.afterAccount r = m.follows.db.filter fun f =>
          ((serveAccount c m.accounts r).db.user? f.followerId).isSome = true ∧
            ((serveAccount c m.accounts r).db.user? f.followingId).isSome = true := by
    intro hnot hkept
    have hsame : m.afterAccount r = m.follows.db := by
      unfold afterAccount
      split
      · contradiction
      · rfl
    rw [hsame, eq_comm, List.filter_eq_self]
    intro f hf
    rw [decide_eq_true_eq]
    exact (h.ends f hf).imp (hkept _) (hkept _)
  rcases names_serveAccount h r with ⟨⟨id, name, -, hnames⟩, hnot⟩ | ⟨hnames, hnot⟩ | ⟨hcall, hnames⟩
  · refine hall hnot fun other hother => ?_
    obtain ⟨nick, hnick⟩ := isSome_user?_iff.mp hother
    exact isSome_user?_iff.mpr ⟨nick, by rw [hnames]; exact List.mem_append_left _ hnick⟩
  · refine hall hnot fun other hother => ?_
    rw [isSome_user?_iff] at hother ⊢
    rwa [hnames]
  · have hstays : ∀ id, (m.accounts.db.user? id).isSome = true →
        (((serveAccount c m.accounts r).db.user? id).isSome = true ↔ ∀ u ∈ m.accounts.db.purged r.now, u.id ≠ id) := by
      intro id hid
      obtain ⟨nick, hnick⟩ := isSome_user?_iff.mp hid
      rw [isSome_user?_iff, hnames]
      simp only [List.mem_filter, List.all_eq_true, decide_eq_true_eq]
      exact ⟨fun hthere => hthere.choose_spec.2, fun hleft => ⟨nick, hnick, hleft⟩⟩
    unfold afterAccount
    rw [hcall]
    dsimp only
    rw [foldl_cascade]
    refine List.filter_congr fun f hf => ?_
    rw [Bool.eq_iff_iff, List.all_eq_true, decide_eq_true_eq, hstays _ (h.ends f hf).1, hstays _ (h.ends f hf).2]
    simp only [decide_eq_true_eq]
    exact ⟨fun hboth => ⟨fun u hu => (hboth u hu).1, fun u hu => (hboth u hu).2⟩,
      fun hboth u hu => ⟨hboth.1 u hu, hboth.2 u hu⟩⟩

theorem namesApart_account (h : m.Ok c) (r : AccountRequest) : (serveAccount c m.accounts r).db.NamesApart := by
  rcases names_serveAccount h r with ⟨⟨id, name, hfree, hnames⟩, -⟩ | ⟨hnames, -⟩ | ⟨-, hnames⟩
  · exact namesApart_concat h.names hfree hnames
  · rw [Db.NamesApart, hnames]
    exact h.names
  · rw [Db.NamesApart, hnames]
    exact h.names.sublist (List.filter_sublist.map _)

/-! ### One request -/

theorem call_error {p : FollowCall V Unit} (hp : p.Atomic) {e : Exc} (h : p.eval m.network m.follows.seq = .error e) :
    ∃ n, m.call p = (.error e, {m with follows := ⟨m.follows.db, n⟩}) := by
  obtain ⟨n, -, heq⟩ := hp.perform_error (b := ⟨m.network, m.follows.seq⟩) h
  refine ⟨n, ?_⟩
  unfold call
  rw [heq]
  rfl

theorem call_ok {p : FollowCall V Unit} (hp : p.Atomic) {n : Network V} {seq : Nat}
    (h : p.eval m.network m.follows.seq = .ok ((), n, seq)) :
    m.call p = (.ok .done, {m with follows := ⟨n.follows, seq⟩}) := by
  unfold call
  rw [hp.perform_ok (b := ⟨m.network, m.follows.seq⟩) h]
  rfl

/-- A request is answered as the circle answers it, and does to the circle what it does. -/
def Simulates (c : LowerCase) (detail : String) (m : Community V) (r : CommunityRequest s) : Prop :=
  (m.serve c detail r).1 = (m.circle.serve c detail r).1 ∧
    (m.serve c detail r).2.circle = (m.circle.serve c detail r).2 ∧ (m.serve c detail r).2.Ok c

theorem simulates_account (h : m.Ok c) (now : Instant) (call : AccountCall) : Simulates (s := s) c detail m ⟨now, .account call⟩ := by
  have hafter := afterAccount_eq h ⟨now, call⟩
  refine ⟨rfl, congrArg (Circle.mk _) ?_, ?_⟩
  · simp only [serve, hafter]
    exact circle_filter m fun pair => ((serveAccount c m.accounts ⟨now, call⟩).db.user? pair.1).isSome = true ∧
      ((serveAccount c m.accounts ⟨now, call⟩).db.user? pair.2).isSome = true
  · refine ⟨accountsOk_serve _ _ h.accounts, namesApart_account h _, ?_, fun f hf => ?_, fun f hf => ?_⟩
    · simp only [serve, hafter]
      exact h.pairs.sublist (List.filter_sublist.map _)
    · simp only [serve, hafter] at hf
      exact h.apart f (List.mem_filter.mp hf).1
    · simp only [serve, hafter] at hf
      exact of_decide_eq_true (List.mem_filter.mp hf).2

theorem simulates_profile (h : m.Ok c) (now : Instant) (userId : Int) (data : ProfileUpdateData s) :
    Simulates c detail m ⟨now, .profile userId data⟩ := by
  refine ⟨rfl, rfl, ?_⟩
  simp only [serve]
  rcases servePatch_edits m.accounts ⟨userId, data⟩ with ⟨e, n, hn, heq⟩ | ⟨key, user, f, havailable, hf, heq⟩
  · rw [heq]
    exact {h with accounts := h.accounts.later hn}
  · rw [heq]
    refine ⟨h.accounts.edit user.id hf, namesApart_edit h.accounts h.names hf havailable, h.pairs, h.apart, fun f' hf' => ?_⟩
    simp only [isSome_modifyUser _ _ _ hf.id]
    exact h.ends f' hf'

/-- A call that raises leaves the rows. -/
theorem raises_circle (h : m.Ok c) {p : FollowCall V Unit} (hp : p.Atomic) {e : Exc}
    (he : p.eval m.network m.follows.seq = .error e) :
    (m.call p).1 = .error e ∧ (m.call p).2.circle = m.circle ∧ (m.call p).2.Ok c := by
  obtain ⟨n, heq⟩ := call_error hp he
  rw [heq]
  exact ⟨rfl, rfl, {h with}⟩

theorem followsOf_eq_nil {pair : Int × Int} : m.network.followsOf pair = [] ↔ pair ∉ m.circle.follows := by
  rw [mem_circle, Network.followsOf, List.filter_eq_nil_iff]
  simp [network]

theorem simulates_follow (h : m.Ok c) (now : Instant) (userId targetUserId : Int) :
    Simulates (s := s) c detail m ⟨now, .follow userId targetUserId⟩ := by
  unfold Simulates serve Circle.serve
  dsimp only
  have hcircle : m.circle.accounts = m.accounts := rfl
  rw [hcircle]
  cases hme : m.accounts.db.activeUser? userId with
  | none => exact ⟨rfl, rfl, h⟩
  | some me =>
    obtain ⟨rfl, hthere⟩ := activeUser?_some hme
    have hatomic : (follow (V := V) now me.id targetUserId).Atomic :=
      FollowRequest.atomic_program (.follow now me.id targetUserId)
    have heval := follow_eval now me.id targetUserId m.network m.follows.seq
    have hraised := fun e => raises_circle (e := e) h hatomic
    simp only [Option.isNone_some, Bool.false_eq_true, if_false]
    by_cases hself : me.id = targetUserId
    · rw [if_pos hself] at heval ⊢
      exact hraised _ heval
    rw [if_neg hself] at heval ⊢
    rw [isActiveUser_eq h] at heval
    cases hother : m.accounts.db.activeUser? targetUserId with
    | none =>
      rw [hother] at heval
      exact hraised userNotFound heval
    | some other =>
      have hfk : (m.network.db.user? me.id).isSome = true ∧ (m.network.db.user? targetUserId).isSome = true :=
        ⟨hthere, (activeUser?_some hother).2⟩
      rw [hother, if_neg (by simp)] at heval
      simp only [Option.isNone_some, Bool.false_eq_true, if_false]
      by_cases hmem : (me.id, targetUserId) ∈ m.circle.follows
      · rw [if_neg fun hfree => followsOf_eq_nil.mp hfree.1 hmem] at heval
        rw [if_pos hmem]
        exact hraised _ heval
      · rw [if_pos ⟨followsOf_eq_nil.mpr hmem, hfk⟩] at heval
        rw [if_neg hmem, call_ok hatomic heval]
        refine ⟨rfl, ?_, h.accounts, h.names, ?_, ?_, ?_⟩
        · simp only [circle, network, Network.insertFollow, List.map_append, List.map_cons, List.map_nil,
            List.toFinset_append, List.toFinset_cons, List.toFinset_nil, Follow.pair, insert_empty_eq]
          rw [Finset.union_comm, Finset.insert_eq]
        · refine nodup_map_concat h.pairs fun f hf heq => hmem (mem_circle.mpr ⟨f, hf, heq⟩)
        · exact List.forall_mem_append.mpr ⟨h.apart, List.forall_mem_singleton.mpr hself⟩
        · exact List.forall_mem_append.mpr ⟨h.ends, List.forall_mem_singleton.mpr hfk⟩

theorem simulates_unfollow (h : m.Ok c) (now : Instant) (userId targetUserId : Int) :
    Simulates (s := s) c detail m ⟨now, .unfollow userId targetUserId⟩ := by
  unfold Simulates serve Circle.serve
  dsimp only
  have hcircle : m.circle.accounts = m.accounts := rfl
  rw [hcircle]
  cases hme : m.accounts.db.activeUser? userId with
  | none => exact ⟨rfl, rfl, h⟩
  | some me =>
    obtain ⟨rfl, -⟩ := activeUser?_some hme
    have hatomic : (unfollow (V := V) me.id targetUserId).Atomic := FollowRequest.atomic_program (.unfollow me.id targetUserId)
    have heval := unfollow_eval me.id targetUserId m.network m.follows.seq
    simp only [Option.isNone_some, Bool.false_eq_true, if_false]
    cases hrow : (m.network.followsOf (me.id, targetUserId)).head? with
    | none =>
      rw [hrow] at heval
      rw [if_neg (followsOf_eq_nil.mp (List.head?_eq_none_iff.mp hrow))]
      exact raises_circle h hatomic heval
    | some row =>
      obtain ⟨hmem, hpair⟩ := Network.mem_followsOf.mp (List.mem_of_mem_head? hrow)
      rw [hrow] at heval
      rw [if_pos (mem_circle.mpr ⟨row, hmem, hpair⟩), call_ok hatomic heval]
      have hsublist : (m.network.deleteFollow row).follows.Sublist m.follows.db := List.filter_sublist
      refine ⟨rfl, congrArg (Circle.mk _) ?_, h.accounts, h.names, h.pairs.sublist (hsublist.map _),
        fun f hf => h.apart f (hsublist.subset hf), fun f hf => h.ends f (hsublist.subset hf)⟩
      ext pair
      simp only [Finset.mem_erase, mem_circle, List.mem_toFinset, List.mem_map, Network.deleteFollow, network, List.mem_filter,
        decide_eq_true_eq]
      constructor
      · rintro ⟨f, ⟨hf, hne⟩, rfl⟩
        exact ⟨fun heq => hne (List.inj_on_of_nodup_map h.pairs hf hmem (heq.trans hpair.symm)), f, hf, rfl⟩
      · rintro ⟨hne, f, hf, rfl⟩
        exact ⟨f, ⟨hf, fun heq => hne (heq ▸ hpair)⟩, rfl⟩

theorem simulates_publicProfile (h : m.Ok c) (now : Instant) (viewer : Option Int) (userId : Int) :
    Simulates (s := s) c detail m ⟨now, .publicProfile viewer userId⟩ := by
  unfold Simulates serve Circle.serve
  dsimp only
  have hcircle : m.circle.accounts = m.accounts := rfl
  rw [hcircle]
  cases m.accounts.db.activeUser? userId with
  | none => exact ⟨rfl, rfl, h⟩
  | some user => exact ⟨congrArg (fun p => Except.ok (CommunityAnswer.publicUser p)) (publicUser_eq h viewer user), rfl, h⟩

theorem simulates (h : m.Ok c) (r : CommunityRequest s) : Simulates c detail m r := by
  obtain ⟨now, call⟩ := r
  cases call with
  | account call => exact simulates_account h now call
  | profile userId data => exact simulates_profile h now userId data
  | follow userId targetUserId => exact simulates_follow h now userId targetUserId
  | unfollow userId targetUserId => exact simulates_unfollow h now userId targetUserId
  | publicProfile viewer userId => exact simulates_publicProfile h now viewer userId

end

end Community

/-- **The tables behave as a circle.** Over any history, from the empty site, logins, withdrawals,
purges, profile updates, follows, unfollows and profile views are answered as they would be with
the accounts and a plain set of pairs; no two accounts share a name, and each row of `follow` joins
two accounts that are there. -/
theorem community_refines (c : LowerCase) (detail : String) (s : Storage) (history : List (CommunityRequest s)) :
    answers (Community.serve (V := V) c detail) {} history = answers (Circle.serve (V := V) c detail) {} history ∧
      (history.foldl (fun m r => (Community.serve (V := V) c detail m r).2) {}).circle =
        history.foldl (fun a r => (Circle.serve c detail a r).2) {} ∧
      (history.foldl (fun m r => (Community.serve (V := V) c detail m r).2) {}).Ok c := by
  refine Lib.History.answers_refine (Community.serve c detail) (Circle.serve c detail) (fun a m => m.circle = a ∧ m.Ok c) ?_
    ⟨rfl, Community.ok_start c⟩ history
  rintro a m r ⟨rfl, hok⟩
  exact Community.simulates hok r

end TravelMaker
