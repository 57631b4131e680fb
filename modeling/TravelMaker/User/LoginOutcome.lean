import TravelMaker.User.KakaoLogin

/-! How a Kakao login ends.

`AccountsOk` is what every login, withdrawal and purge keeps of the accounts and their
links. On such tables `login_outcome` lists all that `get_or_create_user` can do. -/
namespace TravelMaker
open Lib (Txn)
open Lib.Txn (Base)
open Lib.Email (LowerCase)

variable {V : Type}

/-! ### The account that a login found -/

/-- Within the window. -/
def User.recoverable (now : Instant) (user : User) : Bool :=
  user.deletedAt.any fun deletedAt => now ≤ deletedAt + timedeltaDays recoveryWindowDays

def User.recovered (user : User) : User := {user with isActive := true, deletedAt := none}

def Db.recover (id : Int) (d : Db V) : Db V := d.modifyUser id User.recovered

/-- An account that logs in is active afterwards, or stays as it is. -/
def resumed (now : Instant) (user : User) (d : Db V) : Except Exc (User × Db V) :=
  if user.isActive then .ok (user, d)
  else if user.recoverable now then .ok (user.recovered, d.recover user.id)
  else .error alreadyWithdrawnError

theorem recoverOrRaise_eval (now : Instant) (user : User) (d : Db V) (n : Nat) :
    (recoverOrRaise now user).eval d n =
      if user.recoverable now then .ok (user.recovered, d.recover user.id, n) else .error alreadyWithdrawnError := by
  simp only [recoverOrRaise, Txn.orRaise_bind, Txn.put_bind]
  show Txn.eval (if user.recoverable now = true then _ else _) d n = _
  split <;> rfl

theorem resumeUser_eval (now : Instant) (user : User) (d : Db V) (n : Nat) :
    (resumeUser now user).eval d n = (resumed now user d).map fun r => (r.1, r.2, n) := by
  unfold resumeUser resumed
  split
  · rfl
  · rw [recoverOrRaise_eval]
    split <;> rfl

theorem linkedUser_eval (now : Instant) (providerId : String) (d : Db V) (n : Nat) :
    (linkedUser now providerId).eval d n =
      match d.linked providerId with
      | none => .ok (none, d, n)
      | some user => (resumed now user d).map fun r => (some r.1, r.2, n) := by
  simp only [linkedUser, Txn.read_bind, Txn.eval]
  cases d.linked providerId with
  | none => rfl
  | some user =>
    dsimp only
    rw [Txn.eval_bind, resumeUser_eval]
    cases resumed now user d <;> rfl

/-! ### The rows of a new account -/

/-- No account goes by the name. -/
def Db.NicknameFree (d : Db V) (nickname : String) : Prop := ∀ u ∈ d.users, u.nickname ≠ nickname

instance (d : Db V) (nickname : String) : Decidable (d.NicknameFree nickname) :=
  inferInstanceAs (Decidable (∀ u ∈ d.users, u.nickname ≠ nickname))

theorem generateNickname_eval (draw : Nat → Fin 90000) (retries : Nat) (d : Db V) (n : Nat) :
    (∃ nickname, d.NicknameFree nickname ∧ (generateNickname draw retries).eval d n = .ok (nickname, d, n)) ∨
      (∀ i < retries, ¬ d.NicknameFree (travelerName (draw i))) ∧
        (generateNickname draw retries).eval d n = .error (.other "RuntimeError") := by
  induction retries with
  | zero => exact .inr ⟨fun _ hi => absurd hi (Nat.not_lt_zero _), rfl⟩
  | succ retries ih =>
    simp only [generateNickname, Txn.read_bind, Txn.eval]
    split
    · rename_i htaken
      refine ih.imp id fun h => ⟨fun i hi => ?_, h.2⟩
      rcases Nat.lt_succ_iff_lt_or_eq.mp hi with hi | rfl
      · exact h.1 i hi
      · obtain ⟨u, hu, heq⟩ := List.any_eq_true.mp htaken
        exact fun hfree => hfree u hu (beq_iff_eq.mp heq)
    · rename_i hfree
      refine .inl ⟨_, fun u hu heq => hfree ?_, rfl⟩
      exact List.any_eq_true.mpr ⟨u, hu, beq_iff_eq.mpr heq⟩

theorem createUser_eval (c : LowerCase) (info : KakaoUserInfo) (email nickname : String) (d : Db V) (n : Nat)
    (hfree : d.NicknameFree nickname) :
    (createUser c info email nickname).eval d n =
      match userColumns c info email with
      | .error e => .error e
      | .ok columns =>
        if ∃ u ∈ d.users, u.email = columns.email then .error .integrityError
        else .ok (columns.row n nickname info.gender, d.insertUser (columns.row n nickname info.gender), n + 1) := by
  unfold createUser
  cases userColumns c info email with
  | error e => rfl
  | ok columns =>
    simp only [Txn.lift_ok, Txn.ret_bind, Txn.fresh_bind, Txn.put_bind, Txn.orRaise_bind, Txn.eval]
    by_cases hemail : ∃ u ∈ d.users, u.email = columns.email
    · rw [if_pos hemail, if_neg]
      · rfl
      · obtain ⟨u, hu, heq⟩ := hemail
        intro hall
        have hne := List.all_eq_true.mp hall u hu
        rw [Bool.and_eq_true, bne_iff_ne] at hne
        exact hne.1 heq
    · rw [if_neg hemail, if_pos]
      · rfl
      · refine List.all_eq_true.mpr fun u hu => ?_
        rw [Bool.and_eq_true, bne_iff_ne, bne_iff_ne]
        exact ⟨fun heq => hemail ⟨u, hu, heq⟩, hfree u hu⟩

theorem createSocialUser_eval (userId : Int) (providerId : String) (d : Db V) (n : Nat)
    (hlink : d.socialUser? .kakao providerId = none) (huser : (d.user? userId).isSome = true) :
    (createSocialUser userId providerId).eval d n =
      .ok ((), d.insertSocialUser ⟨userId, .kakao, providerId⟩, n) := by
  simp only [createSocialUser, Txn.put_bind, Txn.eval, Txn.orRaise]
  rw [if_pos ⟨hlink, huser⟩]
  rfl

/-! ### Atomicity -/

theorem atomic_recoverOrRaise (now : Instant) (user : User) : (recoverOrRaise (V := V) now user).Atomic :=
  (Txn.atomic_orRaise _ _).bind fun _ _ => trivial

theorem atomic_resumeUser (now : Instant) (user : User) : (resumeUser (V := V) now user).Atomic := by
  unfold resumeUser
  split
  · trivial
  · exact atomic_recoverOrRaise now user

theorem atomic_linkedUser (now : Instant) (providerId : String) : (linkedUser (V := V) now providerId).Atomic := by
  intro d
  show (match d.linked providerId with | none => _ | some user => _ : Service V (Option User)).Atomic
  cases d.linked providerId with
  | none => trivial
  | some user => exact (atomic_resumeUser now user).bind fun _ => trivial

theorem atomic_generateNickname (draw : Nat → Fin 90000) (retries : Nat) :
    (generateNickname (V := V) draw retries).Atomic := by
  induction retries with
  | zero => trivial
  | succ retries ih =>
    intro d
    show (if _ then _ else _ : Service V String).Atomic
    split
    · exact ih
    · trivial

theorem atomic_createUser (c : LowerCase) (info : KakaoUserInfo) (email nickname : String) :
    (createUser (V := V) c info email nickname).Atomic :=
  (Txn.atomic_lift _).bind fun _ _ _ => (Txn.atomic_orRaise _ _).bind fun _ => trivial

theorem atomic_createSocialUser (userId : Int) (providerId : String) :
    (createSocialUser (V := V) userId providerId).Atomic :=
  fun _ => Txn.atomic_orRaise _ _

theorem atomic_resolveConflict (now : Instant) (email providerId : String) :
    (resolveConflict (V := V) now email providerId).Atomic := by
  refine (atomic_linkedUser now providerId).bind fun found => ?_
  cases found with
  | some user => trivial
  | none =>
    intro d
    show (match d.userByEmail? email with | none => _ | some user => _ : Service V User).Atomic
    cases d.userByEmail? email with
    | none => trivial
    | some user =>
      dsimp only
      split
      · refine ((atomic_createSocialUser user.id providerId).tryCatch fun e => ?_).bind fun _ => trivial
        split <;> trivial
      · exact (atomic_recoverOrRaise now user).bind fun recovered =>
          (atomic_createSocialUser recovered.id providerId).bind fun _ => trivial

theorem atomic_newAccount (c : LowerCase) (draw : Nat → Fin 90000) (info : KakaoUserInfo) (email : String) :
    (newAccount (V := V) c draw info email).Atomic :=
  (atomic_generateNickname draw _).bind fun nickname => (atomic_createUser c info email nickname).bind fun user =>
    (atomic_createSocialUser user.id info.providerId).bind fun _ => trivial

theorem atomic_getOrCreateUser (c : LowerCase) (now : Instant) (draw : Nat → Fin 90000) (data : KakaoAccount) :
    (getOrCreateUser (V := V) c now draw data).Atomic := by
  refine (Txn.atomic_orRaise _ _).bind fun _ => (atomic_linkedUser now _).bind fun found => ?_
  cases found with
  | some user => trivial
  | none =>
    refine (atomic_newAccount c draw _ _).tryCatch fun e => ?_
    split
    · exact (atomic_resolveConflict now _ _).bind fun _ => trivial
    · trivial

/-! ### All outcomes -/

/-- What a login on the tables `d` can end in; `n` is the next id. -/
inductive LoginOutcome (c : LowerCase) (now : Instant) (draw : Nat → Fin 90000) (data : KakaoAccount) (d : Db V)
    (n : Nat) : Except Exc ((User × Bool) × Db V × Nat) → Prop where
  | noEmail : data.email.getD "" = "" → LoginOutcome c now draw data d n (.error emailNotProvidedError)
  /-- The Kakao id is linked to an account. -/
  | linked {user : User} : data.email.getD "" ≠ "" → d.linked (toString data.id) = some user →
    LoginOutcome c now draw data d n ((resumed now user d).map fun r => ((r.1, false), r.2, n))
  | noNickname : data.email.getD "" ≠ "" → d.linked (toString data.id) = none →
    (∀ i < maxNicknameRetries, ¬ d.NicknameFree (travelerName (draw i))) →
    LoginOutcome c now draw data d n (.error (.other "RuntimeError"))
  | unstorable {e : Exc} : data.email.getD "" ≠ "" → d.linked (toString data.id) = none →
    userColumns c (getUserInfo data) (data.email.getD "") = .error e → LoginOutcome c now draw data d n (.error e)
  | created {columns : UserColumns} {nickname : String} : data.email.getD "" ≠ "" →
    d.linked (toString data.id) = none → d.NicknameFree nickname →
    userColumns c (getUserInfo data) (data.email.getD "") = .ok columns → (∀ u ∈ d.users, u.email ≠ columns.email) →
    LoginOutcome c now draw data d n (.ok ((columns.row n nickname (getUserInfo data).gender, true),
      (d.insertUser (columns.row n nickname (getUserInfo data).gender)).insertSocialUser ⟨n, .kakao, toString data.id⟩,
      n + 1))
  /-- An account has the e-mail in its stored spelling, and none as Kakao spells it. -/
  | lost {columns : UserColumns} {u : User} : data.email.getD "" ≠ "" → d.linked (toString data.id) = none →
    userColumns c (getUserInfo data) (data.email.getD "") = .ok columns → u ∈ d.users → u.email = columns.email →
    d.userByEmail? (data.email.getD "") = none → LoginOutcome c now draw data d n (.error userDoesNotExist)
  /-- The account of the e-mail gets another link. -/
  | relinked {columns : UserColumns} {u user : User} {m : Nat} : data.email.getD "" ≠ "" →
    d.linked (toString data.id) = none → userColumns c (getUserInfo data) (data.email.getD "") = .ok columns →
    u ∈ d.users → u.email = columns.email → d.userByEmail? (data.email.getD "") = some user → n ≤ m →
    LoginOutcome c now draw data d n
      ((resumed now user d).map fun r => ((r.1, false), r.2.insertSocialUser ⟨user.id, .kakao, toString data.id⟩, m))

/-- The values of a new account are refused by its birthday or by the columns. -/
theorem userColumns_error {c : LowerCase} {info : KakaoUserInfo} {email : String} {e : Exc}
    (h : userColumns c info email = .error e) : e = .validationError ∨ e = .databaseError := by
  have hbirthday : ∀ text e, birthdayColumn text = .error e → e = .validationError := by
    intro text e h
    cases text with
    | none => cases h
    | some text =>
      simp only [birthdayColumn] at h
      split at h
      · cases h
      · cases h
        rfl
  have hcolumn : ∀ text e, orDataError text = .error e → e = .databaseError := by
    intro text e h
    cases text with
    | none =>
      cases h
      rfl
    | some text => cases h
  simp only [userColumns, bind, Except.bind] at h
  split at h
  · rename_i hfirst
    cases h
    exact .inl (hbirthday _ _ hfirst)
  · split at h
    · rename_i hsecond
      cases h
      exact .inr (hcolumn _ _ hsecond)
    · split at h
      · rename_i hthird
        cases h
        exact .inr (hcolumn _ _ hthird)
      · cases h

/-- The e-mail of a new account is in its stored spelling. -/
theorem stored_userColumns {c : LowerCase} {info : KakaoUserInfo} {email : String} {columns : UserColumns}
    (h : userColumns c info email = .ok columns) :
    Lib.Email.stored? c 255 email.toList = some columns.email.toList := by
  simp only [userColumns, bind, Except.bind] at h
  split at h
  · cases h
  · split at h
    · cases h
    · rename_i address haddress
      split at h
      · cases h
      · cases h
        unfold orDataError at haddress
        split at haddress
        · rename_i text htext
          cases haddress
          rw [htext, String.toList_ofList]
        · cases haddress

section
variable {c : LowerCase} {draw : Nat → Fin 90000} {d : Db V} {n : Nat}

theorem linked_none_iff (howner : ∀ link ∈ d.socialUsers, (d.user? link.userId).isSome = true) (providerId : String) :
    d.linked providerId = none ↔ d.socialUser? .kakao providerId = none := by
  unfold Db.linked
  cases hlink : d.socialUser? .kakao providerId with
  | none => exact iff_of_true rfl rfl
  | some link =>
    obtain ⟨user, huser⟩ := Option.isSome_iff_exists.mp (howner link (List.mem_of_find?_eq_some hlink))
    rw [Option.bind_some, huser]
    exact ⟨fun h => (nomatch h), fun h => (nomatch h)⟩

/-- The savepoint of a new account, once there is a name for it. -/
theorem newAccount_eval {info : KakaoUserInfo} (email : String) {nickname : String} (hfree : d.NicknameFree nickname)
    (hnickname : (generateNickname draw maxNicknameRetries).eval d n = .ok (nickname, d, n))
    (hlink : d.socialUser? .kakao info.providerId = none) :
    (newAccount c draw info email).eval d n =
      match userColumns c info email with
      | .error e => .error e
      | .ok columns =>
        if ∃ u ∈ d.users, u.email = columns.email then .error .integrityError
        else .ok ((columns.row n nickname info.gender, true),
          (d.insertUser (columns.row n nickname info.gender)).insertSocialUser ⟨n, .kakao, info.providerId⟩, n + 1) := by
  rw [newAccount, Txn.eval_bind_ok hnickname, Txn.eval_bind, createUser_eval c info email nickname d n hfree]
  cases userColumns c info email with
  | error e => rfl
  | ok columns =>
    dsimp only
    split
    · rfl
    · have hmem : columns.row n nickname info.gender ∈ (d.insertUser (columns.row n nickname info.gender)).users :=
        List.mem_append_right _ List.mem_cons_self
      have huser : ((d.insertUser (columns.row n nickname info.gender)).user? n).isSome = true := user?_of_mem hmem
      have hcreate := createSocialUser_eval n info.providerId (d.insertUser (columns.row n nickname info.gender)) (n + 1)
        hlink huser
      exact Txn.eval_bind_ok hcreate _

/-- A conflict is resolved by the e-mail. -/
theorem resolveConflict_eval (now : Instant) (email : String) {providerId : String}
    (hlinked : d.linked providerId = none) (hlink : d.socialUser? .kakao providerId = none) :
    (resolveConflict now email providerId).eval d n =
      match d.userByEmail? email with
      | none => .error userDoesNotExist
      | some user => (resumed now user d).map fun r => (r.1, r.2.insertSocialUser ⟨user.id, .kakao, providerId⟩, n) := by
  have hfound : (linkedUser now providerId).eval d n = .ok (none, d, n) := by
    rw [linkedUser_eval, hlinked]
  rw [resolveConflict, Txn.eval_bind_ok hfound]
  simp only [Txn.read_bind, Txn.eval]
  cases hemail : d.userByEmail? email with
  | none => rfl
  | some user =>
    have huser : (d.user? user.id).isSome = true := user?_of_mem (List.mem_of_find?_eq_some hemail)
    dsimp only
    unfold resumed
    split
    · have hcreate := createSocialUser_eval user.id providerId d n hlink huser
      rw [Txn.eval_bind_ok (Txn.eval_tryCatch_ok (atomic_createSocialUser user.id providerId) hcreate _)]
      rfl
    · rw [Txn.eval_bind, recoverOrRaise_eval]
      split
      · have hcreate := createSocialUser_eval user.recovered.id providerId (d.recover user.id) n hlink
          (by rw [Db.recover, isSome_modifyUser (f := User.recovered) d user.id _ fun _ => rfl]; exact huser)
        exact Txn.eval_bind_ok hcreate _
      · rfl

/-- What follows an account that is there, or the error. -/
theorem map_bind_ok {ε α β γ : Type} (x : Except ε α) (f : α → β) {q : β → Except ε γ} (g : α → γ)
    (h : ∀ a, q (f a) = .ok (g a)) : (x.map f).bind q = x.map g := by
  cases x with
  | error e => rfl
  | ok a => exact h a

section
variable {now : Instant} {data : KakaoAccount} (hemail : data.email.getD "" ≠ "")
include hemail

theorem getOrCreateUser_eq (c : LowerCase) (now : Instant) (draw : Nat → Fin 90000) :
    getOrCreateUser (V := V) c now draw data = linkedUser now (toString data.id) >>= fun found =>
      match found with
      | some user => Txn.ret (user, false)
      | none => Txn.tryCatch (newAccount c draw (getUserInfo data) (data.email.getD "")) fun e =>
        if e = .integrityError then
          resolveConflict now (data.email.getD "") (toString data.id) >>= fun user => Txn.ret (user, false)
        else Txn.raise e := by
  simp only [getOrCreateUser, Txn.orRaise_bind]
  exact if_pos hemail

theorem outcome_linked {user : User} (hlinked : d.linked (toString data.id) = some user) :
    LoginOutcome c now draw data d n ((getOrCreateUser c now draw data).eval d n) := by
  rw [getOrCreateUser_eq hemail, Txn.eval_bind, linkedUser_eval, hlinked]
  dsimp only
  rw [map_bind_ok _ _ fun r => ((r.1, false), r.2, n)]
  · exact .linked hemail hlinked
  · exact fun _ => rfl

variable (hlinked : d.linked (toString data.id) = none) (hlink : d.socialUser? .kakao (toString data.id) = none)
include hlinked hlink

/-- The e-mail of the new account is taken. -/
theorem outcome_conflict {columns : UserColumns} {u : User} {m : Nat}
    (hcolumns : userColumns c (getUserInfo data) (data.email.getD "") = .ok columns) (hu : u ∈ d.users)
    (hsame : u.email = columns.email) (hm : n ≤ m) :
    LoginOutcome c now draw data d n
      ((resolveConflict now (data.email.getD "") (toString data.id) >>= fun user => Txn.ret (user, false)).eval d m) := by
  rw [Txn.eval_bind, resolveConflict_eval now _ hlinked hlink]
  cases hbyEmail : d.userByEmail? (data.email.getD "") with
  | none => exact .lost hemail hlinked hcolumns hu hsame hbyEmail
  | some user =>
    dsimp only
    rw [map_bind_ok _ _ fun r => ((r.1, false), r.2.insertSocialUser ⟨user.id, .kakao, toString data.id⟩, m)]
    · exact .relinked hemail hlinked hcolumns hu hsame hbyEmail hm
    · exact fun _ => rfl

theorem outcome_unlinked :
    LoginOutcome c now draw data d n
      ((Txn.tryCatch (newAccount c draw (getUserInfo data) (data.email.getD "")) fun e =>
        if e = .integrityError then
          resolveConflict now (data.email.getD "") (toString data.id) >>= fun user => Txn.ret (user, false)
        else Txn.raise e).eval d n) := by
  have hatomic := atomic_newAccount (V := V) c draw (getUserInfo data) (data.email.getD "")
  rcases generateNickname_eval draw maxNicknameRetries d n with ⟨nickname, hfree, hnickname⟩ | ⟨htaken, hnickname⟩
  · have hunlinked : d.socialUser? .kakao (getUserInfo data).providerId = none := hlink
    have hnew := newAccount_eval (c := c) (data.email.getD "") hfree hnickname hunlinked
    cases hcolumns : userColumns c (getUserInfo data) (data.email.getD "") with
    | error e =>
      rw [hcolumns] at hnew
      obtain ⟨m, -, heq⟩ := Txn.eval_tryCatch_error hatomic hnew _
      rw [heq, if_neg]
      · exact .unstorable hemail hlinked hcolumns
      · rcases userColumns_error hcolumns with rfl | rfl <;> decide
    | ok columns =>
      rw [hcolumns] at hnew
      dsimp only at hnew
      by_cases hconflict : ∃ u ∈ d.users, u.email = columns.email
      · rw [if_pos hconflict] at hnew
        obtain ⟨m, hm, heq⟩ := Txn.eval_tryCatch_error hatomic hnew _
        obtain ⟨u, hu, hsame⟩ := hconflict
        rw [heq, if_pos rfl]
        exact outcome_conflict hemail hlinked hlink hcolumns hu hsame hm
      · rw [if_neg hconflict] at hnew
        rw [Txn.eval_tryCatch_ok hatomic hnew]
        exact .created hemail hlinked hfree hcolumns fun u hu heq => hconflict ⟨u, hu, heq⟩
  · have hnew : (newAccount c draw (getUserInfo data) (data.email.getD "")).eval d n = _ := Txn.eval_bind_error hnickname _
    obtain ⟨m, -, heq⟩ := Txn.eval_tryCatch_error hatomic hnew _
    rw [heq]
    exact .noNickname hemail hlinked htaken

end

/-- **How a login ends.** -/
theorem login_outcome (howner : ∀ link ∈ d.socialUsers, (d.user? link.userId).isSome = true) (now : Instant)
    (data : KakaoAccount) :
    LoginOutcome c now draw data d n ((getOrCreateUser c now draw data).eval d n) := by
  by_cases hemail : data.email.getD "" = ""
  · simp only [getOrCreateUser, Txn.orRaise_bind]
    split
    · rename_i hne
      exact absurd hemail hne
    · exact .noEmail hemail
  cases hlinked : d.linked (toString data.id) with
  | some user => exact outcome_linked hemail hlinked
  | none =>
    have hfound : (linkedUser now (toString data.id)).eval d n = .ok (none, d, n) := by
      rw [linkedUser_eval, hlinked]
    rw [getOrCreateUser_eq hemail, Txn.eval_bind_ok hfound]
    exact outcome_unlinked hemail hlinked ((linked_none_iff howner _).mp hlinked)

end

end TravelMaker
