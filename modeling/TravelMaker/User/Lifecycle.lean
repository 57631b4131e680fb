import TravelMaker.Lib.History
import TravelMaker.User.LoginOutcome

/-! The life of an account: Kakao logins, withdrawals and purges in any order.

A withdrawn account can be recovered by a login until its window has passed, and is
deleted by a purge from then on. `account_lifecycle` says that the two comparisons, in
two modules, leave no gap and no overlap in any state that a history reaches, and what a
login after the window ends in. -/
namespace TravelMaker
open Lib (Txn)
open Lib.Txn (Base)
open Lib.History (states)
open Lib.Email (LowerCase)

variable {V : Type}

/-! ### Histories -/

inductive AccountCall where
  | login (draw : Nat → Fin 90000) (data : KakaoAccount)
  | withdraw (userId : Int) (reason : String)
  | purge

structure AccountRequest where
  now : Instant
  call : AccountCall

/-- A login served alone: its answer, and the tables after it. -/
def serveLogin (c : LowerCase) (now : Instant) (draw : Nat → Fin 90000) (data : KakaoAccount) (b : Base (Db V)) :
    Except Exc (User × Bool) × Base (Db V) := (getOrCreateUser c now draw data).perform b

/-- The purge served alone. -/
def servePurge (now : Instant) (b : Base (Db V)) : Base (Db V) := ((purgeWithdrawnUsers now).perform b).2

def serveAccount (c : LowerCase) (b : Base (Db V)) (r : AccountRequest) : Base (Db V) :=
  match r.call with
  | .login draw data => (serveLogin c r.now draw data b).2
  | .withdraw userId reason =>
    match b.db.user? userId with
    | some user => ((withdrawUser r.now user reason).perform b).2
    | none => b
  | .purge => servePurge r.now b

/-! ### What every request keeps -/

/-- The accounts and their links, in every state. -/
structure AccountsOk (c : LowerCase) (b : Base (Db V)) : Prop where
  ids : (b.db.users.map (·.id)).Nodup
  fresh : ∀ u ∈ b.db.users, u.id < b.seq
  emails : (b.db.users.map (·.email)).Nodup
  /-- An address in the table is in its stored spelling. -/
  stored : ∀ u ∈ b.db.users, Lib.Email.stored? c 255 u.email.toList = some u.email.toList
  status : ∀ u ∈ b.db.users, u.isActive = false ↔ u.deletedAt.isSome = true
  links : (b.db.socialUsers.map fun link => (link.provider, link.providerId)).Nodup
  owner : ∀ link ∈ b.db.socialUsers, (b.db.user? link.userId).isSome = true
  linked : ∀ u ∈ b.db.users, ∃ id : UInt64, ⟨u.id, .kakao, toString id⟩ ∈ b.db.socialUsers

theorem accountsOk_start (c : LowerCase) : AccountsOk (V := V) c ⟨{}, 0⟩ where
  ids := List.nodup_nil
  fresh _ h := nomatch h
  emails := List.nodup_nil
  stored _ h := nomatch h
  status _ h := nomatch h
  links := List.nodup_nil
  owner _ h := nomatch h
  linked _ h := nomatch h

section
variable {c : LowerCase} {b : Base (Db V)}

theorem AccountsOk.later (h : AccountsOk c b) {n : Nat} (hn : b.seq ≤ n) : AccountsOk c ⟨b.db, n⟩ :=
  {h with fresh := fun u hu => Int.lt_of_lt_of_le (h.fresh u hu) (Int.ofNat_le.mpr hn)}

theorem AccountsOk.modify (h : AccountsOk c b) (id : Int) {f : User → User} (hid : ∀ u, (f u).id = u.id)
    (hemail : ∀ u, (f u).email = u.email) (hstatus : ∀ u, (f u).isActive = false ↔ (f u).deletedAt.isSome = true) :
    AccountsOk c ⟨b.db.modifyUser id f, b.seq⟩ := by
  have hall : ∀ u, (if u.id = id then f u else u).id = u.id ∧ (if u.id = id then f u else u).email = u.email := by
    intro u
    split
    · exact ⟨hid u, hemail u⟩
    · exact ⟨rfl, rfl⟩
  have hids : (b.db.modifyUser id f).users.map (·.id) = b.db.users.map (·.id) := by
    rw [Db.modifyUser, List.map_map]
    exact List.map_congr_left fun u _ => (hall u).1
  have hemails : (b.db.modifyUser id f).users.map (·.email) = b.db.users.map (·.email) := by
    rw [Db.modifyUser, List.map_map]
    exact List.map_congr_left fun u _ => (hall u).2
  constructor
  · rw [hids]
    exact h.ids
  · intro u hu
    obtain ⟨u', hu', rfl⟩ := List.mem_map.mp hu
    rw [(hall u').1]
    exact h.fresh u' hu'
  · rw [hemails]
    exact h.emails
  · intro u hu
    obtain ⟨u', hu', rfl⟩ := List.mem_map.mp hu
    rw [(hall u').2]
    exact h.stored u' hu'
  · intro u hu
    obtain ⟨u', hu', rfl⟩ := List.mem_map.mp hu
    split
    · exact hstatus u'
    · exact h.status u' hu'
  · exact h.links
  · intro link hlink
    rw [isSome_modifyUser _ _ _ hid]
    exact h.owner link hlink
  · intro u hu
    obtain ⟨u', hu', rfl⟩ := List.mem_map.mp hu
    rw [(hall u').1]
    exact h.linked u' hu'

theorem socialUser?_none {d : Db V} {provider : Provider} {providerId : String}
    (h : d.socialUser? provider providerId = none) :
    ∀ link ∈ d.socialUsers, (link.provider, link.providerId) ≠ (provider, providerId) := by
  intro link hlink heq
  have hnot := List.find?_eq_none.mp h link hlink
  cases heq
  exact hnot (by rw [beq_self_eq_true, beq_self_eq_true]; rfl)

/-- A row with a new key. -/
theorem nodup_map_concat {α β : Type} {f : α → β} {l : List α} {x : α} (h : (l.map f).Nodup)
    (hx : ∀ a ∈ l, f a ≠ f x) : ((l ++ [x]).map f).Nodup := by
  rw [List.map_append, List.nodup_append']
  refine ⟨h, List.nodup_singleton _, fun key hkey hkey' => ?_⟩
  obtain ⟨a, ha, rfl⟩ := List.mem_map.mp hkey
  exact hx a ha (List.mem_singleton.mp hkey')

/-- Another link of an account. -/
theorem AccountsOk.link (h : AccountsOk c b) {userId : Int} {providerId : String}
    (huser : (b.db.user? userId).isSome = true) (hfree : b.db.socialUser? .kakao providerId = none) :
    AccountsOk c ⟨b.db.insertSocialUser ⟨userId, .kakao, providerId⟩, b.seq⟩ :=
  {h with
    links := nodup_map_concat h.links (socialUser?_none hfree)
    owner := by
      intro link hlink
      rcases List.mem_append.mp hlink with hlink | hlink
      · exact h.owner link hlink
      · rw [List.mem_singleton.mp hlink]
        exact huser
    linked := fun u hu => (h.linked u hu).imp fun _ hlink => List.mem_append_left _ hlink}

theorem user?_insertUser {d : Db V} {user : User} {id : Int} (h : (d.user? id).isSome = true) :
    ((d.insertUser user).user? id).isSome = true := by
  obtain ⟨u, hu, heq⟩ := List.find?_isSome.mp h
  exact List.find?_isSome.mpr ⟨u, List.mem_append_left _ hu, heq⟩

/-- A new account and its link. -/
theorem AccountsOk.create (h : AccountsOk c b) {user : User} {id : UInt64} (hid : user.id = b.seq)
    (hemail : ∀ u ∈ b.db.users, u.email ≠ user.email)
    (hstored : Lib.Email.stored? c 255 user.email.toList = some user.email.toList)
    (hactive : user.isActive = true) (hdeleted : user.deletedAt = none)
    (hfree : b.db.socialUser? .kakao (toString id) = none) :
    AccountsOk c ⟨(b.db.insertUser user).insertSocialUser ⟨user.id, .kakao, toString id⟩, b.seq + 1⟩ := by
  have hforall : ∀ {P : User → Prop}, (∀ u ∈ b.db.users, P u) → P user → ∀ u ∈ b.db.users ++ [user], P u :=
    fun hold hnew => List.forall_mem_append.mpr ⟨hold, List.forall_mem_singleton.mpr hnew⟩
  have hne : ∀ u ∈ b.db.users, u.id ≠ user.id := fun u hu => by
    have hlt := h.fresh u hu
    omega
  have hself : ((b.db.insertUser user).user? user.id).isSome = true :=
    user?_of_mem (List.mem_append_right _ List.mem_cons_self)
  constructor
  · exact nodup_map_concat h.ids hne
  · refine hforall (fun u hu => ?_) ?_
    · have hlt := h.fresh u hu
      push_cast
      omega
    · push_cast
      omega
  · exact nodup_map_concat h.emails hemail
  · exact hforall h.stored hstored
  · apply hforall h.status
    rw [hactive, hdeleted]
    exact iff_of_false (fun h => nomatch h) fun h => nomatch h
  · exact nodup_map_concat h.links (socialUser?_none hfree)
  · refine List.forall_mem_append.mpr ⟨fun link hlink => user?_insertUser (h.owner link hlink), ?_⟩
    exact List.forall_mem_singleton.mpr hself
  · refine hforall (fun u hu => ?_) ⟨id, List.mem_append_right _ List.mem_cons_self⟩
    exact (h.linked u hu).imp fun _ hlink => List.mem_append_left _ hlink

theorem AccountsOk.delete (h : AccountsOk c b) (id : Int) : AccountsOk c ⟨b.db.deleteUser id, b.seq⟩ where
  ids := h.ids.sublist (List.filter_sublist.map _)
  fresh u hu := h.fresh u (List.mem_filter.mp hu).1
  emails := h.emails.sublist (List.filter_sublist.map _)
  stored u hu := h.stored u (List.mem_filter.mp hu).1
  status u hu := h.status u (List.mem_filter.mp hu).1
  links := h.links.sublist (List.filter_sublist.map _)
  owner link hlink := by
    obtain ⟨hmem, hother⟩ := List.mem_filter.mp hlink
    obtain ⟨u, hu, hid⟩ := List.find?_isSome.mp (h.owner link hmem)
    refine List.find?_isSome.mpr ⟨u, List.mem_filter.mpr ⟨hu, ?_⟩, hid⟩
    rwa [beq_iff_eq.mp hid]
  linked u hu := by
    obtain ⟨hmem, hother⟩ := List.mem_filter.mp hu
    obtain ⟨providerId, hlink⟩ := h.linked u hmem
    exact ⟨providerId, List.mem_filter.mpr ⟨hlink, hother⟩⟩

theorem AccountsOk.deleteEach (h : AccountsOk c b) (users : List User) :
    AccountsOk c ⟨users.foldl (fun d u => d.deleteUser u.id) b.db, b.seq⟩ := by
  induction users generalizing b with
  | nil => exact h
  | cons u rest ih => exact ih (h.delete u.id)

/-! ### One request -/

theorem AccountsOk.recover (h : AccountsOk c b) (id : Int) : AccountsOk c ⟨b.db.recover id, b.seq⟩ :=
  h.modify id (fun _ => rfl) (fun _ => rfl) fun _ => iff_of_false (fun h => nomatch h) fun h => nomatch h

/-- An account that logs in, and its tables. -/
theorem AccountsOk.resumed (h : AccountsOk c b) {now : Instant} {user : User} {r : User × Db V}
    (hresumed : resumed now user b.db = .ok r) : AccountsOk c ⟨r.2, b.seq⟩ ∧ r.2.socialUsers = b.db.socialUsers ∧
      ∀ id, (r.2.user? id).isSome = (b.db.user? id).isSome := by
  unfold TravelMaker.resumed at hresumed
  split at hresumed
  · cases hresumed
    exact ⟨h, rfl, fun _ => rfl⟩
  · split at hresumed
    · cases hresumed
      exact ⟨h.recover user.id, rfl, fun id => isSome_modifyUser (f := User.recovered) b.db user.id id fun _ => rfl⟩
    · cases hresumed

/-- A login served alone is one of the outcomes. -/
theorem serveLogin_outcome (h : AccountsOk c b) (now : Instant) (draw : Nat → Fin 90000) (data : KakaoAccount) :
    ∃ x, LoginOutcome c now draw data b.db b.seq x ∧
      (∀ r, x = .ok r → serveLogin c now draw data b = (.ok r.1, ⟨r.2.1, r.2.2⟩)) ∧
      ∀ e, x = .error e → ∃ n, b.seq ≤ n ∧ serveLogin c now draw data b = (.error e, ⟨b.db, n⟩) :=
  ⟨_, login_outcome h.owner now data, fun _ hr => (atomic_getOrCreateUser c now draw data).perform_ok hr,
    fun _ he => (atomic_getOrCreateUser c now draw data).perform_error he⟩

theorem accountsOk_login (h : AccountsOk c b) (now : Instant) (draw : Nat → Fin 90000) (data : KakaoAccount) :
    AccountsOk c (serveLogin c now draw data b).2 := by
  obtain ⟨x, houtcome, hok, herror⟩ := serveLogin_outcome h now draw data
  have hraised : ∀ e, x = .error e → AccountsOk c (serveLogin c now draw data b).2 := by
    intro e he
    obtain ⟨n, hn, heq⟩ := herror e he
    rw [heq]
    exact h.later hn
  cases houtcome with
  | noEmail | noNickname | unstorable | lost => exact hraised _ rfl
  | @linked user _ _ =>
    cases hresumed : resumed now user b.db with
    | ok r =>
      rw [hok _ (by rw [hresumed]; rfl)]
      exact (h.resumed hresumed).1
    | error e => exact hraised e (by rw [hresumed]; rfl)
  | @created columns nickname _ hlinked _ hcolumns hemail =>
    rw [hok _ rfl]
    refine h.create rfl hemail ?_ rfl rfl ((linked_none_iff h.owner _).mp hlinked)
    exact Lib.Email.stored?_idem (stored_userColumns hcolumns)
  | @relinked columns u user m _ hlinked _ _ _ hbyEmail hm =>
    cases hresumed : resumed now user b.db with
    | ok r =>
      obtain ⟨hr, hlinks, husers⟩ := h.resumed hresumed
      rw [hok _ (by rw [hresumed]; rfl)]
      refine (hr.link ?_ ?_).later hm
      · rw [husers]
        exact user?_of_mem (List.mem_of_find?_eq_some hbyEmail)
      · rw [Db.socialUser?, hlinks]
        exact (linked_none_iff h.owner _).mp hlinked
    | error e => exact hraised e (by rw [hresumed]; rfl)

theorem accountsOk_serve (b : Base (Db V)) (r : AccountRequest) (h : AccountsOk c b) :
    AccountsOk c (serveAccount c b r) := by
  unfold serveAccount
  split
  · exact accountsOk_login h r.now _ _
  · split
    · rename_i user huser
      rcases withdrawUser_cases r.now user _ b with heq | heq
      · rw [heq]
        exact h
      · rw [heq]
        exact h.modify user.id (fun _ => rfl) (fun _ => rfl) fun _ => iff_of_true rfl rfl
    · exact h
  · unfold servePurge
    rw [purgeWithdrawnUsers_perform]
    exact h.deleteEach _

/-! ### Purges -/

theorem deleteUsers_users (users : List User) (d : Db V) :
    (users.foldl (fun d u => d.deleteUser u.id) d).users = d.users.filter fun u => users.all (·.id != u.id) := by
  induction users generalizing d with
  | nil => simp
  | cons v rest ih =>
    rw [List.foldl_cons, ih, Db.deleteUser, List.filter_filter]
    refine List.filter_congr fun u _ => ?_
    rw [List.all_cons, Bool.and_comm, bne_comm]

/-- The purge deletes the accounts it selected, and no other. -/
theorem servePurge_users (h : AccountsOk c b) (now : Instant) :
    (servePurge now b).db.users =
      b.db.users.filter fun u => !u.expired (now - timedeltaDays recoveryWindowDays) := by
  rw [servePurge, purgeWithdrawnUsers_perform]
  refine (deleteUsers_users _ _).trans (List.filter_congr fun u hu => ?_)
  rw [Bool.eq_iff_iff, List.all_eq_true, Bool.not_eq_true']
  constructor
  · intro hall
    by_contra hexpired
    have hself := hall u (List.mem_filter.mpr ⟨hu, Bool.of_not_eq_false hexpired⟩)
    exact bne_iff_ne.mp hself rfl
  · intro hkept v hv
    obtain ⟨hv, hexpired⟩ := List.mem_filter.mp hv
    refine bne_iff_ne.mpr fun hid => ?_
    rw [List.inj_on_of_nodup_map h.ids hv hu hid, hkept] at hexpired
    cases hexpired

/-! ### The window -/

/-- The two comparisons of the window: by its end, and by the start it has to have. -/
theorem windowEnds (now deletedAt window : Int) : now ≤ deletedAt + window ↔ ¬ deletedAt < now - window := by
  omega

/-- The time is still within the window of a withdrawn account, or the account is expired. -/
theorem recoverable_iff_not_expired {user : User} (hactive : user.isActive = false)
    (hdeleted : user.deletedAt.isSome = true) (now : Instant) :
    user.recoverable now = true ↔ user.expired (now - timedeltaDays recoveryWindowDays) = false := by
  obtain ⟨deletedAt, hdeletedAt⟩ := Option.isSome_iff_exists.mp hdeleted
  rw [User.recoverable, User.expired, hactive, hdeletedAt]
  simp only [Option.any_some, Bool.not_false, Bool.true_and, decide_eq_true_eq, decide_eq_false_iff_not]
  exact windowEnds now _ _

/-- A login at this time makes the account active again. -/
def RecoverableByLogin (c : LowerCase) (now : Instant) (b : Base (Db V)) (user : User) : Prop :=
  ∃ draw data new, (serveLogin c now draw data b).1 = .ok (user.recovered, new) ∧
    user.recovered ∈ (serveLogin c now draw data b).2.db.users

/-- A purge at this time deletes the account. -/
def DeletableByPurge (now : Instant) (b : Base (Db V)) (user : User) : Prop := user ∉ (servePurge now b).db.users

/-- The account that a login looks up: that of the link, or, where a new account cannot be
made for its e-mail only, that of the e-mail. -/
def LoginFinds (c : LowerCase) (draw : Nat → Fin 90000) (data : KakaoAccount) (d : Db V) (user : User) : Prop :=
  data.email.getD "" ≠ "" ∧ (d.linked (toString data.id) = some user ∨
    d.linked (toString data.id) = none ∧ (∃ i < maxNicknameRetries, d.NicknameFree (travelerName (draw i))) ∧
      (∃ columns, userColumns c (getUserInfo data) (data.email.getD "") = .ok columns) ∧
      d.userByEmail? (data.email.getD "") = some user)

/-- The window of the account has passed. -/
def User.WindowPassed (user : User) (now : Instant) : Prop :=
  user.isActive = false ∧ ∃ deletedAt, user.deletedAt = some deletedAt ∧
    deletedAt + timedeltaDays recoveryWindowDays < now

theorem windowPassed_iff (user : User) (now : Instant) :
    user.WindowPassed now ↔ user.expired (now - timedeltaDays recoveryWindowDays) = true := by
  unfold User.WindowPassed User.expired
  cases user.deletedAt with
  | none => simp
  | some deletedAt =>
    simp only [Option.some.injEq, exists_eq_left', Option.any_some, Bool.and_eq_true, Bool.not_eq_true',
      decide_eq_true_eq]
    refine and_congr_right fun _ => ?_
    rw [← Int.not_le, windowEnds now, Classical.not_not]

/-! ### Logins and the window -/

theorem AccountsOk.user? (h : AccountsOk c b) {user : User} (huser : user ∈ b.db.users) :
    b.db.user? user.id = some user := by
  obtain ⟨found, hfound⟩ := Option.isSome_iff_exists.mp (user?_of_mem huser)
  rw [hfound, List.inj_on_of_nodup_map h.ids (List.mem_of_find?_eq_some hfound) huser (user?_id hfound)]

/-- A Kakao id is linked to one account. -/
theorem AccountsOk.linked_of_mem (h : AccountsOk c b) {user : User} (huser : user ∈ b.db.users) {providerId : String}
    (hlink : ⟨user.id, .kakao, providerId⟩ ∈ b.db.socialUsers) : b.db.linked providerId = some user := by
  have hsome : (b.db.socialUser? .kakao providerId).isSome = true :=
    List.find?_isSome.mpr ⟨_, hlink, by rw [beq_self_eq_true, beq_self_eq_true]; rfl⟩
  obtain ⟨link, hfound⟩ := Option.isSome_iff_exists.mp hsome
  have hkey := List.find?_some hfound
  rw [Bool.and_eq_true, beq_iff_eq, beq_iff_eq] at hkey
  have hsame : link = ⟨user.id, .kakao, providerId⟩ :=
    List.inj_on_of_nodup_map h.links (List.mem_of_find?_eq_some hfound) hlink (Prod.ext hkey.1 hkey.2)
  rw [Db.linked, hfound, Option.bind_some, hsame]
  exact h.user? huser

theorem userByEmail?_email {d : Db V} {email : String} {user : User} (h : d.userByEmail? email = some user) :
    user.email = email := by
  simpa using List.find?_some h

theorem mem_of_linked {d : Db V} {providerId : String} {user : User} (h : d.linked providerId = some user) :
    user ∈ d.users := by
  obtain ⟨link, -, huser⟩ := Option.bind_eq_some_iff.mp h
  exact List.mem_of_find?_eq_some huser

/-- An account whose window has passed is left alone, whoever logs in. -/
theorem resumed_keeps (h : AccountsOk c b) {now : Instant} {user late : User} {r : User × Db V}
    (huser : user ∈ b.db.users) (hlate : late ∈ b.db.users) (hpassed : late.WindowPassed now)
    (hresumed : resumed now user b.db = .ok r) : late ∈ r.2.users := by
  unfold resumed at hresumed
  split at hresumed
  · cases hresumed
    exact hlate
  · rename_i hactive
    split at hresumed
    · rename_i hrecoverable
      cases hresumed
      have hstatus := h.status user huser
      rw [Bool.not_eq_true] at hactive
      have hne : late.id ≠ user.id := by
        intro hid
        rw [List.inj_on_of_nodup_map h.ids hlate huser hid, windowPassed_iff,
          (recoverable_iff_not_expired hactive (hstatus.mp hactive) now).mp hrecoverable] at hpassed
        cases hpassed
      exact List.mem_map.mpr ⟨late, hlate, if_neg hne⟩
    · cases hresumed

theorem login_keeps_late (h : AccountsOk c b) {now : Instant} {late : User} (hlate : late ∈ b.db.users)
    (hpassed : late.WindowPassed now) (draw : Nat → Fin 90000) (data : KakaoAccount) :
    late ∈ (serveLogin c now draw data b).2.db.users := by
  obtain ⟨x, houtcome, hok, herror⟩ := serveLogin_outcome h now draw data
  have hraised : ∀ e, x = .error e → late ∈ (serveLogin c now draw data b).2.db.users := by
    intro e he
    obtain ⟨n, -, heq⟩ := herror e he
    rw [heq]
    exact hlate
  cases houtcome with
  | noEmail | noNickname | unstorable | lost => exact hraised _ rfl
  | @linked user _ hlinked =>
    cases hresumed : resumed now user b.db with
    | ok r =>
      rw [hok _ (by rw [hresumed]; rfl)]
      exact resumed_keeps h (mem_of_linked hlinked) hlate hpassed hresumed
    | error e => exact hraised e (by rw [hresumed]; rfl)
  | created =>
    rw [hok _ rfl]
    exact List.mem_append_left _ hlate
  | @relinked columns u user m _ _ _ _ _ hbyEmail =>
    cases hresumed : resumed now user b.db with
    | ok r =>
      rw [hok _ (by rw [hresumed]; rfl)]
      exact resumed_keeps h (List.mem_of_find?_eq_some hbyEmail) hlate hpassed hresumed
    | error e => exact hraised e (by rw [hresumed]; rfl)

/-- An account whose window has passed cannot log in. -/
theorem resumed_late (h : AccountsOk c b) {now : Instant} {user : User} (huser : user ∈ b.db.users)
    (hpassed : user.WindowPassed now) : resumed now user b.db = .error alreadyWithdrawnError := by
  have hactive := hpassed.1
  have hnot : ¬ user.recoverable now = true := by
    rw [recoverable_iff_not_expired hactive ((h.status user huser).mp hactive), (windowPassed_iff _ _).mp hpassed]
    exact fun h => nomatch h
  rw [resumed, if_neg (by rw [hactive]; exact fun h => nomatch h), if_neg hnot]

/-- The profile finds an account that the Kakao id is not linked to by its e-mail. -/
theorem LoginFinds.unlinked {draw : Nat → Fin 90000} {data : KakaoAccount} {user : User}
    (h : LoginFinds c draw data b.db user) (hnone : b.db.linked (toString data.id) = none) :
    (∃ i < maxNicknameRetries, b.db.NicknameFree (travelerName (draw i))) ∧
      (∃ columns, userColumns c (getUserInfo data) (data.email.getD "") = .ok columns) ∧
      b.db.userByEmail? (data.email.getD "") = some user := by
  rcases h.2 with hlinked | ⟨-, hfound⟩
  · rw [hnone] at hlinked
    cases hlinked
  · exact hfound

theorem login_late (h : AccountsOk c b) {now : Instant} {draw : Nat → Fin 90000} {data : KakaoAccount} {user : User}
    (hpassed : user.WindowPassed now) (hfinds : LoginFinds c draw data b.db user) :
    (serveLogin c now draw data b).1 = .error alreadyWithdrawnError ∧
      (serveLogin c now draw data b).2.db = b.db := by
  obtain ⟨x, houtcome, -, herror⟩ := serveLogin_outcome h now draw data
  have hraised : x = .error alreadyWithdrawnError → (serveLogin c now draw data b).1 = .error alreadyWithdrawnError ∧
      (serveLogin c now draw data b).2.db = b.db := by
    intro hx
    obtain ⟨n, -, heq⟩ := herror _ hx
    rw [heq]
    exact ⟨rfl, rfl⟩
  have hstored : ∀ {columns : UserColumns}, b.db.userByEmail? (data.email.getD "") = some user →
      userColumns c (getUserInfo data) (data.email.getD "") = .ok columns → user.email = columns.email := by
    intro columns hbyEmail hcolumns
    have hsame := userByEmail?_email hbyEmail
    have hown := h.stored user (List.mem_of_find?_eq_some hbyEmail)
    rw [hsame, stored_userColumns hcolumns] at hown
    rw [hsame]
    exact (String.toList_injective (Option.some.inj hown)).symm
  cases houtcome with
  | noEmail hno => exact absurd hno hfinds.1
  | @linked other _ hlinked =>
    have hother : other = user := by
      rcases hfinds.2 with hfound | ⟨hnone, -⟩
      · exact Option.some.inj (hlinked.symm.trans hfound)
      · rw [hnone] at hlinked
        cases hlinked
    apply hraised
    rw [hother, resumed_late h (hother ▸ mem_of_linked hlinked) hpassed]
    rfl
  | noNickname _ hnone hnames =>
    obtain ⟨⟨i, hi, hfree⟩, -⟩ := hfinds.unlinked hnone
    exact absurd hfree (hnames i hi)
  | unstorable _ hnone hrefused =>
    obtain ⟨-, ⟨columns, hcolumns⟩, -⟩ := hfinds.unlinked hnone
    rw [hrefused] at hcolumns
    cases hcolumns
  | created _ hnone _ hcolumns hnew =>
    obtain ⟨-, -, hbyEmail⟩ := hfinds.unlinked hnone
    exact absurd (hstored hbyEmail hcolumns) (hnew user (List.mem_of_find?_eq_some hbyEmail))
  | lost _ hnone _ _ _ hlost =>
    obtain ⟨-, -, hbyEmail⟩ := hfinds.unlinked hnone
    rw [hlost] at hbyEmail
    cases hbyEmail
  | @relinked columns u other m _ hnone _ _ _ hother =>
    obtain ⟨-, -, hbyEmail⟩ := hfinds.unlinked hnone
    have hsame : other = user := Option.some.inj (hother.symm.trans hbyEmail)
    apply hraised
    rw [hsame, resumed_late h (List.mem_of_find?_eq_some hbyEmail) hpassed]
    rfl

/-- A login without an e-mail ends before the account is looked up. -/
theorem login_noEmail (h : AccountsOk c b) (now : Instant) (draw : Nat → Fin 90000) {data : KakaoAccount}
    (hno : data.email.getD "" = "") : (serveLogin c now draw data b).1 = .error emailNotProvidedError ∧
      (serveLogin c now draw data b).2.db = b.db := by
  obtain ⟨x, houtcome, -, herror⟩ := serveLogin_outcome h now draw data
  cases houtcome with
  | noEmail =>
    obtain ⟨n, -, heq⟩ := herror _ rfl
    rw [heq]
    exact ⟨rfl, rfl⟩
  | linked hemail | noNickname hemail | unstorable hemail | created hemail | lost hemail | relinked hemail =>
    exact absurd hno hemail

/-- The owner of the link gets the account back. -/
theorem recoverableByLogin_of_recoverable (h : AccountsOk c b) {now : Instant} {user : User}
    (huser : user ∈ b.db.users) (hactive : user.isActive = false) (hrecoverable : user.recoverable now = true) :
    RecoverableByLogin c now b user := by
  obtain ⟨id, hlink⟩ := h.linked user huser
  have hlinked := h.linked_of_mem huser hlink
  have hresumed : resumed now user b.db = .ok (user.recovered, b.db.recover user.id) := by
    rw [resumed, if_neg (by rw [hactive]; exact fun h => nomatch h), if_pos hrecoverable]
  refine ⟨fun _ => 0, {id := id, email := some "a@a"}, false, ?_⟩
  obtain ⟨x, houtcome, hok, -⟩ := serveLogin_outcome h now (fun _ => 0) {id := id, email := some "a@a"}
  cases houtcome with
  | @linked other _ hother =>
    have hsame : other = user := Option.some.inj (hother.symm.trans hlinked)
    rw [hok _ (by rw [hsame, hresumed]; rfl)]
    exact ⟨rfl, List.mem_map.mpr ⟨user, huser, if_pos rfl⟩⟩
  | noEmail hno => exact absurd (show "a@a" = "" from hno) (by decide)
  | noNickname _ hnone | unstorable _ hnone | created _ hnone | lost _ hnone | relinked _ hnone =>
    rw [hlinked] at hnone
    cases hnone

theorem recoverableByLogin_iff (h : AccountsOk c b) (now : Instant) {user : User} (huser : user ∈ b.db.users)
    (hactive : user.isActive = false) : RecoverableByLogin c now b user ↔ user.recoverable now = true := by
  refine ⟨fun hrecovered => ?_, recoverableByLogin_of_recoverable h huser hactive⟩
  have hdeleted := (h.status user huser).mp hactive
  obtain ⟨draw, data, new, -, hmem⟩ := hrecovered
  by_contra hnot
  rw [recoverable_iff_not_expired hactive hdeleted, Bool.not_eq_false, ← windowPassed_iff] at hnot
  have hkept := login_keeps_late h huser hnot draw data
  have hsame : user = user.recovered :=
    List.inj_on_of_nodup_map (accountsOk_login h now draw data).ids hkept hmem rfl
  rw [hsame] at hactive
  cases hactive

/-! ### The life of an account -/

/-- What holds in every state of a history. -/
structure Lifecycle (c : LowerCase) (b : Base (Db V)) : Prop where
  status : ∀ user ∈ b.db.users, user.isActive = false ↔ user.deletedAt.isSome = true
  /-- Never both, and never neither. -/
  window : ∀ user ∈ b.db.users, user.isActive = false → ∀ now,
    (RecoverableByLogin c now b user ↔ ¬ DeletableByPurge now b user)
  purge : ∀ now user, user ∈ (servePurge now b).db.users ↔ user ∈ b.db.users ∧ ¬ user.WindowPassed now
  late : ∀ now draw data user, user.WindowPassed now → LoginFinds c draw data b.db user →
    (serveLogin c now draw data b).1 = .error alreadyWithdrawnError ∧ (serveLogin c now draw data b).2.db = b.db
  noEmail : ∀ now draw data, data.email.getD "" = "" →
    (serveLogin c now draw data b).1 = .error emailNotProvidedError ∧ (serveLogin c now draw data b).2.db = b.db
  never : ∀ now draw data user, user ∈ b.db.users → user.WindowPassed now →
    user ∈ (serveLogin c now draw data b).2.db.users

theorem AccountsOk.lifecycle (h : AccountsOk c b) : Lifecycle c b where
  status := h.status
  window user huser hactive now := by
    rw [recoverableByLogin_iff h now huser hactive,
      recoverable_iff_not_expired hactive ((h.status user huser).mp hactive), DeletableByPurge, Classical.not_not,
      servePurge_users h, List.mem_filter, Bool.not_eq_true']
    exact (and_iff_right huser).symm
  purge now user := by
    rw [servePurge_users h, List.mem_filter, windowPassed_iff, Bool.not_eq_true', Bool.not_eq_true]
  late _ _ _ _ hpassed hfinds := login_late h hpassed hfinds
  noEmail now draw _ hno := login_noEmail h now draw hno
  never _ draw data _ hmem hpassed := login_keeps_late h hmem hpassed draw data

/-- **The life of an account**, in every state of every history from the empty store. -/
theorem account_lifecycle (c : LowerCase) (requests : List AccountRequest) :
    ∀ b ∈ states (serveAccount c) (⟨{}, 0⟩ : Base (Db V)) requests, Lifecycle c b := fun b hb =>
  (Lib.History.states_invariant accountsOk_serve (accountsOk_start c) requests b hb).lifecycle

end

/-! ### One account -/

def kim : KakaoAccount := {id := 1, email := some "kim@example.com"}

def signUpThenWithdraw : List AccountRequest := [⟨0, .login (fun _ => 0) kim⟩, ⟨5, .withdraw 0 "기타"⟩]

theorem account_lifecycle_withdrawn :
    Lifecycle Lib.Email.asciiLower (signUpThenWithdraw.foldl (serveAccount Lib.Email.asciiLower) (⟨{}, 0⟩ : Base (Db Unit))) :=
  account_lifecycle Lib.Email.asciiLower signUpThenWithdraw _ (Lib.History.foldl_mem_states _ _)

/-- The linked Kakao id logs in after the window, without an e-mail. -/
theorem late_login_without_email : ∃ b ∈ states (serveAccount Lib.Email.asciiLower) (⟨{}, 0⟩ : Base (Db Unit)) signUpThenWithdraw,
    ∃ user ∈ b.db.users, user.WindowPassed (timedeltaDays 15) ∧ b.db.linked (toString kim.id) = some user ∧
      (serveLogin Lib.Email.asciiLower (timedeltaDays 15) (fun _ => 0) {kim with email := none} b).1 ≠
        .error alreadyWithdrawnError := by
  refine ⟨_, Lib.History.foldl_mem_states _ _, _, List.mem_cons_self, ⟨rfl, 5, rfl, by decide⟩, by decide +kernel, fun h => ?_⟩
  have hraises : (serveLogin Lib.Email.asciiLower (timedeltaDays 15) (fun _ => 0) {kim with email := none}
      (signUpThenWithdraw.foldl (serveAccount Lib.Email.asciiLower) (⟨{}, 0⟩ : Base (Db Unit)))).1 =
        .error emailNotProvidedError := rfl
  rw [hraises] at h
  exact absurd (Except.error.inj h) (by decide)

end TravelMaker
