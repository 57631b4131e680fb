import TravelMaker.User.Lifecycle

/-! When a Kakao login resolves.

An account is found under the stored spelling of an e-mail, with its domain in lower
case, while the branch of an `IntegrityError` looks it up as Kakao spells it; and a
birthday that is no date is refused by no `except`. `login_resolves_iff` is the exact
condition. -/
namespace TravelMaker
open Lib (Txn)
open Lib.Txn (Base)
open Lib.History (states)
open Lib.Email (LowerCase stored? varchar? normalizeEmail)

variable {V : Type}

/-- The account that a login should go to: the owner of the link, otherwise the account with
the normalised e-mail, otherwise a new one. -/
structure LoginTarget (c : LowerCase) (data : KakaoAccount) (d : Db V) (user : User) : Prop where
  linked : ∀ u, d.linked (toString data.id) = some u → user.id = u.id
  sameEmail : d.linked (toString data.id) = none →
    ∀ u ∈ d.users, u.email.toList = normalizeEmail c (data.email.getD "").toList → user.id = u.id
  new : d.linked (toString data.id) = none →
    (∀ u ∈ d.users, u.email.toList ≠ normalizeEmail c (data.email.getD "").toList) → ∀ u ∈ d.users, user.id ≠ u.id

/-- The login returns an active account that the Kakao id then points to, the right one, or
raises an `AuthBaseException` and changes nothing. -/
def LoginResolved (c : LowerCase) (now : Instant) (draw : Nat → Fin 90000) (data : KakaoAccount) (b : Base (Db V)) :
    Prop :=
  match serveLogin c now draw data b with
  | (.ok (user, _), b') =>
    user.isActive = true ∧ b'.db.linked (toString data.id) = some user ∧ LoginTarget c data b.db user
  | (.error e, b') => e ∈ authExceptions ∧ b'.db = b.db

/-- The profile makes a row: its birthday is a date, and its texts fit their columns. -/
structure Storable (c : LowerCase) (data : KakaoAccount) : Prop where
  birthday : ∀ text, birthdayText data.birthyear data.birthday = some text → (parseDate? text).isSome = true
  email : (stored? c 255 (data.email.getD "").toList).isSome = true
  image : (varchar? 255 (data.profileImageUrl.getD "").toList).isSome = true

/-- The Kakao id is linked, or the profile makes a row and Kakao spells the e-mail as the
account that has it. -/
def Resolvable (c : LowerCase) (data : KakaoAccount) (d : Db V) : Prop :=
  (d.linked (toString data.id)).isSome = true ∨
    Storable c data ∧ ∀ u ∈ d.users, stored? c 255 (data.email.getD "").toList = some u.email.toList →
      u.email = data.email.getD ""

theorem storable_iff (c : LowerCase) (data : KakaoAccount) :
    Storable c data ↔ ∃ columns, userColumns c (getUserInfo data) (data.email.getD "") = .ok columns := by
  have hbirthday : ∀ text, (∃ date, birthdayColumn text = .ok date) ↔
      ∀ value, text = some value → (parseDate? value).isSome = true := by
    intro text
    cases text with
    | none => exact iff_of_true ⟨none, rfl⟩ fun _ h => (Option.some_ne_none _ h.symm).elim
    | some value =>
      simp only [birthdayColumn, Option.some.injEq, forall_eq']
      cases parseDate? value with
      | none =>
        refine iff_of_false ?_ Bool.false_ne_true
        rintro ⟨_, h⟩
        cases h
      | some date => exact iff_of_true ⟨some date, rfl⟩ rfl
  have htext : ∀ text, (∃ value, orDataError text = .ok value) ↔ text.isSome = true := by
    intro text
    cases text with
    | none =>
      refine iff_of_false ?_ Bool.false_ne_true
      rintro ⟨_, h⟩
      cases h
    | some value => exact iff_of_true ⟨_, rfl⟩ rfl
  constructor
  · intro h
    obtain ⟨birthday, hbirthday⟩ := (hbirthday _).mpr h.birthday
    obtain ⟨email, hemail⟩ := (htext _).mpr h.email
    obtain ⟨image, himage⟩ := (htext _).mpr h.image
    refine ⟨⟨email, image, birthday⟩, ?_⟩
    simp only [userColumns, getUserInfo, hbirthday, hemail, himage, bind, Except.bind]
    rfl
  · intro h
    obtain ⟨columns, hcolumns⟩ := h
    simp only [userColumns, getUserInfo, bind, Except.bind] at hcolumns
    split at hcolumns
    · cases hcolumns
    · rename_i birthday hfirst
      split at hcolumns
      · cases hcolumns
      · rename_i email hsecond
        split at hcolumns
        · cases hcolumns
        · rename_i image hthird
          exact ⟨(hbirthday _).mp ⟨birthday, hfirst⟩, (htext _).mp ⟨email, hsecond⟩, (htext _).mp ⟨image, hthird⟩⟩

section
variable {c : LowerCase} {b : Base (Db V)} {now : Instant} {user : User} {r : User × Db V}

/-- An account that logged in is active, and the row of its id. -/
theorem resumed_ok (h : AccountsOk c b) (huser : user ∈ b.db.users) (hresumed : resumed now user b.db = .ok r) :
    r.1.isActive = true ∧ r.1.id = user.id ∧ r.2.user? user.id = some r.1 ∧ r.2.socialUsers = b.db.socialUsers := by
  unfold resumed at hresumed
  split at hresumed
  · rename_i hactive
    cases hresumed
    exact ⟨hactive, rfl, h.user? huser, rfl⟩
  · split at hresumed
    · cases hresumed
      refine ⟨rfl, rfl, ?_, rfl⟩
      rw [Db.recover, user?_modifyUser (f := User.recovered) (fun _ => rfl), h.user? huser, Option.map_some, if_pos rfl]
    · cases hresumed

theorem resumed_error {e : Exc} {d : Db V} (hresumed : resumed now user d = .error e) : e ∈ authExceptions := by
  unfold resumed at hresumed
  split at hresumed
  · cases hresumed
  · split at hresumed
    · cases hresumed
    · cases hresumed
      decide

theorem linked_resumed (h : AccountsOk c b) {providerId : String} (hlinked : b.db.linked providerId = some user)
    (hresumed : resumed now user b.db = .ok r) : r.2.linked providerId = some r.1 := by
  obtain ⟨-, -, huser, hlinks⟩ := resumed_ok h (mem_of_linked hlinked) hresumed
  obtain ⟨link, hlink, hfound⟩ := Option.bind_eq_some_iff.mp hlinked
  rw [Db.linked, Db.socialUser?, hlinks]
  refine Option.bind_eq_some_iff.mpr ⟨link, hlink, ?_⟩
  rw [← user?_id hfound]
  exact huser

/-- The new link of a Kakao id that had none. -/
theorem linked_insertSocialUser {d : Db V} {providerId : String} (hfree : d.socialUser? .kakao providerId = none)
    (userId : Int) :
    (d.insertSocialUser ⟨userId, .kakao, providerId⟩).linked providerId = d.user? userId := by
  have hfound : (d.insertSocialUser ⟨userId, .kakao, providerId⟩).socialUser? .kakao providerId =
      some ⟨userId, .kakao, providerId⟩ := by
    unfold Db.socialUser? at hfree ⊢
    rw [Db.insertSocialUser, List.find?_append, hfree, Option.none_or]
    exact List.find?_cons_of_pos (by rw [beq_self_eq_true, beq_self_eq_true]; rfl)
  rw [Db.linked, hfound]
  rfl

theorem not_authException_of_columns {info : KakaoUserInfo} {email : String} {e : Exc}
    (h : userColumns c info email = .error e) : e ∉ authExceptions := by
  rcases userColumns_error h with rfl | rfl <;> decide

/-- The stored spelling of an e-mail that an account has. -/
theorem AccountsOk.email_eq (h : AccountsOk c b) {u : User} (hu : u ∈ b.db.users) {email : String}
    (hstored : stored? c 255 email.toList = some u.email.toList) {v : User} (hv : v ∈ b.db.users)
    (hemail : v.email = email) : u = v := by
  have hown := h.stored v hv
  rw [hemail, hstored] at hown
  apply List.inj_on_of_nodup_map h.emails hu hv
  rw [hemail]
  exact String.toList_injective (Option.some.inj hown)

/-- An account with the normalised e-mail has its stored spelling. -/
theorem AccountsOk.stored_of_normalized (h : AccountsOk c b) {u : User} (hu : u ∈ b.db.users) {email : String}
    (hsame : u.email.toList = normalizeEmail c email.toList) : stored? c 255 email.toList = some u.email.toList := by
  have hown := h.stored u hu
  rw [stored?, ← hsame]
  rwa [stored?, Lib.Email.normalizeEmail_of_stored hown] at hown

/-! ### The account that a login goes to -/

section
variable {data : KakaoAccount} {found : User}

theorem loginTarget_linked (hlinked : b.db.linked (toString data.id) = some user) (hid : found.id = user.id) :
    LoginTarget c data b.db found := by
  refine ⟨fun u hu => ?_, fun hnone => ?_, fun hnone => ?_⟩
  · rw [hid, Option.some.inj (hu.symm.trans hlinked)]
  · rw [hlinked] at hnone
    cases hnone
  · rw [hlinked] at hnone
    cases hnone

theorem loginTarget_sameEmail (h : AccountsOk c b) (hnone : b.db.linked (toString data.id) = none)
    (huser : user ∈ b.db.users) (hspelling : user.email = data.email.getD "") (hid : found.id = user.id) :
    LoginTarget c data b.db found := by
  refine ⟨fun u hu => ?_, fun _ u hu hsame => ?_, fun _ hall => ?_⟩
  · rw [hnone] at hu
    cases hu
  · rw [hid, h.email_eq hu (h.stored_of_normalized hu hsame) huser hspelling]
  · refine absurd ?_ (hall user huser)
    rw [← hspelling, Lib.Email.normalizeEmail_of_stored (h.stored user huser)]

theorem loginTarget_new (h : AccountsOk c b) (hnone : b.db.linked (toString data.id) = none)
    (hother : ∀ u ∈ b.db.users, stored? c 255 (data.email.getD "").toList ≠ some u.email.toList)
    (hid : found.id = b.seq) : LoginTarget c data b.db found := by
  refine ⟨fun u hu => ?_, fun _ u hu hsame => ?_, fun _ _ u hu => ?_⟩
  · rw [hnone] at hu
    cases hu
  · exact absurd (h.stored_of_normalized hu hsame) (hother u hu)
  · have hlt := h.fresh u hu
    rw [hid]
    exact (Int.ne_of_lt hlt).symm

end

/-! ### The condition -/

theorem resolvable_of_none {data : KakaoAccount} (hnone : b.db.linked (toString data.id) = none) :
    Resolvable c data b.db ↔ Storable c data ∧ ∀ u ∈ b.db.users,
      stored? c 255 (data.email.getD "").toList = some u.email.toList → u.email = data.email.getD "" := by
  apply or_iff_right
  rw [hnone]
  exact Bool.false_ne_true

/-- What `LoginResolved` asks of an outcome. -/
structure Resolved (c : LowerCase) (data : KakaoAccount) (b : Base (Db V)) (x : Except Exc ((User × Bool) × Db V × Nat)) :
    Prop where
  ok : ∀ r, x = .ok r → r.1.1.isActive = true ∧ r.2.1.linked (toString data.id) = some r.1.1 ∧ LoginTarget c data b.db r.1.1
  error : ∀ e, x = .error e → e ∈ authExceptions

section
variable {data : KakaoAccount}

/-- An account that is there resolves or raises. -/
theorem resolved_resumed {f : User × Db V → (User × Bool) × Db V × Nat} (hf : ∀ r, resumed now user b.db = .ok r →
    (f r).1.1.isActive = true ∧ (f r).2.1.linked (toString data.id) = some (f r).1.1 ∧ LoginTarget c data b.db (f r).1.1) :
    Resolved c data b ((resumed now user b.db).map f) := by
  cases hresumed : resumed now user b.db with
  | error e =>
    refine ⟨fun _ h => (nomatch h), fun e' h => ?_⟩
    rw [← Except.error.inj h]
    exact resumed_error hresumed
  | ok r =>
    refine ⟨fun r' h => ?_, fun _ h => (nomatch h)⟩
    rw [← Except.ok.inj h]
    exact hf r hresumed

theorem resolved_linked (h : AccountsOk c b) (hlinked : b.db.linked (toString data.id) = some user) (n : Nat) :
    Resolved c data b ((resumed now user b.db).map fun r => ((r.1, false), r.2, n)) := by
  apply resolved_resumed
  intro r hresumed
  obtain ⟨hactive, hid, -⟩ := resumed_ok h (mem_of_linked hlinked) hresumed
  exact ⟨hactive, linked_resumed h hlinked hresumed, loginTarget_linked hlinked hid⟩

/-- The account of the e-mail gets another link. -/
theorem resolved_relinked (h : AccountsOk c b) (hnone : b.db.linked (toString data.id) = none) (huser : user ∈ b.db.users)
    (hspelling : user.email = data.email.getD "") (m : Nat) :
    Resolved c data b ((resumed now user b.db).map fun r =>
      ((r.1, false), r.2.insertSocialUser ⟨user.id, .kakao, toString data.id⟩, m)) := by
  apply resolved_resumed
  intro r hresumed
  obtain ⟨hactive, hid, hrow, hlinks⟩ := resumed_ok h huser hresumed
  have hfree : r.2.socialUser? .kakao (toString data.id) = none := by
    rw [Db.socialUser?, hlinks]
    exact (linked_none_iff h.owner _).mp hnone
  exact ⟨hactive, (linked_insertSocialUser hfree user.id).trans hrow, loginTarget_sameEmail h hnone huser hspelling hid⟩

/-- The row of a new account, once the tables with it are in order. -/
theorem resolved_created (h : AccountsOk c b) (hnone : b.db.linked (toString data.id) = none)
    (hother : ∀ u ∈ b.db.users, stored? c 255 (data.email.getD "").toList ≠ some u.email.toList) {row : User}
    (hactive : row.isActive = true) (hid : row.id = b.seq)
    (hafter : AccountsOk c ⟨(b.db.insertUser row).insertSocialUser ⟨b.seq, .kakao, toString data.id⟩, b.seq + 1⟩) :
    Resolved c data b (.ok ((row, true), (b.db.insertUser row).insertSocialUser ⟨b.seq, .kakao, toString data.id⟩,
      b.seq + 1)) := by
  have hlink := (linked_none_iff h.owner _).mp hnone
  have hmem : row ∈ (b.db.insertUser row).users := List.mem_append_right _ List.mem_cons_self
  have hrow : (b.db.insertUser row).user? b.seq = some row := by
    rw [← hid]
    exact hafter.user? hmem
  refine ⟨fun r hr => ?_, fun _ h => (nomatch h)⟩
  rw [← Except.ok.inj hr]
  exact ⟨hactive, (linked_insertSocialUser (d := b.db.insertUser _) hlink b.seq).trans hrow,
    loginTarget_new h hnone hother hid⟩

theorem not_resolved {e : Exc} (h : e ∉ authExceptions) : ¬ Resolved c data b (.error e) := fun hresolved =>
  h (hresolved.error e rfl)

theorem loginResolved_iff_resolved {draw : Nat → Fin 90000} {x : Except Exc ((User × Bool) × Db V × Nat)}
    (hok : ∀ r, x = .ok r → serveLogin c now draw data b = (.ok r.1, ⟨r.2.1, r.2.2⟩))
    (herror : ∀ e, x = .error e → ∃ n, b.seq ≤ n ∧ serveLogin c now draw data b = (.error e, ⟨b.db, n⟩)) :
    LoginResolved c now draw data b ↔ Resolved c data b x := by
  unfold LoginResolved
  cases x with
  | ok r =>
    rw [hok r rfl]
    constructor
    · exact fun h => ⟨fun r' hr => Except.ok.inj hr ▸ h, fun _ he => nomatch he⟩
    · exact fun h => h.ok r rfl
  | error e =>
    obtain ⟨n, -, heq⟩ := herror e rfl
    rw [heq]
    constructor
    · exact fun h => ⟨fun _ hr => (nomatch hr), fun e' he => Except.error.inj he ▸ h.1⟩
    · exact fun h => ⟨h.error e rfl, rfl⟩

end

/-- **When a login resolves**, on the tables that requests leave. -/
theorem loginResolved_iff (h : AccountsOk c b) {draw : Nat → Fin 90000} {data : KakaoAccount}
    (hemail : data.email.getD "" ≠ "") (hnames : ∃ i < maxNicknameRetries, b.db.NicknameFree (travelerName (draw i))) :
    LoginResolved c now draw data b ↔ Resolvable c data b.db := by
  obtain ⟨x, houtcome, hok, herror⟩ := serveLogin_outcome h now draw data
  rw [loginResolved_iff_resolved hok herror]
  cases houtcome with
  | noEmail hno => exact absurd hno hemail
  | linked _ hlinked => exact iff_of_true (resolved_linked h hlinked b.seq) (.inl (by rw [hlinked]; rfl))
  | noNickname _ _ htaken =>
    obtain ⟨i, hi, hfree⟩ := hnames
    exact absurd hfree (htaken i hi)
  | @unstorable e _ hnone hcolumns =>
    rw [resolvable_of_none hnone]
    refine iff_of_false (not_resolved (not_authException_of_columns hcolumns)) fun hresolvable => ?_
    obtain ⟨columns, hcolumns'⟩ := (storable_iff c data).mp hresolvable.1
    rw [hcolumns] at hcolumns'
    cases hcolumns'
  | @created columns nickname _ hnone hfree hcolumns hnew =>
    have hother : ∀ u ∈ b.db.users, stored? c 255 (data.email.getD "").toList ≠ some u.email.toList := by
      intro u hu hsame
      rw [stored_userColumns hcolumns] at hsame
      exact hnew u hu (String.toList_injective (Option.some.inj hsame)).symm
    have hafter := accountsOk_login h now draw data
    rw [hok _ rfl] at hafter
    rw [resolvable_of_none hnone]
    exact iff_of_true (resolved_created h hnone hother rfl rfl hafter)
      ⟨(storable_iff c data).mpr ⟨columns, hcolumns⟩, fun u hu hsame => absurd hsame (hother u hu)⟩
  | @lost columns u _ hnone hcolumns hu hsame hlost =>
    rw [resolvable_of_none hnone]
    refine iff_of_false (not_resolved (by decide)) fun hresolvable => ?_
    have hstored := stored_userColumns hcolumns
    rw [← hsame] at hstored
    exact List.find?_eq_none.mp hlost u hu (beq_iff_eq.mpr (hresolvable.2 u hu hstored))
  | @relinked columns u user m _ hnone hcolumns _ _ hbyEmail _ =>
    have huser : user ∈ b.db.users := List.mem_of_find?_eq_some hbyEmail
    have hspelling := userByEmail?_email hbyEmail
    rw [resolvable_of_none hnone]
    refine iff_of_true (resolved_relinked h hnone huser hspelling m) ⟨(storable_iff c data).mpr ⟨columns, hcolumns⟩, ?_⟩
    intro v hv hstored
    rw [h.email_eq hv hstored huser hspelling, hspelling]

/-- **When a Kakao login resolves**, on every store that a history reaches: the Kakao id is
linked, or its profile makes a row and spells the e-mail as the account that has it. -/
theorem login_resolves_iff (c : LowerCase) (requests : List AccountRequest)
    (hb : b ∈ states (serveAccount c) ⟨{}, 0⟩ requests) (now : Instant) (draw : Nat → Fin 90000) (data : KakaoAccount)
    (hemail : data.email.getD "" ≠ "") (hnames : ∃ i < maxNicknameRetries, b.db.NicknameFree (travelerName (draw i))) :
    LoginResolved c now draw data b ↔ Resolvable c data b.db :=
  loginResolved_iff (Lib.History.states_invariant accountsOk_serve (accountsOk_start c) requests b hb) hemail hnames

end

/-! ### One account, two spellings -/

/-- The account of `kim`, from another Kakao application. -/
def kimAgain : KakaoAccount := {id := 2, email := some "kim@EXAMPLE.com"}

def kimSignedUp : Base (Db Unit) := (signUpThenWithdraw.take 1).foldl (serveAccount Lib.Email.asciiLower) ⟨{}, 0⟩

theorem upper_case_domain_escapes :
    kimSignedUp ∈ states (serveAccount Lib.Email.asciiLower) ⟨{}, 0⟩ [⟨0, .login (fun _ => 0) kim⟩] ∧
      kimAgain.email.getD "" ≠ "" ∧ kimSignedUp.db.NicknameFree (travelerName 1) ∧
      ¬ LoginResolved Lib.Email.asciiLower 0 (fun _ => 1) kimAgain kimSignedUp := by
  refine ⟨List.mem_cons_of_mem _ (List.mem_singleton_self _), by decide, by decide +kernel, fun h => ?_⟩
  have hraises : (serveLogin Lib.Email.asciiLower 0 (fun _ => 1) kimAgain kimSignedUp).1 = .error userDoesNotExist := rfl
  unfold LoginResolved at h
  split at h
  · rename_i heq
    rw [heq] at hraises
    cases hraises
  · rename_i heq
    rw [heq] at hraises
    cases hraises
    exact absurd h.1 (by decide)

theorem login_resolves_iff_kimAgain :
    LoginResolved Lib.Email.asciiLower 0 (fun _ => 1) kimAgain kimSignedUp ↔
      Resolvable Lib.Email.asciiLower kimAgain kimSignedUp.db :=
  login_resolves_iff Lib.Email.asciiLower [⟨0, .login (fun _ => 0) kim⟩]
    (List.mem_cons_of_mem _ (List.mem_singleton_self _)) 0 (fun _ => 1) kimAgain (by decide) ⟨0, by decide, by decide +kernel⟩

end TravelMaker
