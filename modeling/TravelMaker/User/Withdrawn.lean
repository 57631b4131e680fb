import TravelMaker.Lib.History
import TravelMaker.User.Session

/-! Sessions of withdrawn accounts.

A withdrawal uses up the tokens of its own device. `TokenRefreshView` looks at the token
and not at the account, so another device of a withdrawn account that still holds a token
renews its session: `renewals_active_iff`. -/
namespace TravelMaker
open Lib (Txn)
open Lib.History (Along)

variable {V : Type}

namespace Sessions

/-- Nobody has logged in yet. -/
def start (db : Db V) : Sessions V := {db := db}

/-- The account of a pair that a refresh is answered with is active. -/
def RenewsActive (lifetimes : JwtLifetimes) (s : Sessions V) (r : SessionRequest) : Prop :=
  ∀ device pair, r.call = .refresh device → (s.serve lifetimes r).1 = some pair →
    ∃ user, (s.step lifetimes r).db.user? pair.refresh.userId = some user ∧ user.isActive = true

/-- A device that asks for a new pair, and whose token has not expired, is one of an active account. -/
def ActiveHolder (s : Sessions V) (r : SessionRequest) : Prop :=
  match r.call with
  | .refresh device => ∀ pair user, s.devices device = some pair → pair.refresh.valid r.now = true →
      s.db.user? pair.refresh.userId = some user → user.isActive = true
  | _ => True

/-- No token that a device holds is used up. -/
structure Tidy (s : Sessions V) : Prop where
  issued : ∀ device pair, s.devices device = some pair → pair.access.jti < s.nextJti ∧ pair.refresh.jti < s.nextJti
  cached : ∀ entry ∈ s.cache, entry.1 < s.nextJti
  live : ∀ device pair, s.devices device = some pair → ∀ entry ∈ s.cache, entry.1 ≠ pair.refresh.jti
  apart : ∀ device other pair pair', device ≠ other → s.devices device = some pair → s.devices other = some pair' →
    pair.access.jti ≠ pair'.refresh.jti ∧ pair.refresh.jti ≠ pair'.refresh.jti
  known : ∀ device pair, s.devices device = some pair → (s.db.user? pair.refresh.userId).isSome = true

theorem tidy_start (db : Db V) : (start db).Tidy where
  issued _ _ h := nomatch h
  cached _ h := nomatch h
  live _ _ h := nomatch h
  apart _ _ _ _ _ h := nomatch h
  known _ _ h := nomatch h

/-! ### What a request changes -/

/-- The device has no token any more, or a new one, and only tokens it held are used up. -/
structure Changes (device : Nat) (s s' : Sessions V) : Prop where
  users : ∀ id, (s.db.user? id).isSome = true → (s'.db.user? id).isSome = true
  others : ∀ other, other ≠ device → s'.devices other = s.devices other
  cache : ∀ entry ∈ s'.cache, entry ∈ s.cache ∨
    ∃ pair, s.devices device = some pair ∧ (entry.1 = pair.access.jti ∨ entry.1 = pair.refresh.jti)
  device : s'.devices device = none ∧ s'.nextJti = s.nextJti ∨
    ∃ pair, s'.devices device = some pair ∧ pair.refresh.jti = s.nextJti ∧ pair.access.jti = s.nextJti + 1 ∧
      (s'.db.user? pair.refresh.userId).isSome = true ∧ s'.nextJti = s.nextJti + 2

theorem Changes.next_le {device : Nat} {s s' : Sessions V} (h : Changes device s s') : s.nextJti ≤ s'.nextJti := by
  rcases h.device with ⟨-, hnext⟩ | ⟨_, -, -, -, -, hnext⟩ <;> omega

theorem Tidy.changes {device : Nat} {s s' : Sessions V} (hs : s.Tidy) (h : Changes device s s') : s'.Tidy := by
  have hnext := h.next_le
  have hold : ∀ entry ∈ s'.cache, entry.1 < s.nextJti := by
    intro entry hentry
    rcases h.cache entry hentry with hentry | ⟨pair, hpair, hjti | hjti⟩
    · exact hs.cached entry hentry
    · exact hjti ▸ (hs.issued device pair hpair).1
    · exact hjti ▸ (hs.issued device pair hpair).2
  -- what another device holds it held before
  have hother : ∀ other pair, other ≠ device → s'.devices other = some pair → s.devices other = some pair :=
    fun other pair hne hpair => (h.others other hne).symm.trans hpair
  have hnew : ∀ pair, s'.devices device = some pair → pair.refresh.jti = s.nextJti ∧ pair.access.jti = s.nextJti + 1 ∧
      (s'.db.user? pair.refresh.userId).isSome = true ∧ s'.nextJti = s.nextJti + 2 := by
    intro pair hpair
    rcases h.device with ⟨hnone, -⟩ | ⟨pair', hpair', hall⟩
    · rw [hnone] at hpair
      cases hpair
    · rw [hpair'] at hpair
      cases hpair
      exact hall
  constructor
  · intro other pair hpair
    by_cases hne : other = device
    · obtain ⟨hrefresh, haccess, -, hlast⟩ := hnew pair (hne ▸ hpair)
      omega
    · have hissued := hs.issued other pair (hother other pair hne hpair)
      omega
  · intro entry hentry
    exact lt_of_lt_of_le (hold entry hentry) hnext
  · intro other pair hpair entry hentry
    by_cases hne : other = device
    · obtain ⟨hrefresh, -⟩ := hnew pair (hne ▸ hpair)
      have hlt := hold entry hentry
      omega
    · have hpair := hother other pair hne hpair
      rcases h.cache entry hentry with hentry | ⟨mine, hmine, hjti | hjti⟩
      · exact hs.live other pair hpair entry hentry
      · exact hjti ▸ (hs.apart device other mine pair (Ne.symm hne) hmine hpair).1
      · exact hjti ▸ (hs.apart device other mine pair (Ne.symm hne) hmine hpair).2
  · intro one other pair pair' hne hpair hpair'
    by_cases hone : one = device
    · obtain ⟨hrefresh, haccess, -⟩ := hnew pair (hone ▸ hpair)
      have hissued := hs.issued other pair' (hother other pair' (hone ▸ Ne.symm hne) hpair')
      omega
    · have hpair := hother one pair hone hpair
      by_cases hdevice : other = device
      · obtain ⟨hrefresh, -⟩ := hnew pair' (hdevice ▸ hpair')
        have hissued := hs.issued one pair hpair
        omega
      · exact hs.apart one other pair pair' hne hpair (hother other pair' hdevice hpair')
  · intro other pair hpair
    by_cases hne : other = device
    · exact (hnew pair (hne ▸ hpair)).2.2.1
    · exact h.users _ (hs.known other pair (hother other pair hne hpair))

/-! ### The requests -/

theorem mem_blacklistJti {now : Instant} {jti : Nat} {exp : Int} {cache : Blacklist} {entry : Nat × Instant}
    (h : entry ∈ blacklistJti now jti exp cache) : entry.1 = jti ∨ entry ∈ cache := by
  unfold blacklistJti at h
  dsimp only at h
  split at h
  · rcases List.mem_cons.mp h with rfl | h
    · exact .inl rfl
    · exact .inr (List.mem_filter.mp h).1
  · exact .inr h

theorem mem_blacklistToken {now : Instant} {token : Token} {cache : Blacklist} {entry : Nat × Instant}
    (h : entry ∈ blacklistToken now token cache) : entry.1 = token.jti ∨ entry ∈ cache := by
  unfold blacklistToken at h
  split at h
  · exact mem_blacklistJti h
  · exact .inr h

theorem mem_setCache {r : SessionRequest} {f : Blacklist → Blacklist} {s : Sessions V} {entry : Nat × Instant}
    (h : entry ∈ (s.setCache r f).cache) : entry ∈ f s.cache ∨ entry ∈ s.cache := by
  unfold setCache at h
  split at h
  · exact .inl h
  · exact .inr h

theorem setCache_db (r : SessionRequest) (f : Blacklist → Blacklist) (s : Sessions V) : (s.setCache r f).db = s.db := by
  unfold setCache
  split <;> rfl

theorem setCache_devices (r : SessionRequest) (f : Blacklist → Blacklist) (s : Sessions V) :
    (s.setCache r f).devices = s.devices := by
  unfold setCache
  split <;> rfl

theorem setCache_nextJti (r : SessionRequest) (f : Blacklist → Blacklist) (s : Sessions V) :
    (s.setCache r f).nextJti = s.nextJti := by
  unfold setCache
  split <;> rfl

section
variable {s : Sessions V} {r : SessionRequest} {device : Nat}

theorem changes_issue {db : Db V} (husers : ∀ id, (s.db.user? id).isSome = true → (db.user? id).isSome = true)
    (lifetimes : JwtLifetimes) {user : User} (huser : (db.user? user.id).isSome = true) :
    Changes device s ({s with db := db}.issue lifetimes r.now device user).2 where
  users := husers
  others _ hne := Function.update_of_ne hne _ _
  cache _ h := .inl h
  device := .inr ⟨_, Function.update_self .., rfl, rfl, huser, rfl⟩

theorem refreshToken_eq_some {token : Token} : s.refreshToken r device = some token ↔
    ∃ pair, s.devices device = some pair ∧ pair.refresh = token ∧ token.valid r.now = true ∧
      s.blacklisted r token.jti = false := by
  simp only [refreshToken, Option.filter_eq_some_iff, Option.map_eq_some_iff, Bool.and_eq_true, Bool.not_eq_true']
  constructor
  · rintro ⟨⟨pair, hpair, rfl⟩, hlive⟩
    exact ⟨pair, hpair, rfl, hlive⟩
  · rintro ⟨pair, hpair, rfl, hlive⟩
    exact ⟨⟨pair, hpair, rfl⟩, hlive⟩

theorem changes_refresh {token : Token} (htoken : s.refreshToken r device = some token) (lifetimes : JwtLifetimes)
    {user : User} (huser : (s.db.user? user.id).isSome = true) :
    Changes device s ((s.setCache r (blacklistToken r.now token)).issue lifetimes r.now device user).2 where
  users id h := by
    simp only [issue, setCache_db]
    exact h
  others other hne := by
    simp only [issue, setCache_devices]
    exact Function.update_of_ne hne _ _
  cache entry h := by
    obtain ⟨pair, hpair, rfl, -⟩ := refreshToken_eq_some.mp htoken
    rcases mem_setCache h with h | h
    · rcases mem_blacklistToken h with h | h
      · exact .inr ⟨pair, hpair, .inr h⟩
      · exact .inl h
    · exact .inl h
  device := by
    refine .inr ⟨_, Function.update_self .., ?_⟩
    simp only [issue, setCache_db, setCache_nextJti, generateTokenPair]
    exact ⟨trivial, trivial, huser, trivial⟩

theorem changes_revoke {pair : TokenPair} (hpair : s.devices device = some pair) {db : Db V}
    (husers : ∀ id, (s.db.user? id).isSome = true → (db.user? id).isSome = true) :
    Changes device s ({s with db := db}.revoke r device pair) where
  users id h := by
    simp only [revoke, hold, setCache_db]
    exact husers id h
  others other hne := by
    simp only [revoke, hold, setCache_devices]
    exact Function.update_of_ne hne _ _
  cache entry h := by
    have hentry : entry.1 = pair.access.jti ∨ entry.1 = pair.refresh.jti ∨ entry ∈ s.cache := by
      rcases mem_setCache h with h | h
      · rcases mem_blacklistToken h with h | h
        · exact .inr (.inl h)
        · rcases mem_setCache h with h | h
          · exact (mem_blacklistJti h).imp_right .inr
          · exact .inr (.inr h)
      · rcases mem_setCache h with h | h
        · exact (mem_blacklistJti h).imp_right .inr
        · exact .inr (.inr h)
    rcases hentry with h | h | h
    · exact .inr ⟨pair, hpair, .inl h⟩
    · exact .inr ⟨pair, hpair, .inr h⟩
    · exact .inl h
  device := by
    refine .inl ⟨Function.update_self .., ?_⟩
    simp only [revoke, hold, setCache_nextJti]

end

/-- A Kakao login finds the account, and may recover it. -/
theorem getUser_ok {now : Instant} {userId : Int} {d db : Db V} {n n' : Nat} {user : User}
    (h : (getUser now userId).eval d n = .ok (some user, db, n')) :
    (∀ id, (d.user? id).isSome = true → (db.user? id).isSome = true) ∧ (db.user? user.id).isSome = true := by
  simp only [getUser, Txn.read_bind, Txn.eval] at h
  cases hfound : d.user? userId with
  | none =>
    rw [hfound] at h
    cases h
  | some found =>
    have hid := user?_id hfound
    rw [hfound] at h
    dsimp only at h
    split at h
    · cases h
      exact ⟨fun _ h => h, by rw [hid, hfound]; rfl⟩
    · simp only [recoverOrRaise, Txn.orRaise_bind, Txn.put_bind] at h
      split at h
      · cases h
        refine ⟨fun id hsome => ?_, ?_⟩
        · rw [isSome_modifyUser]
          · exact hsome
          · exact fun _ => rfl
        · rw [isSome_modifyUser]
          · rw [hid, hfound]
            rfl
          · exact fun _ => rfl
      · cases h

theorem withdrawUser_ok {now : Instant} {user : User} {reason : String} {d db : Db V} {n n' : Nat}
    (h : (withdrawUser now user reason).eval d n = .ok ((), db, n')) (id : Int) (hsome : (d.user? id).isSome = true) :
    (db.user? id).isSome = true := by
  simp only [withdrawUser, Txn.orRaise_bind, Txn.put_bind] at h
  split at h
  · split at h
    · simp only [Txn.eval] at h
      unfold Txn.orRaise at h
      split at h
      · cases h
        rw [isSome_modifyUser]
        · exact hsome
        · exact fun _ => rfl
      · cases h
    · cases h
  · cases h

/-- Every request keeps the sessions tidy. -/
theorem tidy_step (lifetimes : JwtLifetimes) (s : Sessions V) (r : SessionRequest) (hs : s.Tidy) :
    (s.step lifetimes r).Tidy := by
  unfold step serve
  split
  · split
    · rename_i huser
      obtain ⟨husers, hsome⟩ := getUser_ok huser
      exact hs.changes (changes_issue husers lifetimes hsome)
    · exact hs
  · split
    · rename_i userId user huser
      have hfound := (Option.filter_eq_some_iff.mp huser).1
      refine hs.changes (changes_issue (fun _ h => h) lifetimes ?_)
      rw [user?_id hfound, hfound]
      rfl
    · exact hs
  · split
    · rename_i hpair
      dsimp only
      split
      · exact hs.changes (changes_revoke hpair fun _ h => h)
      · exact hs
    · exact hs
  · rename_i device hcall
    split
    · rename_i token htoken
      obtain ⟨pair, hpair, rfl, -⟩ := refreshToken_eq_some.mp htoken
      obtain ⟨user, huser⟩ := Option.isSome_iff_exists.mp (hs.known device pair hpair)
      dsimp only
      rw [setCache_db, huser]
      refine hs.changes (changes_refresh htoken lifetimes ?_)
      rw [user?_id huser, huser]
      rfl
    · exact hs
  · split
    · rename_i hpair
      split
      · split
        · rename_i hwithdrawn
          exact hs.changes (changes_revoke hpair (withdrawUser_ok hwithdrawn))
        · exact hs
      · exact hs
    · exact hs

/-! ### Renewals -/

section
variable {s : Sessions V} {r : SessionRequest} {device : Nat} {lifetimes : JwtLifetimes}

/-- A refresh leaves the accounts alone. -/
theorem step_refresh_db (hcall : r.call = .refresh device) : (s.step lifetimes r).db = s.db := by
  simp only [step, serve, hcall]
  split
  · rw [setCache_db]
    split
    · exact setCache_db ..
    · exact setCache_db ..
  · rfl

/-- A refresh is answered with a pair for the account of the token that it goes on with. -/
theorem serve_refresh (hcall : r.call = .refresh device) : (s.serve lifetimes r).1 =
    ((s.refreshToken r device).bind fun token => s.db.user? token.userId).map fun user =>
      generateTokenPair lifetimes r.now user s.nextJti := by
  simp only [serve, hcall]
  cases s.refreshToken r device with
  | none => rfl
  | some token =>
    dsimp only [Option.bind_some]
    rw [setCache_db]
    cases s.db.user? token.userId with
    | none => rfl
    | some user => simp [issue, setCache_nextJti]

/-- No token that a device holds is blacklisted. -/
theorem Tidy.live_token (hs : s.Tidy) {pair : TokenPair} (hpair : s.devices device = some pair) :
    s.blacklisted r pair.refresh.jti = false := by
  unfold blacklisted isJtiBlacklisted
  rw [List.any_eq_false.mpr, Bool.and_false]
  intro entry hentry hsame
  rw [Bool.and_eq_true, beq_iff_eq] at hsame
  exact hs.live device pair hpair entry hentry hsame.1

theorem renewsActive_iff (hs : s.Tidy) (r : SessionRequest) : s.RenewsActive lifetimes r ↔ s.ActiveHolder r := by
  constructor
  · intro h
    unfold ActiveHolder
    split
    · rename_i device hcall
      intro pair user hpair hvalid huser
      have htoken : s.refreshToken r device = some pair.refresh :=
        refreshToken_eq_some.mpr ⟨pair, hpair, rfl, hvalid, hs.live_token hpair⟩
      have hissued : (s.serve lifetimes r).1 = some (generateTokenPair lifetimes r.now user s.nextJti) := by
        rw [serve_refresh hcall, htoken, Option.bind_some, huser]
        rfl
      obtain ⟨owner, howner, hactive⟩ := h device _ hcall hissued
      have hsame : s.db.user? user.id = some owner := by
        rw [step_refresh_db hcall] at howner
        exact howner
      rw [user?_id huser, huser] at hsame
      rw [Option.some.inj hsame]
      exact hactive
    · trivial
  · intro h device pair hcall hissued
    rw [serve_refresh hcall, Option.map_eq_some_iff] at hissued
    obtain ⟨user, huser, rfl⟩ := hissued
    obtain ⟨token, htoken, huser⟩ := Option.bind_eq_some_iff.mp huser
    obtain ⟨held, hheld, rfl, hvalid, -⟩ := refreshToken_eq_some.mp htoken
    refine ⟨user, ?_, ?_⟩
    · rw [step_refresh_db hcall]
      show s.db.user? user.id = some user
      rw [user?_id huser]
      exact huser
    · rw [ActiveHolder, hcall] at h
      exact h held user hheld hvalid huser

end

/-- **When only active accounts renew their sessions**: no device that still holds a token
of a withdrawn account asks for a new pair before the token expires. -/
theorem renewals_active_iff (lifetimes : JwtLifetimes) (db : Db V) (history : List SessionRequest) :
    Along (step lifetimes) (RenewsActive lifetimes) (start db) history ↔
      Along (step lifetimes) ActiveHolder (start db) history :=
  Lib.History.along_congr (tidy_step lifetimes) (fun _ r hs => renewsActive_iff hs r) (tidy_start db) history

/-! ### Two devices -/

/-- One active account. -/
def oneAccount : Db Unit where
  users := [{id := 1}]

/-- Withdrawn on one device, renewed on the other. -/
def renewedElsewhere : List SessionRequest := [
  {now := 0, call := .kakaoLogin 1 1},
  {now := 0, call := .kakaoLogin 2 1},
  {now := 1000000, call := .withdraw 1 "기타"},
  {now := 2000000, call := .refresh 2}]

theorem withdrawn_account_renews : ¬ Along (step {}) (RenewsActive {}) (start oneAccount) renewedElsewhere := by
  intro h
  obtain ⟨-, -, -, hrenews, -⟩ := h
  obtain ⟨user, huser, hactive⟩ := hrenews 2 ⟨⟨5, 1, 3602⟩, ⟨4, 1, 604802⟩⟩ rfl (by decide)
  have hwithdrawn : user = {id := 1, isActive := false, deletedAt := some 1000000} :=
    (Option.some.inj (huser.symm.trans (by decide)))
  rw [hwithdrawn] at hactive
  cases hactive

end Sessions
end TravelMaker
