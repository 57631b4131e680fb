import Mathlib.Algebra.Order.Floor.Ring
import Mathlib.Data.Rat.Floor
import TravelMaker.Lib.Expiring
import TravelMaker.User.KakaoLogin

/-! Revoked tokens: logout, withdrawal and refresh, and the two places that accept a token.

Requests are served one at a time, on a clock of any ordered field with integer parts, the
reals among them. An entry of the blacklist ends by itself, `exp - int(time.time())`
seconds after it is written; `revocation_permanent` says that the token has expired by
then. -/
namespace TravelMaker
open Lib (Txn)
open Lib.Txn (Base)
open Lib.Email (LowerCase)
open Lib.Expiring (Cache Holds)

variable {V T : Type}

/-! ### Requests -/

inductive TokenType where
  | access
  | refresh
deriving DecidableEq, Repr

/-- A signed token with its `token_type`. -/
structure Jwt extends Token where
  tokenType : TokenType
deriving DecidableEq, Repr

inductive AuthCall where
  | kakaoLogin (draw : Nat → Fin 90000) (data : KakaoAccount)
  | adminLogin (userId : Int)
  | logout
  | refresh
  | withdraw (reason : String)
  /-- Any other view. -/
  | other

/-- A request, its time in seconds, and the tokens of its header and its cookie. -/
structure AuthRequest (T : Type) where
  now : T
  authorization : Option Jwt := none
  cookie : Option Jwt := none
  call : AuthCall

/-- The tables, the cache, and the tokens that were signed so far; no other text passes for one. -/
structure TokenService (V T : Type) where
  db : Base (Db V)
  cache : Cache Nat T := []
  issued : List Jwt := []
  nextJti : Nat := 0

def invalidToken : Exc := .api 401 "Token has been blacklisted"
def adminLoginFailed : Exc := .api 401 "이메일 또는 패스워드가 올바르지 않습니다."
def sessionExpiredError : Exc := .api 403 "로그인 세션이 만료되었습니다."

section
variable [Field T] [LinearOrder T] [FloorRing T]

/-- `timezone.now()`, in microseconds. -/
def instantOf (now : T) : Instant := ⌊now * 1000000⌋

namespace TokenService

/-- simplejwt reads a token: its signature, its type and its expiry. -/
def parse (tokenType : TokenType) (now : T) (s : TokenService V T) (text : Option Jwt) : Option Jwt :=
  text.filter fun token => s.issued.contains token && token.tokenType == tokenType && now < (token.exp : T)

/-- `is_jti_blacklisted`. -/
def isBlacklisted (now : T) (token : Jwt) (s : TokenService V T) : Bool := Lib.Expiring.has now token.jti s.cache

/-- `blacklist_access_token_jti`: the cache drops the entry after `exp - int(time.time())` seconds. -/
def blacklistJti (now : T) (token : Jwt) (s : TokenService V T) : TokenService V T :=
  let ttl := token.exp - ⌊now⌋
  if 0 < ttl then {s with cache := Lib.Expiring.set token.jti (now + (ttl : T)) s.cache} else s

/-- `blacklist_token`: a cookie that is no valid refresh token is left alone. -/
def blacklistCookie (now : T) (cookie : Option Jwt) (s : TokenService V T) : TokenService V T :=
  match s.parse .refresh now cookie with
  | some token => s.blacklistJti now token
  | none => s

/-- `RefreshToken.for_user`. -/
def generatePair (lifetimes : JwtLifetimes) (now : T) (user : User) (s : TokenService V T) : Jwt × Jwt :=
  let lasts (minutes : Int) : Int := ⌊now + ((minutes * 60 : Int) : T)⌋
  (⟨⟨s.nextJti, user.id, lasts lifetimes.refresh⟩, .refresh⟩, ⟨⟨s.nextJti + 1, user.id, lasts lifetimes.access⟩, .access⟩)

/-- A new pair is signed. -/
def issue (lifetimes : JwtLifetimes) (now : T) (user : User) (s : TokenService V T) : TokenService V T :=
  let pair := s.generatePair lifetimes now user
  {s with issued := pair.1 :: pair.2 :: s.issued, nextJti := s.nextJti + 2}

/-- `BlacklistAwareJWTAuthentication.authenticate`: no account for a token that does not
parse or belongs to no active account, an error for one that is blacklisted. -/
def authenticate (r : AuthRequest T) (s : TokenService V T) : Except Exc (Option (User × Jwt)) :=
  match s.parse .access r.now r.authorization with
  | none => .ok none
  | some token =>
    match (s.db.db.user? token.userId).filter (·.isActive) with
    | none => .ok none
    | some user => if s.isBlacklisted r.now token then .error invalidToken else .ok (some (user, token))

/-- The cookie that `TokenRefreshView` goes on with. -/
def refreshToken (r : AuthRequest T) (s : TokenService V T) : Option Jwt :=
  (s.parse .refresh r.now r.cookie).filter fun token => !s.isBlacklisted r.now token

/-- What a logout and a withdrawal revoke. -/
def revoke (r : AuthRequest T) (access : Jwt) (s : TokenService V T) : TokenService V T :=
  (s.blacklistJti r.now access).blacklistCookie r.now r.cookie

/-- A request that got as far as its view. -/
def view (lifetimes : JwtLifetimes) (detail : String) (c : LowerCase) (r : AuthRequest T)
    (found : Option (User × Jwt)) (s : TokenService V T) : Except Exc Unit × TokenService V T :=
  match r.call, found with
  | .kakaoLogin draw data, _ =>
    let (result, db) := (getOrCreateUser c (instantOf r.now) draw data).perform s.db
    match result with
    | .ok (user, _) => (.ok (), {s with db := db}.issue lifetimes r.now user)
    | .error e => (.error e, {s with db := db})
  | .adminLogin userId, _ =>
    match (s.db.db.user? userId).filter (·.isActive) with
    | some user => (.ok (), s.issue lifetimes r.now user)
    | none => (.error adminLoginFailed, s)
  | .refresh, _ =>
    match s.refreshToken r with
    | none => (.error sessionExpiredError, s)
    | some token =>
      -- the cookie is used up before the account is looked up
      let s := s.blacklistCookie r.now r.cookie
      match s.db.db.user? token.userId with
      | some user => (.ok (), s.issue lifetimes r.now user)
      | none => (.error userDoesNotExist, s)
  | .logout, some (_, access) => (.ok (), s.revoke r access)
  | .withdraw reason, some (user, access) =>
    let (result, db) := (withdrawUser (instantOf r.now) user reason).perform s.db
    match result with
    | .ok _ => (.ok (), {s with db := db}.revoke r access)
    | .error e => (.error e, {s with db := db})
  | .logout, none | .withdraw _, none => (.error (notAuthenticated detail), s)
  | .other, _ => (.ok (), s)

def serve (lifetimes : JwtLifetimes) (detail : String) (c : LowerCase) (s : TokenService V T) (r : AuthRequest T) :
    Except Exc Unit × TokenService V T :=
  match s.authenticate r with
  | .error e => (.error e, s)
  | .ok found => s.view lifetimes detail c r found

def run (lifetimes : JwtLifetimes) (detail : String) (c : LowerCase) (s : TokenService V T)
    (requests : List (AuthRequest T)) : TokenService V T :=
  requests.foldl (fun s r => (s.serve lifetimes detail c r).2) s

/-- Nobody has logged in yet. -/
def start (db : Base (Db V)) : TokenService V T := {db := db}

/-! ### Revoked and accepted -/

/-- The tokens that a successful request takes back: what a logout or a withdrawal was sent
with, and what a refresh used up. -/
def Revoked (lifetimes : JwtLifetimes) (detail : String) (c : LowerCase) (s : TokenService V T) (r : AuthRequest T)
    (token : Jwt) : Prop :=
  (s.serve lifetimes detail c r).1 = .ok () ∧ token ∈ s.issued ∧
    match r.call with
    | .logout | .withdraw _ => r.authorization = some token ∨ r.cookie = some token ∧ token.tokenType = .refresh
    | .refresh => r.cookie = some token
    | _ => False

/-- `authenticate` returns the account of the token, or `TokenRefreshView` goes on with it. -/
def Accepted (s : TokenService V T) (r : AuthRequest T) (token : Jwt) : Prop :=
  (∃ user, s.authenticate r = .ok (some (user, token))) ∨ r.call = .refresh ∧ s.refreshToken r = some token

/-! ### What every request keeps -/

/-- Each signed token has its own `jti`. -/
structure Own (s : TokenService V T) : Prop where
  below : ∀ token ∈ s.issued, token.jti < s.nextJti
  own : ∀ token ∈ s.issued, ∀ other ∈ s.issued, other.jti = token.jti → other = token

omit [Field T] [LinearOrder T] [FloorRing T] in
theorem own_start (db : Base (Db V)) : (start db : TokenService V T).Own where
  below _ h := nomatch h
  own _ h := nomatch h

/-- From `first` on, the token is blacklisted until it expires. -/
def Dead (first : T) (token : Jwt) (s : TokenService V T) : Prop :=
  Holds token.jti first (token.exp : T) s.cache

/-- Nothing is forgotten: the tokens that were signed, and those that are dead. -/
structure Carries (s s' : TokenService V T) : Prop where
  issued : ∀ token ∈ s.issued, token ∈ s'.issued
  own : s.Own → s'.Own
  dead : s.Own → ∀ token ∈ s.issued, ∀ first, s.Dead first token → s'.Dead first token

variable {s s' s'' : TokenService V T} {token : Jwt} {r : AuthRequest T} {now : T}

omit [FloorRing T] in
theorem Carries.refl (s : TokenService V T) : s.Carries s where
  issued _ h := h
  own h := h
  dead _ _ _ _ h := h

omit [FloorRing T] in
theorem Carries.trans (h : s.Carries s') (h' : s'.Carries s'') : s.Carries s'' where
  issued token htoken := h'.issued token (h.issued token htoken)
  own hown := h'.own (h.own hown)
  dead hown token htoken first hdead :=
    h'.dead (h.own hown) token (h.issued token htoken) first (h.dead hown token htoken first hdead)

omit [FloorRing T] in
theorem carries_db (s : TokenService V T) (db : Base (Db V)) : s.Carries {s with db := db} where
  issued _ h := h
  own h := ⟨h.below, h.own⟩
  dead _ _ _ _ h := h

theorem carries_issue (lifetimes : JwtLifetimes) (now : T) (user : User) (s : TokenService V T) :
    s.Carries (s.issue lifetimes now user) where
  issued _ h := List.mem_cons_of_mem _ (List.mem_cons_of_mem _ h)
  dead _ _ _ _ h := h
  own h := by
    have hnew : ∀ token ∈ (s.issue lifetimes now user).issued, token.jti = s.nextJti ∧
        token = (s.generatePair lifetimes now user).1 ∨ token.jti = s.nextJti + 1 ∧
        token = (s.generatePair lifetimes now user).2 ∨ token.jti < s.nextJti ∧ token ∈ s.issued := by
      intro token htoken
      rcases List.mem_cons.mp htoken with rfl | htoken
      · exact .inl ⟨rfl, rfl⟩
      · rcases List.mem_cons.mp htoken with rfl | htoken
        · exact .inr (.inl ⟨rfl, rfl⟩)
        · exact .inr (.inr ⟨h.below token htoken, htoken⟩)
    constructor
    · intro token htoken
      show token.jti < s.nextJti + 2
      rcases hnew token htoken with ⟨hjti, -⟩ | ⟨hjti, -⟩ | ⟨hjti, -⟩ <;> omega
    · intro token htoken other hother hsame
      rcases hnew token htoken with ⟨hjti, heq⟩ | ⟨hjti, heq⟩ | ⟨hjti, hmem⟩ <;>
        rcases hnew other hother with ⟨hjti', heq'⟩ | ⟨hjti', heq'⟩ | ⟨hjti', hmem'⟩
      case inr.inr.inr.inr => exact h.own token hmem other hmem' hsame
      all_goals first
        | exact heq'.trans heq.symm
        | omega

section
variable [IsStrictOrderedRing T]

/-- The entry lasts as long as the token: the time is cut to whole seconds on the safe side. -/
theorem exp_le_end (now : T) (token : Jwt) : (token.exp : T) ≤ now + ((token.exp - ⌊now⌋ : ℤ) : T) := by
  have hfloor : ((⌊now⌋ : ℤ) : T) ≤ now := Int.floor_le now
  rw [Int.cast_sub]
  linarith

/-- No time is left to the token. -/
theorem exp_le_of_ttl (h : ¬ 0 < token.exp - ⌊now⌋) : (token.exp : T) ≤ now :=
  le_trans (Int.cast_le.mpr (by omega)) (Int.floor_le now)

theorem dead_blacklistJti (now : T) (token : Jwt) (s : TokenService V T) :
    (s.blacklistJti now token).Dead now token := by
  unfold blacklistJti
  dsimp only
  split
  · exact Lib.Expiring.holds_set (exp_le_end now token)
  · rename_i httl
    exact Lib.Expiring.holds_of_le (exp_le_of_ttl httl)

theorem carries_blacklistJti (now : T) (htoken : token ∈ s.issued) : s.Carries (s.blacklistJti now token) := by
  unfold blacklistJti
  dsimp only
  split
  · refine ⟨fun _ h => h, fun h => ⟨h.below, h.own⟩, fun hown other hother first hdead => hdead.set fun hsame => ?_⟩
    -- the same `jti` is the same token
    rw [hown.own other hother token htoken hsame]
    exact exp_le_end now other
  · exact .refl s

omit [FloorRing T] [IsStrictOrderedRing T] in
theorem parse_eq_some {tokenType : TokenType} {text : Option Jwt} (h : s.parse tokenType now text = some token) :
    text = some token ∧ token ∈ s.issued ∧ token.tokenType = tokenType ∧ now < (token.exp : T) := by
  obtain ⟨htext, hchecks⟩ := Option.filter_eq_some_iff.mp h
  simpa [and_assoc] using And.intro htext hchecks

theorem carries_blacklistCookie (now : T) (cookie : Option Jwt) (s : TokenService V T) :
    s.Carries (s.blacklistCookie now cookie) := by
  unfold blacklistCookie
  split
  · rename_i hparse
    exact carries_blacklistJti now (parse_eq_some hparse).2.1
  · exact .refl s

/-- A refresh token in the cookie is dead, or has expired. -/
theorem dead_blacklistCookie (now : T) (htoken : token ∈ s.issued) (htype : token.tokenType = .refresh) :
    (s.blacklistCookie now (some token)).Dead now token := by
  unfold blacklistCookie
  split
  · rename_i found hparse
    obtain ⟨heq, -⟩ := parse_eq_some hparse
    cases heq
    exact dead_blacklistJti now token s
  · rename_i hparse
    refine Lib.Expiring.holds_of_le (le_of_not_gt fun hlt => ?_)
    apply Option.filter_eq_none_iff.mp hparse token rfl
    simp [htoken, htype, hlt]

theorem carries_revoke {access : Jwt} (haccess : access ∈ s.issued) (r : AuthRequest T) :
    s.Carries (s.revoke r access) :=
  (carries_blacklistJti r.now haccess).trans (carries_blacklistCookie r.now r.cookie _)

theorem carries_view (lifetimes : JwtLifetimes) (detail : String) (c : LowerCase) (r : AuthRequest T)
    {found : Option (User × Jwt)} (hfound : ∀ user access, found = some (user, access) → access ∈ s.issued) :
    s.Carries (s.view lifetimes detail c r found).2 := by
  unfold view
  split
  · dsimp only
    split
    · exact (carries_db s _).trans (carries_issue lifetimes r.now _ _)
    · exact carries_db s _
  · split
    · exact carries_issue lifetimes r.now _ s
    · exact .refl s
  · split
    · exact .refl s
    · dsimp only
      split
      · exact (carries_blacklistCookie r.now r.cookie s).trans (carries_issue lifetimes r.now _ _)
      · exact carries_blacklistCookie r.now r.cookie s
  · rename_i user access hcall
    exact carries_revoke (hfound user access rfl) r
  · rename_i reason user access hcall
    have hdb := carries_db s ((withdrawUser (instantOf r.now) user reason).perform s.db).2
    dsimp only
    split
    · exact hdb.trans (carries_revoke (hdb.issued access (hfound user access rfl)) r)
    · exact hdb
  · exact .refl s
  · exact .refl s
  · exact .refl s

omit [FloorRing T] [IsStrictOrderedRing T] in
/-- The account that a request is served for came with a token. -/
theorem authenticate_eq {user : User} {access : Jwt} (h : s.authenticate r = .ok (some (user, access))) :
    s.parse .access r.now r.authorization = some access ∧ s.isBlacklisted r.now access = false := by
  unfold authenticate at h
  split at h
  · cases h
  · split at h
    · cases h
    · split at h
      · cases h
      · rename_i hparse _ _ _ hlive
        cases h
        exact ⟨hparse, (Bool.not_eq_true _).mp hlive⟩

theorem carries_serve (lifetimes : JwtLifetimes) (detail : String) (c : LowerCase) (s : TokenService V T)
    (r : AuthRequest T) : s.Carries (s.serve lifetimes detail c r).2 := by
  unfold serve
  split
  · exact .refl s
  · rename_i found hauth
    refine carries_view lifetimes detail c r fun user access heq => ?_
    rw [heq] at hauth
    exact (parse_eq_some (authenticate_eq hauth).1).2.1

theorem carries_run (lifetimes : JwtLifetimes) (detail : String) (c : LowerCase) (s : TokenService V T)
    (requests : List (AuthRequest T)) : s.Carries (s.run lifetimes detail c requests) := by
  induction requests generalizing s with
  | nil => exact .refl s
  | cons r rest ih => exact (carries_serve lifetimes detail c s r).trans (ih _)

/-! ### Revocation -/

theorem dead_revoke {access : Jwt} (hown : s.Own) (htoken : token ∈ s.issued)
    (hparse : s.parse .access r.now r.authorization = some access)
    (hsent : r.authorization = some token ∨ r.cookie = some token ∧ token.tokenType = .refresh) :
    (s.revoke r access).Dead r.now token := by
  obtain ⟨hheader, hissued, -⟩ := parse_eq_some hparse
  have hcarries := carries_blacklistJti r.now hissued
  rcases hsent with hsent | ⟨hsent, htype⟩
  · cases hheader.symm.trans hsent
    exact (carries_blacklistCookie r.now r.cookie _).dead (hcarries.own hown) token (hcarries.issued token htoken)
      r.now (dead_blacklistJti r.now token s)
  · unfold revoke
    rw [hsent]
    exact dead_blacklistCookie r.now (hcarries.issued token htoken) htype

/-- A revoked token is dead from the time of the request on. -/
theorem Revoked.dead {lifetimes : JwtLifetimes} {detail : String} {c : LowerCase} (hown : s.Own)
    (h : s.Revoked lifetimes detail c r token) : (s.serve lifetimes detail c r).2.Dead r.now token := by
  obtain ⟨hok, htoken, hsent⟩ := h
  unfold serve at hok ⊢
  cases hauth : s.authenticate r with
  | error e =>
    rw [hauth] at hok
    cases hok
  | ok found =>
    rw [hauth] at hok
    dsimp only at hok ⊢
    unfold view at hok ⊢
    cases hcall : r.call with
    | kakaoLogin | adminLogin | other =>
      rw [hcall] at hsent
      exact hsent.elim
    | logout =>
      rw [hcall] at hsent hok
      cases found with
      | none => cases hok
      | some found => exact dead_revoke hown htoken (authenticate_eq hauth).1 hsent
    | withdraw reason =>
      rw [hcall] at hsent hok
      cases found with
      | none => cases hok
      | some found =>
        dsimp only at hok ⊢
        cases hresult : ((withdrawUser (instantOf r.now) found.1 reason).perform s.db).1 with
        | error e =>
          rw [hresult] at hok
          cases hok
        | ok =>
          exact dead_revoke (s := {s with db := _}) ⟨hown.below, hown.own⟩ htoken (authenticate_eq hauth).1 hsent
    | refresh =>
      rw [hcall] at hsent hok
      dsimp only at hok ⊢
      cases hrefresh : s.refreshToken r with
      | none =>
        rw [hrefresh] at hok
        cases hok
      | some consumed =>
        have hparse := (Option.filter_eq_some_iff.mp hrefresh).1
        obtain ⟨hcookie, -, htype, -⟩ := parse_eq_some hparse
        cases hcookie.symm.trans hsent
        have hcarries := carries_blacklistCookie r.now r.cookie s
        have hdead : (s.blacklistCookie r.now r.cookie).Dead r.now token := by
          rw [hsent]
          exact dead_blacklistCookie r.now htoken htype
        dsimp only
        split
        · exact (carries_issue lifetimes r.now _ _).dead (hcarries.own hown) token (hcarries.issued token htoken) r.now
            hdead
        · exact hdead

omit [FloorRing T] [IsStrictOrderedRing T] in
/-- A token that is dead is not accepted. -/
theorem not_accepted_of_dead {first : T} (hdead : s.Dead first token) (hfirst : first ≤ r.now) :
    ¬ s.Accepted r token := by
  have hlisted : r.now < (token.exp : T) → s.isBlacklisted r.now token = true := hdead r.now hfirst
  intro h
  rcases h with ⟨user, hauth⟩ | ⟨-, hrefresh⟩
  · obtain ⟨hparse, hlive⟩ := authenticate_eq hauth
    rw [hlisted (parse_eq_some hparse).2.2.2] at hlive
    cases hlive
  · obtain ⟨hparse, hlive⟩ := Option.filter_eq_some_iff.mp hrefresh
    rw [hlisted (parse_eq_some hparse).2.2.2] at hlive
    cases hlive

/-- **Revocation is permanent**: on a clock that never goes back, no token that a successful
logout, withdrawal or refresh took back is accepted again. -/
theorem revocation_permanent (lifetimes : JwtLifetimes) (detail : String) (c : LowerCase) (db : Base (Db V))
    (before between : List (AuthRequest T)) (r later : AuthRequest T)
    (hclock : ((before ++ r :: between ++ [later]).map (·.now)).Pairwise (· ≤ ·)) (token : Jwt)
    (hrevoked : Revoked lifetimes detail c ((start db).run lifetimes detail c before) r token) :
    ¬ Accepted ((start db).run lifetimes detail c (before ++ r :: between)) later token := by
  have hown := (carries_run lifetimes detail c (start db) before).own (own_start db)
  have hserve := carries_serve lifetimes detail c ((start db).run lifetimes detail c before) r
  have hcarries :=
    carries_run lifetimes detail c (((start db).run lifetimes detail c before).serve lifetimes detail c r).2 between
  have hdead := hcarries.dead (hserve.own hown) token (hserve.issued token hrevoked.2.1) r.now (hrevoked.dead hown)
  have hfirst : r.now ≤ later.now := by
    rw [List.map_append, List.pairwise_append] at hclock
    exact hclock.2.2 _ (List.mem_map_of_mem (by simp)) _ (by simp)
  rw [run, List.foldl_append]
  exact not_accepted_of_dead hdead hfirst

end

/-! ### One account -/

def oneAccount : Base (Db Unit) := ⟨{users := [{id := 1}]}, 2⟩

/-- The first pair that is signed. -/
def firstPair : Jwt × Jwt := (⟨⟨0, 1, 604800⟩, .refresh⟩, ⟨⟨1, 1, 3600⟩, .access⟩)

def firstLogin : AuthRequest ℚ := {now := 0, call := .adminLogin 1}

/-- Half a second later, with both tokens. -/
def firstLogout : AuthRequest ℚ :=
  {now := 1 / 2, authorization := some firstPair.2, cookie := some firstPair.1, call := .logout}

/-- Just before the access token expires. -/
def lastMoment : AuthRequest ℚ := {now := 3599 + 3 / 4, authorization := some firstPair.2, call := .other}

theorem revocation_permanent_firstLogout :
    ¬ Accepted ((start oneAccount).run {} "" Lib.Email.asciiLower ([firstLogin] ++ firstLogout :: [])) lastMoment
      firstPair.2 :=
  revocation_permanent {} "" Lib.Email.asciiLower oneAccount [firstLogin] [] firstLogout lastMoment
    (by decide +kernel) firstPair.2 ⟨by decide +kernel, by decide +kernel, .inl rfl⟩

end TokenService
end
end TravelMaker
