import Mathlib.Algebra.Order.Group.Int
import Mathlib.Logic.Function.Basic
import TravelMaker.Lib.Expiring
import TravelMaker.User.Account

/-! Sessions: the tokens of `KakaoAuthService`, and the views that hand them out and
take them back.

A device holds the token pair of its last login or refresh. Nothing is kept of a token on
the server but a blacklist entry in the cache, made when the token is used up, with the
time left to the token. -/
namespace TravelMaker
open Lib (Txn)

variable {V : Type}

/-! ### Tokens -/

/-- A signed token. The `jti` of each is a fresh text, given by its number. -/
structure Token where
  jti : Nat
  userId : Int
  /-- In seconds. -/
  exp : Int
deriving DecidableEq, Repr

structure TokenPair where
  access : Token
  refresh : Token
deriving DecidableEq, Repr

/-- `int(time.time())`. -/
def intTime (now : Instant) : Int := now / 1000000

/-- `timedelta(minutes=n)`. -/
def timedeltaMinutes (n : Int) : Int := n * (60 * 1000000)

/-- What `RefreshToken(…)` checks of a signed token: its expiry. -/
def Token.valid (now : Instant) (token : Token) : Bool := now < token.exp * 1000000

/-- `SIMPLE_JWT`, in minutes. -/
structure JwtLifetimes where
  access : Int := 60
  refresh : Int := 10080

/-- `RefreshToken.for_user`: the pair takes two texts. -/
def generateTokenPair (lifetimes : JwtLifetimes) (now : Instant) (user : User) (jti : Nat) : TokenPair where
  refresh := ⟨jti, user.id, intTime (now + timedeltaMinutes lifetimes.refresh)⟩
  access := ⟨jti + 1, user.id, intTime (now + timedeltaMinutes lifetimes.access)⟩

/-! ### The blacklist -/

/-- The entries of the cache, each with its end. -/
abbrev Blacklist := List (Nat × Instant)

/-- `cache.set(blacklist_key(jti), "true", ttl)`, if time is left. -/
def blacklistJti (now : Instant) (jti : Nat) (exp : Int) (cache : Blacklist) : Blacklist :=
  let ttl := exp - intTime now
  if 0 < ttl then (jti, now + ttl * 1000000) :: cache.filter (·.1 != jti) else cache

/-- An expired token is left alone. -/
def blacklistToken (now : Instant) (token : Token) (cache : Blacklist) : Blacklist :=
  if token.valid now then blacklistJti now token.jti token.exp cache else cache

def isJtiBlacklisted (now : Instant) (jti : Nat) (cache : Blacklist) : Bool :=
  cache.any fun entry => entry.1 == jti && now < entry.2

/-- A valid token has time left. -/
theorem Token.ttl_pos {now : Instant} {token : Token} (h : token.valid now = true) : 0 < token.exp - intTime now := by
  have hnow : token.exp * 1000000 > now := of_decide_eq_true h
  unfold intTime
  omega

/-- The entry of a token lasts as long as the token. -/
theorem isJtiBlacklisted_blacklistToken {now later : Instant} {token : Token} (h : token.valid now = true)
    (hlater : token.valid later = true) (cache : Blacklist) :
    isJtiBlacklisted later token.jti (blacklistToken now token cache) = true := by
  have hpos := Token.ttl_pos h
  have hend : token.exp * 1000000 > later := of_decide_eq_true hlater
  have hlast : token.exp * 1000000 ≤ now + (token.exp - intTime now) * 1000000 := by
    have hcut : now / 1000000 * 1000000 ≤ now := Int.ediv_mul_le now (by decide)
    unfold intTime
    omega
  unfold blacklistToken blacklistJti
  rw [if_pos h, if_pos hpos]
  exact Lib.Expiring.holds_set hlast later (le_refl later) hend

/-! ### Accounts -/

/-- `User.DoesNotExist`. -/
def userDoesNotExist : Exc := .other "User.DoesNotExist"

/-- `_recover_or_raise`: within the window the account is active again. -/
def recoverOrRaise (now : Instant) (user : User) : Service V User := do
  Txn.orRaise (user.deletedAt.any fun deletedAt => now ≤ deletedAt + timedeltaDays recoveryWindowDays)
    alreadyWithdrawnError
  let _ ← Txn.put (.user user.id) (Db.modifyUser user.id fun u => {u with isActive := true, deletedAt := none})
  return {user with isActive := true, deletedAt := none}

/-- `get_or_create_user` for a Kakao login of this account. -/
def getUser (now : Instant) (userId : Int) : Service V (Option User) := do
  let d ← Txn.read
  match d.user? userId with
  | none => return none
  | some user => if user.isActive then return some user else return some (← recoverOrRaise now user)

/-! ### Requests -/

/-- The tables, the cache and what the devices hold. -/
structure Sessions (V : Type) where
  db : Db V
  cache : Blacklist := []
  devices : Nat → Option TokenPair := fun _ => none
  nextJti : Nat := 0

inductive SessionCall where
  | kakaoLogin (device : Nat) (userId : Int)
  | adminLogin (device : Nat) (userId : Int)
  | logout (device : Nat)
  | refresh (device : Nat)
  | withdraw (device : Nat) (reason : String)
deriving DecidableEq, Repr

/-- A request, its time, and whether the cache answers it. -/
structure SessionRequest where
  now : Instant
  cacheUp : Bool := true
  call : SessionCall
deriving DecidableEq, Repr

namespace Sessions

/-- `is_jti_blacklisted`: no, if the cache does not answer. -/
def blacklisted (r : SessionRequest) (jti : Nat) (s : Sessions V) : Bool :=
  r.cacheUp && isJtiBlacklisted r.now jti s.cache

def setCache (r : SessionRequest) (f : Blacklist → Blacklist) (s : Sessions V) : Sessions V :=
  if r.cacheUp then {s with cache := f s.cache} else s

def hold (device : Nat) (pair : Option TokenPair) (s : Sessions V) : Sessions V :=
  {s with devices := Function.update s.devices device pair}

/-- A new pair goes out to the device. -/
def issue (lifetimes : JwtLifetimes) (now : Instant) (device : Nat) (user : User) (s : Sessions V) :
    Option TokenPair × Sessions V :=
  let pair := generateTokenPair lifetimes now user s.nextJti
  (some pair, {s with devices := Function.update s.devices device (some pair), nextJti := s.nextJti + 2})

/-- `BlacklistAwareJWTAuthentication`: the active account of a valid access token. -/
def authenticate (r : SessionRequest) (token : Token) (s : Sessions V) : Option User :=
  if token.valid r.now && !s.blacklisted r token.jti then (s.db.user? token.userId).filter (·.isActive) else none

/-- The tokens of the device are used up, and its cookie is cleared. -/
def revoke (r : SessionRequest) (device : Nat) (pair : TokenPair) (s : Sessions V) : Sessions V :=
  ((s.setCache r (blacklistJti r.now pair.access.jti pair.access.exp)).setCache r
    (blacklistToken r.now pair.refresh)).hold device none

/-- The refresh token that `TokenRefreshView` goes on with. -/
def refreshToken (r : SessionRequest) (device : Nat) (s : Sessions V) : Option Token :=
  ((s.devices device).map (·.refresh)).filter fun token => token.valid r.now && !s.blacklisted r token.jti

/-- The pair that a request is answered with, if it is, and what it leaves. -/
def serve (lifetimes : JwtLifetimes) (s : Sessions V) (r : SessionRequest) : Option TokenPair × Sessions V :=
  match r.call with
  | .kakaoLogin device userId =>
    match (getUser r.now userId).eval s.db 0 with
    | .ok (some user, db, _) => {s with db := db}.issue lifetimes r.now device user
    | _ => (none, s)
  | .adminLogin device userId =>
    match (s.db.user? userId).filter (·.isActive) with
    | some user => s.issue lifetimes r.now device user
    | none => (none, s)
  | .logout device =>
    match s.devices device with
    | some pair => (none, if (s.authenticate r pair.access).isSome then s.revoke r device pair else s)
    | none => (none, s)
  | .refresh device =>
    match s.refreshToken r device with
    | some token =>
      -- the token is used up before the account is looked up
      let s := s.setCache r (blacklistToken r.now token)
      match s.db.user? token.userId with
      | some user => s.issue lifetimes r.now device user
      | none => (none, s)
    | none => (none, s)
  | .withdraw device reason =>
    match s.devices device with
    | some pair =>
      match s.authenticate r pair.access with
      | some user =>
        match (withdrawUser r.now user reason).eval s.db 0 with
        | .ok (_, db, _) => (none, {s with db := db}.revoke r device pair)
        | .error _ => (none, s)
      | none => (none, s)
    | none => (none, s)

def step (lifetimes : JwtLifetimes) (s : Sessions V) (r : SessionRequest) : Sessions V := (s.serve lifetimes r).2

end Sessions
end TravelMaker
