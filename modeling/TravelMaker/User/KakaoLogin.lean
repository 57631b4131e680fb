import Mathlib.Algebra.GroupWithZero.Nat
import TravelMaker.Lib.Decimal
import TravelMaker.Lib.Email
import TravelMaker.User.Session

/-! Kakao logins: `get_user_info` and `get_or_create_user` of `KakaoAuthService`, from
Kakao's answer on.

A login goes to the account that the Kakao id is linked to, or makes one. Where the
new row breaks a uniqueness, the savepoint is rolled back and the account of that
e-mail is looked up. -/
namespace TravelMaker
open Lib (Txn)
open Lib.Txn (Base)
open Lib.Email (LowerCase)

variable {V : Type}

/-! ### What Kakao says -/

/-- The answer of `KAKAO_USER_INFO_URL`, as far as it is read. -/
structure KakaoAccount where
  id : UInt64
  email : Option String := none
  nickname : Option String := none
  profileImageUrl : Option String := none
  gender : Option String := none
  birthyear : Option String := none
  birthday : Option String := none
deriving DecidableEq, Repr

structure KakaoUserInfo where
  providerId : String
  email : Option String
  nickname : Option String
  profileImgUrl : Option String
  gender : Option String
  birthday : Option String
deriving DecidableEq, Repr

/-- `_GENDER_MAP.get`. -/
def genderMap : String → Option String
  | "male" => some "M"
  | "female" => some "F"
  | _ => none

/-- `birthyear-MM-DD`; nothing but the length of the month and day is checked. -/
def birthdayText (birthyear birthday : Option String) : Option String :=
  birthyear.bind fun year => birthday.bind fun mmdd =>
    if year ≠ "" ∧ mmdd.length = 4 then
      some (.ofList (year.toList ++ '-' :: mmdd.toList.take 2 ++ '-' :: mmdd.toList.drop 2))
    else none

def getUserInfo (data : KakaoAccount) : KakaoUserInfo where
  providerId := toString data.id
  email := data.email
  nickname := data.nickname
  profileImgUrl := data.profileImageUrl
  gender := data.gender.bind genderMap
  birthday := birthdayText data.birthyear data.birthday

/-! ### Dates -/

def isLeap (year : Nat) : Bool := year % 4 = 0 && (year % 100 ≠ 0 || year % 400 = 0)

def daysInMonth (year : Nat) : Nat → Nat
  | 2 => if isLeap year then 29 else 28
  | 4 | 6 | 9 | 11 => 30
  | _ => 31

/-- `datetime.date(year, month, day)`; `none` for the `ValueError`. -/
def dateOf? (year month day : Nat) : Option Date :=
  if 1 ≤ year ∧ year ≤ 9999 ∧ 1 ≤ month ∧ month ≤ 12 ∧ 1 ≤ day ∧ day ≤ daysInMonth year month then
    let before := year - 1
    some (before * 365 + before / 4 - before / 100 + before / 400 +
      ((List.range (month - 1)).map fun m => daysInMonth year (m + 1)).sum + day : Nat)
  else none

/-- `parse_date`. Of the texts with two hyphens, `date.fromisoformat` takes none that `date_re`
does not. -/
def parseDate? (value : String) : Option Date :=
  match value.toList.splitOn '-' with
  | [year, month, day] =>
    -- `$` lets a line break at the end through
    let day := if day.getLast? = some '\n' then day.dropLast else day
    if year.length = 4 ∧ 1 ≤ month.length ∧ month.length ≤ 2 ∧ 1 ≤ day.length ∧ day.length ≤ 2 ∧
        (year ++ month ++ day).all Lib.Text.isDigit then
      dateOf? (Lib.Decimal.digitsToNat year) (Lib.Decimal.digitsToNat month) (Lib.Decimal.digitsToNat day)
    else none
  | _ => none

example : parseDate? "1999-02-28" = some 729813 ∧ parseDate? "1999-02-29" = none := by decide +kernel

/-! ### Errors -/

def missingAuthCodeError : Exc := .api 400 "code가 누락되었습니다."
def kakaoTokenVerificationError : Exc := .api 401 "카카오 토큰 검증 실패"
def emailNotProvidedError : Exc :=
  .api 401 "카카오 계정에 이메일이 없습니다. 카카오 설정에서 이메일 제공에 동의해 주세요."
def kakaoServerError : Exc := .api 503 "카카오 서버 불러오기에 실패했습니다."

/-- The `AuthBaseException`s of a login. -/
def authExceptions : List Exc :=
  [missingAuthCodeError, kakaoTokenVerificationError, emailNotProvidedError, kakaoServerError, alreadyWithdrawnError]

/-! ### Rows -/

namespace Db

def socialUser? (d : Db V) (provider : Provider) (providerId : String) : Option SocialUser :=
  d.socialUsers.find? fun s => s.provider == provider && s.providerId == providerId

/-- `User.objects.get(email=…)`. -/
def userByEmail? (d : Db V) (email : String) : Option User := d.users.find? (·.email == email)

def insertUser (user : User) (d : Db V) : Db V := {d with users := d.users ++ [user]}

def insertSocialUser (link : SocialUser) (d : Db V) : Db V := {d with socialUsers := d.socialUsers ++ [link]}

/-- The account that a Kakao id is linked to. -/
def linked (d : Db V) (providerId : String) : Option User :=
  (d.socialUser? .kakao providerId).bind (d.user? ·.userId)

end Db

/-- A text in a column, or the `DataError`. -/
def orDataError : Option (List Char) → Except Exc String
  | some text => .ok (.ofList text)
  | none => .error .databaseError

/-- `DateField.to_python`. -/
def birthdayColumn : Option String → Except Exc (Option Date)
  | none => .ok none
  | some text =>
    match parseDate? text with
    | some date => .ok (some date)
    | none => .error .validationError

/-- What the `INSERT` of a new account stores besides its id, its nickname and its gender. -/
structure UserColumns where
  email : String
  profileImgUrl : String
  birthday : Option Date
deriving DecidableEq, Repr

/-- The new row. -/
def UserColumns.row (columns : UserColumns) (id : Int) (nickname : String) (gender : Option String) : User where
  id := id
  email := columns.email
  nickname := nickname
  gender := gender.getD ""
  birthday := columns.birthday
  profileImgUrl := columns.profileImgUrl

/-- The values of the `INSERT`: the birthday is parsed before the statement is sent. -/
def userColumns (c : LowerCase) (info : KakaoUserInfo) (email : String) : Except Exc UserColumns := do
  let birthday ← birthdayColumn info.birthday
  let email ← orDataError (Lib.Email.stored? c 255 email.toList)
  let profileImgUrl ← orDataError (Lib.Email.varchar? 255 (info.profileImgUrl.getD "").toList)
  return ⟨email, profileImgUrl, birthday⟩

/-! ### Services -/

/-- `f"traveler_{number}"`, for the number `random.randint(10000, 99999)` drew. -/
def travelerName (draw : Fin 90000) : String := "traveler_" ++ toString (10000 + draw.val)

def generateNickname (draw : Nat → Fin 90000) : (retries : Nat) → Service V String
  | 0 => Txn.raise (.other "RuntimeError")
  | retries + 1 => do
    let nickname := travelerName (draw retries)
    let d ← Txn.read
    if d.users.any (·.nickname == nickname) then generateNickname draw retries else return nickname

def maxNicknameRetries : Nat := 50

/-- `User.objects.create_user`. -/
def createUser (c : LowerCase) (info : KakaoUserInfo) (email nickname : String) : Service V User := do
  let columns ← Txn.lift (userColumns c info email)
  let id ← Txn.fresh
  let user := columns.row id nickname info.gender
  let d ← Txn.put (.userOf user.email) (Db.insertUser user)
  Txn.orRaise (d.users.all fun u => u.email != user.email && u.nickname != user.nickname) .integrityError
  return user

/-- `SocialUser.objects.create`. -/
def createSocialUser (userId : Int) (providerId : String) : Service V Unit := do
  let d ← Txn.put (.socialUserOf .kakao providerId) (Db.insertSocialUser ⟨userId, .kakao, providerId⟩)
  Txn.orRaise (d.socialUser? .kakao providerId = none ∧ (d.user? userId).isSome = true) .integrityError

/-- What a login makes of the account it found. -/
def resumeUser (now : Instant) (user : User) : Service V User :=
  if user.isActive then return user else recoverOrRaise now user

/-- `SocialUser.objects.select_related("user").get(…)`, and the account's recovery. -/
def linkedUser (now : Instant) (providerId : String) : Service V (Option User) := do
  let d ← Txn.read
  match d.linked providerId with
  | none => return none
  | some user => return some (← resumeUser now user)

/-- The branch of an `IntegrityError`. -/
def resolveConflict (now : Instant) (email providerId : String) : Service V User := do
  match ← linkedUser now providerId with
  | some user => return user
  | none =>
    let d ← Txn.read
    match d.userByEmail? email with
    | none => Txn.raise userDoesNotExist
    | some user =>
      if user.isActive then
        Txn.tryCatch (createSocialUser user.id providerId) fun e =>
          if e = .integrityError then return () else Txn.raise e
        return user
      else
        let recovered ← recoverOrRaise now user
        createSocialUser recovered.id providerId
        return recovered

/-- The savepoint of a new account. -/
def newAccount (c : LowerCase) (draw : Nat → Fin 90000) (info : KakaoUserInfo) (email : String) :
    Service V (User × Bool) := do
  let nickname ← generateNickname draw maxNicknameRetries
  let user ← createUser c info email nickname
  createSocialUser user.id info.providerId
  return (user, true)

/-- `get_or_create_user`: the account, and whether it is new. -/
def getOrCreateUser (c : LowerCase) (now : Instant) (draw : Nat → Fin 90000) (data : KakaoAccount) :
    Service V (User × Bool) := do
  let info := getUserInfo data
  let email := info.email.getD ""
  Txn.orRaise (email ≠ "") emailNotProvidedError
  match ← linkedUser now info.providerId with
  | some user => return (user, false)
  | none =>
    Txn.tryCatch (newAccount c draw info email) fun e =>
      if e = .integrityError then do
        let user ← resolveConflict now email info.providerId
        return (user, false)
      else Txn.raise e

end TravelMaker
