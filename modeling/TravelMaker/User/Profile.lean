import TravelMaker.User.KakaoLogin

/-! Profiles: `ProfileView.patch`, `ProfileImageService` and the bucket it deletes from. -/
namespace TravelMaker
open Lib (Txn)
open Lib.Txn (Base)

variable {V : Type}

/-! ### The bucket -/

/-- The settings that picture URLs depend on. -/
structure Storage where
  bucketName : String
  regionName : String

namespace Storage
variable (s : Storage)

/-- `validate_s3_image_url`, by whether it returns the value. -/
def validateS3ImageUrl (value : String) : Bool :=
  value == "" || ("https://" ++ s.bucketName).toList.isPrefixOf value.toList

/-- The URL of a bucket object. -/
def imgUrl (key : String) : String := "https://" ++ s.bucketName ++ ".s3." ++ s.regionName ++ ".amazonaws.com/" ++ key

/-- `key_from_img_url`. -/
def keyFromImgUrl (url : String) : Option String :=
  if (s.imgUrl "").toList.isPrefixOf url.toList then some (.ofList (url.toList.drop (s.imgUrl "").toList.length))
  else none

/-- `delete_by_img_url`: the key of the object that is deleted. -/
def deleteByImgUrl (url : String) : Option String := (s.keyFromImgUrl url).filter (· ≠ "")

theorem imgUrl_toList (key : String) : (s.imgUrl key).toList = (s.imgUrl "").toList ++ key.toList := by
  simp [imgUrl]

/-- The key is read back from the URL of its object, and from no other URL. -/
theorem keyFromImgUrl_eq_some {url key : String} : s.keyFromImgUrl url = some key ↔ url = s.imgUrl key := by
  unfold keyFromImgUrl
  split
  · rename_i hstarts
    obtain ⟨rest, hrest⟩ := List.isPrefixOf_iff_prefix.mp hstarts
    rw [← hrest, List.drop_left, Option.some.injEq]
    constructor
    · intro hkey
      apply String.toList_injective
      rw [imgUrl_toList, ← hkey, String.toList_ofList, hrest]
    · intro hurl
      rw [hurl, imgUrl_toList s key] at hrest
      rw [List.append_cancel_left hrest, String.ofList_toList]
  · rename_i hnot
    refine iff_of_false (fun h => nomatch h) fun hurl => hnot ?_
    rw [hurl, imgUrl_toList s key]
    exact List.isPrefixOf_iff_prefix.mpr (List.prefix_append _ _)

end Storage

/-! ### Requests -/

def duplicateNickname : Exc := .api 409 "중복된 닉네임이 존재합니다."
/-- `AuthRequiredMixin`. -/
def authRequired : Exc := .api 401 "자격 인증 데이터가 제공되지 않았습니다."

/-- `[a-z가-힣]`. -/
def isNicknameChar (c : Char) : Bool := ('a' ≤ c && c ≤ 'z') || ('가' ≤ c && c ≤ '힣')

/-- What `ProfileUpdateSerializer` lets through besides the tags; it has cut the white space off. -/
structure ProfileUpdateData (s : Storage) where
  nickname : Option String := none
  bio : Option String := none
  profileImageUrl : Option String := none
  nickname_valid : ∀ v, nickname = some v → v ≠ "" ∧ v.length ≤ 14 ∧ v.toList.all isNicknameChar = true := by
    intro _ h
    cases h
  bio_length : ∀ v, bio = some v → v.length ≤ 100 := by
    intro _ h
    cases h
  image_stripped : ∀ v, profileImageUrl = some v → Lib.Text.stripWith Lib.Text.isSpace v.toList = v.toList
  image_valid : ∀ v, profileImageUrl = some v → s.validateS3ImageUrl v = true

/-! ### Services -/

/-- `set_profile_image_url`: the key of the object that is deleted. -/
def setProfileImageUrl (s : Storage) (user : User) (imgUrl : String) : Service V (Option String) := do
  let column ← Txn.lift (orDataError (Lib.Email.varchar? 255 imgUrl.toList))
  let _ ← Txn.put (.user user.id) (Db.modifyUser user.id fun u => {u with profileImgUrl := column})
  if user.profileImgUrl ≠ "" ∧ user.profileImgUrl ≠ imgUrl ∧ Lib.Text.contains user.profileImgUrl "/profiles/" then
    return s.deleteByImgUrl user.profileImgUrl
  else return none

/-- `check_available`. -/
def checkAvailable (nickname : Option String) (userId : Int) : Service V Unit := do
  let d ← Txn.read
  Txn.orRaise (∀ u ∈ d.users, some u.nickname = nickname → u.id = userId) duplicateNickname

/-- `ProfileView.patch`: the key of the object that is deleted. -/
def patchProfile (s : Storage) (userId : Int) (data : ProfileUpdateData s) : Service V (Option String) := do
  let d ← Txn.read
  match (d.user? userId).filter (·.isActive) with
  | none => Txn.raise authRequired
  | some user =>
    checkAvailable data.nickname user.id
    let _ ← Txn.put (.user user.id) (Db.modifyUser user.id fun u =>
      {u with nickname := data.nickname.getD u.nickname, bio := data.bio.getD u.bio})
    match data.profileImageUrl with
    | none => return none
    | some imgUrl => setProfileImageUrl s user imgUrl

end TravelMaker
