import TravelMaker.Lib.History
import TravelMaker.User.Profile

/-! Pictures in use: profile updates by any users, in any order.

`set_profile_image_url` deletes the picture a user had from the bucket. It looks at that
user alone, while the serializer lets everybody take the URL of everybody's picture.
`pictures_kept_iff` is the exact condition on a history. -/
namespace TravelMaker
open Lib (Txn)
open Lib.Txn (Base)
open Lib.History (Along)
open Lib.Email (varchar?)

variable {V : Type}

structure ProfileRequest (s : Storage) where
  userId : Int
  data : ProfileUpdateData s

section
variable (s : Storage)

/-- The key of the object that a new picture deletes. -/
def replaced (user : User) (url : String) : Option String :=
  if user.profileImgUrl ≠ "" ∧ user.profileImgUrl ≠ url ∧ Lib.Text.contains user.profileImgUrl "/profiles/" then
    s.deleteByImgUrl user.profileImgUrl
  else none

/-- No other account goes by the nickname that is asked for. -/
def NicknameAvailable (d : Db V) (nickname : Option String) (userId : Int) : Prop :=
  ∀ u ∈ d.users, some u.nickname = nickname → u.id = userId

instance (d : Db V) (nickname : Option String) (userId : Int) : Decidable (NicknameAvailable d nickname userId) :=
  inferInstanceAs (Decidable (∀ u ∈ d.users, some u.nickname = nickname → u.id = userId))

/-- The account with its new texts. -/
def ProfileUpdateData.assign {s : Storage} (data : ProfileUpdateData s) (u : User) : User :=
  {u with nickname := data.nickname.getD u.nickname, bio := data.bio.getD u.bio}

theorem patchProfile_eval (userId : Int) (data : ProfileUpdateData s) (d : Db V) (n : Nat) :
    (patchProfile s userId data).eval d n =
      match (d.user? userId).filter (·.isActive) with
      | none => .error authRequired
      | some user =>
        if NicknameAvailable d data.nickname user.id then
          match data.profileImageUrl with
          | none => .ok (none, d.modifyUser user.id data.assign, n)
          | some url =>
            match varchar? 255 url.toList with
            | none => .error .databaseError
            | some column => .ok (replaced s user url, (d.modifyUser user.id data.assign).modifyUser user.id fun u =>
                {u with profileImgUrl := .ofList column}, n)
        else .error duplicateNickname := by
  simp only [patchProfile, Txn.read_bind, Txn.eval]
  cases (d.user? userId).filter (·.isActive) with
  | none => rfl
  | some user =>
    simp only [checkAvailable, Txn.read_bind, Txn.query_bind, Txn.put_bind, Txn.eval]
    show Txn.eval (Txn.orRaise (NicknameAvailable d data.nickname user.id) _ >>= _) d n = _
    rw [Txn.orRaise_bind]
    split
    · simp only [Txn.eval]
      cases data.profileImageUrl with
      | none => rfl
      | some url =>
        simp only [setProfileImageUrl]
        cases varchar? 255 url.toList with
        | none => rfl
        | some column =>
          simp only [orDataError, Txn.lift_ok, Txn.ret_bind, Txn.put_bind, Txn.eval, replaced]
          split <;> rfl
    · rfl

theorem atomic_patchProfile (userId : Int) (data : ProfileUpdateData s) :
    (patchProfile (V := V) s userId data).Atomic := by
  intro d
  show (match (d.user? userId).filter (·.isActive) with | none => _ | some user => _ : Service V (Option String)).Atomic
  cases (d.user? userId).filter (·.isActive) with
  | none => trivial
  | some user =>
    have havailable : (checkAvailable (V := V) data.nickname user.id).Atomic := fun _ => Txn.atomic_orRaise _ _
    refine havailable.bind fun _ _ => ?_
    show (match data.profileImageUrl with | none => _ | some url => _ : Service V (Option String)).Atomic
    cases data.profileImageUrl with
    | none => trivial
    | some url =>
      refine (Txn.atomic_lift _).bind fun _ _ => ?_
      show (if _ then _ else _ : Service V (Option String)).Atomic
      split <;> trivial

/-! ### One request -/

/-- A request served alone: the key it deletes, and the tables after it. -/
def servePatch (b : Base (Db V)) (r : ProfileRequest s) : Except Exc (Option String) × Base (Db V) :=
  (patchProfile s r.userId r.data).perform b

def patched (b : Base (Db V)) (r : ProfileRequest s) : Base (Db V) := (servePatch s b r).2

/-- The request deletes no object whose URL is then the picture of an account. -/
def KeepsPictures (b : Base (Db V)) (r : ProfileRequest s) : Prop :=
  ∀ key, (servePatch s b r).1 = .ok (some key) → ∀ u ∈ (patched s b r).db.users, u.profileImgUrl ≠ s.imgUrl key

/-- A picture under `profiles/` that the request takes from its account is no picture of
another account. -/
def Unshared (b : Base (Db V)) (r : ProfileRequest s) : Prop :=
  ∀ user url key, (b.db.user? r.userId).filter (·.isActive) = some user →
    NicknameAvailable b.db r.data.nickname user.id → r.data.profileImageUrl = some url →
    (varchar? 255 url.toList).isSome = true → user.profileImgUrl = s.imgUrl key → key ≠ "" →
    Lib.Text.contains user.profileImgUrl "/profiles/" = true → user.profileImgUrl ≠ url →
    ∀ other ∈ b.db.users, other.id ≠ user.id → other.profileImgUrl ≠ user.profileImgUrl

variable {s} {b : Base (Db V)} {r : ProfileRequest s}

/-- A picture is deleted by its key. -/
theorem replaced_eq_some {user : User} {url key : String} :
    replaced s user url = some key ↔ user.profileImgUrl = s.imgUrl key ∧ key ≠ "" ∧
      Lib.Text.contains user.profileImgUrl "/profiles/" = true ∧ user.profileImgUrl ≠ url := by
  have hne : user.profileImgUrl = s.imgUrl key → user.profileImgUrl ≠ "" := by
    intro hurl hempty
    rw [hempty] at hurl
    have := congrArg String.toList hurl
    simp [Storage.imgUrl] at this
  unfold replaced Storage.deleteByImgUrl
  split
  · rename_i hreplace
    rw [Option.filter_eq_some_iff, Storage.keyFromImgUrl_eq_some, decide_eq_true_eq]
    exact ⟨fun h => ⟨h.1, h.2, hreplace.2.2, hreplace.2.1⟩, fun h => ⟨h.1, h.2.1⟩⟩
  · rename_i hkept
    refine iff_of_false (Option.some_ne_none _).symm fun h => hkept ⟨hne h.1, h.2.2.2, h.2.2.1⟩

/-- The tables with the new texts, and with the new picture. -/
def withTexts (b : Base (Db V)) (user : User) (data : ProfileUpdateData s) : Base (Db V) :=
  ⟨b.db.modifyUser user.id data.assign, b.seq⟩

def withPicture (b : Base (Db V)) (user : User) (data : ProfileUpdateData s) (column : List Char) : Base (Db V) :=
  ⟨(b.db.modifyUser user.id data.assign).modifyUser user.id fun u => {u with profileImgUrl := .ofList column}, b.seq⟩

/-- The request is taken, with a picture. -/
structure Replaces (b : Base (Db V)) (r : ProfileRequest s) (user : User) (url : String) (column : List Char) : Prop where
  account : (b.db.user? r.userId).filter (·.isActive) = some user
  available : NicknameAvailable b.db r.data.nickname user.id
  image : r.data.profileImageUrl = some url
  fits : varchar? 255 url.toList = some column

theorem Replaces.serve {user : User} {url : String} {column : List Char} (h : Replaces b r user url column) :
    servePatch s b r = (.ok (replaced s user url), withPicture b user r.data column) := by
  refine (atomic_patchProfile s r.userId r.data).perform_ok
    (r := (replaced s user url, (withPicture b user r.data column).db, b.seq)) ?_
  rw [patchProfile_eval, h.account]
  dsimp only
  rw [if_pos h.available, h.image]
  dsimp only
  rw [h.fits]
  rfl

/-- How a request ends. -/
theorem servePatch_cases (b : Base (Db V)) (r : ProfileRequest s) :
    (∃ e n, servePatch s b r = (.error e, ⟨b.db, n⟩)) ∨
      (∃ user, servePatch s b r = (.ok none, withTexts b user r.data)) ∨
      ∃ user url column, Replaces b r user url column := by
  have heval := patchProfile_eval s r.userId r.data b.db b.seq
  have hraised : ∀ e, (patchProfile s r.userId r.data).eval b.db b.seq = .error e →
      ∃ e n, servePatch s b r = (.error e, ⟨b.db, n⟩) := by
    intro e he
    obtain ⟨n, -, heq⟩ := (atomic_patchProfile s r.userId r.data).perform_error he
    exact ⟨e, n, heq⟩
  cases haccount : (b.db.user? r.userId).filter (·.isActive) with
  | none =>
    rw [haccount] at heval
    exact .inl (hraised _ heval)
  | some user =>
    rw [haccount] at heval
    dsimp only at heval
    by_cases havailable : NicknameAvailable b.db r.data.nickname user.id
    · rw [if_pos havailable] at heval
      cases himage : r.data.profileImageUrl with
      | none =>
        rw [himage] at heval
        exact .inr (.inl ⟨user, (atomic_patchProfile s r.userId r.data).perform_ok heval⟩)
      | some url =>
        cases hfits : varchar? 255 url.toList with
        | none =>
          rw [himage] at heval
          dsimp only at heval
          rw [hfits] at heval
          exact .inl (hraised _ heval)
        | some column => exact .inr (.inr ⟨user, url, column, haccount, havailable, himage, hfits⟩)
    · rw [if_neg havailable] at heval
      exact .inl (hraised _ heval)

/-- The picture of an account after a new picture for `user`. -/
theorem mem_withPicture {user : User} {data : ProfileUpdateData s} {column : List Char} {u : User} :
    u ∈ (withPicture b user data column).db.users ↔ ∃ old ∈ b.db.users,
      u = if old.id = user.id then {data.assign old with profileImgUrl := .ofList column} else old := by
  unfold withPicture Db.modifyUser
  simp only [List.mem_map, exists_exists_and_eq_and]
  refine exists_congr fun old => and_congr_right fun _ => ?_
  by_cases hid : old.id = user.id
  · have hassign : (data.assign old).id = user.id := hid
    rw [if_pos hid, if_pos hid, if_pos hassign]
    exact eq_comm
  · rw [if_neg hid, if_neg hid, if_neg hid]
    exact eq_comm

/-- The column holds the new picture as it was sent. -/
theorem Replaces.column_eq {user : User} {url : String} {column : List Char} (h : Replaces b r user url column) :
    String.ofList column = url := by
  obtain ⟨rfl, -, hdrop⟩ := Lib.Email.varchar?_eq_some h.fits
  rw [Lib.Email.take_of_stripped (r.data.image_stripped url h.image) hdrop, String.ofList_toList]

theorem keepsPictures_iff (b : Base (Db V)) (r : ProfileRequest s) : KeepsPictures s b r ↔ Unshared s b r := by
  constructor
  · intro hkeeps user url key haccount havailable himage hfits hurl hkey hfolder hnew other hother hne
    obtain ⟨column, hcolumn⟩ := Option.isSome_iff_exists.mp hfits
    have hserve := Replaces.serve (r := r) ⟨haccount, havailable, himage, hcolumn⟩
    rw [hurl]
    refine hkeeps key ?_ other ?_
    · rw [hserve, replaced_eq_some.mpr ⟨hurl, hkey, hfolder, hnew⟩]
    · rw [patched, hserve]
      exact mem_withPicture.mpr ⟨other, hother, (if_neg hne).symm⟩
  · intro hunshared key hdeleted u hu
    rcases servePatch_cases b r with ⟨e, n, heq⟩ | ⟨user, heq⟩ | ⟨user, url, column, h⟩
    · rw [heq] at hdeleted
      cases hdeleted
    · rw [heq] at hdeleted
      cases hdeleted
    · rw [patched, h.serve] at hu
      rw [h.serve] at hdeleted
      obtain ⟨hurl, hkey, hfolder, hnew⟩ := replaced_eq_some.mp (Except.ok.inj hdeleted)
      obtain ⟨old, hold, rfl⟩ := mem_withPicture.mp hu
      rw [← hurl]
      split
      · rw [h.column_eq]
        exact hnew.symm
      · rename_i hne
        exact hunshared user url key h.account h.available h.image (by rw [h.fits]; rfl) hurl hkey hfolder hnew old
          hold hne

/-! ### Histories -/

/-- **When pictures in use are never deleted**: no request takes a picture under `profiles/`
from an account while another account has the same one. -/
theorem pictures_kept_iff (s : Storage) (b : Base (Db V)) (requests : List (ProfileRequest s)) :
    Along (patched s) (KeepsPictures s) b requests ↔ Along (patched s) (Unshared s) b requests :=
  Lib.History.along_congr (fun _ _ _ => trivial) (fun b r _ => keepsPictures_iff b r) (K := fun _ => True) trivial
    requests

end

/-! ### One picture, two accounts -/

def pictures : Storage := {bucketName := "b", regionName := "r"}

/-- The update to a picture of the bucket, by its key. -/
def takesPicture (userId : Int) (url : String)
    (hstripped : Lib.Text.stripWith Lib.Text.isSpace url.toList = url.toList)
    (hvalid : pictures.validateS3ImageUrl url = true) : ProfileRequest pictures :=
  ⟨userId, {
    profileImageUrl := some url
    image_stripped := by
      intro v h
      rw [← Option.some.inj h]
      exact hstripped
    image_valid := by
      intro v h
      rw [← Option.some.inj h]
      exact hvalid}⟩

/-- The second account takes the picture of the first, which then moves on to another one. -/
def sharedPicture : List (ProfileRequest pictures) :=
  [takesPicture 1 "https://b.s3.r.amazonaws.com/profiles/a.jpg" (by decide) (by decide),
    takesPicture 2 "https://b.s3.r.amazonaws.com/profiles/a.jpg" (by decide) (by decide),
    takesPicture 1 "https://b.s3.r.amazonaws.com/profiles/c.jpg" (by decide) (by decide)]

def twoUsers : Base (Db Unit) := ⟨{users := [{id := 1, nickname := "a"}, {id := 2, nickname := "b"}]}, 2⟩

theorem shared_picture_deleted : ¬ Along (patched pictures) (KeepsPictures pictures) twoUsers sharedPicture := by
  intro h
  obtain ⟨-, -, hkeeps, -⟩ := h
  exact hkeeps "profiles/a.jpg" rfl _ (List.mem_cons_of_mem _ List.mem_cons_self) rfl

end TravelMaker
