import TravelMaker.User.ProfilePicture

/-! Accepted picture URLs, and the URLs of the bucket.

`validate_s3_image_url` looks at the start of the host name, `key_from_img_url` at the host
name to its end. `accepted_own_iff` says which URLs the one accepts and the other does not
know, and which profile updates leave such a picture behind. -/
namespace TravelMaker
open Lib.Txn (Base)
open Lib.History (states Along)

variable {V : Type}

namespace Storage
variable (s : Storage)

/-- The URL is that of an object of the bucket, and leads back to its key. -/
def OwnUrl (url : String) : Prop := ∃ key, s.keyFromImgUrl url = some key ∧ s.imgUrl key = url

/-- After the bucket name, the URL goes on as those of the bucket do. -/
def HostEnds (url : String) : Prop :=
  ∀ rest, url = "https://" ++ s.bucketName ++ rest → ∃ key, rest = ".s3." ++ s.regionName ++ ".amazonaws.com/" ++ key

variable {s} {url : String}

theorem validate_iff (hne : url ≠ "") :
    s.validateS3ImageUrl url = true ↔ ∃ rest, url = "https://" ++ s.bucketName ++ rest := by
  unfold validateS3ImageUrl
  rw [beq_false_of_ne hne, Bool.false_or, List.isPrefixOf_iff_prefix, Lib.Text.prefix_iff]

theorem ownUrl_iff : s.OwnUrl url ↔ ∃ key, url = s.imgUrl key := by
  unfold OwnUrl
  simp only [keyFromImgUrl_eq_some]
  exact exists_congr fun key => and_iff_left_of_imp Eq.symm

theorem imgUrl_eq (key : String) :
    s.imgUrl key = "https://" ++ s.bucketName ++ (".s3." ++ s.regionName ++ ".amazonaws.com/" ++ key) := by
  simp only [imgUrl, String.append_assoc]

/-- An accepted URL is one of the bucket exactly where its host name ends so. -/
theorem accepted_ownUrl_iff (hne : url ≠ "") : (s.validateS3ImageUrl url = true → s.OwnUrl url) ↔ s.HostEnds url := by
  have hrest : ∀ rest, s.OwnUrl ("https://" ++ s.bucketName ++ rest) ↔
      ∃ key, rest = ".s3." ++ s.regionName ++ ".amazonaws.com/" ++ key := by
    intro rest
    rw [ownUrl_iff]
    exact exists_congr fun key => by rw [imgUrl_eq, String.append_right_inj]
  rw [validate_iff hne]
  constructor
  · intro h rest hurl
    have hown := h ⟨rest, hurl⟩
    rw [hurl] at hown
    exact (hrest rest).mp hown
  · intro h hstarts
    obtain ⟨rest, rfl⟩ := hstarts
    exact (hrest rest).mpr (h rest rfl)

end Storage

/-! ### Profile updates -/

section
variable (s : Storage)

/-- Every picture is one of the bucket. -/
def PicturesOwn (d : Db V) : Prop := ∀ u ∈ d.users, u.profileImgUrl ≠ "" → s.OwnUrl u.profileImgUrl

/-- A picture that the update gives to its account has the host name of the bucket. -/
def TakesOwn (b : Base (Db V)) (r : ProfileRequest s) : Prop :=
  ∀ user url column, Replaces b r user url column → url ≠ "" → s.HostEnds url

variable {s} {b : Base (Db V)} {r : ProfileRequest s}

/-- New texts leave the pictures. -/
theorem picturesOwn_withTexts (h : PicturesOwn s b.db) (user : User) : PicturesOwn s (withTexts b user r.data).db := by
  intro u hu
  obtain ⟨old, hold, rfl⟩ := List.mem_map.mp hu
  by_cases hid : old.id = user.id
  · rw [if_pos hid]
    exact h old hold
  · rw [if_neg hid]
    exact h old hold

/-- A new picture is that of its account, and the others stay. -/
theorem picturesOwn_withPicture (h : PicturesOwn s b.db) {user : User} {url : String} {column : List Char}
    (hreplaces : Replaces b r user url column) :
    PicturesOwn s (withPicture b user r.data column).db ↔ (url ≠ "" → s.OwnUrl url) := by
  constructor
  · intro hown hne
    have huser : user ∈ b.db.users := List.mem_of_find?_eq_some (Option.filter_eq_some_iff.mp hreplaces.account).1
    have hpicture := hown _ (mem_withPicture.mpr ⟨user, huser, rfl⟩)
    rw [if_pos rfl, hreplaces.column_eq] at hpicture
    exact hpicture hne
  · intro hown u hu
    obtain ⟨old, hold, rfl⟩ := mem_withPicture.mp hu
    split
    · rw [hreplaces.column_eq]
      exact hown
    · exact h old hold

/-- The update keeps the pictures of the bucket where it takes one of the bucket. -/
theorem picturesOwn_patched (h : PicturesOwn s b.db) : PicturesOwn s (patched s b r).db ↔ TakesOwn s b r := by
  have hserve : patched s b r = (servePatch s b r).2 := rfl
  have haccepted : ∀ {user url column}, Replaces b r user url column → url ≠ "" → (s.OwnUrl url ↔ s.HostEnds url) := by
    intro user url column hreplaces hne
    rw [← Storage.accepted_ownUrl_iff hne, r.data.image_valid url hreplaces.image]
    exact ⟨fun hown _ => hown, fun hown => hown rfl⟩
  by_cases htakes : ∃ user url column, Replaces b r user url column
  · obtain ⟨user, url, column, hreplaces⟩ := htakes
    rw [hserve, hreplaces.serve, picturesOwn_withPicture h hreplaces]
    constructor
    · intro hown user' url' column' hreplaces' hne
      obtain rfl := Option.some.inj (hreplaces.image.symm.trans hreplaces'.image)
      exact (haccepted hreplaces hne).mp (hown hne)
    · intro htakes hne
      exact (haccepted hreplaces hne).mpr (htakes user url column hreplaces hne)
  · refine iff_of_true ?_ fun user url column hreplaces => absurd ⟨user, url, column, hreplaces⟩ htakes
    rw [hserve]
    rcases servePatch_cases b r with ⟨e, n, heq⟩ | ⟨user, heq⟩ | hreplaces
    · rw [heq]
      exact h
    · rw [heq]
      exact picturesOwn_withTexts h user
    · exact absurd hreplaces htakes

end

/-- **Accepted URLs.** An accepted URL is that of an object of the bucket, found by its key, exactly if
its host name goes on as the bucket's after the bucket name. So the pictures of the accounts
stay those of the bucket, through any profile updates, exactly if every update that is
taken sends such a URL. -/
theorem accepted_own_iff (s : Storage) :
    (∀ url, url ≠ "" → ((s.validateS3ImageUrl url = true → s.OwnUrl url) ↔ s.HostEnds url)) ∧
      ∀ (b : Base (Db V)) (requests : List (ProfileRequest s)), PicturesOwn s b.db →
        ((∀ t ∈ states (patched s) b requests, PicturesOwn s t.db) ↔ Along (patched s) (TakesOwn s) b requests) := by
  refine ⟨fun url hne => Storage.accepted_ownUrl_iff hne, fun b requests h => ?_⟩
  exact Lib.History.forall_states_iff (K := fun _ => True) (I := fun t : Base (Db V) => PicturesOwn s t.db) (fun _ _ _ => trivial)
    (fun _ _ _ hown => picturesOwn_patched hown) trivial h requests

/-- A host that begins with the name of the bucket. -/
def foreignPicture : ProfileRequest pictures :=
  takesPicture 1 "https://b.evil.example/profiles/a.jpg" (by decide) (by decide)

/-- Each of them with a picture. -/
def picturedUsers : Base (Db Unit) :=
  ⟨{users := [{id := 1, nickname := "a", profileImgUrl := pictures.imgUrl "profiles/a.jpg"},
    {id := 2, nickname := "b", profileImgUrl := pictures.imgUrl "profiles/b.jpg"}]}, 2⟩

/-- One update to a picture of the bucket, and one to another. -/
def ownThenForeign : List (ProfileRequest pictures) :=
  [takesPicture 2 "https://b.s3.r.amazonaws.com/profiles/new.jpg" (by decide) (by decide), foreignPicture]

theorem accepted_own_iff_foreign :
    ((pictures.validateS3ImageUrl "https://b.evil.example/profiles/a.jpg" = true →
      pictures.OwnUrl "https://b.evil.example/profiles/a.jpg") ↔ pictures.HostEnds "https://b.evil.example/profiles/a.jpg") ∧
    ((∀ t ∈ states (patched pictures) picturedUsers ownThenForeign, PicturesOwn pictures t.db) ↔
      Along (patched pictures) (TakesOwn pictures) picturedUsers ownThenForeign) := by
  obtain ⟨hurl, hhistory⟩ := accepted_own_iff (V := Unit) pictures
  have hown : PicturesOwn pictures picturedUsers.db :=
    List.forall_mem_cons.mpr ⟨fun _ => Storage.ownUrl_iff.mpr ⟨_, rfl⟩,
      List.forall_mem_singleton.mpr fun _ => Storage.ownUrl_iff.mpr ⟨_, rfl⟩⟩
  exact ⟨hurl _ (by decide), hhistory picturedUsers ownThenForeign hown⟩

/-- It is accepted and becomes the picture of the account, and has no key. -/
theorem foreign_accepted :
    ¬(pictures.validateS3ImageUrl "https://b.evil.example/profiles/a.jpg" = true →
      pictures.OwnUrl "https://b.evil.example/profiles/a.jpg") ∧
    ¬∀ t ∈ states (patched pictures) twoUsers [foreignPicture], PicturesOwn pictures t.db := by
  have hforeign : ¬pictures.OwnUrl "https://b.evil.example/profiles/a.jpg" := by
    intro h
    obtain ⟨key, hkey, -⟩ := h
    rw [show pictures.keyFromImgUrl "https://b.evil.example/profiles/a.jpg" = none by decide] at hkey
    cases hkey
  refine ⟨fun h => hforeign (h (by decide)), fun h => hforeign ?_⟩
  have hlast := h (patched pictures twoUsers foreignPicture) (List.mem_cons_of_mem _ List.mem_cons_self)
  exact hlast {id := 1, nickname := "a", profileImgUrl := "https://b.evil.example/profiles/a.jpg"} List.mem_cons_self
    (by decide)

end TravelMaker
