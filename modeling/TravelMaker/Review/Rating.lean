import TravelMaker.Lib.History
import TravelMaker.Review.Effect
import TravelMaker.User.Account

/-! When the denormalised ratings agree with the reviews.

`create_review`, `update_review` and `delete_review` restore the two columns of the
place they touch. `purge_withdrawn_users` removes reviews through the cascade from
their author and does not: `ratings_ok_iff` is the exact condition on a history. -/
namespace TravelMaker
open Lib (Txn)
open Lib.Txn (Base)
open Lib.History (states Along)

variable {V : Type}

/-! ### Agreement -/

/-- The columns of a place say what its reviews say. -/
structure Agrees (d : Db V) (place : Place) : Prop where
  count : place.ratingCount = (d.ratingsOf place.id).length
  avg : place.ratingAvg = ratingAvgOf (d.ratingsOf place.id)

def RatingsOk (d : Db V) : Prop := ∀ place ∈ d.places, Agrees d place

instance (d : Db V) (place : Place) : Decidable (Agrees d place) :=
  decidable_of_iff (place.ratingCount = (d.ratingsOf place.id).length ∧
      place.ratingAvg = ratingAvgOf (d.ratingsOf place.id))
    ⟨fun h => ⟨h.1, h.2⟩, fun h => ⟨h.count, h.avg⟩⟩

instance (d : Db V) : Decidable (RatingsOk d) :=
  inferInstanceAs (Decidable (∀ place ∈ d.places, Agrees d place))

theorem Agrees.congr {d d' : Db V} {place : Place} (h : Agrees d place)
    (hr : d'.ratingsOf place.id = d.ratingsOf place.id) : Agrees d' place :=
  ⟨by rw [hr]; exact h.count, by rw [hr]; exact h.avg⟩

/-- The mean of ratings between 1 and 5 is between 1 and 5, and so is what is shown of it. -/
theorem ratingAvgOf_mem {ratings : List Nat} (hne : ratings ≠ []) (h : ∀ r ∈ ratings, 1 ≤ r ∧ r ≤ 5) :
    1 ≤ ratingAvgOf ratings ∧ ratingAvgOf ratings ≤ 5 := by
  have hlow : ratings.length * 1 ≤ ratings.sum := List.card_nsmul_le_sum ratings 1 fun r hr => (h r hr).1
  have hhigh : ratings.sum ≤ ratings.length * 5 := List.sum_le_card_nsmul ratings 5 fun r hr => (h r hr).2
  have hpos : (0 : ℚ) < ratings.length := by exact_mod_cast List.length_pos_of_ne_nil hne
  have hmean : ((1 : ℕ) : ℚ) ≤ ratings.sum / ratings.length ∧ ratings.sum / ratings.length ≤ ((5 : ℕ) : ℚ) := by
    rw [le_div_iff₀ hpos, div_le_iff₀ hpos]
    refine ⟨?_, ?_⟩
    · exact_mod_cast (Nat.mul_comm _ _).trans_le hlow
    · exact_mod_cast hhigh.trans_eq (Nat.mul_comm _ _)
  unfold ratingAvgOf avg
  rw [if_neg hne]
  exact_mod_cast Lib.roundTenth_mem Nat.one_pos (by norm_num) hmean

/-- What a place shows is on the scale of the ratings. -/
theorem Agrees.scale {d : Db V} {place : Place} (h : Agrees d place) :
    (place.ratingCount = 0 ∧ place.ratingAvg = 0) ∨ (1 ≤ place.ratingAvg ∧ place.ratingAvg ≤ 5) := by
  rw [h.count, h.avg]
  by_cases hne : d.ratingsOf place.id = []
  · rw [hne]
    exact .inl ⟨rfl, rfl⟩
  · refine .inr (ratingAvgOf_mem hne fun r hr => ?_)
    obtain ⟨review, -, rfl⟩ := List.mem_map.mp hr
    exact ⟨review.rating.one_le, review.rating.le_five⟩

@[simp] theorem ratingsOf_savePlaceRating (p q : Int) (a : ℚ) (n : Nat) (d : Db V) :
    (d.savePlaceRating p a n).ratingsOf q = d.ratingsOf q := rfl

@[simp] theorem ratingsOf_rate (p q : Int) (d : Db V) : (d.rate p).ratingsOf q = d.ratingsOf q := rfl

/-- A place of the written table is either the one rated or an old one. -/
theorem mem_savePlaceRating {p : Int} {a : ℚ} {n : Nat} {d : Db V} {place : Place}
    (h : place ∈ (d.savePlaceRating p a n).places) :
    (place.id = p ∧ place.ratingAvg = a ∧ place.ratingCount = n) ∨ (place.id ≠ p ∧ place ∈ d.places) := by
  obtain ⟨x, hx, rfl⟩ := List.mem_map.mp h
  split
  · rename_i hid
    exact .inl ⟨hid, rfl, rfl⟩
  · rename_i hid
    exact .inr ⟨hid, hx⟩

/-- **Rating a place restores its columns**, and spoils no other, provided the
reviews of the others are as they were. -/
theorem RatingsOk.rate {d d' : Db V} (h : RatingsOk d) (p : Int) (hplaces : d'.places = d.places)
    (hothers : ∀ q, q ≠ p → d'.ratingsOf q = d.ratingsOf q) : RatingsOk (d'.rate p) := by
  intro place hplace
  rcases mem_savePlaceRating hplace with ⟨hid, ha, hn⟩ | ⟨hid, hold⟩
  · exact ⟨by rw [ratingsOf_rate, hid]; exact hn, by rw [ratingsOf_rate, hid]; exact ha⟩
  · rw [hplaces] at hold
    exact (h place hold).congr (hothers place.id hid)

/-! ### Purges -/

/-- The columns of a review that the ratings depend on. -/
structure ReviewKey where
  id : Int
  userId : Int
  placeId : Int
  rating : Nat
deriving DecidableEq

def Review.key (r : Review) : ReviewKey := ⟨r.id, r.userId, r.placeId, r.rating.value⟩

def Db.reviewKeys (d : Db V) : List ReviewKey := d.reviews.map Review.key

theorem ratingsOf_eq (d : Db V) (p : Int) :
    d.ratingsOf p = (d.reviewKeys.filter (·.placeId == p)).map (·.rating) := by
  simp only [Db.ratingsOf, Db.reviewsOf, Db.reviewKeys, List.filter_map, List.map_map]
  rfl

theorem deleteUser_keys (id : Int) (d : Db V) :
    (d.deleteUser id).reviewKeys = d.reviewKeys.filter (·.userId != id) := by
  simp only [Db.reviewKeys, Db.deleteUser, List.map_map, List.filter_map]
  refine List.map_congr_left fun r _ => ?_
  simp only [Function.comp_apply]
  split <;> rfl

/-- The reviews that a purge leaves are those of the users it does not delete. -/
theorem deleteUsers_keys (users : List User) (d : Db V) :
    (users.foldl (fun d u => d.deleteUser u.id) d).reviewKeys =
      d.reviewKeys.filter fun k => users.all (·.id != k.userId) := by
  induction users generalizing d with
  | nil => simp
  | cons u rest ih =>
    rw [List.foldl_cons, ih, deleteUser_keys, List.filter_filter]
    congr 1
    funext k
    simp [Bool.and_comm, bne_comm]

theorem deleteUsers_places (users : List User) (d : Db V) :
    (users.foldl (fun d u => d.deleteUser u.id) d).places = d.places := by
  induction users generalizing d with
  | nil => rfl
  | cons u rest ih => exact ih (d.deleteUser u.id)

/-! ### Calls -/

inductive ReviewCall where
  | create (now : Instant) (userId placeId : Int) (data : ReviewCreateData)
  | update (userId reviewId : Int) (data : ReviewUpdateData)
  | delete (userId reviewId : Int)
  | withdraw (now : Instant) (user : User) (reason : String)
  | purge (now : Instant)

def ReviewCall.serve (b : Base (Db V)) : ReviewCall → Base (Db V)
  | .create now userId placeId data => ((createReview now userId placeId data).perform b).2
  | .update userId reviewId data => ((updateReview userId reviewId data).perform b).2
  | .delete userId reviewId => ((deleteReview userId reviewId).perform b).2
  | .withdraw now user reason => ((withdrawUser now user reason).perform b).2
  | .purge now => ((purgeWithdrawnUsers now).perform b).2

/-- A purge deletes no author of a review; the other calls are free. -/
def ReviewCall.Safe (b : Base (Db V)) : ReviewCall → Prop
  | .purge now => ∀ user ∈ b.db.purged now, ∀ review ∈ b.db.reviews, review.userId ≠ user.id
  | _ => True

/-- Review ids are distinct and were drawn from the sequence; every review is of a
stored place. -/
structure KeysOk (keys : List ReviewKey) (placeIds : List Int) (seq : Nat) : Prop where
  nodup : (keys.map (·.id)).Nodup
  drawn : ∀ k ∈ keys, k.id < seq
  placed : ∀ k ∈ keys, k.placeId ∈ placeIds

def Db.placeIds (d : Db V) : List Int := d.places.map (·.id)

def ReviewsOk (b : Base (Db V)) : Prop := KeysOk b.db.reviewKeys b.db.placeIds b.seq

theorem KeysOk.sublist {keys keys' : List ReviewKey} {placeIds : List Int} {n m : Nat}
    (h : KeysOk keys placeIds n) (hs : keys'.Sublist keys) (hm : n ≤ m) : KeysOk keys' placeIds m where
  nodup := h.nodup.sublist (hs.map _)
  drawn := fun k hk => Int.lt_of_lt_of_le (h.drawn k (hs.subset hk)) (Int.ofNat_le.mpr hm)
  placed := fun k hk => h.placed k (hs.subset hk)

theorem KeysOk.append {keys : List ReviewKey} {placeIds : List Int} {n m : Nat} (h : KeysOk keys placeIds n)
    {k : ReviewKey} (hid : k.id = n) (hp : k.placeId ∈ placeIds) (hm : n < m) :
    KeysOk (keys ++ [k]) placeIds m := by
  refine ⟨?_, fun x hx => ?_, fun x hx => ?_⟩
  · rw [List.map_append]
    refine h.nodup.append (List.nodup_singleton _) fun id hold hnew => ?_
    obtain ⟨x, hx, rfl⟩ := List.mem_map.mp hold
    have hlt := h.drawn x hx
    have heq : x.id = k.id := List.mem_singleton.mp hnew
    omega
  · rcases List.mem_append.mp hx with hx | hx
    · have := h.drawn x hx
      omega
    · rw [List.mem_singleton.mp hx]
      omega
  · rcases List.mem_append.mp hx with hx | hx
    · exact h.placed x hx
    · exact List.mem_singleton.mp hx ▸ hp

/-- Ratings may change as they like. -/
theorem KeysOk.map {keys : List ReviewKey} {placeIds : List Int} {n : Nat} (h : KeysOk keys placeIds n)
    {f : ReviewKey → ReviewKey} (hf : ∀ k, (f k).id = k.id ∧ (f k).placeId = k.placeId) :
    KeysOk (keys.map f) placeIds n := by
  refine ⟨?_, fun x hx => ?_, fun x hx => ?_⟩
  · have hids : (keys.map f).map (·.id) = keys.map (·.id) := by
      rw [List.map_map]
      exact List.map_congr_left fun k _ => (hf k).1
    rw [hids]
    exact h.nodup
  · obtain ⟨k, hk, rfl⟩ := List.mem_map.mp hx
    rw [(hf k).1]
    exact h.drawn k hk
  · obtain ⟨k, hk, rfl⟩ := List.mem_map.mp hx
    rw [(hf k).2]
    exact h.placed k hk

theorem placeIds_savePlaceRating (p : Int) (a : ℚ) (n : Nat) (d : Db V) :
    (d.savePlaceRating p a n).placeIds = d.placeIds := by
  simp only [Db.placeIds, Db.savePlaceRating, List.map_map]
  refine List.map_congr_left fun x _ => ?_
  simp only [Function.comp_apply]
  split <;> rfl

/-- The rated tables have the reviews they were rated from. -/
theorem ReviewsOk.rate {d : Db V} {m : Nat} (h : ReviewsOk ⟨d, m⟩) (p : Int) : ReviewsOk ⟨d.rate p, m⟩ := by
  show KeysOk d.reviewKeys (d.savePlaceRating p _ _).placeIds m
  rw [placeIds_savePlaceRating]
  exact h

/-- Two reviews with one id are one review. -/
theorem ReviewsOk.review_eq {b : Base (Db V)} (h : ReviewsOk b) {r r' : Review} (hr : r ∈ b.db.reviews)
    (hr' : r' ∈ b.db.reviews) (hid : r.id = r'.id) : r = r' := by
  have hnodup : (b.db.reviews.map (·.id)).Nodup := by
    have := h.nodup
    rwa [Db.reviewKeys, List.map_map] at this
  exact List.inj_on_of_nodup_map hnodup hr hr' hid

theorem modifyReview_keys (id : Int) (data : ReviewUpdateData) (d : Db V) :
    (d.modifyReview id data.assign).reviewKeys = d.reviewKeys.map fun k =>
      if k.id = id then {k with rating := (data.rating.map (·.value)).getD k.rating} else k := by
  simp only [Db.reviewKeys, Db.modifyReview, List.map_map]
  refine List.map_congr_left fun r _ => ?_
  by_cases hid : r.id = id
  · cases hd : data.rating <;> simp [hid, Review.key, ReviewUpdateData.assign, hd]
  · simp [hid, Review.key]

theorem keys_serve (b : Base (Db V)) (call : ReviewCall) (h : ReviewsOk b) : ReviewsOk (call.serve b) := by
  cases call with
  | create now userId p data =>
    rcases createReview_cases now userId p data b with ⟨m, hm, hs⟩ | ⟨logs, m, hm, ⟨place, hplace, rfl⟩, -, hs⟩
    · simp only [ReviewCall.serve, hs]
      exact h.sublist (List.Sublist.refl _) hm
    · simp only [ReviewCall.serve, hs]
      have happ := h.append (k := (data.row b.seq userId place.id data.routeId).key) rfl
        (List.mem_map_of_mem hplace) hm
      have hadded : ReviewsOk ⟨b.db.insertReview (data.row b.seq userId place.id data.routeId), m⟩ := by
        rw [ReviewsOk, Db.reviewKeys, Db.insertReview, List.map_append]
        exact happ
      exact hadded.rate place.id
  | update userId reviewId data =>
    rcases updateReview_cases userId reviewId data b with hs | ⟨review, hr, -, -, hs⟩
    · simpa only [ReviewCall.serve, hs] using h
    · simp only [ReviewCall.serve, hs]
      have hsaved : ReviewsOk ⟨b.db.modifyReview reviewId data.assign, b.seq⟩ := by
        rw [ReviewsOk, modifyReview_keys]
        exact h.map fun k => by split <;> exact ⟨rfl, rfl⟩
      exact hsaved.rate review.placeId
  | delete userId reviewId =>
    rcases deleteReview_cases userId reviewId b with hs | ⟨review, hr, hs⟩
    · simpa only [ReviewCall.serve, hs] using h
    · simp only [ReviewCall.serve, hs]
      have hremoved : ReviewsOk ⟨b.db.deleteReview reviewId, b.seq⟩ :=
        h.sublist (List.filter_sublist.map _) (Nat.le_refl _)
      exact hremoved.rate review.placeId
  | withdraw now user reason =>
    rcases withdrawUser_cases now user reason b with hs | hs <;> simp only [ReviewCall.serve, hs] <;> exact h
  | purge now =>
    simp only [ReviewCall.serve, purgeWithdrawnUsers_perform, ReviewsOk, deleteUsers_keys, Db.placeIds,
      deleteUsers_places]
    exact h.sublist List.filter_sublist (Nat.le_refl _)

/-! ### One call -/

/-- A review service that changes only the reviews of `p` and then rates `p`. -/
theorem ratings_of_touched {b : Base (Db V)} (h : RatingsOk b.db) {d : Db V} (p : Int)
    (hplaces : d.places = b.db.places) (hothers : ∀ q, q ≠ p → d.reviewsOf q = b.db.reviewsOf q) :
    RatingsOk (d.rate p) :=
  h.rate p hplaces fun q hq => by rw [Db.ratingsOf, hothers q hq, Db.ratingsOf]

/-- **A purge keeps the ratings right exactly if it deletes no author.** -/
theorem ratings_purge {b : Base (Db V)} (hk : ReviewsOk b) (h : RatingsOk b.db) (users : List User) :
    RatingsOk (users.foldl (fun d u => d.deleteUser u.id) b.db) ↔
      ∀ user ∈ users, ∀ review ∈ b.db.reviews, review.userId ≠ user.id := by
  set d := users.foldl (fun d u => d.deleteUser u.id) b.db with hd
  have hkeys : d.reviewKeys = b.db.reviewKeys.filter fun k => users.all (·.id != k.userId) :=
    deleteUsers_keys users b.db
  have hplaces : d.places = b.db.places := deleteUsers_places users b.db
  constructor
  · intro hok user huser review hreview heq
    -- the place of a deleted review counts it still
    obtain ⟨place, hplace, hid⟩ := List.mem_map.mp (hk.placed review.key (List.mem_map_of_mem hreview))
    have hbefore := (h place hplace).count
    have hafter := (hok place (hplaces ▸ hplace)).count
    rw [hbefore, ratingsOf_eq, ratingsOf_eq, hkeys, List.length_map, List.length_map,
      List.filter_filter] at hafter
    have hlt : ((b.db.reviewKeys.filter (·.placeId == place.id)).filter
        fun k => users.all (·.id != k.userId)).length <
          (b.db.reviewKeys.filter (·.placeId == place.id)).length := by
      refine List.length_filter_lt_length_iff_exists.mpr ⟨review.key, ?_, ?_⟩
      · rw [List.mem_filter]
        exact ⟨List.mem_map_of_mem hreview, by simpa using hid.symm⟩
      · simp only [List.all_eq_true, bne_iff_ne, ne_eq, not_forall, not_not]
        exact ⟨user, huser, heq.symm⟩
    rw [List.filter_filter] at hlt
    simp only [Bool.and_comm] at hlt hafter
    omega
  · intro hsafe place hplace
    rw [hplaces] at hplace
    apply (h place hplace).congr
    have hsame : d.reviewKeys = b.db.reviewKeys := by
      rw [hkeys, List.filter_eq_self]
      intro k hk
      obtain ⟨review, hreview, rfl⟩ := List.mem_map.mp hk
      simp only [List.all_eq_true, bne_iff_ne, ne_eq]
      exact fun user huser => Ne.symm (hsafe user huser review hreview)
    rw [ratingsOf_eq, ratingsOf_eq, hsame]

theorem ratings_serve (b : Base (Db V)) (call : ReviewCall) (hk : ReviewsOk b) (h : RatingsOk b.db) :
    RatingsOk (call.serve b).db ↔ call.Safe b := by
  cases call with
  | create now userId p data =>
    simp only [ReviewCall.Safe, iff_true]
    rcases createReview_cases now userId p data b with ⟨m, hm, hs⟩ | ⟨logs, m, hm, hplace, -, hs⟩
    · simpa only [ReviewCall.serve, hs] using h
    · simp only [ReviewCall.serve, hs]
      have hrated := ratings_of_touched h (d := b.db.insertReview (data.row b.seq userId p data.routeId)) p
        rfl fun q hq => by
          have hne : (data.row b.seq userId p data.routeId).placeId ≠ q := Ne.symm hq
          simp [hne]
      exact fun place hplace => (hrated place hplace).congr rfl
  | update userId reviewId data =>
    simp only [ReviewCall.Safe, iff_true]
    rcases updateReview_cases userId reviewId data b with hs | ⟨review, hr, -, -, hs⟩
    · simpa only [ReviewCall.serve, hs] using h
    · simp only [ReviewCall.serve, hs]
      obtain ⟨hmem, rfl⟩ := Db.review?_some hr
      refine ratings_of_touched h review.placeId rfl fun q hq => ?_
      rw [Db.reviewsOf_modifyReview review.id data.assign (fun _ => rfl)]
      refine (List.map_congr_left fun r hr => if_neg fun hid => hq ?_).trans (List.map_id _)
      have hr := Db.mem_reviewsOf.mp hr
      rw [← hr.2, hk.review_eq hr.1 hmem hid]
  | delete userId reviewId =>
    simp only [ReviewCall.Safe, iff_true]
    rcases deleteReview_cases userId reviewId b with hs | ⟨review, hr, hs⟩
    · simpa only [ReviewCall.serve, hs] using h
    · simp only [ReviewCall.serve, hs]
      obtain ⟨hmem, rfl⟩ := Db.review?_some hr
      refine ratings_of_touched h review.placeId rfl fun q hq => ?_
      rw [Db.reviewsOf_deleteReview, List.filter_eq_self]
      intro r hr
      have hr := Db.mem_reviewsOf.mp hr
      simp only [bne_iff_ne, ne_eq]
      exact fun hid => hq (by rw [← hr.2, hk.review_eq hr.1 hmem hid])
  | withdraw now user reason =>
    simp only [ReviewCall.Safe, iff_true]
    rcases withdrawUser_cases now user reason b with hs | hs <;> simp only [ReviewCall.serve, hs]
    · exact h
    · exact fun place hplace => (h place hplace).congr rfl
  | purge now =>
    simp only [ReviewCall.serve, purgeWithdrawnUsers_perform]
    exact ratings_purge hk h (b.db.purged now)

/-! ### Histories -/

/-- **The ratings agree in every state exactly as long as no purge deletes the
author of a review.** -/
theorem ratings_ok_iff (b : Base (Db V)) (hreviews : b.db.reviews = [])
    (hplaces : ∀ place ∈ b.db.places, place.ratingCount = 0 ∧ place.ratingAvg = 0)
    (calls : List ReviewCall) :
    (∀ t ∈ states ReviewCall.serve b calls, RatingsOk t.db) ↔
      Along ReviewCall.serve ReviewCall.Safe b calls := by
  have hk : ReviewsOk b := by
    rw [ReviewsOk, Db.reviewKeys, hreviews]
    exact ⟨List.nodup_nil, (fun _ hk => nomatch hk), fun _ hk => nomatch hk⟩
  have hok : RatingsOk b.db := by
    intro place hplace
    have hnone : b.db.ratingsOf place.id = [] := by simp [Db.ratingsOf, Db.reviewsOf, hreviews]
    obtain ⟨hcount, havg⟩ := hplaces place hplace
    exact ⟨by rw [hcount, hnone]; rfl, by rw [havg, hnone]; rfl⟩
  exact Lib.History.forall_states_iff keys_serve ratings_serve hk hok calls

/-- One user and one place. -/
def Db.oneReader : Db Unit where
  users := [{id := 1}]
  places := [{id := 1, contentId := 1, contentTypeId := 12}]

def ReviewCreateData.fiveStars : ReviewCreateData where
  rating := ⟨5, by decide, by decide⟩
  content := "좋아요"
  content_length := by decide

/-- A review whose author withdraws and is purged fifteen days later. -/
def reviewThenPurge : List ReviewCall :=
  [.create 0 1 1 .fiveStars, .withdraw 0 {id := 1} "기타", .purge (timedeltaDays 15)]

theorem purge_breaks_ratings :
    ¬ ∀ t ∈ states ReviewCall.serve ⟨Db.oneReader, 1⟩ reviewThenPurge, RatingsOk t.db := by
  decide +kernel

theorem ratings_ok_iff_oneReader :
    (∀ t ∈ states ReviewCall.serve ⟨Db.oneReader, 1⟩ reviewThenPurge, RatingsOk t.db) ↔
      Along ReviewCall.serve ReviewCall.Safe ⟨Db.oneReader, 1⟩ reviewThenPurge :=
  ratings_ok_iff ⟨Db.oneReader, 1⟩ rfl (by decide) reviewThenPurge

end TravelMaker
