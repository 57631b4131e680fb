import TravelMaker.Review.Service

/-! What each review service leaves in the tables.

A call that is refused leaves them as they were; one that is accepted writes one review,
rates its place again and may add a behaviour log. -/
namespace TravelMaker
open Lib (Txn)
open Lib.Txn (Base)

variable {V α : Type}

/-- What `update_place_rating` writes when it runs on `d`. -/
def Db.rate (placeId : Int) (d : Db V) : Db V :=
  d.savePlaceRating placeId (ratingAvgOf (d.ratingsOf placeId)) (d.ratingsOf placeId).length

theorem savePlaceRating_of_missing {p : Int} {d : Db V} (h : d.place? p = none) (a : ℚ) (n : Nat) :
    d.savePlaceRating p a n = d := by
  have hmap : (d.places.map fun x => if x.id = p then {x with ratingAvg := a, ratingCount := n} else x) =
      d.places := (List.map_congr_left fun x hx => if_neg (Db.place?_none h x hx)).trans (List.map_id _)
  simp only [Db.savePlaceRating, hmap]

@[simp] theorem run_updatePlaceRating (p : Int) (c v : Db V) (n : Nat) (q : Unit → Service V α) :
    (updatePlaceRating p >>= q).run c v n = (q ()).run c (v.rate p) n := by
  cases hp : v.place? p with
  | none => simp [updatePlaceRating, Txn.run, hp, Db.rate, savePlaceRating_of_missing hp]
  | some place => simp [updatePlaceRating, Txn.run, hp, Db.rate]

/-- The user has a route of that id that visits the place. -/
def Db.Visits (d : Db V) (userId placeId routeId : Int) : Prop :=
  ∃ route ∈ d.routes, route.id = routeId ∧ route.userId = userId ∧ placeId ∈ route.placeIds

instance (d : Db V) (userId placeId routeId : Int) : Decidable (d.Visits userId placeId routeId) :=
  inferInstanceAs (Decidable (∃ route ∈ d.routes, _))

/-- The route check changes nothing: it raises, or returns the route it was given, which is
one of the user's that visits the place. -/
theorem run_getReviewRoute (userId p : Int) (routeId : Option Int) (v : Db V) :
    (∃ e, ∀ (c : Db V) (n : Nat) (q : Option Int → Service V α),
      (getReviewRoute userId p routeId >>= q).run c v n = ⟨.error e, c, c, n⟩) ∨
    (∀ id ∈ routeId, v.Visits userId p id) ∧ ∀ (c : Db V) (n : Nat) (q : Option Int → Service V α),
      (getReviewRoute userId p routeId >>= q).run c v n = (q routeId).run c v n := by
  cases routeId with
  | none => exact .inr ⟨(fun _ h => nomatch h), fun c n q => rfl⟩
  | some id =>
    cases hr : v.routes.find? (fun r => r.id == id && r.userId == userId) with
    | none => exact .inl ⟨routeNotFound, fun c n q => by simp [getReviewRoute, Txn.run, hr]⟩
    | some route =>
      by_cases hp : p ∈ route.placeIds
      · refine .inr ⟨fun i hi => ?_, fun c n q => by simp [getReviewRoute, Txn.run, hr, hp]⟩
        obtain ⟨hid, howner⟩ : route.id = id ∧ route.userId = userId := by simpa using List.find?_some hr
        rw [← Option.some.inj hi]
        exact ⟨route, List.mem_of_find?_eq_some hr, hid, howner, hp⟩
      · exact .inl ⟨routeNotIncluded, fun c n q => by simp [getReviewRoute, Txn.run, hr, hp]⟩

theorem run_recordReview (now : Instant) (userId : Int) (place : Place) (rating : Rating) (v c : Db V)
    (n : Nat) (q : UserActionLog → Service V α) :
    ∃ log, (recordAction now userId place .review (some rating) >>= q).run c v n =
      (q log).run c (v.insertActionLog log) (n + 1) := by
  obtain ⟨a, ha⟩ := computeFinalWeight_ok .review v place (some rating) (fun _ => rfl)
  simp only [recordAction, Txn.read_bind, Txn.query_bind, Txn.run, ha, Txn.fresh_bind, Txn.nextval_bind,
    Txn.put_bind, Txn.write_bind, Txn.pure_eq, Txn.ret_bind]
  exact ⟨_, rfl⟩

/-- The `INSERT`, by the column, the unique index and the foreign key. -/
theorem run_insertReviewRow (review : Review) (c v : Db V) (n : Nat) (q : Unit → Service V α) :
    (insertReviewRow review >>= q).run c v n =
      if imageUrlFits review.imageUrl = false then ⟨.error .databaseError, c, c, n⟩
      else if v.reviewedBy review.userId review.placeId = false ∧ (v.user? review.userId).isSome = true then
        (q ()).run c (v.insertReview review) n
      else ⟨.error .integrityError, c, c, n⟩ := by
  cases hfits : imageUrlFits review.imageUrl with
  | false =>
    simp only [insertReviewRow, Txn.orRaise_bind, hfits, Bool.false_eq_true, if_false, if_true]
    rfl
  | true =>
    simp only [insertReviewRow, Txn.put_bind, Txn.write_bind, Txn.orRaise_bind, Txn.run, hfits, if_true, Bool.true_eq_false,
      if_false]
    split <;> rfl

/-- The `UPDATE` of a row that is there. -/
theorem run_saveReview {reviewId : Int} {v : Db V} (hany : v.reviews.any (·.id == reviewId) = true)
    (data : ReviewUpdateData) (c : Db V) (n : Nat) (q : Unit → Service V α) :
    (saveReview reviewId data >>= q).run c v n =
      if imageUrlFits (data.imageUrl.getD none) = false then ⟨.error .databaseError, c, c, n⟩
      else (q ()).run c (v.modifyReview reviewId data.assign) n := by
  cases hfits : imageUrlFits (data.imageUrl.getD none) with
  | false =>
    simp only [saveReview, Txn.orRaise_bind, hfits, Bool.false_eq_true, if_false, if_true]
    rfl
  | true =>
    simp only [saveReview, Txn.put_bind, Txn.write_bind, Txn.orRaise_bind, Txn.run, hfits, hany, if_true, Bool.true_eq_false,
      if_false]

/-- `create_review` is refused, or adds one review of a stored place, with a route of the
user's that visits it, and rates it. -/
theorem createReview_cases (now : Instant) (userId p : Int) (data : ReviewCreateData) (b : Base (Db V)) :
    (∃ m, b.seq ≤ m ∧ ((createReview now userId p data).perform b).2 = ⟨b.db, m⟩) ∨
    ∃ logs m, b.seq < m ∧ (∃ place ∈ b.db.places, place.id = p) ∧ (∀ id ∈ data.routeId, b.db.Visits userId p id) ∧
      ((createReview now userId p data).perform b).2 =
        ⟨((b.db.insertReview (data.row b.seq userId p data.routeId)).rate p).addActionLogs logs, m⟩ := by
  cases hp : b.db.place? p with
  | none =>
    refine .inl ⟨b.seq, Nat.le_refl _, ?_⟩
    simp [createReview, getPlaceOr404, Txn.perform, Txn.run, hp]
  | some place =>
    have hplace := Db.place?_some hp
    simp only [createReview, getPlaceOr404, Txn.perform, Txn.read_bind, Txn.query_bind, Txn.run, hp,
      Txn.pure_eq, Txn.ret_bind, Txn.orRaise_bind]
    split
    · rcases run_getReviewRoute (α := Int) userId p data.routeId b.db with
        ⟨e, he⟩ | ⟨hvisits, hroute⟩
      · exact .inl ⟨b.seq, Nat.le_refl _, by rw [he]⟩
      simp only [hroute, Txn.fresh_bind, Txn.run, run_insertReviewRow, run_updatePlaceRating]
      split
      · exact .inl ⟨b.seq + 1, Nat.le_succ _, rfl⟩
      split
      case isFalse => exact .inl ⟨b.seq + 1, Nat.le_succ _, rfl⟩
      right
      split
      · exact ⟨[], b.seq + 1, Nat.lt_succ_self _, ⟨place, hplace⟩, hvisits, by rw [Db.addActionLogs_nil]; rfl⟩
      · obtain ⟨log, hlog⟩ := run_recordReview (α := Int) now userId place data.rating
          ((b.db.insertReview (data.row b.seq userId p data.routeId)).rate p) b.db (b.seq + 1)
          fun _ => .ret (b.seq : Int)
        exact ⟨[log], b.seq + 2, by omega, ⟨place, hplace⟩, hvisits, by rw [hlog]; rfl⟩
    · exact .inl ⟨b.seq, Nat.le_refl _, rfl⟩

/-- `update_review` is refused, or writes one review of the user's, with a route of the user's
that visits its place, and rates the place. -/
theorem updateReview_cases (userId reviewId : Int) (data : ReviewUpdateData) (b : Base (Db V)) :
    ((updateReview userId reviewId data).perform b).2 = b ∨
    ∃ review, b.db.review? reviewId = some review ∧ review.userId = userId ∧
      (∀ id ∈ data.routeId.getD none, b.db.Visits userId review.placeId id) ∧
      ((updateReview userId reviewId data).perform b).2 =
        ⟨(b.db.modifyReview reviewId data.assign).rate review.placeId, b.seq⟩ := by
  cases hr : b.db.review? reviewId with
  | none =>
    left
    simp [updateReview, Txn.perform, Txn.run, hr]
  | some review =>
    have hany : b.db.reviews.any (·.id == reviewId) = true :=
      List.any_eq_true.mpr ⟨review, (Db.review?_some hr).1, by simpa using (Db.review?_some hr).2⟩
    simp only [updateReview, Txn.perform, Txn.read_bind, Txn.run, hr, Txn.orRaise_bind]
    split
    · rename_i howner
      rcases run_getReviewRoute (α := Unit) userId review.placeId (data.routeId.getD none) b.db with
        ⟨e, he⟩ | ⟨hvisits, hroute⟩
      · left
        rw [he]
      · simp only [hroute, run_saveReview hany]
        split
        · exact .inl rfl
        right
        refine ⟨review, rfl, howner, hvisits, ?_⟩
        have hrate := run_updatePlaceRating (V := V) (α := Unit) review.placeId b.db
          (b.db.modifyReview reviewId data.assign) b.seq pure
        rw [bind_pure] at hrate
        rw [hrate]
        rfl
    · exact .inl rfl

/-- `delete_review` is refused, or removes one review and rates its place. -/
theorem deleteReview_cases (userId reviewId : Int) (b : Base (Db V)) :
    ((deleteReview userId reviewId).perform b).2 = b ∨
    ∃ review, b.db.review? reviewId = some review ∧
      ((deleteReview userId reviewId).perform b).2 =
        ⟨(b.db.deleteReview reviewId).rate review.placeId, b.seq⟩ := by
  cases hr : b.db.review? reviewId with
  | none =>
    left
    simp [deleteReview, Txn.perform, Txn.run, hr]
  | some review =>
    simp only [deleteReview, Txn.perform, Txn.read_bind, Txn.run, hr, Txn.orRaise_bind]
    split
    · right
      refine ⟨review, rfl, ?_⟩
      have hrate := run_updatePlaceRating (V := V) (α := Unit) review.placeId b.db
        (b.db.deleteReview reviewId) b.seq pure
      rw [bind_pure] at hrate
      simp only [Txn.put_bind, Txn.run, hrate, Txn.pure_eq]
    · exact .inl rfl

end TravelMaker
