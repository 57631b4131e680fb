import TravelMaker.Lib.Rounding
import TravelMaker.Route.Service

/-! Reviews: `review_serializers` and `review_services`.

A place carries its rating as two denormalised columns. Every service that touches
a review recomputes them in the same transaction, after taking the row of the
place (`update_place_rating`). -/
namespace TravelMaker
open Lib (Txn)

variable {V : Type}

/-! ### Serializers -/

/-- What `ReviewCreateSerializer` lets through. -/
structure ReviewCreateData where
  rating : Rating
  content : String
  imageUrl : Option String := none
  routeId : Option Int := none
  content_length : 1 ≤ content.length ∧ content.length ≤ 200

/-- What `ReviewUpdateSerializer` lets through: at least one field. -/
structure ReviewUpdateData where
  rating : Option Rating := none
  content : Option String := none
  imageUrl : Option (Option String) := none
  routeId : Option (Option Int) := none
  content_length : ∀ c, content = some c → 1 ≤ c.length ∧ c.length ≤ 200
  nonempty : rating.isSome ∨ content.isSome ∨ imageUrl.isSome ∨ routeId.isSome

/-! ### Errors -/

def placeNotFound : Exc := .api 404 "존재하지 않는 장소입니다."
def reviewNotFound : Exc := .api 404 "존재하지 않는 리뷰입니다."
def alreadyReviewed : Exc := .api 409 "이미 리뷰를 작성한 장소입니다."
def forbiddenReviewEdit : Exc := .api 403 "본인이 작성한 리뷰만 수정할 수 있습니다."
def forbiddenReviewDelete : Exc := .api 403 "본인이 작성한 리뷰만 삭제할 수 있습니다."
def routeNotIncluded : Exc := .api 400 "선택한 경로에 해당 장소가 포함되어 있지 않습니다."

/-! ### Rows -/

namespace Db

def insertReview (review : Review) (d : Db V) : Db V := {d with reviews := d.reviews ++ [review]}

def modifyReview (id : Int) (f : Review → Review) (d : Db V) : Db V :=
  {d with reviews := d.reviews.map fun r => if r.id = id then f r else r}

def deleteReview (id : Int) (d : Db V) : Db V := {d with reviews := d.reviews.filter (·.id != id)}

/-- `Review.objects.filter(user_id=…, place_id=…).exists()`. -/
def reviewedBy (d : Db V) (userId placeId : Int) : Bool :=
  d.reviews.any fun r => r.userId == userId && r.placeId == placeId

/-- `Review.objects.filter(place_id=…)`. -/
def reviewsOf (d : Db V) (placeId : Int) : List Review := d.reviews.filter (·.placeId == placeId)

/-- The ratings that `aggregate` sees. -/
def ratingsOf (d : Db V) (placeId : Int) : List Nat := (d.reviewsOf placeId).map (·.rating.value)

/-- `place.save(update_fields=["rating_avg", "rating_count"])`. -/
def savePlaceRating (placeId : Int) (avg : ℚ) (count : Nat) (d : Db V) : Db V :=
  {d with places := d.places.map fun p =>
    if p.id = placeId then {p with ratingAvg := avg, ratingCount := count} else p}

@[simp] theorem reviewsOf_insertReview (review : Review) (d : Db V) (p : Int) :
    (d.insertReview review).reviewsOf p =
      d.reviewsOf p ++ if review.placeId = p then [review] else [] := by
  simp [insertReview, reviewsOf, List.filter_append, List.filter_cons]

theorem reviewsOf_modifyReview (id : Int) (f : Review → Review) (hf : ∀ r, (f r).placeId = r.placeId)
    (d : Db V) (p : Int) : (d.modifyReview id f).reviewsOf p =
      (d.reviewsOf p).map fun r => if r.id = id then f r else r := by
  simp only [modifyReview, reviewsOf, List.filter_map]
  congr 2
  funext r
  simp only [Function.comp_apply]
  split
  · rw [hf]
  · rfl

@[simp] theorem reviewsOf_deleteReview (id : Int) (d : Db V) (p : Int) :
    (d.deleteReview id).reviewsOf p = (d.reviewsOf p).filter (·.id != id) := by
  simp only [deleteReview, reviewsOf, List.filter_filter, Bool.and_comm]

theorem mem_reviewsOf {d : Db V} {p : Int} {r : Review} :
    r ∈ d.reviewsOf p ↔ r ∈ d.reviews ∧ r.placeId = p := by
  simp [reviewsOf]

end Db

/-- `Avg("rating")`: `none` over no rows. -/
def avg (ratings : List Nat) : Option ℚ :=
  if ratings = [] then none else some (ratings.sum / ratings.length)

/-- `Decimal(str(round(avg, 1)))`, or `0.0` without reviews. -/
def ratingAvgOf (ratings : List Nat) : ℚ :=
  match avg ratings with
  | some a => Lib.roundTenth a
  | none => 0

/-! ### Services -/

def getPlaceOr404 (placeId : Int) : Service V Place := do
  let d ← Txn.read
  match d.place? placeId with
  | some place => return place
  | none => Txn.raise placeNotFound

/-- `_get_review_route`: a route of the user's own that visits the place. -/
def getReviewRoute (userId placeId : Int) : Option Int → Service V (Option Int)
  | none => return none
  | some routeId => do
    let d ← Txn.read
    match d.routes.find? fun r => r.id == routeId && r.userId == userId with
    | none => Txn.raise routeNotFound
    | some route =>
      Txn.orRaise (route.placeIds.contains placeId) routeNotIncluded
      return some routeId

def updatePlaceRating (placeId : Int) : Service V Unit := do
  let d ← Txn.forUpdate (.place placeId)
  match d.place? placeId with
  | none => return ()
  | some _ =>
    let d ← Txn.read
    let ratings := d.ratingsOf placeId
    let _ ← Txn.put (.place placeId)
      (Db.savePlaceRating placeId (ratingAvgOf ratings) ratings.length)
    return ()

/-- `image_url` is a `varchar(512)`, and no URL ends in blanks that the column would cut off. -/
def imageUrlFits (imageUrl : Option String) : Bool := imageUrl.all fun url => decide (url.length ≤ 512)

/-- The `INSERT`: it waits on the unique index, and its foreign keys must hold. -/
def insertReviewRow (review : Review) : Service V Unit := do
  -- the serializers put no bound on the URL
  Txn.orRaise (imageUrlFits review.imageUrl) .databaseError
  let d ← Txn.put (.reviewOf review.userId review.placeId) (Db.insertReview review)
  Txn.orRaise (d.reviewedBy review.userId review.placeId = false ∧ (d.user? review.userId).isSome = true)
    .integrityError

/-- The instance that is created. -/
def ReviewCreateData.row (data : ReviewCreateData) (id userId placeId : Int) (routeId : Option Int) :
    Review where
  id := id
  userId := userId
  placeId := placeId
  rating := data.rating
  content := data.content
  imageUrl := data.imageUrl
  routeId := routeId

def createReview (now : Instant) (userId placeId : Int) (data : ReviewCreateData) :
    Service V Int := do
  let place ← getPlaceOr404 placeId
  let d ← Txn.read
  Txn.orRaise (d.reviewedBy userId placeId = false) alreadyReviewed
  let routeId ← getReviewRoute userId placeId data.routeId
  let id ← Txn.fresh
  insertReviewRow (data.row id userId placeId routeId)
  updatePlaceRating placeId
  if data.rating.value = 3 then
    return (id : Int)
  else do
    let _ ← recordAction now userId place .review (some data.rating)
    return (id : Int)

/-- The columns that are written: the fields that were sent. -/
def ReviewUpdateData.assign (data : ReviewUpdateData) (review : Review) : Review :=
  {review with
    rating := data.rating.getD review.rating
    content := data.content.getD review.content
    imageUrl := data.imageUrl.getD review.imageUrl
    routeId := data.routeId.getD review.routeId}

/-- `review.save(update_fields=…)`: the row must still be there. -/
def saveReview (reviewId : Int) (data : ReviewUpdateData) : Service V Unit := do
  Txn.orRaise (imageUrlFits (data.imageUrl.getD none)) .databaseError
  let d ← Txn.put (.review reviewId) (Db.modifyReview reviewId data.assign)
  Txn.orRaise (d.reviews.any (·.id == reviewId)) .databaseError

def updateReview (userId reviewId : Int) (data : ReviewUpdateData) : Service V Unit := do
  let d ← Txn.read
  match d.review? reviewId with
  | none => Txn.raise reviewNotFound
  | some review =>
    Txn.orRaise (review.userId = userId) forbiddenReviewEdit
    let _ ← getReviewRoute userId review.placeId (data.routeId.getD none)
    saveReview reviewId data
    updatePlaceRating review.placeId

def deleteReview (userId reviewId : Int) : Service V Unit := do
  let d ← Txn.read
  match d.review? reviewId with
  | none => Txn.raise reviewNotFound
  | some review =>
    Txn.orRaise (review.userId = userId) forbiddenReviewDelete
    let _ ← Txn.put (.review reviewId) (Db.deleteReview reviewId)
    updatePlaceRating review.placeId

end TravelMaker
