import TravelMaker.Place.Catalog
import TravelMaker.Place.QueryFilters
import TravelMaker.Review.Rating

/-! The reviews of the site: the services and the views of `review`.

The tables keep rows of reviews, and two columns in the row of each place that have to follow them.
`Book` is what they are for: the reviews themselves, the newest first. `reviews_refine`: over any
history the tables answer as the book does, pages and ratings included. -/
namespace TravelMaker
open Lib (Txn)
open Lib.Txn (Base)
open Lib.History (answers Explained)

variable {V : Type}

/-! ### Administrators -/

def adminDeleteReview (reviewId : Int) : Service V Unit := do
  let d ← Txn.read
  match d.review? reviewId with
  | none => Txn.raise reviewNotFound
  | some review =>
    let _ ← Txn.put (.review reviewId) (Db.deleteReview reviewId)
    updatePlaceRating review.placeId

/-! ### Responses -/

/-- `ReviewRouteSerializer`. -/
structure ReviewRoute where
  routeId : Int
  title : String
deriving DecidableEq, Repr

/-- `ReviewCreateResponseSerializer` and `ReviewUpdateResponseSerializer`. -/
structure ReviewResponse where
  userId : Int
  reviewId : Int
  rating : Nat
  content : String
  imageUrl : Option String
  isOwner : Bool
  route : Option ReviewRoute
deriving DecidableEq, Repr

/-- `ReviewListItemSerializer`. -/
structure ReviewListItem extends ReviewResponse where
  userNickname : String
  userProfileImgUrl : Option String
deriving DecidableEq, Repr

/-- `PlaceReviewListCreateView.get`. -/
structure ReviewPage where
  count : Nat
  avgRating : ℚ
  results : List ReviewListItem
deriving DecidableEq, Repr

def Review.response (review : Review) (viewer : Option Int) (route : Option ReviewRoute) : ReviewResponse where
  userId := review.userId
  reviewId := review.id
  rating := review.rating.value
  content := review.content
  imageUrl := review.imageUrl
  isOwner := viewer == some review.userId
  route := route

namespace Db

/-- `review.route`. -/
def routeOf (d : Db V) (review : Review) : Option ReviewRoute :=
  review.routeId.bind fun id => (d.routes.find? (·.id == id)).map fun route => ⟨route.id, route.title⟩

/-- The row of a list: it is joined with the author's. -/
def listItem? (d : Db V) (viewer : Option Int) (review : Review) : Option ReviewListItem :=
  (d.user? review.userId).map fun author => {
    review.response viewer (d.routeOf review) with
    userNickname := author.nickname
    userProfileImgUrl := if author.profileImgUrl = "" then none else some author.profileImgUrl}

end Db

/-! ### Views -/

/-- `max(1, int(…))` of `page_size` and of `page`, or the defaults of both. -/
def reviewPageParams (pageSize page : Option String) : Int × Int :=
  match pageSize.elim (.ok 4) pyInt, page.elim (.ok 1) pyInt with
  | .ok size, .ok number => (max 1 size, max 1 number)
  | _, _ => (4, 1)

/-- `PlaceReviewListCreateView.get`; `largest` is what the database takes in a `LIMIT`. -/
def listReviews (largest : Option Nat) (viewer : Option Int) (placeId : Int) (pageSize page : Option String) :
    Service V ReviewPage := do
  let _ ← getPlaceOr404 placeId
  let d ← Txn.read
  let ratings := d.ratingsOf placeId
  let (size, number) := reviewPageParams pageSize page
  let offset := (number - 1) * size
  let d ← Txn.read
  let results ← Txn.lift (querySlice largest offset (offset + size)
    ((orderBy (fun review => -review.id) (d.reviewsOf placeId)).filterMap (d.listItem? viewer)))
  return ⟨ratings.length, ratingAvgOf ratings, results⟩

/-- Requests that the permissions let through. -/
inductive BookRequest where
  | create (now : Instant) (userId placeId : Int) (data : ReviewCreateData)
  | update (userId reviewId : Int) (data : ReviewUpdateData)
  | delete (userId reviewId : Int)
  | adminDelete (reviewId : Int)
  | list (viewer : Option Int) (placeId : Int) (pageSize page : Option String)
  /-- `review_count` and `rating_avg` in a response about the place. -/
  | rating (placeId : Int)

inductive BookAnswer where
  | review (response : ReviewResponse)
  | deleted
  | page (page : ReviewPage)
  | rating (count : Nat) (avg : ℚ)
deriving DecidableEq, Repr

def serveReviews (largest : Option Nat) (b : Base (Db V)) : BookRequest → Except Exc BookAnswer × Base (Db V)
  | .create now userId placeId data =>
    let (result, b') := (createReview now userId placeId data).perform b
    (result.map fun id =>
      let review := data.row id userId placeId data.routeId
      .review (review.response (some userId) (b'.db.routeOf review)), b')
  | .update userId reviewId data =>
    let (result, b') := (updateReview userId reviewId data).perform b
    (result.bind fun _ =>
      match b.db.review? reviewId with
      | some review => .ok (.review ((data.assign review).response (some userId) (b'.db.routeOf (data.assign review))))
      | none => .error reviewNotFound, b')
  | .delete userId reviewId =>
    let (result, b') := (deleteReview userId reviewId).perform b
    (result.map fun _ => .deleted, b')
  | .adminDelete reviewId =>
    let (result, b') := (adminDeleteReview reviewId).perform b
    (result.map fun _ => .deleted, b')
  | .list viewer placeId pageSize page =>
    let (result, b') := (listReviews largest viewer placeId pageSize page).perform b
    (result.map .page, b')
  | .rating placeId =>
    match b.db.place? placeId with
    | some place => (.ok (.rating place.ratingCount place.ratingAvg), b)
    | none => (.error placeNotFound, b)

/-! ### The book -/

/-- Places, users and routes, as reviews know of them. -/
structure ReviewSite where
  hasPlace : Int → Bool
  hasUser : Int → Bool
  nickname : Int → String
  picture : Int → Option String
  /-- The owner of the route, its title and its places. -/
  route : Int → Option (Int × String × List Int)

/-- Reviews, the newest first. -/
abbrev Book := List Review

namespace ReviewSite
variable (site : ReviewSite)

/-- Why the route is none to link a review to. -/
def routeRefusal (userId placeId : Int) (routeId : Option Int) : Option Exc :=
  match routeId with
  | none => none
  | some id =>
    match (site.route id).filter (·.1 == userId) with
    | none => some routeNotFound
    | some (_, _, places) => if places.contains placeId then none else some routeNotIncluded

/-- Why there will be no review. -/
def refusal (book : Book) (userId placeId : Int) (data : ReviewCreateData) : Option Exc :=
  if site.hasPlace placeId = false then some placeNotFound
  else if book.any fun r => r.userId == userId && r.placeId == placeId then some alreadyReviewed
  else
    match site.routeRefusal userId placeId data.routeId with
    | some e => some e
    | none =>
      if imageUrlFits data.imageUrl = false then some .databaseError
      else if site.hasUser userId then none
      else some .integrityError

def routeOf (review : Review) : Option ReviewRoute :=
  review.routeId.bind fun id => (site.route id).map fun route => ⟨id, route.2.1⟩

def response (viewer : Option Int) (review : Review) : ReviewResponse := review.response viewer (site.routeOf review)

def listItem (viewer : Option Int) (review : Review) : ReviewListItem := {
  site.response viewer review with
  userNickname := site.nickname review.userId
  userProfileImgUrl := site.picture review.userId}

end ReviewSite

namespace Book

/-- The reviews of the place. -/
def of (book : Book) (placeId : Int) : List Review := book.filter (·.placeId == placeId)

def ratings (book : Book) (placeId : Int) : List Nat := (book.of placeId).map (·.rating.value)

/-- A request on the book; `id` is for a review that it writes. -/
def serve (site : ReviewSite) (largest : Option Nat) (id : Int) (book : Book) : BookRequest → Except Exc BookAnswer × Book
  | .create _ userId placeId data =>
    match site.refusal book userId placeId data with
    | some e => (.error e, book)
    | none =>
      let review := data.row id userId placeId data.routeId
      (.ok (.review (site.response (some userId) review)), review :: book)
  | .update userId reviewId data =>
    match book.find? (·.id == reviewId) with
    | none => (.error reviewNotFound, book)
    | some review =>
      if review.userId ≠ userId then (.error forbiddenReviewEdit, book)
      else
        match site.routeRefusal userId review.placeId (data.routeId.getD none) with
        | some e => (.error e, book)
        | none =>
          if imageUrlFits (data.imageUrl.getD none) = false then (.error .databaseError, book)
          else (.ok (.review (site.response (some userId) (data.assign review))),
            book.map fun r => if r.id = reviewId then data.assign r else r)
  | .delete userId reviewId =>
    match book.find? (·.id == reviewId) with
    | none => (.error reviewNotFound, book)
    | some review =>
      if review.userId ≠ userId then (.error forbiddenReviewDelete, book)
      else (.ok .deleted, book.filter (·.id != reviewId))
  | .adminDelete reviewId =>
    if book.any (·.id == reviewId) then (.ok .deleted, book.filter (·.id != reviewId))
    else (.error reviewNotFound, book)
  | .list viewer placeId pageSize page =>
    if site.hasPlace placeId then
      let (size, number) := reviewPageParams pageSize page
      ((querySlice largest ((number - 1) * size) ((number - 1) * size + size) (book.of placeId)).map fun reviews =>
        .page ⟨(book.of placeId).length, ratingAvgOf (book.ratings placeId), reviews.map (site.listItem viewer)⟩, book)
    else (.error placeNotFound, book)
  | .rating placeId =>
    if site.hasPlace placeId then (.ok (.rating (book.of placeId).length (ratingAvgOf (book.ratings placeId))), book)
    else (.error placeNotFound, book)

/-- The id of a review is larger than those that are there. -/
def Serves (site : ReviewSite) (largest : Option Nat) (book : Book) (r : BookRequest) (answer : Except Exc BookAnswer)
    (book' : Book) : Prop :=
  ∃ id, (∀ review ∈ book, review.id < id) ∧ book.serve site largest id r = (answer, book')

end Book

/-! ### What surrounds the reviews -/

def Db.reviewSite (d : Db V) : ReviewSite where
  hasPlace placeId := (d.place? placeId).isSome
  hasUser userId := (d.user? userId).isSome
  nickname userId := ((d.user? userId).map (·.nickname)).getD ""
  picture userId := (d.user? userId).bind fun user => if user.profileImgUrl = "" then none else some user.profileImgUrl
  route id := (d.routes.find? (·.id == id)).map fun route => (route.userId, route.title, route.placeIds)

theorem place?_savePlaceRating_isSome (p q : Int) (a : ℚ) (n : Nat) (d : Db V) :
    ((d.savePlaceRating p a n).place? q).isSome = (d.place? q).isSome := by
  simp only [Db.place?, Db.savePlaceRating, List.find?_map, Option.isSome_map]
  congr 1
  refine congrArg (List.find? · d.places) (funext fun place => ?_)
  simp only [Function.comp_apply]
  split <;> rfl

theorem reviewSite_rate (p : Int) (d : Db V) : (d.rate p).reviewSite = d.reviewSite := by
  have hplaces : (fun placeId => ((d.rate p).place? placeId).isSome) = fun placeId => (d.place? placeId).isSome :=
    funext fun q => place?_savePlaceRating_isSome p q _ _ d
  unfold Db.reviewSite
  rw [hplaces]
  rfl

theorem routeOf_reviewSite (d : Db V) (review : Review) : d.reviewSite.routeOf review = d.routeOf review := by
  unfold ReviewSite.routeOf Db.routeOf Db.reviewSite
  cases review.routeId with
  | none => rfl
  | some id =>
    cases hroute : d.routes.find? (·.id == id) with
    | none => simp [hroute]
    | some route =>
      have hid : route.id = id := by simpa using List.find?_some hroute
      simp [hroute, hid]

theorem listItem?_eq {d : Db V} {review : Review} (h : (d.user? review.userId).isSome) (viewer : Option Int) :
    d.listItem? viewer review = some (d.reviewSite.listItem viewer review) := by
  obtain ⟨author, hauthor⟩ := Option.isSome_iff_exists.mp h
  simp only [Db.listItem?, ReviewSite.listItem, ReviewSite.response, routeOf_reviewSite, hauthor, Option.map_some]
  simp [Db.reviewSite, hauthor]

/-- The route of that id is the user's, or no route of the user's has that id. -/
theorem find?_owned {routes : List Route} (hids : (routes.map (·.id)).Nodup) (routeId userId : Int) :
    routes.find? (fun r => r.id == routeId && r.userId == userId) =
      (routes.find? (·.id == routeId)).filter (·.userId == userId) := by
  induction routes with
  | nil => rfl
  | cons route rest ih =>
    rw [List.map_cons, List.nodup_cons] at hids
    by_cases hid : route.id = routeId
    · by_cases howner : route.userId = userId
      · simp [hid, howner, Option.filter_some]
      · have hnone : rest.find? (fun r => r.id == routeId && r.userId == userId) = none :=
          List.find?_eq_none.mpr fun other hother heq => hids.1 (List.mem_map.mpr ⟨other, hother, by simp_all⟩)
        simp [hid, howner, hnone, Option.filter_some]
    · simpa [hid, List.find?_cons] using ih hids.2

/-- The route check, as the site refuses. -/
theorem run_getReviewRoute_refusal {α : Type} {v : Db V} (hroutes : (v.routes.map (·.id)).Nodup) (userId p : Int)
    (routeId : Option Int) (c : Db V) (n : Nat) (q : Option Int → Service V α) :
    (getReviewRoute userId p routeId >>= q).run c v n =
      match v.reviewSite.routeRefusal userId p routeId with
      | some e => ⟨.error e, c, c, n⟩
      | none => (q routeId).run c v n := by
  cases routeId with
  | none => rfl
  | some id =>
    have hfind := find?_owned hroutes id userId
    simp only [ReviewSite.routeRefusal, Db.reviewSite]
    cases hroute : v.routes.find? (·.id == id) with
    | none =>
      rw [hroute] at hfind
      simp [getReviewRoute, Txn.run, hfind]
    | some route =>
      rw [hroute] at hfind
      by_cases howner : route.userId = userId
      · by_cases hp : p ∈ route.placeIds <;> simp [getReviewRoute, Txn.run, hfind, howner, hp, Option.filter_some]
      · simp [getReviewRoute, Txn.run, hfind, howner, Option.filter_some]

/-! ### The services, refused or not -/

theorem createReview_perform {b : Base (Db V)} (hroutes : (b.db.routes.map (·.id)).Nodup) (now : Instant) (userId p : Int)
    (data : ReviewCreateData) :
    match b.db.reviewSite.refusal b.db.reviews userId p data with
    | some e => ∃ m, (createReview now userId p data).perform b = (.error e, ⟨b.db, m⟩)
    | none => ∃ logs m, (createReview now userId p data).perform b = (.ok b.seq,
        ⟨((b.db.insertReview (data.row b.seq userId p data.routeId)).rate p).addActionLogs logs, m⟩) := by
  have hrefusal : b.db.reviewSite.refusal b.db.reviews userId p data =
      if (b.db.place? p).isSome = false then some placeNotFound
      else if b.db.reviewedBy userId p then some alreadyReviewed
      else
        match b.db.reviewSite.routeRefusal userId p data.routeId with
        | some e => some e
        | none =>
          if imageUrlFits data.imageUrl = false then some .databaseError
          else if (b.db.user? userId).isSome then none
          else some .integrityError := rfl
  rw [hrefusal]
  cases hp : b.db.place? p with
  | none => exact ⟨b.seq, by simp [createReview, getPlaceOr404, Txn.perform, Txn.run, hp]⟩
  | some place =>
    have hid : place.id = p := (Db.place?_some hp).2
    simp only [createReview, getPlaceOr404, Txn.perform, Txn.read_bind, Txn.query_bind, Txn.run, hp, Txn.pure_eq,
      Txn.ret_bind, Txn.orRaise_bind, Option.isSome_some, Bool.true_eq_false, if_false]
    cases hreviewed : b.db.reviewedBy userId p with
    | true => exact ⟨b.seq, rfl⟩
    | false =>
      simp only [Bool.false_eq_true, if_false, if_true, run_getReviewRoute_refusal hroutes]
      cases b.db.reviewSite.routeRefusal userId p data.routeId with
      | some e => exact ⟨b.seq, rfl⟩
      | none =>
        have hrow : (data.row b.seq userId p data.routeId).userId = userId ∧
            (data.row b.seq userId p data.routeId).placeId = p ∧
            (data.row b.seq userId p data.routeId).imageUrl = data.imageUrl := ⟨rfl, rfl, rfl⟩
        simp only [Txn.fresh_bind, Txn.run, run_insertReviewRow, hrow.1, hrow.2.1, hrow.2.2, hreviewed, true_and]
        cases imageUrlFits data.imageUrl with
        | false => exact ⟨b.seq + 1, rfl⟩
        | true =>
        simp only [Bool.true_eq_false, if_false]
        cases (b.db.user? userId).isSome with
        | false => exact ⟨b.seq + 1, rfl⟩
        | true =>
          simp only [if_true, run_updatePlaceRating]
          by_cases hthree : data.rating.value = 3
          · simp only [if_pos hthree]
            exact ⟨[], b.seq + 1, by rw [Db.addActionLogs_nil]; rfl⟩
          · simp only [if_neg hthree]
            obtain ⟨log, hlog⟩ := run_recordReview (α := Int) now userId place data.rating
              ((b.db.insertReview (data.row b.seq userId p data.routeId)).rate p) b.db (b.seq + 1)
              fun _ => .ret (b.seq : Int)
            exact ⟨[log], b.seq + 2, by rw [hlog]; rfl⟩

theorem updateReview_perform {b : Base (Db V)} (hroutes : (b.db.routes.map (·.id)).Nodup) (userId reviewId : Int)
    (data : ReviewUpdateData) :
    (updateReview userId reviewId data).perform b =
      match b.db.review? reviewId with
      | none => (.error reviewNotFound, b)
      | some review =>
        if review.userId ≠ userId then (.error forbiddenReviewEdit, b)
        else
          match b.db.reviewSite.routeRefusal userId review.placeId (data.routeId.getD none) with
          | some e => (.error e, b)
          | none =>
            if imageUrlFits (data.imageUrl.getD none) = false then (.error .databaseError, b)
            else (.ok (), ⟨(b.db.modifyReview reviewId data.assign).rate review.placeId, b.seq⟩) := by
  cases hr : b.db.review? reviewId with
  | none => simp [updateReview, Txn.perform, Txn.run, hr]
  | some review =>
    have hany : b.db.reviews.any (·.id == reviewId) = true :=
      List.any_eq_true.mpr ⟨review, (Db.review?_some hr).1, by simpa using (Db.review?_some hr).2⟩
    simp only [updateReview, Txn.perform, Txn.read_bind, Txn.run, hr, Txn.orRaise_bind]
    by_cases howner : review.userId = userId
    · simp only [howner, if_true, ne_eq, not_true_eq_false, if_false, run_getReviewRoute_refusal hroutes]
      cases b.db.reviewSite.routeRefusal userId review.placeId (data.routeId.getD none) with
      | some e => rfl
      | none =>
        have hrate := run_updatePlaceRating (V := V) (α := Unit) review.placeId b.db
          (b.db.modifyReview reviewId data.assign) b.seq pure
        rw [bind_pure] at hrate
        simp only [run_saveReview hany]
        split
        · rfl
        · rw [hrate]
          rfl
    · simp only [ne_eq, howner, not_false_eq_true, if_true]
      rfl

theorem deleteReview_perform (userId reviewId : Int) (b : Base (Db V)) :
    (deleteReview userId reviewId).perform b =
      match b.db.review? reviewId with
      | none => (.error reviewNotFound, b)
      | some review =>
        if review.userId ≠ userId then (.error forbiddenReviewDelete, b)
        else (.ok (), ⟨(b.db.deleteReview reviewId).rate review.placeId, b.seq⟩) := by
  cases hr : b.db.review? reviewId with
  | none => simp [deleteReview, Txn.perform, Txn.run, hr]
  | some review =>
    have hrate := run_updatePlaceRating (V := V) (α := Unit) review.placeId b.db (b.db.deleteReview reviewId) b.seq pure
    rw [bind_pure] at hrate
    by_cases howner : review.userId = userId <;>
      simp [deleteReview, Txn.perform, Txn.run, hr, howner, hrate]

/-- An administrator deletes as the author would. -/
theorem adminDeleteReview_perform (reviewId : Int) (b : Base (Db V)) :
    (adminDeleteReview reviewId).perform b =
      (deleteReview (((b.db.review? reviewId).map (·.userId)).getD 0) reviewId).perform b := by
  cases hr : b.db.review? reviewId with
  | none => simp [adminDeleteReview, deleteReview, Txn.perform, Txn.run, hr]
  | some review => simp [adminDeleteReview, deleteReview, Txn.perform, Txn.run, hr]

/-! ### Tables and book -/

/-- The tables hold the reviews of the book, oldest first, and rate every place by them. -/
structure Shelved (site : ReviewSite) (book : Book) (b : Base (Db V)) : Prop where
  around : b.db.reviewSite = site
  rows : book = b.db.reviews.reverse
  sorted : b.db.reviews.Pairwise fun r r' => r.id < r'.id
  authors : ∀ r ∈ b.db.reviews, site.hasUser r.userId
  routes : (b.db.routes.map (·.id)).Nodup
  keys : ReviewsOk b
  ratings : RatingsOk b.db

section
variable {site : ReviewSite} {book : Book} {b : Base (Db V)}

theorem Shelved.mem (h : Shelved site book b) {review : Review} : review ∈ book ↔ review ∈ b.db.reviews := by
  rw [h.rows, List.mem_reverse]

theorem Shelved.of (h : Shelved site book b) (p : Int) : book.of p = (b.db.reviewsOf p).reverse := by
  rw [h.rows, Book.of, List.filter_reverse]
  rfl

theorem Shelved.find? (h : Shelved site book b) (id : Int) : book.find? (·.id == id) = b.db.review? id := by
  cases hr : b.db.review? id with
  | none =>
    have hnone := List.find?_eq_none.mp hr
    exact List.find?_eq_none.mpr fun review hreview => hnone review (h.mem.mp hreview)
  | some review =>
    obtain ⟨hmem, hid⟩ := Db.review?_some hr
    cases hfind : book.find? (·.id == id) with
    | none => exact absurd (List.find?_eq_none.mp hfind review (h.mem.mpr hmem)) (by simp [hid])
    | some other =>
      have hother : other.id = id := by simpa using List.find?_some hfind
      rw [h.keys.review_eq (h.mem.mp (List.mem_of_find?_eq_some hfind)) hmem (hother.trans hid.symm)]

theorem Shelved.id_lt (h : Shelved site book b) : ∀ review ∈ book, review.id < (b.seq : Int) :=
  fun review hreview => h.keys.drawn review.key (List.mem_map_of_mem (h.mem.mp hreview))

theorem Shelved.refusal (h : Shelved site book b) (userId p : Int) (data : ReviewCreateData) :
    site.refusal book userId p data = b.db.reviewSite.refusal b.db.reviews userId p data := by
  rw [ReviewSite.refusal, h.rows, List.any_reverse, h.around]
  rfl

theorem ratingAvgOf_reverse (ratings : List Nat) : ratingAvgOf ratings.reverse = ratingAvgOf ratings := by
  simp [ratingAvgOf, avg]

theorem Shelved.ratingsOf (h : Shelved site book b) (p : Int) :
    (book.of p).length = (b.db.ratingsOf p).length ∧ ratingAvgOf (book.ratings p) = ratingAvgOf (b.db.ratingsOf p) := by
  rw [Book.ratings, h.of, List.map_reverse, ratingAvgOf_reverse, List.length_reverse, Db.ratingsOf, List.length_map]
  exact ⟨rfl, rfl⟩

/-- The newest first. -/
theorem Shelved.newestFirst (h : Shelved site book b) (p : Int) :
    orderBy (fun review : Review => -review.id) (b.db.reviewsOf p) = book.of p := by
  rw [h.of]
  have hsorted : (b.db.reviewsOf p).Pairwise fun r r' => r.id < r'.id := h.sorted.sublist List.filter_sublist
  refine orderBy_eq_of_perm (List.reverse_perm _) ?_ fun r hr r' hr' hid => ?_
  · rw [List.pairwise_reverse]
    exact hsorted.imp fun hlt => by omega
  · exact h.keys.review_eq (Db.mem_reviewsOf.mp hr).1 (Db.mem_reviewsOf.mp hr').1 (by omega)

theorem querySlice_map {α β : Type} (f : α → β) (largest : Option Nat) (start stop : Int) (rows : List α) :
    querySlice largest start stop (rows.map f) = (querySlice largest start stop rows).map (List.map f) := by
  unfold querySlice
  split
  · rfl
  · split
    · rfl
    · rw [← List.map_take, ← List.map_drop]
      rfl

theorem Shelved.serve_list (h : Shelved site book b) (largest : Option Nat) (viewer : Option Int) (p : Int)
    (pageSize page : Option String) :
    serveReviews largest b (.list viewer p pageSize page) = ((book.serve site largest 0 (.list viewer p pageSize page)).1, b) := by
  have hsite : site.hasPlace p = (b.db.place? p).isSome := by rw [← h.around]; rfl
  have hitems : (book.of p).filterMap (b.db.listItem? viewer) = (book.of p).map (site.listItem viewer) := by
    rw [← List.filterMap_eq_map]
    refine List.filterMap_congr fun review hreview => ?_
    have hauthor := h.authors review (h.mem.mp (List.mem_filter.mp hreview).1)
    rw [← h.around] at hauthor ⊢
    exact listItem?_eq hauthor viewer
  obtain ⟨hcount, havg⟩ := h.ratingsOf p
  simp only [serveReviews, Book.serve, hsite]
  cases hp : b.db.place? p with
  | none => simp [listReviews, getPlaceOr404, Txn.perform, Txn.run, hp, Except.map]
  | some place =>
    simp only [listReviews, getPlaceOr404, Txn.perform, Txn.read_bind, Txn.query_bind, Txn.run, hp, Txn.pure_eq,
      Txn.ret_bind, h.newestFirst, hitems, querySlice_map, Option.isSome_some, if_true, hcount, havg]
    cases querySlice largest _ _ (book.of p) with
    | error e => rfl
    | ok reviews => rfl

theorem Shelved.create (h : Shelved site book b) {now : Instant} {userId p : Int} {data : ReviewCreateData}
    (hnone : site.refusal book userId p data = none) {logs : List UserActionLog} {m : Nat}
    (hs : (createReview now userId p data).perform b = (.ok b.seq,
      ⟨((b.db.insertReview (data.row b.seq userId p data.routeId)).rate p).addActionLogs logs, m⟩)) :
    Shelved site (data.row b.seq userId p data.routeId :: book)
      ⟨((b.db.insertReview (data.row b.seq userId p data.routeId)).rate p).addActionLogs logs, m⟩ := by
  have hserve : (ReviewCall.create now userId p data).serve b =
      ⟨((b.db.insertReview (data.row b.seq userId p data.routeId)).rate p).addActionLogs logs, m⟩ := congrArg Prod.snd hs
  have hkeys := keys_serve b (.create now userId p data) h.keys
  have hratings := (ratings_serve b (.create now userId p data) h.keys h.ratings).mpr trivial
  rw [hserve] at hkeys hratings
  have huser : site.hasUser userId = true := by
    unfold ReviewSite.refusal at hnone
    by_contra hno
    rw [Bool.not_eq_true] at hno
    rw [hno] at hnone
    split at hnone
    · cases hnone
    · split at hnone
      · cases hnone
      · split at hnone
        · cases hnone
        · split at hnone <;> simp at hnone
  refine ⟨(reviewSite_rate p _).trans h.around, ?_, ?_, ?_, h.routes, hkeys, hratings⟩
  · simp [Db.addActionLogs, Db.rate, Db.savePlaceRating, Db.insertReview, h.rows]
  · refine List.pairwise_append.mpr ⟨h.sorted, List.pairwise_singleton _ _, fun r hr r' hr' => ?_⟩
    rw [List.mem_singleton.mp hr']
    exact h.id_lt r (h.mem.mpr hr)
  · intro r hr
    rcases List.mem_append.mp hr with hr | hr
    · exact h.authors r hr
    · rw [List.mem_singleton.mp hr]
      exact huser

theorem Shelved.update (h : Shelved site book b) {userId reviewId : Int} {data : ReviewUpdateData} {review : Review}
    (hs : (updateReview userId reviewId data).perform b =
      (.ok (), ⟨(b.db.modifyReview reviewId data.assign).rate review.placeId, b.seq⟩)) :
    Shelved site (book.map fun r => if r.id = reviewId then data.assign r else r)
      ⟨(b.db.modifyReview reviewId data.assign).rate review.placeId, b.seq⟩ := by
  have hserve : (ReviewCall.update userId reviewId data).serve b =
      ⟨(b.db.modifyReview reviewId data.assign).rate review.placeId, b.seq⟩ := congrArg Prod.snd hs
  have hkeys := keys_serve b (.update userId reviewId data) h.keys
  have hratings := (ratings_serve b (.update userId reviewId data) h.keys h.ratings).mpr trivial
  rw [hserve] at hkeys hratings
  have hassign : ∀ r : Review, (if r.id = reviewId then data.assign r else r).id = r.id ∧
      (if r.id = reviewId then data.assign r else r).userId = r.userId := by
    intro r
    split <;> exact ⟨rfl, rfl⟩
  refine ⟨(reviewSite_rate review.placeId _).trans h.around, ?_, ?_, ?_, h.routes, hkeys, hratings⟩
  · rw [h.rows, List.map_reverse]
    rfl
  · refine List.pairwise_map.mpr (h.sorted.imp fun {r r'} hlt => ?_)
    rw [(hassign r).1, (hassign r').1]
    exact hlt
  · intro r hr
    obtain ⟨r', hr', rfl⟩ := List.mem_map.mp hr
    rw [(hassign r').2]
    exact h.authors r' hr'

theorem Shelved.delete (h : Shelved site book b) {userId reviewId : Int} {review : Review}
    (hs : (deleteReview userId reviewId).perform b =
      (.ok (), ⟨(b.db.deleteReview reviewId).rate review.placeId, b.seq⟩)) :
    Shelved site (book.filter (·.id != reviewId)) ⟨(b.db.deleteReview reviewId).rate review.placeId, b.seq⟩ := by
  have hserve : (ReviewCall.delete userId reviewId).serve b = ⟨(b.db.deleteReview reviewId).rate review.placeId, b.seq⟩ :=
    congrArg Prod.snd hs
  have hkeys := keys_serve b (.delete userId reviewId) h.keys
  have hratings := (ratings_serve b (.delete userId reviewId) h.keys h.ratings).mpr trivial
  rw [hserve] at hkeys hratings
  refine ⟨(reviewSite_rate review.placeId _).trans h.around, ?_, h.sorted.sublist List.filter_sublist,
    fun r hr => h.authors r (List.mem_filter.mp hr).1, h.routes, hkeys, hratings⟩
  rw [h.rows, List.filter_reverse]
  rfl

/-- Nothing but the sequence has moved. -/
theorem Shelved.drawn (h : Shelved site book b) {m : Nat} (hm : b.seq ≤ m) : Shelved site book ⟨b.db, m⟩ where
  around := h.around
  rows := h.rows
  sorted := h.sorted
  authors := h.authors
  routes := h.routes
  keys := h.keys.sublist (List.Sublist.refl _) hm
  ratings := h.ratings

theorem Shelved.routeOf (h : Shelved site book b) (review : Review) : site.routeOf review = b.db.routeOf review := by
  rw [← h.around, routeOf_reviewSite]

theorem Shelved.perform_delete (h : Shelved site book b) (userId reviewId : Int) :
    match book.find? (·.id == reviewId) with
    | none => (deleteReview userId reviewId).perform b = (.error reviewNotFound, b)
    | some review =>
      if review.userId ≠ userId then (deleteReview userId reviewId).perform b = (.error forbiddenReviewDelete, b)
      else ∃ b', (deleteReview userId reviewId).perform b = (.ok (), b') ∧ Shelved site (book.filter (·.id != reviewId)) b' := by
  have hperform := deleteReview_perform userId reviewId b
  rw [h.find?]
  cases hreview : b.db.review? reviewId with
  | none =>
    rw [hreview] at hperform
    exact hperform
  | some review =>
    rw [hreview] at hperform
    by_cases howner : review.userId = userId
    · simp only [howner, ne_eq, not_true_eq_false, if_false] at hperform ⊢
      exact ⟨_, hperform, h.delete hperform⟩
    · simp only [howner, ne_eq, not_false_eq_true, if_true] at hperform ⊢
      exact hperform

variable (site book b) in
/-- The tables answer a request as the book does, and go on holding its reviews. -/
def ServedAlike (largest : Option Nat) (r : BookRequest) : Prop :=
  (serveReviews largest b r).1 = (book.serve site largest b.seq r).1 ∧
    Shelved site (book.serve site largest b.seq r).2 (serveReviews largest b r).2

theorem Shelved.serve_create (h : Shelved site book b) (largest : Option Nat) (now : Instant) (userId p : Int) (data : ReviewCreateData) :
    ServedAlike site book b largest (.create now userId p data) := by
  have hperform := createReview_perform h.routes now userId p data
  rw [← h.refusal] at hperform
  simp only [ServedAlike, serveReviews, Book.serve]
  cases hrefusal : site.refusal book userId p data with
  | some e =>
    rw [hrefusal] at hperform
    obtain ⟨m, hm⟩ := hperform
    have hseq : b.seq ≤ m := by
      have := Txn.le_run_seq (createReview (V := V) now userId p data) b.db b.db b.seq
      have hlast : ((createReview now userId p data).perform b).2.seq = m := by rw [hm]
      exact hlast ▸ this
    rw [hm]
    exact ⟨rfl, h.drawn hseq⟩
  | none =>
    rw [hrefusal] at hperform
    obtain ⟨logs, m, hm⟩ := hperform
    have hshelved := h.create hrefusal hm
    rw [hm]
    refine ⟨?_, hshelved⟩
    simp only [Except.map, ReviewSite.response, h.routeOf]
    rfl

theorem Shelved.serve_update (h : Shelved site book b) (largest : Option Nat) (userId reviewId : Int) (data : ReviewUpdateData) :
    ServedAlike site book b largest (.update userId reviewId data) := by
  have hperform := updateReview_perform h.routes userId reviewId data
  have hrow := h.find? reviewId
  simp only [ServedAlike, serveReviews, Book.serve, hrow]
  rw [hperform, h.around]
  cases hreview : b.db.review? reviewId with
  | none => exact ⟨rfl, h⟩
  | some review =>
    rw [hreview] at hperform
    by_cases howner : review.userId = userId
    · simp only [howner, ne_eq, not_true_eq_false, if_false] at hperform ⊢
      cases hroute : site.routeRefusal userId review.placeId (data.routeId.getD none) with
      | some e => exact ⟨rfl, h⟩
      | none =>
        rw [h.around, hroute] at hperform
        cases hfits : imageUrlFits (data.imageUrl.getD none) with
        | false => exact ⟨rfl, h⟩
        | true =>
          simp only [hfits, Bool.true_eq_false, if_false] at hperform ⊢
          refine ⟨?_, h.update hperform⟩
          simp only [Except.bind, ReviewSite.response, h.routeOf]
          rfl
    · simp only [howner, ne_eq, not_false_eq_true, if_true]
      exact ⟨rfl, h⟩

theorem Shelved.serve_delete (h : Shelved site book b) (largest : Option Nat) (userId reviewId : Int) :
    ServedAlike site book b largest (.delete userId reviewId) := by
  have hperform := h.perform_delete userId reviewId
  simp only [ServedAlike, serveReviews, Book.serve]
  cases hreview : book.find? (·.id == reviewId) with
  | none =>
    rw [hreview] at hperform
    rw [hperform]
    exact ⟨rfl, h⟩
  | some review =>
    rw [hreview] at hperform
    by_cases howner : review.userId = userId
    · simp only [howner, ne_eq, not_true_eq_false, if_false] at hperform ⊢
      obtain ⟨b', hb', hshelved⟩ := hperform
      rw [hb']
      exact ⟨rfl, hshelved⟩
    · simp only [howner, ne_eq, not_false_eq_true, if_true] at hperform ⊢
      rw [hperform]
      exact ⟨rfl, h⟩

theorem Shelved.serve_adminDelete (h : Shelved site book b) (largest : Option Nat) (reviewId : Int) :
    ServedAlike site book b largest (.adminDelete reviewId) := by
  have hperform := h.perform_delete (((b.db.review? reviewId).map (·.userId)).getD 0) reviewId
  have hany : book.any (·.id == reviewId) = (b.db.review? reviewId).isSome := by
    rw [← h.find?, Bool.eq_iff_iff]
    simp
  simp only [ServedAlike, serveReviews, Book.serve, adminDeleteReview_perform]
  rw [h.find?] at hperform
  cases hreview : b.db.review? reviewId with
  | none =>
    rw [hreview] at hperform hany
    rw [hany, hperform]
    exact ⟨rfl, h⟩
  | some review =>
    rw [hreview] at hperform hany
    simp only [Option.map_some, Option.getD_some, ne_eq, not_true_eq_false, if_false] at hperform ⊢
    obtain ⟨b', hb', hshelved⟩ := hperform
    rw [hany, hb']
    exact ⟨rfl, hshelved⟩

theorem Shelved.serve_rating (h : Shelved site book b) (largest : Option Nat) (p : Int) :
    ServedAlike site book b largest (.rating p) := by
  have hsite : site.hasPlace p = (b.db.place? p).isSome := by rw [← h.around]; rfl
  obtain ⟨hcount, havg⟩ := h.ratingsOf p
  simp only [ServedAlike, serveReviews, Book.serve, hsite]
  cases hp : b.db.place? p with
  | none => exact ⟨rfl, h⟩
  | some place =>
    obtain ⟨hmem, rfl⟩ := Db.place?_some hp
    have hagrees := h.ratings place hmem
    refine ⟨?_, h⟩
    rw [hcount, havg, ← hagrees.count, ← hagrees.avg]
    rfl

/-- **One request**: the tables answer as the book does, and go on holding its reviews. -/
theorem Shelved.serve (h : Shelved site book b) (largest : Option Nat) (r : BookRequest) : ServedAlike site book b largest r := by
  cases r with
  | create now userId p data => exact h.serve_create largest now userId p data
  | update userId reviewId data => exact h.serve_update largest userId reviewId data
  | delete userId reviewId => exact h.serve_delete largest userId reviewId
  | adminDelete reviewId => exact h.serve_adminDelete largest reviewId
  | list viewer p pageSize page =>
    rw [ServedAlike, h.serve_list]
    exact ⟨rfl, by simp only [Book.serve]; split <;> exact h⟩
  | rating p => exact h.serve_rating largest p

end

/-! ### Histories -/

/-- **The tables answer as the book does**, request by request, from tables without reviews. -/
theorem reviews_refine (largest : Option Nat) (b : Base (Db V)) (hreviews : b.db.reviews = [])
    (hplaces : ∀ place ∈ b.db.places, place.ratingCount = 0 ∧ place.ratingAvg = 0) (hroutes : (b.db.routes.map (·.id)).Nodup)
    (requests : List BookRequest) :
    Explained (Book.Serves b.db.reviewSite largest) [] requests (answers (serveReviews largest) b requests) := by
  have hstart : Shelved b.db.reviewSite [] b := by
    refine ⟨rfl, by rw [hreviews]; rfl, by rw [hreviews]; exact List.Pairwise.nil, ?_, hroutes, ?_, fun place hplace => ?_⟩
    · rw [hreviews]
      exact List.forall_mem_nil _
    · rw [ReviewsOk, Db.reviewKeys, hreviews]
      exact ⟨List.nodup_nil, List.forall_mem_nil _, List.forall_mem_nil _⟩
    · have hnone : b.db.ratingsOf place.id = [] := by simp [Db.ratingsOf, Db.reviewsOf, hreviews]
      obtain ⟨hcount, havg⟩ := hplaces place hplace
      exact ⟨by rw [hcount, hnone]; rfl, by rw [havg, hnone]; rfl⟩
  refine Lib.History.answers_explained _ _ (Shelved b.db.reviewSite) (fun book b r h => ?_) hstart requests
  obtain ⟨hanswer, hnext⟩ := h.serve largest r
  exact ⟨_, ⟨b.seq, h.id_lt, Prod.ext hanswer.symm rfl⟩, hnext⟩

/-- A review is written, kept from somebody else who would delete it, listed, and deleted by an administrator. -/
theorem reviews_refine_oneReader : Explained (Book.Serves Db.oneReader.reviewSite none) []
    [.create 0 1 1 .fiveStars, .delete 2 1, .list (some 1) 1 (some "0") (some "2"), .rating 1, .adminDelete 1]
    (answers (serveReviews none) ⟨Db.oneReader, 1⟩
      [.create 0 1 1 .fiveStars, .delete 2 1, .list (some 1) 1 (some "0") (some "2"), .rating 1, .adminDelete 1]) :=
  reviews_refine none ⟨Db.oneReader, 1⟩ rfl (by decide) (by decide) _

end TravelMaker
