import TravelMaker.Review.Rating
import TravelMaker.Route.Invariant

/-! The routes that reviews point to.

The review services check a link once, when they write it. `update_route` replaces the
days of a route and looks at no review, so a place can leave a route that a review of it
points to. `links_ok_iff` is the exact condition on a history of calls to both apps. -/
namespace TravelMaker
open Lib (Txn)
open Lib.Txn (Base)
open Lib.History (states Along)

variable {V : Type}

/-- A review with a route points to a route of its author's that visits the place. -/
def LinksOk (d : Db V) : Prop :=
  ∀ review ∈ d.reviews, ∀ routeId ∈ review.routeId, d.Visits review.userId review.placeId routeId

instance (d : Db V) : Decidable (LinksOk d) :=
  inferInstanceAs (Decidable (∀ review ∈ d.reviews, ∀ routeId ∈ review.routeId, _))

/-! ### Calls -/

/-- A call of either app. -/
inductive TripCall where
  | review (call : ReviewCall)
  | route (now : Instant) (call : RouteCall)

def TripCall.serve (b : Base (Db V)) : TripCall → Base (Db V)
  | .review call => call.serve b
  | .route now call => call.serve now b

/-- An update that goes through keeps the places whose reviews point to the route. -/
def TripCall.Safe (b : Base (Db V)) : TripCall → Prop
  | .review _ => True
  | .route _ call => ∀ data route, call.Updates b data route → ∀ days, data.days = some days →
      ∀ review ∈ b.db.reviews, review.routeId = some route.id → review.placeId ∈ allPlaceIds days

/-- Ids of routes and of reviews are distinct and were drawn from the sequence. -/
structure TripsOk (b : Base (Db V)) : Prop where
  routes : IdsOk b
  reviews : ReviewsOk b

theorem TripsOk.review {b : Base (Db V)} (h : TripsOk b) (call : ReviewCall) : IdsOk (call.serve b) := by
  cases call with
  | create now userId p data =>
    rcases createReview_cases now userId p data b with ⟨m, hm, hs⟩ | ⟨logs, m, hm, -, -, hs⟩
    · simp only [ReviewCall.serve, hs]
      exact h.routes.mono (List.Sublist.refl _) hm
    · simp only [ReviewCall.serve, hs]
      exact h.routes.mono (List.Sublist.refl _) (Nat.le_of_lt hm)
  | update userId reviewId data =>
    rcases updateReview_cases userId reviewId data b with hs | ⟨review, -, -, -, hs⟩ <;> simp only [ReviewCall.serve, hs]
    · exact h.routes
    · exact h.routes.mono (List.Sublist.refl _) (Nat.le_refl _)
  | delete userId reviewId =>
    rcases deleteReview_cases userId reviewId b with hs | ⟨review, -, hs⟩ <;> simp only [ReviewCall.serve, hs]
    · exact h.routes
    · exact h.routes.mono (List.Sublist.refl _) (Nat.le_refl _)
  | withdraw now user reason =>
    rcases withdrawUser_cases now user reason b with hs | hs <;> simp only [ReviewCall.serve, hs]
    · exact h.routes
    · exact h.routes.mono (List.Sublist.refl _) (Nat.le_refl _)
  | purge now =>
    simp only [ReviewCall.serve, purgeWithdrawnUsers_perform]
    have hsub : ∀ (users : List User) (d : Db V),
        (users.foldl (fun d u => d.deleteUser u.id) d).routes.Sublist d.routes := by
      intro users
      induction users with
      | nil => exact fun d => List.Sublist.refl _
      | cons u rest ih => exact fun d => (ih (d.deleteUser u.id)).trans List.filter_sublist
    exact h.routes.mono (hsub (b.db.purged now) b.db) (Nat.le_refl _)

theorem deleteRoute_keys (id : Int) (d : Db V) : (d.deleteRoute id).reviewKeys = d.reviewKeys := by
  simp only [Db.reviewKeys, Db.deleteRoute, List.map_map]
  refine List.map_congr_left fun r _ => ?_
  simp only [Function.comp_apply]
  split <;> rfl

theorem TripsOk.route {b b' : Base (Db V)} {call : RouteCall} (h : TripsOk b) (he : call.Effect b b') :
    ReviewsOk b' := by
  have hmono : ∀ m, b.seq ≤ m → KeysOk b.db.reviewKeys b.db.placeIds m :=
    fun m hm => h.reviews.sublist (List.Sublist.refl _) hm
  cases he with
  | refused m hm _ => exact hmono m hm
  | created route logs m _ _ hm _ => exact hmono m (Nat.le_of_lt hm)
  | updated data route logs m _ hm => exact hmono m hm
  | deleted id _ =>
    show KeysOk (b.db.deleteRoute id).reviewKeys b.db.placeIds b.seq
    rw [deleteRoute_keys]
    exact h.reviews

theorem trips_serve (b : Base (Db V)) (call : TripCall) (h : TripsOk b) : TripsOk (call.serve b) := by
  cases call with
  | review call => exact ⟨h.review call, keys_serve b call h.reviews⟩
  | route now call =>
    have he := call.serve_effect now h.routes
    exact ⟨h.routes.effect he, h.route he⟩

/-! ### Review calls -/

theorem LinksOk.of_routes {d d' : Db V} (h : LinksOk d) (hroutes : d.routes ⊆ d'.routes)
    (hreviews : d'.reviews ⊆ d.reviews) : LinksOk d' := by
  intro review hreview routeId hid
  obtain ⟨route, hmem, hroute⟩ := h review (hreviews hreview) routeId hid
  exact ⟨route, hroutes hmem, hroute⟩

/-- A deleted user takes their routes along, and every link to these. -/
theorem LinksOk.deleteUser {d : Db V} (h : LinksOk d) (id : Int) : LinksOk (d.deleteUser id) := by
  intro review hreview routeId hid
  obtain ⟨old, hold, rfl⟩ := List.mem_map.mp hreview
  obtain ⟨hmem, hother⟩ := List.mem_filter.mp hold
  split at hid
  · cases hid
  · rename_i hlinked
    rw [if_neg hlinked]
    obtain ⟨route, hroute, hrid, howner, hplace⟩ := h old hmem routeId hid
    refine ⟨route, List.mem_filter.mpr ⟨hroute, ?_⟩, hrid, howner, hplace⟩
    rw [howner]
    exact hother

theorem LinksOk.review {b : Base (Db V)} (hk : TripsOk b) (h : LinksOk b.db) (call : ReviewCall) :
    LinksOk (call.serve b).db := by
  cases call with
  | create now userId p data =>
    rcases createReview_cases now userId p data b with ⟨m, -, hs⟩ | ⟨logs, m, -, -, hvisits, hs⟩
    · simpa only [ReviewCall.serve, hs] using h
    · simp only [ReviewCall.serve, hs]
      intro review hreview routeId hid
      rcases List.mem_append.mp hreview with hold | hnew
      · exact h review hold routeId hid
      · rw [List.mem_singleton.mp hnew] at hid ⊢
        exact hvisits routeId hid
  | update userId reviewId data =>
    rcases updateReview_cases userId reviewId data b with hs | ⟨stored, hstored, rfl, hvisits, hs⟩
    · simpa only [ReviewCall.serve, hs] using h
    · simp only [ReviewCall.serve, hs]
      obtain ⟨hmem, rfl⟩ := Db.review?_some hstored
      intro review hreview routeId hid
      obtain ⟨old, hold, rfl⟩ := List.mem_map.mp hreview
      split at hid
      · rename_i hsame
        rw [if_pos hsame]
        rw [hk.reviews.review_eq hold hmem hsame] at hid ⊢
        cases hroute : data.routeId with
        | none =>
          simp only [ReviewUpdateData.assign, hroute] at hid
          exact h stored hmem routeId hid
        | some link =>
          simp only [ReviewUpdateData.assign, hroute] at hid
          exact hvisits routeId (by rw [hroute]; exact hid)
      · rename_i hother
        rw [if_neg hother]
        exact h old hold routeId hid
  | delete userId reviewId =>
    rcases deleteReview_cases userId reviewId b with hs | ⟨review, -, hs⟩
    · simpa only [ReviewCall.serve, hs] using h
    · simp only [ReviewCall.serve, hs]
      exact h.of_routes (List.Subset.refl _) (List.filter_subset_self _)
  | withdraw now user reason =>
    rcases withdrawUser_cases now user reason b with hs | hs <;> simp only [ReviewCall.serve, hs]
    · exact h
    · exact h.of_routes (List.Subset.refl _) (List.Subset.refl _)
  | purge now =>
    simp only [ReviewCall.serve, purgeWithdrawnUsers_perform]
    have hall : ∀ (users : List User) (d : Db V), LinksOk d → LinksOk (users.foldl (fun d u => d.deleteUser u.id) d) := by
      intro users
      induction users with
      | nil => exact fun d hd => hd
      | cons u rest ih => exact fun d hd => ih _ (hd.deleteUser u.id)
    exact hall (b.db.purged now) b.db h

/-! ### Route calls -/

/-- A deleted route takes every link to it along. -/
theorem LinksOk.deleteRoute {d : Db V} (h : LinksOk d) (id : Int) : LinksOk (d.deleteRoute id) := by
  intro review hreview routeId hid
  obtain ⟨old, hold, rfl⟩ := List.mem_map.mp hreview
  split at hid
  · cases hid
  · rename_i hother
    rw [if_neg hother]
    obtain ⟨route, hroute, rfl, howner, hplace⟩ := h old hold routeId hid
    refine ⟨route, List.mem_filter.mpr ⟨hroute, ?_⟩, rfl, howner, hplace⟩
    rw [bne_iff_ne]
    exact fun hsame => hother (hsame ▸ hid)

theorem placeIds_rows (days : List RouteDayInput) :
    ((days.map RouteDayInput.row).flatMap fun day => day.dayPlaces.map (·.placeId)) = allPlaceIds days := by
  simp [allPlaceIds, List.flatMap_map, RouteDayInput.row, List.map_map, Function.comp_def, List.zipIdx_map_fst]

/-- Writing a route again keeps the links exactly if it still visits the places that are
linked to it. -/
theorem LinksOk.saveRoute {b : Base (Db V)} (hk : TripsOk b) (h : LinksOk b.db) {route row : Route}
    (hroute : route ∈ b.db.routes) (hid : row.id = route.id) (howner : row.userId = route.userId) :
    LinksOk (b.db.saveRoute row) ↔
      ∀ review ∈ b.db.reviews, review.routeId = some route.id → review.placeId ∈ row.placeIds := by
  have hrow : row ∈ (b.db.saveRoute row).routes := List.mem_map.mpr ⟨route, hroute, if_pos hid.symm⟩
  constructor
  · intro hsaved review hreview hlink
    obtain ⟨found, hfound, hfid, -, hplace⟩ := hsaved review hreview route.id hlink
    obtain ⟨old, hold, rfl⟩ := List.mem_map.mp hfound
    split at hplace
    · exact hplace
    · rename_i hother
      rw [if_neg hother] at hfid
      exact absurd (hfid.trans hid.symm) hother
  · intro hplaces review hreview routeId hlink
    obtain ⟨old, hold, rfl, huser, hplace⟩ := h review hreview routeId hlink
    by_cases hsame : old.id = route.id
    · obtain rfl := List.inj_on_of_nodup_map hk.routes.nodup hold hroute hsame
      exact ⟨row, hrow, hid, howner.trans huser, hplaces review hreview hlink⟩
    · refine ⟨old, List.mem_map.mpr ⟨old, hold, if_neg fun heq => hsame (heq.trans hid)⟩, rfl, huser, hplace⟩

theorem LinksOk.effect {b b' : Base (Db V)} {call : RouteCall} (hk : TripsOk b) (h : LinksOk b.db)
    (he : call.Effect b b') (now : Instant) : LinksOk b'.db ↔ TripCall.Safe b (.route now call) := by
  cases he with
  | refused m _ hno => exact iff_of_true h fun data route hu => absurd hu (hno data route)
  | created route logs m _ _ _ hno =>
    exact iff_of_true (h.of_routes (List.subset_append_left _ _) (List.Subset.refl _))
      fun data route hu => absurd hu (hno data route)
  | updated data route logs m hu _ =>
    have hsave : LinksOk (b.db.saveRoute (data.result b.db route)) ↔ _ := LinksOk.saveRoute hk h hu.mem rfl rfl
    apply hsave.trans
    constructor
    · intro hplaces data' route' hu' days hdays review hreview hlink
      obtain ⟨rfl, rfl⟩ := hu.unique hu'
      have hplace := hplaces review hreview hlink
      simp only [Route.placeIds, RouteUpdateData.result, hdays, Option.map_some, Option.getD_some, placeIds_rows] at hplace
      exact hplace
    · intro hsafe review hreview hlink
      cases hdays : data.days with
      | none =>
        obtain ⟨old, hold, hid, -, hplace⟩ := h review hreview route.id hlink
        obtain rfl := List.inj_on_of_nodup_map hk.routes.nodup hold hu.mem hid
        simpa only [Route.placeIds, RouteUpdateData.result, hdays, Option.map_none, Option.getD_none] using hplace
      | some days =>
        simp only [Route.placeIds, RouteUpdateData.result, hdays, Option.map_some, Option.getD_some, placeIds_rows]
        exact hsafe data route hu days hdays review hreview hlink
  | deleted id hno => exact iff_of_true (h.deleteRoute id) fun data route hu => absurd hu (hno data route)

/-! ### Histories -/

theorem links_serve (b : Base (Db V)) (call : TripCall) (hk : TripsOk b) (h : LinksOk b.db) :
    LinksOk (call.serve b).db ↔ call.Safe b := by
  cases call with
  | review call => exact iff_of_true (h.review hk call) trivial
  | route now call => exact h.effect hk (call.serve_effect now hk.routes) now

/-- **When every link stays good.** From no routes and no reviews, every review of every state
points to a route of its author's that visits its place if and only if no update takes a place
off a route while a review of that place points to the route. -/
theorem links_ok_iff (b : Base (Db V)) (hroutes : b.db.routes = []) (hreviews : b.db.reviews = [])
    (calls : List TripCall) :
    (∀ t ∈ states TripCall.serve b calls, LinksOk t.db) ↔ Along TripCall.serve TripCall.Safe b calls := by
  have hids : IdsOk b := ⟨by rw [hroutes]; exact List.nodup_nil, by rw [hroutes]; exact fun r hr => (List.not_mem_nil hr).elim⟩
  have hkeys : ReviewsOk b := by
    rw [ReviewsOk, Db.reviewKeys, hreviews]
    exact ⟨List.nodup_nil, (fun _ hk => (List.not_mem_nil hk).elim), fun _ hk => (List.not_mem_nil hk).elim⟩
  have hok : LinksOk b.db := by rw [LinksOk, hreviews]; exact fun r hr => (List.not_mem_nil hr).elim
  exact Lib.History.forall_states_iff trips_serve links_serve ⟨hids, hkeys⟩ hok calls

/-- One user, one region and two places. -/
def Db.twoPlaces : Db Unit where
  users := [{id := 1}]
  tags := [⟨1, "region", "제주"⟩]
  places := [{id := 1, contentId := 1, contentTypeId := 12}, {id := 2, contentId := 2, contentTypeId := 12}]

/-- A first day at one place. -/
def RouteDayInput.firstAt (placeId : Int) : RouteDayInput := ⟨1, [placeId], by decide, by simp⟩

def RouteCreateData.firstPlace : RouteCreateData :=
  {RouteCreateData.twoDays with endDate := 10, days := [.firstAt 1], validated := by decide}

/-- The day moves to the second place. -/
def RouteUpdateData.secondPlace : RouteUpdateData :=
  {RouteUpdateData.endsBefore with endDate := none, days := some [.firstAt 2], validated := rfl}

/-- A review of the first place that points to the route. -/
def ReviewCreateData.onTrip : ReviewCreateData :=
  {ReviewCreateData.fiveStars with rating := ⟨3, by decide, by decide⟩, routeId := some 1}

def tripThenMove : List TripCall :=
  [.route 0 (.create 1 .firstPlace), .review (.create 0 1 1 .onTrip), .route 0 (.update 1 1 .secondPlace)]

theorem moved_day_breaks_link : ¬ ∀ t ∈ states TripCall.serve ⟨Db.twoPlaces, 1⟩ tripThenMove, LinksOk t.db := by
  decide +kernel

theorem links_ok_iff_tripThenMove :
    (∀ t ∈ states TripCall.serve ⟨Db.twoPlaces, 1⟩ tripThenMove, LinksOk t.db) ↔
      Along TripCall.serve TripCall.Safe ⟨Db.twoPlaces, 1⟩ tripThenMove :=
  links_ok_iff ⟨Db.twoPlaces, 1⟩ rfl rfl tripThenMove

end TravelMaker
