import TravelMaker.Lib.History
import TravelMaker.Route.Effect

/-! When the stored routes are well formed.

A route is meant to be a trip of one to three days whose day plans lie inside it.
`create_route` checks that. `update_route` merges what was sent with what was
stored and checks the days only where days are sent, so a change of dates alone
can leave stored days outside the trip, or make the trip too long or negative.
`routes_ok_iff` is the exact condition on a history of calls. -/
namespace TravelMaker
open Lib (Txn)
open Lib.Txn (Base)
open Lib.History (states Along)

variable {V : Type}

/-! ### What is stored -/

/-- Number of days of a trip. -/
def totalDays (startDate endDate : Date) : Int := endDate - startDate + 1

/-- `start_date <= end_date` and at most two nights. -/
def DatesOk (startDate endDate : Date) : Prop := startDate ≤ endDate ∧ endDate - startDate ≤ 2

instance (startDate endDate : Date) : Decidable (DatesOk startDate endDate) :=
  inferInstanceAs (Decidable (_ ∧ _))

/-- Between one and five places, in the order 1, 2, …. -/
def RouteDay.PlacesOk (day : RouteDay) : Prop :=
  1 ≤ day.dayPlaces.length ∧ day.dayPlaces.length ≤ 5 ∧
    day.dayPlaces.map (·.order) = List.range' 1 day.dayPlaces.length

instance (day : RouteDay) : Decidable day.PlacesOk := inferInstanceAs (Decidable (_ ∧ _ ∧ _))

/-- Distinct day plans, each inside the trip of `n` days and filled. -/
structure DaysOk (n : Int) (days : List RouteDay) : Prop where
  nodup : (days.map (·.dayIndex)).Nodup
  range : ∀ day ∈ days, 1 ≤ day.dayIndex ∧ day.dayIndex ≤ n
  places : ∀ day ∈ days, day.PlacesOk

structure RouteOk (route : Route) : Prop where
  dates : DatesOk route.startDate route.endDate
  days : DaysOk (totalDays route.startDate route.endDate) route.days

instance (n : Int) (days : List RouteDay) : Decidable (DaysOk n days) :=
  decidable_of_iff ((days.map (·.dayIndex)).Nodup ∧
      (∀ day ∈ days, 1 ≤ day.dayIndex ∧ day.dayIndex ≤ n) ∧ ∀ day ∈ days, day.PlacesOk)
    ⟨fun h => ⟨h.1, h.2.1, h.2.2⟩, fun h => ⟨h.nodup, h.range, h.places⟩⟩

instance (route : Route) : Decidable (RouteOk route) :=
  decidable_of_iff (DatesOk route.startDate route.endDate ∧
      DaysOk (totalDays route.startDate route.endDate) route.days)
    ⟨fun h => ⟨h.1, h.2⟩, fun h => ⟨h.dates, h.days⟩⟩

/-! ### The checks -/

theorem createValidate_ok {startDate endDate : Date} :
    RouteCreateSerializer.validate startDate endDate = .ok () ↔ DatesOk startDate endDate := by
  simp only [RouteCreateSerializer.validate, DatesOk, Date]
  split_ifs <;> simp <;> omega

theorem validateDay_ok {n : Int} {day : RouteDayInput} :
    validateDay n day = .ok () ↔ day.dayIndex ≤ n := by
  have := day.dayIndex_range
  have := day.placeIds_length
  simp only [validateDay]
  split_ifs <;> simp <;> omega

theorem validateEachDay_ok {n : Int} {days : List RouteDayInput} :
    validateEachDay n days = .ok () ↔ ∀ day ∈ days, day.dayIndex ≤ n := by
  induction days with
  | nil => simp [validateEachDay]
  | cons day rest ih =>
    rw [List.forall_mem_cons, ← validateDay_ok, ← ih, validateEachDay]
    cases validateDay n day with
    | ok u => simp
    | error e => simp

theorem validateDays_ok {days : List RouteDayInput} {startDate endDate : Date} :
    validateDays days startDate endDate = .ok () ↔
      (days.map (·.dayIndex)).Nodup ∧ ∀ day ∈ days, day.dayIndex ≤ totalDays startDate endDate := by
  simp only [validateDays, totalDays]
  split
  · rename_i h
    rw [validateEachDay_ok]
    exact ⟨fun hr => ⟨h, hr⟩, fun hr => hr.2⟩
  · rename_i h
    exact ⟨(fun hr => nomatch hr), fun hr => absurd hr.1 h⟩

/-- The rows of one input day are filled, in order. -/
theorem row_placesOk (day : RouteDayInput) : day.row.PlacesOk := by
  have hlen : day.row.dayPlaces.length = day.placeIds.length := by simp [RouteDayInput.row]
  have horder : day.row.dayPlaces.map (·.order) = List.range' 1 day.placeIds.length := by
    simp [RouteDayInput.row, List.map_map, Function.comp_def, List.zipIdx_map_snd]
  rw [RouteDay.PlacesOk, hlen]
  exact ⟨day.placeIds_length.1, day.placeIds_length.2, horder⟩

/-- What the day check accepts is stored as well-formed days. -/
theorem rows_daysOk {days : List RouteDayInput} {startDate endDate : Date}
    (h : validateDays days startDate endDate = .ok ()) :
    DaysOk (totalDays startDate endDate) (days.map RouteDayInput.row) := by
  obtain ⟨hnodup, hrange⟩ := validateDays_ok.mp h
  refine ⟨?_, ?_, ?_⟩
  · rw [List.map_map]
    exact hnodup
  · intro day hday
    obtain ⟨x, hx, rfl⟩ := List.mem_map.mp hday
    exact ⟨x.dayIndex_range.1, hrange x hx⟩
  · intro day hday
    obtain ⟨x, -, rfl⟩ := List.mem_map.mp hday
    exact row_placesOk x

/-! ### Calls -/

/-- A call of one of the four services, with inputs its serializer let through. -/
inductive RouteCall where
  | create (userId : Int) (data : RouteCreateData)
  | update (userId routeId : Int) (data : RouteUpdateData)
  | delete (userId routeId : Int)
  | adminDelete (routeId : Int)

/-- Serve one call; `now` is the time its behaviour logs carry. -/
def RouteCall.serve (now : Instant) (b : Base (Db V)) : RouteCall → Base (Db V)
  | .create userId data => ((createRoute now userId data).perform b).2
  | .update userId routeId data => ((updateRoute now userId routeId data).perform b).2
  | .delete userId routeId => ((deleteRoute userId routeId).perform b).2
  | .adminDelete routeId => ((adminDeleteRoute routeId).perform b).2

/-- The dates an update leaves still make a trip, and the days it does not replace
lie inside it. -/
structure RouteUpdateData.Fits (data : RouteUpdateData) (route : Route) : Prop where
  dates : DatesOk (data.assign route).startDate (data.assign route).endDate
  days : data.days = none → ∀ day ∈ route.days,
    day.dayIndex ≤ totalDays (data.assign route).startDate (data.assign route).endDate

/-- An update that goes through fits the route it finds; the other calls are free. -/
def RouteCall.Safe (b : Base (Db V)) : RouteCall → Prop
  | .update userId routeId data => ∀ route, b.db.route? routeId = some route →
      route.userId = userId → data.Accepted b.db route → data.Fits route
  | _ => True

/-- Route ids are distinct and were drawn from the sequence. -/
structure IdsOk (b : Base (Db V)) : Prop where
  nodup : (b.db.routes.map (·.id)).Nodup
  drawn : ∀ r ∈ b.db.routes, r.id < b.seq

/-- Every stored route is well formed. -/
def RoutesOk (b : Base (Db V)) : Prop := ∀ r ∈ b.db.routes, RouteOk r

instance (b : Base (Db V)) : Decidable (RoutesOk b) :=
  inferInstanceAs (Decidable (∀ r ∈ b.db.routes, RouteOk r))

theorem IdsOk.mono {b : Base (Db V)} (h : IdsOk b) {d : Db V} {m : Nat} (hd : d.routes.Sublist b.db.routes)
    (hm : b.seq ≤ m) : IdsOk ⟨d, m⟩ where
  nodup := h.nodup.sublist (hd.map _)
  drawn := fun r hr => Int.lt_of_lt_of_le (h.drawn r (hd.subset hr)) (Int.ofNat_le.mpr hm)

theorem IdsOk.insertRoute {b : Base (Db V)} (h : IdsOk b) (route : Route) (hid : route.id = b.seq) :
    IdsOk ⟨b.db.insertRoute route, b.seq + 1⟩ := by
  have hmem : ∀ r ∈ b.db.routes ++ [route], r ∈ b.db.routes ∨ r.id = b.seq := by
    intro r hr
    rcases List.mem_append.mp hr with hr | hr
    · exact .inl hr
    · exact .inr (List.mem_singleton.mp hr ▸ hid)
  refine ⟨?_, fun r hr => ?_⟩
  · simp only [Db.insertRoute, List.map_append]
    refine h.nodup.append (List.nodup_singleton _) fun id hold hnew => ?_
    obtain ⟨r, hr, rfl⟩ := List.mem_map.mp hold
    have hlt := h.drawn r hr
    have heq : r.id = route.id := List.mem_singleton.mp hnew
    omega
  · show r.id < ((b.seq + 1 : Nat) : Int)
    rcases hmem r hr with hr | hr
    · have := h.drawn r hr
      omega
    · omega

theorem IdsOk.saveRoute {b : Base (Db V)} (h : IdsOk b) (route : Route) :
    IdsOk ⟨b.db.saveRoute route, b.seq⟩ := by
  have hids : ((b.db.saveRoute route).routes).map (·.id) = b.db.routes.map (·.id) := by
    simp only [Db.saveRoute, List.map_map]
    refine List.map_congr_left fun r _ => ?_
    show (if r.id = route.id then route else r).id = r.id
    split
    · rename_i hr
      exact hr.symm
    · rfl
  refine ⟨?_, ?_⟩
  · show ((b.db.saveRoute route).routes.map (·.id)).Nodup
    rw [hids]
    exact h.nodup
  · intro r hr
    have hmem : r.id ∈ b.db.routes.map (·.id) := hids ▸ List.mem_map_of_mem hr
    obtain ⟨r', hr', hrr⟩ := List.mem_map.mp hmem
    rw [← hrr]
    exact h.drawn r' hr'

/-! ### One call -/

/-- A created route is well formed: its serializer compared the dates. -/
theorem create_result_ok {data : RouteCreateData} {d : Db V} (id userId : Int) (h : data.Accepted d) :
    RouteOk (data.result d id userId) :=
  ⟨createValidate_ok.mp data.validated, rows_daysOk h.days.valid⟩

/-- An updated route is well formed exactly if the update fits it. -/
theorem update_result_ok {data : RouteUpdateData} {d : Db V} {route : Route} (hr : RouteOk route)
    (h : data.Accepted d route) : RouteOk (data.result d route) ↔ data.Fits route := by
  constructor
  · intro hok
    refine ⟨hok.dates, fun hnone day hday => ?_⟩
    refine (hok.days.range day ?_).2
    simp only [RouteUpdateData.result, hnone]
    exact hday
  · intro hfit
    refine ⟨hfit.dates, ?_⟩
    cases hd : data.days with
    | none =>
      have hdays : (data.result d route).days = route.days := by simp [RouteUpdateData.result, hd]
      rw [hdays]
      exact ⟨hr.days.nodup, fun day hday => ⟨(hr.days.range day hday).1, hfit.days hd day hday⟩,
        hr.days.places⟩
    | some days =>
      have hdays : (data.result d route).days = days.map RouteDayInput.row := by
        simp [RouteUpdateData.result, hd]
      rw [hdays]
      exact rows_daysOk (h.days days hd).valid

/-- Writing one row keeps the others. -/
theorem routesOk_saveRoute {b : Base (Db V)} (hb : RoutesOk b) {route : Route} (hroute : route ∈ b.db.routes)
    (row : Route) (hid : row.id = route.id) (m : Nat) : RoutesOk ⟨b.db.saveRoute row, m⟩ ↔ RouteOk row := by
  constructor
  · intro h
    refine h row (List.mem_map.mpr ⟨route, hroute, ?_⟩)
    exact if_pos hid.symm
  · intro h r hr
    obtain ⟨r', hr', rfl⟩ := List.mem_map.mp hr
    split
    · exact h
    · exact hb r' hr'

/-- The call updates a stored route of the user's, and is accepted. -/
structure RouteCall.Updates (b : Base (Db V)) (call : RouteCall) (data : RouteUpdateData) (route : Route) : Prop where
  call_eq : call = .update route.userId route.id data
  stored : b.db.route? route.id = some route
  accepted : data.Accepted b.db route

/-- What a call can leave behind. -/
inductive RouteCall.Effect (b : Base (Db V)) (call : RouteCall) : Base (Db V) → Prop
  | refused (m : Nat) : b.seq ≤ m → (∀ data route, ¬ call.Updates b data route) → Effect b call ⟨b.db, m⟩
  | created (route : Route) (logs : List UserActionLog) (m : Nat) : route.id = b.seq → RouteOk route → b.seq < m →
      (∀ data route, ¬ call.Updates b data route) → Effect b call ⟨(b.db.insertRoute route).addActionLogs logs, m⟩
  | updated (data : RouteUpdateData) (route : Route) (logs : List UserActionLog) (m : Nat) :
      call.Updates b data route → b.seq ≤ m →
      Effect b call ⟨(b.db.saveRoute (data.result b.db route)).addActionLogs logs, m⟩
  | deleted (id : Int) : (∀ data route, ¬ call.Updates b data route) → Effect b call ⟨b.db.deleteRoute id, b.seq⟩

theorem RouteCall.Updates.mem {b : Base (Db V)} {call : RouteCall} {data : RouteUpdateData} {route : Route}
    (h : call.Updates b data route) : route ∈ b.db.routes := (Db.route?_some h.stored).1

/-- A route is found by its id: one call updates one route. -/
theorem RouteCall.Updates.unique {b : Base (Db V)} {call : RouteCall} {data data' : RouteUpdateData}
    {route route' : Route} (h : call.Updates b data route) (h' : call.Updates b data' route') :
    data' = data ∧ route' = route := by
  obtain ⟨-, hid, hdata⟩ : route.userId = route'.userId ∧ route.id = route'.id ∧ data = data' := by
    simpa using h.call_eq.symm.trans h'.call_eq
  exact ⟨hdata.symm, Option.some.inj (h'.stored.symm.trans (hid ▸ h.stored))⟩

namespace RouteCall
variable {b : Base (Db V)} {userId routeId : Int}

theorem serve_create (now : Instant) (hids : IdsOk b) (data : RouteCreateData) :
    (RouteCall.create userId data).Effect b ((RouteCall.create userId data).serve now b) := by
  have hid : ∀ r ∈ b.db.routes, r.id ≠ b.seq := fun r hr => Int.ne_of_lt (hids.drawn r hr)
  have hno : ∀ (data' : RouteUpdateData) (route : Route), ¬ (RouteCall.create userId data).Updates b data' route :=
    fun _ _ h => nomatch h.call_eq
  by_cases ha : data.Accepted b.db
  · obtain ⟨logs, m, hm, hs⟩ := createRoute_accepted now userId hid ha
    simp only [RouteCall.serve, hs]
    exact .created _ logs m rfl (create_result_ok _ userId ha) hm hno
  · obtain ⟨e, hs⟩ := createRoute_refused now userId ha
    simp only [RouteCall.serve, hs]
    exact .refused b.seq (Nat.le_refl _) hno

/-- The route of an update, and its data. -/
theorem Updates.found {data data' : RouteUpdateData} {route : Route}
    (h : (RouteCall.update userId routeId data).Updates b data' route) :
    b.db.route? routeId = some route ∧ route.userId = userId ∧ data' = data := by
  obtain ⟨huser, hid, hdata⟩ : userId = route.userId ∧ routeId = route.id ∧ data = data' := by
    simpa using h.call_eq
  exact ⟨hid ▸ h.stored, huser.symm, hdata.symm⟩

theorem serve_update (now : Instant) (data : RouteUpdateData) :
    (RouteCall.update userId routeId data).Effect b ((RouteCall.update userId routeId data).serve now b) := by
  cases hroute : b.db.route? routeId with
  | none =>
    simp only [RouteCall.serve, updateRoute_notFound now userId data hroute]
    refine .refused b.seq (Nat.le_refl _) fun data' route h => ?_
    rw [h.found.1] at hroute
    cases hroute
  | some route =>
    obtain ⟨-, rfl⟩ := Db.route?_some hroute
    have hfound : ∀ {data' : RouteUpdateData} {route' : Route},
        (RouteCall.update userId route.id data).Updates b data' route' →
          route' = route ∧ route'.userId = userId ∧ data' = data := by
      intro data' route' h
      obtain ⟨hstored, howner, hdata⟩ := h.found
      exact ⟨Option.some.inj (hstored.symm.trans hroute), howner, hdata⟩
    by_cases howner : route.userId = userId
    · subst howner
      by_cases ha : data.Accepted b.db route
      · obtain ⟨logs, m, hm, hs⟩ := updateRoute_accepted now hroute rfl ha
        simp only [RouteCall.serve, hs]
        exact .updated data route logs m ⟨rfl, hroute, ha⟩ hm
      · obtain ⟨e, m, hm, hs⟩ := updateRoute_refused now hroute rfl ha
        simp only [RouteCall.serve, hs]
        refine .refused m hm fun data' route' h => ha ?_
        obtain ⟨rfl, -, rfl⟩ := hfound h
        exact h.accepted
    · obtain ⟨e, hs⟩ := updateRoute_forbidden now data hroute howner
      simp only [RouteCall.serve, hs]
      refine .refused b.seq (Nat.le_refl _) fun data' route' h => howner ?_
      obtain ⟨rfl, hsame, -⟩ := hfound h
      exact hsame

/-- The route of the id is deleted, or nothing happens. -/
theorem effect_deleted {call : RouteCall} (hno : ∀ userId' routeId' data, call ≠ .update userId' routeId' data)
    {b' : Base (Db V)} (h : b' = b ∨ b' = ⟨b.db.deleteRoute routeId, b.seq⟩) : call.Effect b b' := by
  rcases h with rfl | rfl
  · exact .refused b'.seq (Nat.le_refl _) fun _ _ h => hno _ _ _ h.call_eq
  · exact .deleted routeId fun _ _ h => hno _ _ _ h.call_eq

theorem serve_effect (now : Instant) (hids : IdsOk b) (call : RouteCall) : call.Effect b (call.serve now b) := by
  cases call with
  | create userId data => exact serve_create now hids data
  | update userId routeId data => exact serve_update now data
  | delete userId routeId =>
    apply effect_deleted _ (deleteRoute_perform userId routeId b)
    intro _ _ _ h
    cases h
  | adminDelete routeId =>
    apply effect_deleted _ (adminDeleteRoute_perform routeId b)
    intro _ _ _ h
    cases h

end RouteCall

theorem RouteCall.safe_iff {b : Base (Db V)} {call : RouteCall} :
    call.Safe b ↔ ∀ data route, call.Updates b data route → data.Fits route := by
  constructor
  · intro h data route hu
    have hcall := hu.call_eq
    subst hcall
    exact h route hu.stored rfl hu.accepted
  · intro h
    cases call with
    | update userId routeId data =>
      intro route hroute howner ha
      obtain ⟨-, rfl⟩ := Db.route?_some hroute
      exact h data route ⟨by rw [howner], hroute, ha⟩
    | _ => trivial

theorem IdsOk.effect {b b' : Base (Db V)} {call : RouteCall} (h : IdsOk b) (he : call.Effect b b') : IdsOk b' := by
  cases he with
  | refused m hm _ => exact h.mono (List.Sublist.refl _) hm
  | created route logs m hid _ hm _ => exact (h.insertRoute route hid).mono (List.Sublist.refl _) hm
  | updated data route logs m _ hm => exact (h.saveRoute (data.result b.db route)).mono (List.Sublist.refl _) hm
  | deleted id _ => exact h.mono List.filter_sublist (Nat.le_refl _)

theorem ids_serve (now : Instant) (b : Base (Db V)) (call : RouteCall) (h : IdsOk b) : IdsOk (call.serve now b) :=
  h.effect (call.serve_effect now h)

/-- A call leaves well-formed routes well formed exactly if what it updates fits. -/
theorem RoutesOk.effect {b b' : Base (Db V)} {call : RouteCall} (h : RoutesOk b) (he : call.Effect b b') :
    RoutesOk b' ↔ ∀ data route, call.Updates b data route → data.Fits route := by
  cases he with
  | refused m _ hno => exact iff_of_true h fun data route hu => absurd hu (hno data route)
  | created route logs m _ hok _ hno =>
    refine iff_of_true (fun r hr => ?_) fun data route hu => absurd hu (hno data route)
    rcases List.mem_append.mp hr with hr | hr
    · exact h r hr
    · rw [List.mem_singleton.mp hr]
      exact hok
  | updated data route logs m hu _ =>
    refine (routesOk_saveRoute h hu.mem (data.result b.db route) rfl m).trans
      ((update_result_ok (h route hu.mem) hu.accepted).trans ⟨fun hfits data' route' hu' => ?_, fun hall => hall _ _ hu⟩)
    obtain ⟨rfl, rfl⟩ := hu.unique hu'
    exact hfits
  | deleted id hno =>
    exact iff_of_true (fun r hr => h r (List.mem_filter.mp hr).1) fun data route hu => absurd hu (hno data route)

/-- One call keeps the routes well formed exactly if it is safe. -/
theorem routes_serve (now : Instant) (b : Base (Db V)) (call : RouteCall) (hids : IdsOk b)
    (h : RoutesOk b) : RoutesOk (call.serve now b) ↔ call.Safe b :=
  (h.effect (call.serve_effect now hids)).trans RouteCall.safe_iff.symm

/-! ### Histories -/

/-- **The stored routes stay well formed exactly as long as the updates fit.** From
no routes, every state of a history of calls has only well-formed routes if and
only if each update that goes through fits the route it finds. -/
theorem routes_ok_iff (now : Instant) (b : Base (Db V)) (hb : b.db.routes = []) (calls : List RouteCall) :
    (∀ t ∈ states (RouteCall.serve now) b calls, RoutesOk t) ↔
      Along (RouteCall.serve now) RouteCall.Safe b calls := by
  have hids : IdsOk b := ⟨by rw [hb]; exact List.nodup_nil, by rw [hb]; exact fun r hr => nomatch hr⟩
  have hok : RoutesOk b := by rw [RoutesOk, hb]; exact fun r hr => nomatch hr
  exact Lib.History.forall_states_iff (ids_serve now) (routes_serve now) hids hok calls

/-- A region, a place and no routes. -/
def Db.onePlace : Db Unit where
  tags := [⟨1, "region", "제주"⟩]
  places := [{id := 1, contentId := 1, contentTypeId := 12}]

/-- A two-day trip with a plan for its second day. -/
def RouteCreateData.twoDays : RouteCreateData where
  title := "제주"
  regionTagId := 1
  startDate := 10
  endDate := 11
  days := [⟨2, [1], by decide, by decide⟩]
  title_length := by decide
  validated := by decide

/-- The end date alone is moved before the start. -/
def RouteUpdateData.endsBefore : RouteUpdateData where
  endDate := some 9
  title_length := by simp
  validated := rfl

/-- Both dates are moved, and the trip stays as long. -/
def RouteUpdateData.later : RouteUpdateData where
  startDate := some 20
  endDate := some 21
  title_length := by simp
  validated := rfl

theorem endDate_alone_breaks_route :
    ¬ ∀ t ∈ states (RouteCall.serve 0) ⟨Db.onePlace, 1⟩ [.create 7 .twoDays, .update 7 1 .endsBefore],
      RoutesOk t := by
  decide +kernel

theorem routes_ok_iff_created :
    (∀ t ∈ states (RouteCall.serve 0) ⟨Db.onePlace, 1⟩ [.create 7 .twoDays, .update 7 1 .later], RoutesOk t) ↔
      Along (RouteCall.serve 0) RouteCall.Safe ⟨Db.onePlace, 1⟩ [.create 7 .twoDays, .update 7 1 .later] :=
  routes_ok_iff 0 ⟨Db.onePlace, 1⟩ rfl [.create 7 .twoDays, .update 7 1 .later]

end TravelMaker
