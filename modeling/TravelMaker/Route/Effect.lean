import TravelMaker.Route.Service

/-! What each route call leaves in the tables.

A call that is refused leaves them as they were; one that is accepted changes the
routes as stated here and adds behaviour logs. -/
namespace TravelMaker
open Lib (Txn)
open Lib.Txn (Base)

variable {V α : Type}

/-! ### The steps of a call -/

/-- Recording planned places adds logs and never fails. -/
theorem run_recordEach (now : Instant) (userId : Int) (places : List Place) (v : Db V) (n : Nat) :
    ∃ logs, ∀ (c : Db V) (q : Unit → Service V α),
      (recordEach now userId .routeAdd places >>= q).run c v n =
        (q ()).run c (v.addActionLogs logs) (n + places.length) := by
  induction places generalizing v n with
  | nil => exact ⟨[], fun c q => by simp [recordEach]⟩
  | cons place rest ih =>
    obtain ⟨a, ha⟩ := computeFinalWeight_ok .routeAdd v place none (fun h => nomatch h)
    let log : UserActionLog := {
      id := n
      userId := userId
      placeId := place.id
      actionType := .routeAdd
      weight := ⟨a, computePopularityFactor v place⟩
      createdAt := now }
    obtain ⟨logs, hlogs⟩ := ih (v.insertActionLog log) (n + 1)
    refine ⟨log :: logs, fun c q => ?_⟩
    have hstep : (recordEach now userId .routeAdd (place :: rest) >>= q).run c v n =
        (recordEach now userId .routeAdd rest >>= q).run c (v.insertActionLog log) (n + 1) := by
      simp [recordEach, recordAction, Txn.run, ha, log]
    rw [hstep, hlogs]
    simp [Db.insertActionLog, Nat.add_comm, Nat.add_left_comm]

theorem run_recordRouteAddActions (now : Instant) (userId : Int) (ids : List Int) (v : Db V) (n : Nat) :
    ∃ logs m, n ≤ m ∧ ∀ (c : Db V) (q : Unit → Service V α),
      (recordRouteAddActions now userId ids >>= q).run c v n =
        (q ()).run c (v.addActionLogs logs) m := by
  obtain ⟨logs, h⟩ := run_recordEach (α := α) now userId
    (v.places.filter fun p => ids.contains p.id) v n
  refine ⟨logs, _, Nat.le_add_right .., fun c q => Eq.trans ?_ (h c q)⟩
  simp [recordRouteAddActions, Txn.run]

/-- The days are appended to the route in the order they were sent. -/
theorem run_createDays (id : Int) (days : List RouteDayInput) (c v : Db V) (n : Nat)
    (q : Unit → Service V α) :
    (createDays id days >>= q).run c v n =
      (q ()).run c (v.modifyRoute id fun r => {r with days := r.days ++ days.map RouteDayInput.row}) n := by
  induction days generalizing v with
  | nil => simp [createDays, Db.modifyRoute]
  | cons day rest ih => simp [createDays, Txn.run, ih]

theorem run_setThemeTags (id : Int) (ids : List Int) (c v : Db V) (n : Nat) (q : Unit → Service V α) :
    (setThemeTags id ids >>= q).run c v n =
      (q ()).run c (v.modifyRoute id fun r => {r with themeTagIds := v.tagIdsIn ids}) n := by
  simp [setThemeTags, Txn.run]

/-- Days that a call accepts for a route with these dates. -/
structure DaysAccepted (d : Db V) (days : List RouteDayInput) (startDate endDate : Date) : Prop where
  valid : validateDays days startDate endDate = .ok ()
  known : missingPlaceIds d days = []

theorem run_validatePlaceIds {d : Db V} {days : List RouteDayInput} (h : missingPlaceIds d days = [])
    (c : Db V) (n : Nat) (q : Unit → Service V α) :
    (validatePlaceIds days >>= q).run c d n = (q ()).run c d n := by
  simp [validatePlaceIds, Txn.run, h]

theorem run_validatePlaceIds_error {d : Db V} {days : List RouteDayInput}
    (h : missingPlaceIds d days ≠ []) (c : Db V) (n : Nat) (q : Unit → Service V α) :
    ∃ e, (validatePlaceIds days >>= q).run c d n = ⟨.error e, c, c, n⟩ := by
  have hne := mt List.isEmpty_iff.mp h
  simp only [validatePlaceIds, Txn.read_bind, Txn.query_bind, Txn.orRaise_bind, Txn.run, hne]
  exact ⟨_, rfl⟩

theorem run_validateRegionTag {d : Db V} {id : Int} (h : d.tags.any (·.id == id) = true)
    (c : Db V) (n : Nat) (q : Unit → Service V α) :
    (validateRegionTag id >>= q).run c d n = (q ()).run c d n := by
  simp only [validateRegionTag, Txn.read_bind, Txn.query_bind, Txn.orRaise_bind, Txn.run, h, if_true]

theorem run_validateRegionTag_error {d : Db V} {id : Int} (h : d.tags.any (·.id == id) ≠ true)
    (c : Db V) (n : Nat) (q : Unit → Service V α) :
    ∃ e, (validateRegionTag id >>= q).run c d n = ⟨.error e, c, c, n⟩ := by
  simp only [validateRegionTag, Txn.read_bind, Txn.query_bind, Txn.orRaise_bind, Txn.run, h]
  exact ⟨_, rfl⟩

theorem run_replaceDays (now : Instant) (userId : Int) (route : Route) (days : List RouteDayInput)
    (v : Db V) (n : Nat) (h : DaysAccepted v days route.startDate route.endDate) :
    ∃ logs m, n ≤ m ∧ ∀ (c : Db V) (q : Unit → Service V α),
      (replaceDays now userId route days >>= q).run c v n =
        (q ()).run c ((v.modifyRoute route.id fun r =>
          {r with days := days.map RouteDayInput.row}).addActionLogs logs) m := by
  let w := v.modifyRoute route.id fun r => {r with days := days.map RouteDayInput.row}
  obtain ⟨logs, m, hm, hlogs⟩ := run_recordRouteAddActions (α := α) now userId
    ((allPlaceIds days).filter fun id => !route.placeIds.contains id) w n
  refine ⟨logs, m, hm, fun c q => ?_⟩
  rw [← hlogs c q]
  simp only [replaceDays, h.valid, Txn.lift_ok, Txn.ret_bind, bind_assoc, run_validatePlaceIds h.known,
    Txn.put_bind, Txn.write_bind, Txn.run, run_createDays]
  simp [w]

theorem run_replaceDays_error (now : Instant) (userId : Int) (route : Route)
    (days : List RouteDayInput) (v c : Db V) (n : Nat)
    (h : ¬ DaysAccepted v days route.startDate route.endDate) (q : Unit → Service V α) :
    ∃ e, (replaceDays now userId route days >>= q).run c v n = ⟨.error e, c, c, n⟩ := by
  cases hv : validateDays days route.startDate route.endDate with
  | error e =>
    refine ⟨e, ?_⟩
    simp only [replaceDays, hv, Txn.lift_error, Txn.raise_bind, Txn.run]
  | ok u =>
    obtain ⟨e, he⟩ := run_validatePlaceIds_error (q := fun _ => _) (fun hk => h ⟨hv, hk⟩) c n
    refine ⟨e, ?_⟩
    simp only [replaceDays, hv, Txn.lift_ok, Txn.ret_bind, bind_assoc]
    exact he

/-- The days of an update, where they are sent. -/
theorem run_forM_replaceDays (now : Instant) (userId : Int) (route : Route)
    (o : Option (List RouteDayInput)) (v : Db V) (n : Nat)
    (h : ∀ days, o = some days → DaysAccepted v days route.startDate route.endDate) :
    ∃ logs m, n ≤ m ∧ ∀ (c : Db V) (q : Unit → Service V α),
      (forM o (replaceDays now userId route) >>= q).run c v n =
        (q ()).run c ((v.modifyRoute route.id fun r =>
          {r with days := (o.map (·.map RouteDayInput.row)).getD r.days}).addActionLogs logs) m := by
  cases o with
  | none => exact ⟨[], n, Nat.le_refl n, fun c q => by simp [Db.modifyRoute]⟩
  | some days => exact run_replaceDays now userId route days v n (h days rfl)

theorem run_forM_replaceDays_error (now : Instant) (userId : Int) (route : Route)
    (o : Option (List RouteDayInput)) (v c : Db V) (n : Nat)
    (h : ¬ ∀ days, o = some days → DaysAccepted v days route.startDate route.endDate)
    (q : Unit → Service V α) :
    ∃ e, (forM o (replaceDays now userId route) >>= q).run c v n = ⟨.error e, c, c, n⟩ := by
  cases o with
  | none => exact absurd (fun _ hd => nomatch hd) h
  | some days =>
    exact run_replaceDays_error now userId route days v c n
      (fun hd => h fun _ hs => Option.some.inj hs ▸ hd) q

theorem run_forM_validateRegionTag {o : Option Int} {v : Db V}
    (h : ∀ id, o = some id → v.tags.any (·.id == id) = true) (c : Db V) (n : Nat)
    (q : Unit → Service V α) :
    (forM o validateRegionTag >>= q).run c v n = (q ()).run c v n := by
  cases o with
  | none => rfl
  | some id => exact run_validateRegionTag (h id rfl) c n q

theorem run_forM_validateRegionTag_error {o : Option Int} {v : Db V}
    (h : ¬ ∀ id, o = some id → v.tags.any (·.id == id) = true) (c : Db V) (n : Nat)
    (q : Unit → Service V α) :
    ∃ e, (forM o validateRegionTag >>= q).run c v n = ⟨.error e, c, c, n⟩ := by
  cases o with
  | none => exact absurd (fun _ hd => nomatch hd) h
  | some id => exact run_validateRegionTag_error (fun ht => h fun _ hs => Option.some.inj hs ▸ ht) c n q

/-! ### Create -/

structure RouteCreateData.Accepted (data : RouteCreateData) (d : Db V) : Prop where
  days : DaysAccepted d data.days data.startDate data.endDate
  regionTag : d.tags.any (·.id == data.regionTagId) = true

/-- The route that is stored. -/
def RouteCreateData.result (data : RouteCreateData) (d : Db V) (id userId : Int) : Route where
  id := id
  userId := userId
  title := data.title
  description := data.description
  regionTagId := some data.regionTagId
  themeTagIds := d.tagIdsIn data.themeTagIds
  startDate := data.startDate
  endDate := data.endDate
  days := data.days.map RouteDayInput.row

theorem createRoute_accepted (now : Instant) (userId : Int) {data : RouteCreateData} {b : Base (Db V)}
    (hid : ∀ r ∈ b.db.routes, r.id ≠ b.seq) (h : data.Accepted b.db) :
    ∃ logs m, b.seq < m ∧ (createRoute now userId data).perform b =
      (.ok b.seq, ⟨(b.db.insertRoute (data.result b.db b.seq userId)).addActionLogs logs, m⟩) := by
  obtain ⟨logs, m, hm, hlogs⟩ := run_recordRouteAddActions (α := Int) now userId (allPlaceIds data.days)
    (b.db.insertRoute (data.result b.db b.seq userId)) (b.seq + 1)
  refine ⟨logs, m, hm, ?_⟩
  have hrun : (createRoute now userId data).run b.db b.db b.seq =
      (recordRouteAddActions now userId (allPlaceIds data.days) >>= fun _ => pure (b.seq : Int)).run b.db
        (b.db.insertRoute (data.result b.db b.seq userId)) (b.seq + 1) := by
    simp only [createRoute, h.days.valid, Txn.lift_ok, Txn.ret_bind, run_validateRegionTag h.regionTag,
      run_validatePlaceIds h.days.known, Txn.fresh_bind, Txn.put_bind, Txn.run, run_setThemeTags, run_createDays]
    congr 1
    rw [Db.modifyRoute_modifyRoute]
    · exact Db.modifyRoute_insertRoute _ hid
    · exact fun _ => rfl
  simp only [Txn.perform, hrun, hlogs, Txn.pure_eq, Txn.run]

theorem createRoute_refused (now : Instant) (userId : Int) {data : RouteCreateData} {b : Base (Db V)}
    (h : ¬ data.Accepted b.db) : ∃ e, (createRoute now userId data).perform b = (.error e, b) := by
  suffices hrun : ∃ e, (createRoute now userId data).run b.db b.db b.seq =
      ⟨.error e, b.db, b.db, b.seq⟩ by
    obtain ⟨e, he⟩ := hrun
    exact ⟨e, by rw [Txn.perform, he]⟩
  cases hv : validateDays data.days data.startDate data.endDate with
  | error e =>
    refine ⟨e, ?_⟩
    simp only [createRoute, hv, Txn.lift_error, Txn.raise_bind, Txn.run]
  | ok u =>
    simp only [createRoute, hv, Txn.lift_ok, Txn.ret_bind]
    by_cases ht : b.db.tags.any (·.id == data.regionTagId) = true
    · rw [run_validateRegionTag ht]
      exact run_validatePlaceIds_error (fun hk => h ⟨⟨hv, hk⟩, ht⟩) _ _ _
    · exact run_validateRegionTag_error ht _ _ _

/-! ### Update -/

structure RouteUpdateData.Accepted (data : RouteUpdateData) (d : Db V) (route : Route) : Prop where
  days : ∀ days, data.days = some days →
    DaysAccepted d days (data.assign route).startDate (data.assign route).endDate
  regionTag : ∀ id, data.regionTagId = some id → d.tags.any (·.id == id) = true

/-- The row after the update. -/
def RouteUpdateData.result (data : RouteUpdateData) (d : Db V) (route : Route) : Route :=
  {data.assign route with
    themeTagIds := (data.themeTagIds.map d.tagIdsIn).getD route.themeTagIds
    days := (data.days.map (·.map RouteDayInput.row)).getD route.days}

/-- The row before the days of the update are written. -/
def RouteUpdateData.retagged (data : RouteUpdateData) (d : Db V) (route : Route) : Route :=
  {data.assign route with
    themeTagIds := (data.themeTagIds.map d.tagIdsIn).getD route.themeTagIds}

/-- What is left to do once the scalar fields and the theme tags are written. -/
theorem updateRoute_run (now : Instant) {userId : Int} (data : RouteUpdateData) {b : Base (Db V)}
    {route : Route} (hroute : b.db.route? route.id = some route) (howner : route.userId = userId) :
    (updateRoute now userId route.id data).run b.db b.db b.seq =
      (forM data.days (replaceDays now userId (data.assign route)) >>= fun _ =>
        forM data.regionTagId validateRegionTag >>= fun _ => pure (data.assign route)).run
          b.db (b.db.saveRoute (data.retagged b.db route)) b.seq := by
  simp only [updateRoute, getRouteOr404, Txn.read_bind, Txn.query_bind, Txn.run, hroute, Txn.pure_eq,
    Txn.ret_bind, Txn.orRaise_bind, howner, if_true, Txn.put_bind, Option.forM_eq_forM]
  cases hd : data.themeTagIds with
  | none => simp [RouteUpdateData.retagged, hd, RouteUpdateData.assign]
  | some ids =>
    have hsaved : (b.db.saveRoute (data.assign route)).modifyRoute route.id
        (fun r => {r with themeTagIds := (b.db.saveRoute (data.assign route)).tagIdsIn ids}) =
          b.db.saveRoute (data.retagged b.db route) := by
      refine (Db.modifyRoute_saveRoute _ ?_ b.db).trans ?_
      · rfl
      · simp [RouteUpdateData.retagged, hd, Db.tagIdsIn, Db.saveRoute]
    rw [Option.forM_some, run_setThemeTags, hsaved]

/-- The days written by an accepted update complete the row. -/
theorem modifyRoute_retagged (data : RouteUpdateData) (d : Db V) (route : Route) :
    ((d.saveRoute (data.retagged d route)).modifyRoute route.id fun r =>
      {r with days := (data.days.map (·.map RouteDayInput.row)).getD r.days}) =
      d.saveRoute (data.result d route) := by
  refine (Db.modifyRoute_saveRoute _ ?_ d).trans ?_ <;> rfl

theorem updateRoute_accepted (now : Instant) {userId : Int} {data : RouteUpdateData} {b : Base (Db V)}
    {route : Route} (hroute : b.db.route? route.id = some route) (howner : route.userId = userId)
    (h : data.Accepted b.db route) :
    ∃ logs m, b.seq ≤ m ∧ (updateRoute now userId route.id data).perform b =
      (.ok (data.assign route), ⟨(b.db.saveRoute (data.result b.db route)).addActionLogs logs, m⟩) := by
  obtain ⟨logs, m, hm, hrun⟩ := run_forM_replaceDays (α := Route) now userId (data.assign route) data.days
    (b.db.saveRoute (data.retagged b.db route)) b.seq
    (fun days hd => ⟨(h.days days hd).valid, (h.days days hd).known⟩)
  refine ⟨logs, m, hm, ?_⟩
  rw [Txn.perform, updateRoute_run now data hroute howner, hrun,
    run_forM_validateRegionTag (by exact h.regionTag)]
  simp only [Txn.pure_eq, Txn.run]
  rw [← modifyRoute_retagged]
  rfl

/-- A refused update may have drawn log ids; nothing else remains of it. -/
theorem updateRoute_refused (now : Instant) {userId : Int} {data : RouteUpdateData} {b : Base (Db V)}
    {route : Route} (hroute : b.db.route? route.id = some route) (howner : route.userId = userId)
    (h : ¬ data.Accepted b.db route) :
    ∃ e m, b.seq ≤ m ∧ (updateRoute now userId route.id data).perform b = (.error e, ⟨b.db, m⟩) := by
  suffices hrun : ∃ e m, b.seq ≤ m ∧ (updateRoute now userId route.id data).run b.db b.db b.seq =
      ⟨.error e, b.db, b.db, m⟩ by
    obtain ⟨e, m, hm, he⟩ := hrun
    exact ⟨e, m, hm, by rw [Txn.perform, he]⟩
  rw [updateRoute_run now data hroute howner]
  by_cases hd : ∀ days, data.days = some days →
      DaysAccepted b.db days (data.assign route).startDate (data.assign route).endDate
  · obtain ⟨logs, m, hm, hrun⟩ := run_forM_replaceDays (α := Route) now userId (data.assign route) data.days
      (b.db.saveRoute (data.retagged b.db route)) b.seq
      (fun days hs => ⟨(hd days hs).valid, (hd days hs).known⟩)
    rw [hrun]
    -- the days are written already; the region tag still rolls them back
    exact (run_forM_validateRegionTag_error (by exact fun ht => h ⟨hd, ht⟩) ..).imp
      fun e he => ⟨m, hm, he⟩
  · exact (run_forM_replaceDays_error now userId (data.assign route) data.days _ b.db b.seq
      (by exact fun hall => hd fun days hs => ⟨(hall days hs).valid, (hall days hs).known⟩) _).imp
      fun e he => ⟨b.seq, Nat.le_refl _, he⟩

theorem updateRoute_forbidden (now : Instant) {userId : Int} (data : RouteUpdateData) {b : Base (Db V)}
    {route : Route} (hroute : b.db.route? route.id = some route) (howner : route.userId ≠ userId) :
    ∃ e, (updateRoute now userId route.id data).perform b = (.error e, b) := by
  simp only [updateRoute, getRouteOr404, Txn.perform, Txn.read_bind, Txn.query_bind, Txn.run, hroute,
    Txn.pure_eq, Txn.ret_bind, Txn.orRaise_bind, howner, if_false]
  exact ⟨_, rfl⟩

theorem updateRoute_notFound (now : Instant) (userId : Int) {routeId : Int} (data : RouteUpdateData)
    {b : Base (Db V)} (hroute : b.db.route? routeId = none) :
    (updateRoute now userId routeId data).perform b = (.error routeNotFound, b) := by
  simp only [updateRoute, getRouteOr404, Txn.perform, Txn.read_bind, Txn.query_bind, Txn.run, hroute,
    Txn.raise_bind]

/-! ### Delete -/

theorem deleteRoute_perform (userId routeId : Int) (b : Base (Db V)) :
    ((deleteRoute userId routeId).perform b).2 = b ∨
      ((deleteRoute userId routeId).perform b).2 = ⟨b.db.deleteRoute routeId, b.seq⟩ := by
  cases hroute : b.db.route? routeId with
  | none =>
    left
    simp only [deleteRoute, getRouteOr404, Txn.perform, Txn.read_bind, Txn.query_bind, Txn.run, hroute,
      Txn.raise_bind]
  | some route =>
    simp only [deleteRoute, getRouteOr404, Txn.perform, Txn.read_bind, Txn.query_bind, Txn.run, hroute,
      Txn.pure_eq, Txn.ret_bind, Txn.orRaise_bind]
    split
    · exact .inr rfl
    · exact .inl rfl

theorem adminDeleteRoute_perform (routeId : Int) (b : Base (Db V)) :
    ((adminDeleteRoute routeId).perform b).2 = b ∨
      ((adminDeleteRoute routeId).perform b).2 = ⟨b.db.deleteRoute routeId, b.seq⟩ := by
  cases hroute : b.db.route? routeId with
  | none =>
    left
    simp only [adminDeleteRoute, getRouteOr404, Txn.perform, Txn.read_bind, Txn.query_bind, Txn.run, hroute,
      Txn.raise_bind]
  | some route =>
    right
    simp only [adminDeleteRoute, getRouteOr404, Txn.perform, Txn.read_bind, Txn.query_bind, Txn.run,
      hroute, Txn.pure_eq, Txn.ret_bind, Txn.put_bind]

end TravelMaker
