import Mathlib.Data.List.Dedup
import TravelMaker.User.ActionLog

/-! Routes: `route_serializers` and `route_services`.

A route is a trip of up to three days with up to five places a day. What the
serializers let through is a structure with its checks as fields; what the
services check again is in their bodies. -/
namespace TravelMaker
open Lib (Txn)

variable {V : Type}

/-! ### Serializers -/

/-- `RouteDayInputSerializer`. -/
structure RouteDayInput where
  dayIndex : Int
  placeIds : List Int
  dayIndex_range : 1 ≤ dayIndex ∧ dayIndex ≤ 3
  placeIds_length : 1 ≤ placeIds.length ∧ placeIds.length ≤ 5

def validationError (detail : String) : Exc := .api 400 detail

def RouteCreateSerializer.validate (startDate endDate : Date) : Except Exc Unit :=
  if startDate > endDate then
    .error (validationError "시작일이 종료일보다 늦을 수 없습니다.")
  else if endDate - startDate > 2 then
    .error (validationError "최대 2박 3일까지 설정할 수 있습니다.")
  else .ok ()

/-- The dates are compared only where both are sent. -/
def RouteUpdateSerializer.validate : Option Date → Option Date → Except Exc Unit
  | some startDate, some endDate => RouteCreateSerializer.validate startDate endDate
  | _, _ => .ok ()

/-- What `RouteCreateSerializer` lets through. -/
structure RouteCreateData where
  title : String
  description : Option String := none
  regionTagId : Int
  themeTagIds : List Int := []
  startDate : Date
  endDate : Date
  days : List RouteDayInput
  title_length : 1 ≤ title.length ∧ title.length ≤ 20
  validated : RouteCreateSerializer.validate startDate endDate = .ok ()

/-- What `RouteUpdateSerializer` lets through: every field may be absent. -/
structure RouteUpdateData where
  title : Option String := none
  description : Option (Option String) := none
  regionTagId : Option Int := none
  themeTagIds : Option (List Int) := none
  startDate : Option Date := none
  endDate : Option Date := none
  days : Option (List RouteDayInput) := none
  title_length : ∀ t, title = some t → 1 ≤ t.length ∧ t.length ≤ 20
  validated : RouteUpdateSerializer.validate startDate endDate = .ok ()

/-! ### Checks -/

def routeNotFound : Exc := .api 404 "존재하지 않는 경로입니다."
def routeForbidden (detail : String) : Exc := .api 403 detail
def routeValidationError (detail : String) : Exc := .api 400 detail

def validateDay (totalDays : Int) (day : RouteDayInput) : Except Exc Unit :=
  if day.dayIndex < 1 ∨ day.dayIndex > totalDays then
    .error (routeValidationError
      s!"{day.dayIndex}일차는 유효하지 않습니다. (총 {totalDays}일)")
  else if day.placeIds.length < 1 ∨ day.placeIds.length > 5 then
    .error (routeValidationError s!"{day.dayIndex}일차 장소는 1~5개여야 합니다.")
  else .ok ()

def validateEachDay (totalDays : Int) : List RouteDayInput → Except Exc Unit
  | [] => .ok ()
  | day :: rest =>
    match validateDay totalDays day with
    | .ok () => validateEachDay totalDays rest
    | .error e => .error e

def validateDays (daysData : List RouteDayInput) (startDate endDate : Date) : Except Exc Unit :=
  let totalDays := endDate - startDate + 1
  if (daysData.map (·.dayIndex)).Nodup then validateEachDay totalDays daysData
  else .error (routeValidationError "day_index가 중복됩니다.")

def validateRegionTag (regionTagId : Int) : Service V Unit := do
  let d ← Txn.read
  Txn.orRaise (d.tags.any (·.id == regionTagId))
    (routeValidationError "존재하지 않는 지역 태그입니다.")

def allPlaceIds (daysData : List RouteDayInput) : List Int := daysData.flatMap (·.placeIds)

def missingPlaceIds (d : Db V) (daysData : List RouteDayInput) : List Int :=
  (allPlaceIds daysData).filter fun id => !d.places.any (·.id == id)

def validatePlaceIds (daysData : List RouteDayInput) : Service V Unit := do
  let d ← Txn.read
  let missing := missingPlaceIds d daysData
  Txn.orRaise missing.isEmpty
    (routeValidationError s!"존재하지 않는 장소입니다: {missing.dedup.mergeSort (· ≤ ·)}")

/-! ### Rows -/

namespace Db

def insertRoute (route : Route) (d : Db V) : Db V := {d with routes := d.routes ++ [route]}

/-- `save()`: the row takes the values of the instance. -/
def saveRoute (route : Route) (d : Db V) : Db V :=
  {d with routes := d.routes.map fun r => if r.id = route.id then route else r}

def modifyRoute (id : Int) (f : Route → Route) (d : Db V) : Db V :=
  {d with routes := d.routes.map fun r => if r.id = id then f r else r}

@[simp] theorem modifyRoute_modifyRoute (id : Int) (f g : Route → Route) (hf : ∀ r, (f r).id = r.id)
    (d : Db V) : (d.modifyRoute id f).modifyRoute id g = d.modifyRoute id fun r => g (f r) := by
  simp only [modifyRoute, List.map_map]
  congr 2
  funext r
  by_cases h : r.id = id <;> simp [h, hf]

theorem modifyRoute_insertRoute {route : Route} (f : Route → Route) {d : Db V}
    (h : ∀ r ∈ d.routes, r.id ≠ route.id) :
    (d.insertRoute route).modifyRoute route.id f = d.insertRoute (f route) := by
  simp only [insertRoute, modifyRoute, List.map_append]
  have hrest : d.routes.map (fun r => if r.id = route.id then f r else r) = d.routes :=
    (List.map_congr_left fun r hr => if_neg (h r hr)).trans (List.map_id _)
  rw [hrest]
  simp

theorem modifyRoute_saveRoute {route : Route} (f : Route → Route) (h : (f route).id = route.id) (d : Db V) :
    (d.saveRoute route).modifyRoute route.id f = d.saveRoute (f route) := by
  simp only [saveRoute, modifyRoute, List.map_map, h]
  congr 2
  funext r
  by_cases hr : r.id = route.id <;> simp [hr]

/-- Days and places go with the route; reviews linked to it lose the link. -/
def deleteRoute (id : Int) (d : Db V) : Db V :=
  {d with
    routes := d.routes.filter (·.id != id)
    reviews := d.reviews.map fun r => if r.routeId = some id then {r with routeId := none} else r}

/-- `Tag.objects.filter(id__in=ids)`. -/
def tagIdsIn (ids : List Int) (d : Db V) : List Int :=
  (d.tags.filter fun t => ids.contains t.id).map (·.id)

end Db

/-- The `RouteDay` row of an input day; the order of its places counts from 1. -/
def RouteDayInput.row (day : RouteDayInput) : RouteDay where
  dayIndex := day.dayIndex
  dayPlaces := (day.placeIds.zipIdx 1).map fun x => ⟨x.1, x.2⟩

/-- `theme_tags.set(Tag.objects.filter(id__in=ids))`. -/
def setThemeTags (routeId : Int) (ids : List Int) : Service V Unit := do
  let d ← Txn.read
  let _ ← Txn.put (.route routeId)
    (Db.modifyRoute routeId fun r => {r with themeTagIds := d.tagIdsIn ids})

/-- `_create_days`. The day indices were checked to be distinct, so the unique
constraint of the table is not met. -/
def createDays (routeId : Int) : List RouteDayInput → Service V Unit
  | [] => pure ()
  | day :: rest => do
    let _ ← Txn.put (.route routeId)
      (Db.modifyRoute routeId fun r => {r with days := r.days ++ [day.row]})
    createDays routeId rest

def recordEach (now : Instant) (userId : Int) (actionType : ActionType) :
    List Place → Service V Unit
  | [] => pure ()
  | place :: rest => do
    let _ ← recordAction now userId place actionType none
    recordEach now userId actionType rest

def recordRouteAddActions (now : Instant) (userId : Int) (placeIds : List Int) : Service V Unit := do
  let d ← Txn.read
  recordEach now userId .routeAdd (d.places.filter fun p => placeIds.contains p.id)

def getRouteOr404 (routeId : Int) : Service V Route := do
  let d ← Txn.read
  match d.route? routeId with
  | some route => return route
  | none => Txn.raise routeNotFound

/-! ### Services -/

def createRoute (now : Instant) (userId : Int) (data : RouteCreateData) : Service V Int := do
  Txn.lift (validateDays data.days data.startDate data.endDate)
  validateRegionTag data.regionTagId
  validatePlaceIds data.days
  let id ← Txn.fresh
  let route : Route := {
    id := id
    userId := userId
    title := data.title
    description := data.description
    regionTagId := some data.regionTagId
    startDate := data.startDate
    endDate := data.endDate }
  let _ ← Txn.put (.route id) (Db.insertRoute route)
  setThemeTags id data.themeTagIds
  createDays id data.days
  recordRouteAddActions now userId (allPlaceIds data.days)
  return id

/-- The instance after `setattr` of the fields that were sent. -/
def RouteUpdateData.assign (data : RouteUpdateData) (route : Route) : Route :=
  {route with
    title := data.title.getD route.title
    description := data.description.getD route.description
    regionTagId := data.regionTagId.or route.regionTagId
    startDate := data.startDate.getD route.startDate
    endDate := data.endDate.getD route.endDate}

def Route.placeIds (route : Route) : List Int :=
  route.days.flatMap fun day => day.dayPlaces.map (·.placeId)

/-- The part of `update_route` for `days`: all days are replaced. -/
def replaceDays (now : Instant) (userId : Int) (route : Route) (daysData : List RouteDayInput) :
    Service V Unit := do
  Txn.lift (validateDays daysData route.startDate route.endDate)
  validatePlaceIds daysData
  let _ ← Txn.put (.route route.id) (Db.modifyRoute route.id fun r => {r with days := []})
  createDays route.id daysData
  -- places the route already had are not recorded again
  recordRouteAddActions now userId
    ((allPlaceIds daysData).filter fun id => !route.placeIds.contains id)

def updateRoute (now : Instant) (userId routeId : Int) (data : RouteUpdateData) :
    Service V Route := do
  let route ← getRouteOr404 routeId
  Txn.orRaise (route.userId = userId) (routeForbidden "본인이 작성한 경로만 수정할 수 있습니다.")
  let route := data.assign route
  let _ ← Txn.put (.route routeId) (Db.saveRoute route)
  data.themeTagIds.forM (setThemeTags routeId)
  data.days.forM (replaceDays now userId route)
  data.regionTagId.forM validateRegionTag
  return route

def deleteRoute (userId routeId : Int) : Service V Unit := do
  let route ← getRouteOr404 routeId
  Txn.orRaise (route.userId = userId) (routeForbidden "본인이 작성한 경로만 삭제할 수 있습니다.")
  let _ ← Txn.put (.route routeId) (Db.deleteRoute routeId)
  return ()

def adminDeleteRoute (routeId : Int) : Service V Unit := do
  let _ ← getRouteOr404 routeId
  let _ ← Txn.put (.route routeId) (Db.deleteRoute routeId)
  return ()

end TravelMaker
