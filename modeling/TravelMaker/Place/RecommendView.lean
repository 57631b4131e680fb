import TravelMaker.Place.Paging

/-! Pages of recommended places: `PlaceRecommendView`.

The view cuts its page out of the ranking before the paginator sees the request, and reads
the page number for itself. `agrees_iff` says for which query strings the places are those
of the page that the paginator counts. -/
namespace TravelMaker

variable {V D : Type} [LinearOrder D]

/-- `Paginator.num_pages`. -/
def numPages (count size : Nat) : Nat := max 1 ((count + size - 1) / size)

/-- The paginator of the framework. -/
structure PageNumberPagination where
  /-- `get_page_size`, from the query string. -/
  getPageSize : Option String → Option Nat
  /-- The page of so many items that a query string asks for. -/
  paginateQueryset : Option String → (count size : Nat) → Except Exc Nat
  first : ∀ page count size, page = none ∨ page = some "" → paginateQueryset page count size = .ok 1
  last : ∀ count size, paginateQueryset (some "last") count size = .ok (numPages count size)
  number : ∀ page count size (n : Nat), page ≠ "last" → Lib.Text.int? page = some (n : Int) → 1 ≤ n →
    n ≤ numPages count size → paginateQueryset (some page) count size = .ok n
  notFound : ∀ page count size, page ≠ "" → page ≠ "last" →
    (∀ n : Nat, Lib.Text.int? page = some (n : Int) → 1 ≤ n → numPages count size < n) →
      ∃ detail, paginateQueryset (some page) count size = .error (.api 404 detail)

def recommendPageSize : Nat := 12

/-- A page of the response; the links are those of its number. -/
structure RecommendResponse where
  count : Nat
  number : Nat
  results : List ListedPlace
deriving DecidableEq, Repr

namespace Catalog

/-- The result of the quiz, where it is a vector of the six axes. -/
def quizResult (c : Catalog V) (dimensions : V → Nat) (userId : Option Int) : Option (UserTestResult V) :=
  (userId.bind fun userId => c.testResults.find? (·.userId == userId)).filter (dimensions ·.resultVector == 6)

end Catalog

section
variable (drf : PageNumberPagination) (e : Engine V D) (dimensions : V → Nat) (c : Catalog V) (userId : Option Int)

def pageSizeOf (pageSize : Option String) : Nat := ((drf.getPageSize pageSize).filter (0 < ·)).getD recommendPageSize

/-- The page number as the view reads it. -/
def pageNum (page : Option String) : Int := (page.bind Lib.Text.int?).getD 1

/-- `get`; `popular` is what `get_popular_places` gives. -/
def placeRecommendView (tagIds : List Int) (regionTagId : Option Int) (page pageSize : Option String)
    (popular : List ListedPlace) : Except Exc RecommendResponse := do
  let size := pageSizeOf drf pageSize
  let offset := (pageNum page - 1) * size
  match c.quizResult dimensions userId with
  | some result =>
    let (pageIds, totalCount) ← getPlaceIdsSortedByVector e c result.resultVector tagIds regionTagId offset size
    let number ← drf.paginateQueryset page totalCount size
    return ⟨totalCount, number, (c.loadPlaces e pageIds).map fun p => {p with isBookmarked := c.isBookmarked userId p.place.id}⟩
  | none =>
    let number ← drf.paginateQueryset page popular.length size
    return ⟨popular.length, number,
      (pySlice ((number - 1) * size : Nat) (number * size : Nat) popular).map fun p => {p with isBookmarked := false}⟩

/-- The response is not found, or the page of its number. -/
def EnvelopeAgrees (vector : V) (page pageSize : Option String) (popular : List ListedPlace) : Prop :=
  match placeRecommendView drf e dimensions c userId [] none page pageSize popular with
  | .ok response =>
    response.count = (c.ranking e vector [] none).length ∧
      response.results.map (·.place.id) =
        ((c.ranking e vector [] none).drop ((response.number - 1) * pageSizeOf drf pageSize)).take (pageSizeOf drf pageSize)
  | .error (.api status _) => status = 404
  | .error _ => False

end

/-- The page is one that the view reads as the paginator does. -/
structure PageFits (e : Engine V D) (page : Option String) (size count : Nat) : Prop where
  limit : e.Takes size
  offset : ∀ n, page.bind Lib.Text.int? = some n → 1 ≤ n ∧ e.Takes ((n - 1).toNat * size)
  last : page = some "last" → count ≤ size

/-! ### The view -/

section
variable {drf : PageNumberPagination} {e : Engine V D} {dimensions : V → Nat} {c : Catalog V} {userId : Option Int}
variable {result : UserTestResult V} {page pageSize : Option String} {popular : List ListedPlace}

omit [LinearOrder D] in
theorem pageSizeOf_pos : 0 < pageSizeOf drf pageSize := by
  unfold pageSizeOf
  cases hsize : (drf.getPageSize pageSize).filter (0 < ·) with
  | none => exact (by decide : 0 < recommendPageSize)
  | some size => exact of_decide_eq_true (Option.filter_eq_some_iff.mp hsize).2

theorem pageNum_none (h : page.bind Lib.Text.int? = none) : pageNum page = 1 := by
  unfold pageNum
  rw [h]
  rfl

theorem pageNum_some {n : Int} (h : page.bind Lib.Text.int? = some n) : pageNum page = n := by
  unfold pageNum
  rw [h]
  rfl

omit [LinearOrder D] in
/-- A slice that the database does not take, as an error of the framework or of the database. -/
theorem querySlice_error {α : Type} {start : Int} {width : Nat} (rows : List α)
    (h : ¬ (0 ≤ start ∧ e.Takes start.toNat ∧ e.Takes width)) :
    querySlice e.largest start (start + width) rows = .error (.valueError "Negative indexing is not supported.") ∨
      querySlice e.largest start (start + width) rows = .error .databaseError := by
  unfold querySlice
  by_cases hneg : start < 0 ∨ start + width < 0
  · exact .inl (if_pos hneg)
  · right
    have hlarge : (e.largest.any fun n : Nat => (n : Int) < start ∨ (n : Int) < start + width - start) = true := by
      by_contra hnone
      refine h ⟨by omega, fun n hn => ?_, fun n hn => ?_⟩ <;> by_contra hlt <;>
        exact hnone ((Option.any_eq_true _ _).mpr ⟨n, hn, decide_eq_true (by omega)⟩)
    rw [if_neg hneg, if_pos hlarge]

theorem listedOf_ids {ids : List Int} (h : ∀ id ∈ ids, (c.listedOf id).isSome = true) :
    (ids.filterMap c.listedOf).map (·.place.id) = ids := by
  induction ids with
  | nil => rfl
  | cons id rest ih =>
    obtain ⟨p, hp⟩ := Option.isSome_iff_exists.mp (h id List.mem_cons_self)
    obtain ⟨place, hplace, rfl⟩ := Option.map_eq_some_iff.mp hp
    rw [List.filterMap_cons_some hp, List.map_cons, ih fun id hid => h id (List.mem_cons_of_mem _ hid)]
    exact congrArg (· :: rest) (Db.place?_some hplace).2

/-- The last page is the first one only where there is no other. -/
theorem numPages_le_one {count size : Nat} (hsize : 0 < size) : numPages count size ≤ 1 ↔ count ≤ size := by
  unfold numPages
  rw [Nat.max_le, and_iff_right (Nat.le_refl 1), ← Nat.lt_succ_iff, Nat.div_lt_iff_lt_mul hsize]
  omega

theorem take_eq_drop {α : Type} {l : List α} (hl : l.Nodup) {m size : Nat} (hm : 0 < m) (hsize : 0 < size)
    (h : l.take size = (l.drop m).take size) : l = [] := by
  cases l with
  | nil => rfl
  | cons a rest =>
    have hmem : a ∈ (a :: rest).take size := by
      obtain ⟨n, rfl⟩ := Nat.exists_eq_succ_of_ne_zero (Nat.ne_of_gt hsize)
      exact List.mem_cons_self
    rw [h] at hmem
    exact absurd (List.mem_of_mem_take hmem) (List.disjoint_take_drop hl hm List.mem_cons_self)

omit [LinearOrder D] in
/-- Except for the last page, the paginator reads the number that the view reads, or finds no page. -/
theorem paginateQueryset_reads {k : Nat} (hpage : pageNum page = k + 1) (hlast : page ≠ some "last") (count size : Nat) :
    drf.paginateQueryset page count size = .ok (k + 1) ∨
      ∃ detail, drf.paginateQueryset page count size = .error (.api 404 detail) := by
  by_cases hfirst : page = none ∨ page = some ""
  · have hk : k = 0 := by
      have hone : pageNum page = 1 := by rcases hfirst with rfl | rfl <;> decide
      omega
    rw [hk]
    exact .inl (drf.first page count size hfirst)
  obtain ⟨text, rfl⟩ := Option.ne_none_iff_exists'.mp fun h => hfirst (.inl h)
  have hlast : text ≠ "last" := fun h => hlast (congrArg some h)
  have hblank : text ≠ "" := fun h => hfirst (.inr (congrArg some h))
  cases hint : Lib.Text.int? text with
  | none => exact .inr (drf.notFound text count size hblank hlast fun n hn => by rw [hint] at hn; cases hn)
  | some n =>
    have hn : n = k + 1 := by
      have hread : pageNum (some text) = n := pageNum_some hint
      omega
    subst hn
    by_cases hpages : k + 1 ≤ numPages count size
    · exact .inl (drf.number text count size (k + 1) hlast hint (Nat.succ_pos k) hpages)
    · refine .inr (drf.notFound text count size hblank hlast fun n hn _ => ?_)
      rw [hint] at hn
      have := Option.some.inj hn
      omega

/-! ### Agreement -/

section
variable (hc : c.Constraints) (hresult : c.quizResult dimensions userId = some result)
variable (hr : c.ExactlyRanked e result.resultVector)
include hc hresult hr

variable (popular) in
/-- The response for a page that the database takes. -/
theorem view_eq {k : Nat} (hpage : pageNum page = k + 1) (hoffset : e.Takes (k * pageSizeOf drf pageSize))
    (hlimit : e.Takes (pageSizeOf drf pageSize)) :
    ∃ places, (places.map (·.place.id) = ((c.ranking e result.resultVector [] none).drop (k * pageSizeOf drf pageSize)).take
        (pageSizeOf drf pageSize)) ∧
      placeRecommendView drf e dimensions c userId [] none page pageSize popular =
        (drf.paginateQueryset page (c.ranking e result.resultVector [] none).length (pageSizeOf drf pageSize)).map
          fun number => ⟨(c.ranking e result.resultVector [] none).length, number, places⟩ := by
  set size := pageSizeOf drf pageSize with hsize
  set ids := ((c.ranking e result.resultVector [] none).drop (k * size)).take size with hids
  have hnodup : ids.Nodup := (nodup_ranking hc).sublist ((List.take_sublist _ _).trans (List.drop_sublist _ _))
  have hlisted : ∀ id ∈ ids, (c.listedOf id).isSome = true := by
    intro id hid
    have hmem := List.mem_of_mem_drop (List.mem_of_mem_take hid)
    obtain ⟨place, hplace, -⟩ := (Option.any_eq_true _ _).mp (mem_ranking hmem).2
    exact Option.isSome_map.trans (Option.isSome_iff_exists.mpr ⟨place, hplace⟩)
  refine ⟨(c.loadPlaces e ids).map fun p => {p with isBookmarked := c.isBookmarked userId p.place.id}, ?_, ?_⟩
  · rw [List.map_map, loadPlaces_eq hc hnodup]
    exact listedOf_ids hlisted
  · have hstart : (pageNum page - 1) * (size : Int) = (k * size : Nat) := by
      rw [hpage]
      simp
    unfold placeRecommendView
    dsimp only
    rw [hresult, ← hsize, hstart]
    dsimp only
    rw [unfiltered_eq hr hoffset hlimit rfl rfl]
    show (drf.paginateQueryset page _ size >>= fun number => _) = _
    cases drf.paginateQueryset page (c.ranking e result.resultVector [] none).length size <;> rfl

theorem agrees_of_takes {k : Nat} (hpage : pageNum page = k + 1) (hoffset : e.Takes (k * pageSizeOf drf pageSize))
    (hlimit : e.Takes (pageSizeOf drf pageSize)) : EnvelopeAgrees drf e dimensions c userId result.resultVector page pageSize popular ↔
      (page = some "last" → (c.ranking e result.resultVector [] none).length ≤ pageSizeOf drf pageSize) := by
  obtain ⟨places, hids, hview⟩ := view_eq popular hc hresult hr hpage hoffset hlimit
  have hsize : 0 < pageSizeOf drf pageSize := pageSizeOf_pos
  unfold EnvelopeAgrees
  rw [hview]
  by_cases hlast : page = some "last"
  · subst hlast
    have hk : k = 0 := by
      have hone : pageNum (some "last") = 1 := by decide
      omega
    subst hk
    rw [drf.last]
    show (_ = _ ∧ _ = _) ↔ _
    rw [hids, Nat.zero_mul, List.drop_zero, and_iff_right rfl, imp_iff_right rfl]
    constructor
    · intro h
      by_contra hmany
      have hpages : 0 < (numPages (c.ranking e result.resultVector [] none).length (pageSizeOf drf pageSize) - 1) :=
        Nat.sub_pos_of_lt (Nat.lt_of_not_le fun hle => hmany ((numPages_le_one hsize).mp hle))
      rw [take_eq_drop (nodup_ranking hc) (Nat.mul_pos hpages hsize) hsize h] at hmany
      exact hmany (Nat.zero_le _)
    · intro h
      rw [Nat.sub_eq_zero_of_le ((numPages_le_one hsize).mpr h), Nat.zero_mul, List.drop_zero]
  · refine iff_of_true ?_ fun h => absurd h hlast
    rcases paginateQueryset_reads hpage hlast (c.ranking e result.resultVector [] none).length
      (pageSizeOf drf pageSize) with hok | ⟨detail, herror⟩
    · rw [hok]
      exact ⟨rfl, hids⟩
    · rw [herror]
      rfl

/-- **The envelope and its content.** The view answers a query string with a page that is
not the one of the links exactly where it reads another number than the paginator, and
with an error where the slice is none. -/
theorem agrees_iff : EnvelopeAgrees drf e dimensions c userId result.resultVector page pageSize popular ↔
    PageFits e page (pageSizeOf drf pageSize) (c.ranking e result.resultVector [] none).length := by
  have hsize : 0 < pageSizeOf drf pageSize := pageSizeOf_pos
  by_cases hslice : 1 ≤ pageNum page ∧ e.Takes ((pageNum page - 1).toNat * pageSizeOf drf pageSize) ∧
      e.Takes (pageSizeOf drf pageSize)
  · obtain ⟨hpos, hoffset, hlimit⟩ := hslice
    rw [agrees_of_takes hc hresult hr (k := (pageNum page - 1).toNat) (by omega) hoffset hlimit]
    constructor
    · refine fun hlast => ⟨hlimit, fun n hn => ?_, hlast⟩
      rw [← pageNum_some hn]
      exact ⟨hpos, hoffset⟩
    · exact fun h => h.last
  · refine iff_of_false ?_ ?_
    · have hbad : ¬ (0 ≤ (pageNum page - 1) * (pageSizeOf drf pageSize : Int) ∧
          e.Takes ((pageNum page - 1) * (pageSizeOf drf pageSize : Int)).toNat ∧ e.Takes (pageSizeOf drf pageSize)) := by
        intro h
        obtain ⟨hnonneg, hoffset, hlimit⟩ := h
        have hpos : 0 ≤ pageNum page - 1 := by
          by_contra hneg
          exact absurd (Int.mul_neg_of_neg_of_pos (Int.lt_of_not_ge hneg) (Int.natCast_pos.mpr hsize)) (Int.not_lt.mpr hnonneg)
        obtain ⟨k, hk⟩ := Int.eq_ofNat_of_zero_le hpos
        rw [hk, ← Int.natCast_mul, Int.toNat_natCast] at hoffset
        exact hslice ⟨by omega, by rwa [hk, Int.toNat_natCast], hlimit⟩
      have hslice := querySlice_error ((c.rankedRows e result.resultVector [] none c.styleRows).map (·.placeId)) hbad
      unfold EnvelopeAgrees placeRecommendView
      dsimp only
      rw [hresult]
      unfold getPlaceIdsSortedByVector
      dsimp only
      rw [if_pos ⟨rfl, rfl⟩]
      rcases hslice with herror | herror <;> rw [herror] <;> exact id
    · intro h
      apply hslice
      cases hread : page.bind Lib.Text.int? with
      | none =>
        rw [pageNum_none hread]
        exact ⟨le_rfl, takes_of_le h.limit (Nat.zero_mul _ ▸ Nat.zero_le _), h.limit⟩
      | some n =>
        obtain ⟨hpos, hoffset⟩ := h.offset n hread
        rw [pageNum_some hread]
        exact ⟨hpos, hoffset, h.limit⟩

end

end

/-! ### The last page -/

/-- The page as documented. -/
def restPage (page : Option String) (count size : Nat) : Except Exc Nat :=
  if page = none ∨ page = some "" then .ok 1
  else if page = some "last" then .ok (numPages count size)
  else match page.bind Lib.Text.int? with
    | some n => if 1 ≤ n ∧ n ≤ numPages count size then .ok n.toNat else .error (.api 404 "Invalid page.")
    | none => .error (.api 404 "Invalid page.")

def restPagination : PageNumberPagination where
  getPageSize pageSize := some ((pageSize.bind Lib.Text.int?).elim recommendPageSize fun n =>
    if n ≤ 0 then recommendPageSize else min n.toNat 100)
  paginateQueryset := restPage
  first page count size h := if_pos h
  last count size := rfl
  number page count size n hlast hint hpos hle := by
    have hblank : page ≠ "" := by
      intro heq
      subst heq
      rw [show Lib.Text.int? "" = none by decide] at hint
      cases hint
    have hfirst : ¬ (some page = none ∨ some page = some "") := by simpa using hblank
    rw [restPage, if_neg hfirst, if_neg fun h => hlast (Option.some.inj h), Option.bind_some, hint]
    exact if_pos ⟨by omega, by omega⟩
  notFound page count size hblank hlast h := by
    have hfirst : ¬ (some page = none ∨ some page = some "") := by simpa using hblank
    rw [restPage, if_neg hfirst, if_neg fun h => hlast (Option.some.inj h), Option.bind_some]
    refine ⟨"Invalid page.", ?_⟩
    cases hint : Lib.Text.int? page with
    | none => rfl
    | some n =>
      refine if_neg fun hbounds => ?_
      have := h n.toNat (by rw [hint, Int.toNat_of_nonneg (by omega)]) (by omega)
      omega

/-- Two places, and a user with a result of the quiz. -/
def quizzed : Catalog Nat := {crowded with testResults := [⟨1, 1⟩]}

theorem agrees_iff_quizzed : EnvelopeAgrees restPagination plainEngine (fun _ => 6) quizzed (some 1) 1 (some "2") (some "1") [] ↔
    PageFits plainEngine (some "2") (pageSizeOf restPagination (some "1"))
      (quizzed.ranking plainEngine 1 [] none).length :=
  agrees_iff ⟨by decide, by decide, by decide⟩ (by decide : quizzed.quizResult (fun _ => 6) (some 1) = some ⟨1, 1⟩)
    (by unfold Catalog.ExactlyRanked; decide)

/-- The links are those of the second page, the place is that of the first. -/
theorem last_shows_first_page :
    ¬ EnvelopeAgrees restPagination plainEngine (fun _ => 6) quizzed (some 1) 1 (some "last") (some "1") [] := by
  intro h
  have hresponse : placeRecommendView restPagination plainEngine (fun _ => 6) quizzed (some 1) [] none (some "last")
      (some "1") [] = .ok ⟨2, 2, [⟨{id := 1, contentId := 1, contentTypeId := 12}, 0, false⟩]⟩ := by decide
  unfold EnvelopeAgrees at h
  rw [hresponse] at h
  exact absurd h.2 (by decide)

end TravelMaker
