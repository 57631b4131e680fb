import Mathlib.Algebra.GroupWithZero.Nat
import TravelMaker.Place.Recommended

/-! Pages of the ranking by vector.

With a filter on tags the services read `_OVER_FETCH` rows for each place they want, and a
place has a row for each tag it matches. `paged_iff` says how many tags the places may
match for the pages to be complete. -/
namespace TravelMaker
open Lib.Window

variable {V D : Type} [LinearOrder D]

namespace Catalog
variable (c : Catalog V)

/-- The rows of a place in the joined query. -/
def rowCount (tagIds : List Int) (regionTagId : Option Int) (placeId : Int) : Nat :=
  (if tagIds = [] then 1 else c.tagMatches tagIds placeId) *
    if regionTags regionTagId = [] then 1 else c.tagMatches (regionTags regionTagId) placeId

/-- The active places with a style vector that match the filter, by distance. -/
def ranking (e : Engine V D) (vector : V) (tagIds : List Int) (regionTagId : Option Int) : List Int :=
  (orderBy (fun row => e.distance row.vector vector) (c.styleRows.filter fun row =>
    (tagIds = [] || c.carriesAny tagIds row.placeId) && c.carriesAll (regionTags regionTagId) row.placeId)).map (·.placeId)

/-- No two places are equally far. -/
def ExactlyRanked (e : Engine V D) (vector : V) : Prop :=
  ∀ a ∈ c.styleRows, ∀ b ∈ c.styleRows, e.distance a.vector vector = e.distance b.vector vector → a = b

end Catalog

/-- The database takes a number as a limit or an offset. -/
def Engine.Takes (e : Engine V D) (n : Nat) : Prop := ∀ m, e.largest = some m → n ≤ m

section
variable (e : Engine V D) (c : Catalog V) (vector : V) (tagIds : List Int) (regionTagId : Option Int)

/-- The page after `k` pages of `p`. -/
def page (p k : Nat) : Except Exc (List Int × Nat) :=
  getPlaceIdsSortedByVector e c vector tagIds regionTagId (k * p : Nat) p

def pageIds (p k : Nat) : List Int :=
  match page e c vector tagIds regionTagId p k with
  | .ok (ids, _) => ids
  | .error _ => []

/-- The pages and the shortened lists are those of the ranking, as far as the database
takes the numbers. -/
structure Paged (p : Nat) : Prop where
  total : ∀ k, e.Takes ((k + 1) * p * overFetch) →
    ∃ ids, page e c vector tagIds regionTagId p k = .ok (ids, (c.ranking e vector tagIds regionTagId).length)
  pages : ∀ count, e.Takes (count * p * overFetch) → (c.ranking e vector tagIds regionTagId).length ≤ count * p →
    (List.range count).flatMap (pageIds e c vector tagIds regionTagId p) = c.ranking e vector tagIds regionTagId
  limits : ∀ n : Nat, 1 ≤ n → e.Takes (n * overFetch) →
    getPlacesSortedByVector e c vector tagIds regionTagId (some n) =
      (getPlacesSortedByVector e c vector tagIds regionTagId none).map (·.take n)

end

/-! ### Slices -/

theorem pySlice_nat {α : Type} (start width : Nat) (xs : List α) :
    pySlice start ((start : Int) + width) xs = (xs.drop start).take width := by
  have hpos : ∀ n : Nat, ¬ (n : Int) < 0 := fun n => Int.not_lt.mpr (Int.natCast_nonneg n)
  unfold pySlice
  simp only [← Int.natCast_add, hpos, if_false, Int.toNat_natCast, List.drop_take, Nat.add_sub_cancel_left]

section
omit [LinearOrder D]
variable {e : Engine V D} {α : Type}

theorem takes_of_le {m n : Nat} (hn : e.Takes n) (h : m ≤ n) : e.Takes m := fun l hl => Nat.le_trans h (hn l hl)

theorem querySlice_nat {start width : Nat} (hstart : e.Takes start) (hwidth : e.Takes width) (rows : List α) :
    querySlice e.largest start ((start : Int) + width) rows = .ok ((rows.drop start).take width) := by
  have hpos : ¬ ((start : Int) < 0 ∨ (start : Int) + width < 0) := by omega
  have htakes : ¬ (e.largest.any fun n : Nat =>
      (n : Int) < (start : Int) ∨ (n : Int) < (start : Int) + width - start) = true := by
    rw [Option.any_eq_true]
    intro h
    obtain ⟨n, hn, hlt⟩ := h
    have hfar := hstart n hn
    have hwide := hwidth n hn
    rw [decide_eq_true_eq] at hlt
    omega
  unfold querySlice
  rw [if_neg hpos, if_neg htakes, ← Int.natCast_add, Int.toNat_natCast, Int.toNat_natCast, List.drop_take,
    Nat.add_sub_cancel_left]

theorem querySlice_zero {stop : Nat} (hstop : e.Takes stop) (rows : List α) :
    querySlice e.largest 0 stop rows = .ok (rows.take stop) := by
  have hslice := querySlice_nat (takes_of_le hstop (Nat.zero_le _)) hstop rows
  rwa [Int.natCast_zero, Int.zero_add, List.drop_zero] at hslice

end

/-! ### The joined rows -/

section
variable {e : Engine V D} {c : Catalog V} {vector : V} {tagIds : List Int} {regionTagId : Option Int}

theorem filterTags_eq (rows : List (FeatureRow V)) :
    c.filterTags (Catalog.regionTags regionTagId) (c.filterTags tagIds rows) =
      expand (fun row => c.rowCount tagIds regionTagId row.placeId) rows := by
  have hone : ∀ tags : List Int, c.filterTags tags = expand fun row => if tags = [] then 1 else c.tagMatches tags row.placeId := by
    intro tags
    funext rows
    unfold Catalog.filterTags
    split
    · exact (expand_one rows).symm
    · rfl
  rw [hone, hone, expand_expand]
  rfl

theorem rowCount_pos (placeId : Int) : 0 < c.rowCount tagIds regionTagId placeId ↔
    ((tagIds = [] || c.carriesAny tagIds placeId) && c.carriesAll (Catalog.regionTags regionTagId) placeId) = true := by
  have hall : ∀ tags : List Int, tags.length ≤ 1 →
      (0 < (if tags = [] then 1 else c.tagMatches tags placeId) ↔ c.carriesAll tags placeId = true) := by
    intro tags hlength
    cases tags with
    | nil => exact iff_of_true Nat.one_pos rfl
    | cons tag rest =>
      obtain rfl : rest = [] := List.eq_nil_of_length_eq_zero (by simpa using hlength)
      rw [if_neg (List.cons_ne_nil _ _), tagMatches_pos]
      simp [Catalog.carriesAny, Catalog.carriesAll]
  have hany : 0 < (if tagIds = [] then 1 else c.tagMatches tagIds placeId) ↔
      (tagIds = [] || c.carriesAny tagIds placeId) = true := by
    rw [Bool.or_eq_true, decide_eq_true_eq]
    split
    · rename_i hnil
      exact iff_of_true Nat.one_pos (.inl hnil)
    · rename_i hne
      rw [tagMatches_pos, or_iff_right hne]
  rw [Catalog.rowCount, Nat.pos_iff_ne_zero, Nat.mul_ne_zero_iff, ← Nat.pos_iff_ne_zero, ← Nat.pos_iff_ne_zero, hany,
    hall (Catalog.regionTags regionTagId) Option.length_toList_le, Bool.and_eq_true]

/-- The joined rows are the ranking, each place once for each of its rows. -/
theorem rankedRows_ids (hdistinct : c.ExactlyRanked e vector) :
    (c.rankedRows e vector tagIds regionTagId c.styleRows).map (·.placeId) =
      expand (c.rowCount tagIds regionTagId) (c.ranking e vector tagIds regionTagId) := by
  have hfilter : (c.styleRows.filter fun row => 0 < c.rowCount tagIds regionTagId row.placeId) =
      c.styleRows.filter fun row => (tagIds = [] || c.carriesAny tagIds row.placeId) &&
        c.carriesAll (Catalog.regionTags regionTagId) row.placeId := by
    refine List.filter_congr fun row _ => ?_
    rw [Bool.eq_iff_iff, decide_eq_true_eq]
    exact rowCount_pos row.placeId
  have hrows : c.rankedRows e vector tagIds regionTagId c.styleRows =
      expand (fun row => c.rowCount tagIds regionTagId row.placeId) (orderBy (fun row => e.distance row.vector vector)
        (c.styleRows.filter fun row => 0 < c.rowCount tagIds regionTagId row.placeId)) := by
    unfold Catalog.rankedRows
    rw [filterTags_eq, ← expand_filter]
    refine orderBy_eq_of_perm ?_ (pairwise_expand (fun _ => le_rfl) orderBy_pairwise) ?_
    · exact (expand_perm orderBy_perm).trans (e.scan_perm _).symm
    · intro a ha b hb
      have hmem : ∀ row ∈ e.scan (expand (fun row => c.rowCount tagIds regionTagId row.placeId)
          (c.styleRows.filter fun row => 0 < c.rowCount tagIds regionTagId row.placeId)), row ∈ c.styleRows := by
        intro row hrow
        exact (List.mem_filter.mp (mem_expand.mp ((e.scan_perm _).mem_iff.mp hrow)).1).1
      exact hdistinct a (hmem a ha) b (hmem b hb)
  rw [hrows, map_expand (fun row : FeatureRow V => row.placeId), hfilter]
  rfl

theorem nodup_ranking (hc : c.Constraints) : (c.ranking e vector tagIds regionTagId).Nodup := by
  unfold Catalog.ranking
  apply (orderBy_perm.map _).nodup_iff.mpr
  have hids : (c.styleRows.map (·.placeId)).Nodup := by
    unfold Catalog.styleRows
    rw [List.map_map]
    exact hc.styleVectors.sublist (List.filter_sublist.map _)
  exact hids.sublist (List.filter_sublist.map _)

theorem mem_ranking {placeId : Int} (h : placeId ∈ c.ranking e vector tagIds regionTagId) :
    0 < c.rowCount tagIds regionTagId placeId ∧ c.isActive placeId = true := by
  obtain ⟨row, hrow, rfl⟩ := List.mem_map.mp h
  obtain ⟨hmem, hmatch⟩ := List.mem_filter.mp (mem_orderBy.mp hrow)
  obtain ⟨⟨p, v⟩, hp, rfl⟩ := List.mem_map.mp hmem
  exact ⟨(rowCount_pos _).mpr hmatch, (List.mem_filter.mp hp).2⟩

/-- Enough rows reach the whole ranking. -/
theorem firsts_rankedRows (hc : c.Constraints) (hr : c.ExactlyRanked e vector) (width : Nat) :
    firsts [] (((c.rankedRows e vector tagIds regionTagId c.styleRows).map (·.placeId)).take width) =
      (c.ranking e vector tagIds regionTagId).take
        (reach (c.rowCount tagIds regionTagId) (c.ranking e vector tagIds regionTagId) width) := by
  rw [rankedRows_ids hr]
  exact firsts_take_expand (nodup_ranking hc) (fun _ _ => List.not_mem_nil) (fun id hid => (mem_ranking hid).1) width

end

/-! ### Places of the ids -/

section
variable {e : Engine V D} {c : Catalog V}

theorem pairwise_idxOf {ids : List Int} (hids : ids.Nodup) : ids.Pairwise fun a b => ids.idxOf a ≤ ids.idxOf b := by
  rw [List.pairwise_iff_getElem]
  intro i j hi hj hij
  rw [hids.idxOf_getElem i hi, hids.idxOf_getElem j hj]
  exact Nat.le_of_lt hij

omit [LinearOrder D] in
/-- The places come in the order of the ids. -/
theorem loadPlaces_eq (hc : c.Constraints) {ids : List Int} (hids : ids.Nodup) :
    c.loadPlaces e ids = ids.filterMap c.listedOf := by
  have hmem : ∀ place, place ∈ e.scan (c.db.places.filter fun place => ids.contains place.id) ↔
      place ∈ c.db.places ∧ place.id ∈ ids := by
    intro place
    rw [(e.scan_perm _).mem_iff, List.mem_filter, List.contains_iff_mem]
  have hrows : orderBy (fun place => ids.idxOf place.id) (e.scan (c.db.places.filter fun place => ids.contains place.id)) =
      ids.filterMap c.db.place? := by
    refine orderBy_eq_of_perm ?_ ?_ ?_
    · refine (List.perm_ext_iff_of_nodup ?_ ?_).mpr fun place => ?_
      · refine hids.filterMap fun a b place ha hb => ?_
        rw [← (Db.place?_some ha).2, ← (Db.place?_some hb).2]
      · exact (e.scan_perm _).nodup_iff.mpr (hc.places.of_map.filter _)
      · rw [hmem, List.mem_filterMap]
        constructor
        · intro h
          obtain ⟨id, hid, hplace⟩ := h
          obtain ⟨hin, rfl⟩ := Db.place?_some hplace
          exact ⟨hin, hid⟩
        · intro h
          obtain ⟨hin, hid⟩ := h
          exact ⟨place.id, hid, Db.place?_of_mem hc.places hin⟩
    · refine List.pairwise_filterMap.mpr ((pairwise_idxOf hids).imp fun h p hp q hq => ?_)
      rw [(Db.place?_some hp).2, (Db.place?_some hq).2]
      exact h
    · intro p hp q hq h
      have hid : p.id = q.id := (List.idxOf_inj ((hmem p).mp hp).2).mp h
      have := Db.place?_of_mem hc.places ((hmem p).mp hp).1
      rw [hid, Db.place?_of_mem hc.places ((hmem q).mp hq).1] at this
      exact (Option.some.inj this).symm
  unfold Catalog.loadPlaces
  rw [hrows, List.map_filterMap]
  rfl

theorem filterMap_take {α β : Type} {f : α → Option β} {l : List α} (h : ∀ a ∈ l, (f a).isSome = true) (n : Nat) :
    (l.take n).filterMap f = (l.filterMap f).take n := by
  induction l generalizing n with
  | nil => simp
  | cons a rest ih =>
    obtain ⟨b, hb⟩ := Option.isSome_iff_exists.mp (h a List.mem_cons_self)
    cases n with
    | zero => rfl
    | succ n =>
      rw [List.take_succ_cons, List.filterMap_cons_some hb, List.filterMap_cons_some hb, List.take_succ_cons,
        ih (fun a ha => h a (List.mem_cons_of_mem _ ha))]

end

/-! ### Windows of the ranking -/

section
variable {e : Engine V D} {c : Catalog V} {vector : V} {tagIds : List Int} {regionTagId : Option Int}

variable (e c vector tagIds regionTagId) in
/-- The rows of the first `n` places but the last are fewer than those read for `n`. -/
def Narrow (n : Nat) : Prop :=
  (((c.ranking e vector tagIds regionTagId).take (n - 1)).map (c.rowCount tagIds regionTagId)).sum < n * overFetch

/-- The rows read for `n` places get to the `n`-th. -/
theorem narrow_iff {n : Nat} (hn : 1 ≤ n) (hlength : n ≤ (c.ranking e vector tagIds regionTagId).length) :
    Narrow e c vector tagIds regionTagId n ↔
      n ≤ reach (c.rowCount tagIds regionTagId) (c.ranking e vector tagIds regionTagId) (n * overFetch) := by
  have := @lt_reach_iff Int (c.rowCount tagIds regionTagId) (c.ranking e vector tagIds regionTagId) (n * overFetch) (n - 1)
  unfold Narrow
  constructor
  · intro h
    have := this.mpr ⟨by omega, h⟩
    omega
  · intro h
    exact (this.mp (by omega)).2

/-- Where the places match few tags, nothing within the window is missed. -/
theorem take_reach {m : Nat} (htakes : e.Takes (m * overFetch))
    (h : ∀ n, 1 ≤ n → n ≤ (c.ranking e vector tagIds regionTagId).length → e.Takes (n * overFetch) →
      Narrow e c vector tagIds regionTagId n) :
    ((c.ranking e vector tagIds regionTagId).take
      (reach (c.rowCount tagIds regionTagId) (c.ranking e vector tagIds regionTagId) (m * overFetch))).take m =
        (c.ranking e vector tagIds regionTagId).take m := by
  generalize hranking : c.ranking e vector tagIds regionTagId = ranking at h
  rw [List.take_take, List.take_eq_take_iff]
  by_cases hzero : min m ranking.length = 0
  · omega
  · have hnarrow := h (min m ranking.length) (by omega) (Nat.min_le_right _ _)
      (takes_of_le htakes (Nat.mul_le_mul_right _ (Nat.min_le_left _ _)))
    unfold Narrow at hnarrow
    rw [hranking] at hnarrow
    have hreach := (lt_reach_iff ranking (m * overFetch) (min m ranking.length - 1)).mpr
      ⟨by omega, Nat.lt_of_lt_of_le hnarrow (Nat.mul_le_mul_right _ (Nat.min_le_left _ _))⟩
    omega

theorem part_reach {p k : Nat} (htakes : e.Takes ((k + 1) * p * overFetch))
    (h : ∀ n, 1 ≤ n → n ≤ (c.ranking e vector tagIds regionTagId).length → e.Takes (n * overFetch) →
      Narrow e c vector tagIds regionTagId n) :
    (((c.ranking e vector tagIds regionTagId).take (reach (c.rowCount tagIds regionTagId)
      (c.ranking e vector tagIds regionTagId) ((k + 1) * p * overFetch))).drop (k * p)).take p =
        ((c.ranking e vector tagIds regionTagId).drop (k * p)).take p := by
  have hcut : ∀ l : List Int, (l.take ((k + 1) * p)).drop (k * p) = (l.drop (k * p)).take p := by
    intro l
    rw [List.drop_take, Nat.succ_mul, Nat.add_sub_cancel_left]
  rw [← hcut, ← hcut, take_reach htakes h]

/-- Without a filter each place has one row. -/
theorem rowCount_unfiltered (htags : tagIds = []) (hregion : Catalog.regionTags regionTagId = []) :
    c.rowCount tagIds regionTagId = fun _ => 1 := by
  funext id
  unfold Catalog.rowCount
  rw [if_pos htags, if_pos hregion]

theorem narrow_of_unfiltered (htags : tagIds = []) (hregion : Catalog.regionTags regionTagId = []) {n : Nat} (hn : 1 ≤ n) :
    Narrow e c vector tagIds regionTagId n := by
  unfold Narrow
  rw [rowCount_unfiltered htags hregion, List.map_const', List.sum_replicate_nat, Nat.mul_one, List.length_take]
  unfold overFetch
  omega

section
variable (hc : c.Constraints) (hr : c.ExactlyRanked e vector)
include hc hr

omit hc in
theorem rankedRows_unfiltered (htags : tagIds = []) (hregion : Catalog.regionTags regionTagId = []) :
    (c.rankedRows e vector tagIds regionTagId c.styleRows).map (·.placeId) = c.ranking e vector tagIds regionTagId := by
  rw [rankedRows_ids hr, rowCount_unfiltered htags hregion, expand_one]

omit hc in
/-- Without a filter the database cuts the page out. -/
theorem unfiltered_eq {start width : Nat} (hstart : e.Takes start) (hwidth : e.Takes width) (htags : tagIds = [])
    (hregion : Catalog.regionTags regionTagId = []) :
    getPlaceIdsSortedByVector e c vector tagIds regionTagId start width =
      .ok (((c.ranking e vector tagIds regionTagId).drop start).take width,
        (c.ranking e vector tagIds regionTagId).length) := by
  unfold getPlaceIdsSortedByVector
  dsimp only
  rw [if_pos ⟨htags, hregion⟩, querySlice_nat hstart hwidth, rankedRows_unfiltered hr htags hregion]
  rfl

/-- What a page holds. -/
theorem page_eq {p k : Nat} (htakes : e.Takes ((k + 1) * p * overFetch)) : page e c vector tagIds regionTagId p k =
    .ok ((((c.ranking e vector tagIds regionTagId).take (reach (c.rowCount tagIds regionTagId)
      (c.ranking e vector tagIds regionTagId) ((k + 1) * p * overFetch))).drop (k * p)).take p,
        (c.ranking e vector tagIds regionTagId).length) := by
  have hsum : (k + 1) * p = k * p + p := Nat.succ_mul k p
  have hfits : e.Takes ((k + 1) * p) := takes_of_le htakes (Nat.le_mul_of_pos_right _ (by decide))
  by_cases hfilter : tagIds = [] ∧ Catalog.regionTags regionTagId = []
  · obtain ⟨htags, hregion⟩ := hfilter
    rw [part_reach htakes fun n hn _ _ => narrow_of_unfiltered htags hregion hn]
    exact unfiltered_eq hr (takes_of_le hfits (by omega)) (takes_of_le hfits (by omega)) htags hregion
  · have hstop : (((k * p : Nat) : Int) + p) * overFetch = ((k + 1) * p * overFetch : Nat) := by
      rw [hsum]
      rfl
    have htotal : ((c.rankedRows e vector tagIds regionTagId c.styleRows).map (·.placeId)).dedup.length =
        (c.ranking e vector tagIds regionTagId).length := by
      rw [rankedRows_ids hr]
      exact length_dedup_expand (nodup_ranking hc) fun id hid => (mem_ranking hid).1
    unfold page getPlaceIdsSortedByVector
    dsimp only
    rw [if_neg hfilter, hstop, querySlice_zero htakes, htotal]
    show Except.ok (pySlice _ _ (firsts [] _), _) = _
    rw [firsts_rankedRows hc hr, pySlice_nat]

omit hr in
theorem placesSortedBy_eq {rows : List (FeatureRow V)} {limit : Option Int} {ids : List Int} (hids : ids.Nodup)
    (h : collectVectorIds e (c.rankedRows e vector tagIds regionTagId rows) limit = .ok ids) :
    placesSortedBy e c vector tagIds regionTagId rows limit = .ok (takeLimit limit (ids.filterMap c.listedOf)) := by
  unfold placesSortedBy
  rw [h]
  show (if ids = [] then _ else _) = _
  split
  · rename_i hnil
    subst hnil
    cases limit with
    | none => rfl
    | some limit => exact congrArg Except.ok (by simp [takeLimit, pySlice])
  · rw [loadPlaces_eq hc hids]
    rfl

theorem getPlacesSortedByVector_none : getPlacesSortedByVector e c vector tagIds regionTagId none =
    .ok ((c.ranking e vector tagIds regionTagId).filterMap c.listedOf) := by
  apply placesSortedBy_eq hc (nodup_ranking hc)
  show Except.ok (firsts [] _) = _
  rw [rankedRows_ids hr, firsts_expand (nodup_ranking hc) (fun _ _ => List.not_mem_nil) fun id hid => (mem_ranking hid).1]

theorem getPlacesSortedByVector_some {n : Nat} (htakes : e.Takes (n * overFetch)) :
    getPlacesSortedByVector e c vector tagIds regionTagId (some n) =
      .ok ((((c.ranking e vector tagIds regionTagId).take (reach (c.rowCount tagIds regionTagId)
        (c.ranking e vector tagIds regionTagId) (n * overFetch))).filterMap c.listedOf).take n) := by
  have hids : collectVectorIds e (c.rankedRows e vector tagIds regionTagId c.styleRows) (some n) =
      .ok ((c.ranking e vector tagIds regionTagId).take (reach (c.rowCount tagIds regionTagId)
        (c.ranking e vector tagIds regionTagId) (n * overFetch))) := by
    have hslice : sliceLimit e.largest (some n) ((c.rankedRows e vector tagIds regionTagId c.styleRows).map (·.placeId)) =
        .ok (((c.rankedRows e vector tagIds regionTagId c.styleRows).map (·.placeId)).take (n * overFetch)) :=
      querySlice_zero htakes _
    unfold collectVectorIds
    rw [hslice]
    show Except.ok (firsts [] _) = _
    rw [firsts_rankedRows hc hr]
  unfold getPlacesSortedByVector
  rw [placesSortedBy_eq hc ((nodup_ranking hc).sublist (List.take_sublist _ _)) hids]
  have hslice := pySlice_nat 0 n (((c.ranking e vector tagIds regionTagId).take (reach (c.rowCount tagIds regionTagId)
    (c.ranking e vector tagIds regionTagId) (n * overFetch))).filterMap c.listedOf)
  rw [Int.natCast_zero, Int.zero_add, List.drop_zero] at hslice
  exact congrArg Except.ok hslice

end

/-- **Pages of the ranking.** A page and a shortened list hold what they should if and
only if the tags that the places match do not fill the rows read. -/
theorem paged_iff (hc : c.Constraints) (hr : c.ExactlyRanked e vector) {p : Nat} :
    Paged e c vector tagIds regionTagId p ↔
      ∀ n, 1 ≤ n → n ≤ (c.ranking e vector tagIds regionTagId).length → e.Takes (n * overFetch) →
        Narrow e c vector tagIds regionTagId n := by
  have hlisted : ∀ id ∈ c.ranking e vector tagIds regionTagId, (c.listedOf id).isSome = true := by
    intro id hid
    obtain ⟨place, hplace, -⟩ := (Option.any_eq_true _ _).mp (mem_ranking hid).2
    exact Option.isSome_map.trans (Option.isSome_iff_exists.mpr ⟨place, hplace⟩)
  constructor
  · intro h n hn hlength htakes
    have hlimit := h.limits n hn htakes
    rw [getPlacesSortedByVector_some hc hr htakes, getPlacesSortedByVector_none hc hr, Except.map,
      filterMap_take hlisted] at hlimit
    have hlengths := congrArg List.length (Except.ok.inj hlimit)
    rw [List.length_take, List.length_take, List.length_take, List.filterMap_length_eq_length.mpr hlisted] at hlengths
    exact (narrow_iff hn hlength).mpr (by omega)
  · intro h
    refine ⟨fun k htakes => ⟨_, page_eq hc hr htakes⟩, fun count htakes hcount => ?_, fun n hn htakes => ?_⟩
    · rw [← List.take_of_length_le hcount, ← flatMap_range_parts]
      refine List.flatMap_congr fun k hk => ?_
      have hpart : (k + 1) * p ≤ count * p := Nat.mul_le_mul_right _ (List.mem_range.mp hk)
      have htakes' : e.Takes ((k + 1) * p * overFetch) := takes_of_le htakes (Nat.mul_le_mul_right _ hpart)
      unfold pageIds
      rw [page_eq hc hr htakes', part_reach htakes' h]
    · rw [getPlacesSortedByVector_some hc hr htakes, getPlacesSortedByVector_none hc hr, Except.map,
        ← filterMap_take (fun id hid => hlisted id (List.mem_of_mem_take hid)), take_reach htakes h, filterMap_take hlisted]

end

/-! ### A place with many tags -/

/-- The nearest place carries eight tags, the other one. -/
def crowded : Catalog Nat where
  db := {
    places := [{id := 1, contentId := 1, contentTypeId := 12}, {id := 2, contentId := 2, contentTypeId := 12}]
    placeTags := [(1, 1), (1, 2), (1, 3), (1, 4), (1, 5), (1, 6), (1, 7), (1, 8), (2, 1)]}
  styleVectors := [(1, 1), (2, 2)]

theorem paged_iff_crowded : Paged plainEngine crowded 1 [1, 2, 3, 4] none 1 ↔
    ∀ n, 1 ≤ n → n ≤ (crowded.ranking plainEngine 1 [1, 2, 3, 4] none).length → plainEngine.Takes (n * overFetch) →
      Narrow plainEngine crowded 1 [1, 2, 3, 4] none n :=
  paged_iff ⟨by decide, by decide, by decide⟩ (by unfold Catalog.ExactlyRanked; decide)

/-- The eight rows read for two places are all of the first. -/
theorem crowded_hides_place : ¬ Paged plainEngine crowded 1 [1, 2, 3, 4, 5, 6, 7, 8] none 1 := by
  intro h
  have hpages := h.pages 2 (fun _ hnone => nomatch hnone) (by decide)
  exact absurd hpages (by decide)

end TravelMaker
