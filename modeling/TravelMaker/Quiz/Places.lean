import TravelMaker.Lib.Traverse
import TravelMaker.Quiz.Service

/-! The places that a result recommends, and whether a page can show them.

The query asks that a place has a row of features, not that there is a style vector in it. A
place without one is at no distance and comes last, and no page can show it.
`recommended_styled_iff` says when the query returns such a place. -/
namespace TravelMaker
open Lib (Format Number binary32 binary64)

/-! ### The rows that come first -/

section
variable {α : Type} {p : α → Bool}

/-- Where what is counted comes first, so many from the front are counted if there are so many. -/
theorem forall_mem_take_iff {rows : List α} (h : rows.Pairwise fun a b => p b = true → p a = true) (n : Nat) :
    (∀ a ∈ rows.take n, p a = true) ↔ n ≤ rows.countP p ∨ ∀ a ∈ rows, p a = true := by
  induction rows generalizing n with
  | nil => simp
  | cons a rest ih =>
    obtain ⟨hfirst, hrest⟩ := List.pairwise_cons.mp h
    cases n with
    | zero => simp
    | succ n =>
      cases ha : p a with
      | true => simp [ha, ih hrest]
      | false =>
        have hnone : rest.countP p = 0 := List.countP_eq_zero.mpr fun b hb hp => by
          rw [hfirst b hb hp] at ha
          cases ha
        simp [ha, hnone]

end

/-! ### Style vectors -/

namespace Db
variable {V : Type}

/-- The rows of features of the active places. -/
def activeFeatures (d : Db V) : List (PlaceFeature V) :=
  d.places.filterMap fun place => if place.isActive then d.placeFeatures.find? (·.placeId == place.id) else none

/-- Three of them have a style vector, or all that there are. -/
def Styled (d : Db V) : Prop :=
  3 ≤ d.activeFeatures.countP (·.styleVector.isSome) ∨ ∀ feature ∈ d.activeFeatures, feature.styleVector.isSome = true

instance (d : Db V) : Decidable d.Styled := inferInstanceAs (Decidable (_ ∨ _))

/-- What the column can hold: null, or six finite numbers. -/
def StyleColumn (d : Db StoredVector) : Prop :=
  ∀ feature ∈ d.placeFeatures, ∀ vector ∈ feature.styleVector, vector.length = 6 ∧ ∀ x ∈ vector, x.toRat?.isSome = true

end Db

section
variable {e : Engine StoredVector (Number binary64)} {f : Format} {d : Db StoredVector} {vector : List (Number f)}
  {p : RecommendedPlace}

/-- The rows that the query sorts. -/
def recommendedRows (e : Engine StoredVector (Number binary64)) (d : Db StoredVector) (vector : List (Number f)) :
    List RecommendedPlace :=
  d.places.filterMap fun place =>
    if place.isActive then
      (d.placeFeatures.find? (·.placeId == place.id)).map fun feature =>
        ⟨place, feature.styleVector, feature.styleVector.map (e.distance · (storeVector vector))⟩
    else none

theorem getRecommendedPlaces_eq : getRecommendedPlaces e d vector =
    (orderBy (distanceRank ·.distance) (e.scan (recommendedRows e d vector))).take 3 := rfl

/-- A row has the style vector of the features, and its distance. -/
theorem mem_recommendedRows (hp : p ∈ recommendedRows e d vector) :
    (∃ feature ∈ d.placeFeatures, feature.styleVector = p.styleVector) ∧
      p.distance = p.styleVector.map (e.distance · (storeVector vector)) := by
  obtain ⟨place, -, hplace⟩ := List.mem_filterMap.mp hp
  split at hplace
  · obtain ⟨feature, hfeature, rfl⟩ := Option.map_eq_some_iff.mp hplace
    exact ⟨⟨feature, List.mem_of_find?_eq_some hfeature, rfl⟩, rfl⟩
  · cases hplace

theorem recommendedRows_styleVector (e : Engine StoredVector (Number binary64)) (d : Db StoredVector) (vector : List (Number f)) :
    (recommendedRows e d vector).map (·.styleVector) = d.activeFeatures.map (·.styleVector) := by
  rw [recommendedRows, Db.activeFeatures, List.map_filterMap, List.map_filterMap]
  congr 1
  funext place
  split
  · rw [Option.map_map]
    rfl
  · rfl

theorem sorted_perm : (orderBy (distanceRank ·.distance) (e.scan (recommendedRows e d vector))).Perm
    (recommendedRows e d vector) := orderBy_perm.trans (e.scan_perm _)

theorem mem_getRecommendedPlaces (hp : p ∈ getRecommendedPlaces e d vector) : p ∈ recommendedRows e d vector :=
  sorted_perm.mem_iff.mp (List.mem_of_mem_take hp)

/-- No distance sorts after any. -/
theorem distanceRank_none_lt (x : Number binary64) : distanceRank (some x) < distanceRank none := by
  have hrank : ∀ (k : ℤ) (q : ℚ), k < 3 → toLex (k, q) < toLex ((3, 0) : ℤ × ℚ) := fun k q hk =>
    Prod.Lex.toLex_lt_toLex.mpr (.inl hk)
  cases x with
  | finite negative size => exact hrank _ _ (by decide)
  | infinity negative => cases negative <;> exact hrank _ _ (by decide)
  | nan => exact hrank _ _ (by decide)

/-- The rows with a style vector come first. -/
theorem styled_first : (orderBy (distanceRank ·.distance) (e.scan (recommendedRows e d vector))).Pairwise
    fun p q : RecommendedPlace => q.styleVector.isSome = true → p.styleVector.isSome = true := by
  refine orderBy_pairwise.imp_of_mem fun {p q} hp hq hle hsome => ?_
  obtain ⟨style, hstyle⟩ := Option.isSome_iff_exists.mp hsome
  by_contra hnone
  rw [(mem_recommendedRows (sorted_perm.mem_iff.mp hp)).2, (mem_recommendedRows (sorted_perm.mem_iff.mp hq)).2, hstyle,
    Option.not_isSome_iff_eq_none.mp hnone] at hle
  exact absurd hle (not_le.mpr (distanceRank_none_lt _))

/-- **When every recommended place has a style vector.** -/
theorem recommended_styled_iff (e : Engine StoredVector (Number binary64)) (d : Db StoredVector) (vector : List (Number f)) :
    (∀ p ∈ getRecommendedPlaces e d vector, p.styleVector.isSome = true) ↔ d.Styled := by
  have hcount : (recommendedRows e d vector).countP (·.styleVector.isSome) =
      d.activeFeatures.countP (·.styleVector.isSome) := by
    have h := congrArg (List.countP Option.isSome) (recommendedRows_styleVector e d vector)
    rwa [List.countP_map, List.countP_map] at h
  have hall : (∀ p ∈ recommendedRows e d vector, p.styleVector.isSome = true) ↔
      ∀ feature ∈ d.activeFeatures, feature.styleVector.isSome = true := by
    have h := congrArg (List.all · Option.isSome) (recommendedRows_styleVector e d vector)
    rw [List.all_map, List.all_map, Bool.eq_iff_iff] at h
    simpa using h
  rw [getRecommendedPlaces_eq, forall_mem_take_iff styled_first, sorted_perm.countP_eq, hcount]
  simp only [sorted_perm.mem_iff, hall]
  rfl

/-! ### Numbers on a page -/

theorem pyRound_within {x : Number f} {m : ℚ} (h : x.Within m) : ∃ n, pyRound x = .ok n := by
  obtain ⟨negative, size, rfl, -⟩ := h
  exact ⟨_, rfl⟩

/-- `nearest_two_pow` for the floats of Python. -/
theorem nearest_pow (k : Nat) : binary64.nearest (2 ^ k) = 2 ^ k := Format.nearest_two_pow (by decide) k

theorem pow_lt_top {k : Nat} (hk : k < binary64.top) : (2 : ℚ) ^ k < 2 ^ binary64.top :=
  pow_lt_pow_right₀ (by norm_num) hk

/-- A percentage of a number that is not huge is finite. -/
theorem pyRound_percent {x : Number binary64} {k : Nat} (hk : k + 7 < binary64.top) (hx : x.Within (2 ^ k)) :
    ∃ n, pyRound (x.mul (.ofSize binary64 false 100)) = .ok n := by
  have hhundred : (Number.ofSize binary64 false 100).Within (2 ^ 7) :=
    Number.ofSize_within (nearest_pow 7) (pow_lt_top (by decide)) (by norm_num) false
  have hpow : (2 : ℚ) ^ k * 2 ^ 7 = 2 ^ (k + 7) := (pow_add 2 k 7).symm
  exact pyRound_within (hx.mul hhundred (by rw [hpow, nearest_pow]) (by rw [hpow]; exact pow_lt_top hk))

/-- A place at a distance has a match rate, whatever the distance. -/
theorem calculateMatchRate_ok {distance : Number binary64} (h : p.distance = some distance) :
    ∃ rate, calculateMatchRate p = .ok rate := by
  unfold calculateMatchRate
  rw [h]
  have hclamp := Number.within_clamp (nearest_pow 0) (pow_lt_top (by decide)) (by norm_num)
    ((Number.ofSize binary64 false 1).sub distance)
  rw [pow_zero] at hclamp
  exact pyRound_percent (k := 0) (by decide) (by simpa using hclamp)

theorem labelOf_ok {x : Number binary64} (hx : x.Within (2 ^ 128)) (labels : String × String) :
    ∃ label, labelOf labels x = .ok label := by
  have hone : (Number.ofSize binary64 false 1).Within (2 ^ 128) :=
    Number.ofSize_within (nearest_pow 128) (pow_lt_top (by decide)) (by norm_num) false
  have hpow : (2 : ℚ) ^ 128 + 2 ^ 128 = 2 ^ 129 := by norm_num
  have hrest : ((Number.ofSize binary64 false 1).sub x).Within (2 ^ 128 + 2 ^ 128) :=
    hone.sub hx (by rw [hpow, nearest_pow]) (by rw [hpow]; exact pow_lt_top (by decide))
  rw [hpow] at hrest
  unfold labelOf
  split
  · obtain ⟨n, hn⟩ := pyRound_percent (by decide) hx
    exact ⟨_, by rw [hn]; rfl⟩
  · obtain ⟨n, hn⟩ := pyRound_percent (by decide) hrest
    exact ⟨_, by rw [hn]; rfl⟩

theorem labelAxes_ok {labels : List (String × String)} {values : List (Number binary64)} (hlength : labels.length = values.length)
    (hvalues : ∀ x ∈ values, x.Within (2 ^ 128)) : ∃ axes, labelAxes labels values = .ok axes := by
  induction labels generalizing values with
  | nil =>
    rw [List.length_eq_zero_iff.mp hlength.symm]
    exact ⟨[], rfl⟩
  | cons first rest ih =>
    cases values with
    | nil => cases hlength
    | cons x values =>
      obtain ⟨hx, hvalues⟩ := List.forall_mem_cons.mp hvalues
      obtain ⟨label, hlabel⟩ := labelOf_ok hx first
      obtain ⟨axes, haxes⟩ := ih (Nat.succ.inj hlength) hvalues
      exact ⟨label :: axes, by rw [labelAxes, hlabel, haxes]; rfl⟩

/-- Six finite numbers of a column have labels. -/
theorem labelVector_stored {style : StoredVector} (hlength : style.length = 6) (hfinite : ∀ x ∈ style, x.toRat?.isSome = true) :
    ∃ labels, labelVector (style.map (·.cast binary64)) = .ok labels := by
  refine labelAxes_ok (by rw [List.length_map, hlength]; rfl) fun x hx => ?_
  obtain ⟨stored, hstored, rfl⟩ := List.mem_map.mp hx
  cases stored with
  | finite negative size =>
    exact Number.Within.cast ⟨negative, size, rfl, size.lt.le⟩ (nearest_pow 128) (pow_lt_top (by decide))
  | infinity | nan => cases hfinite _ hstored

/-! ### Rows of a page -/

/-- A page of places can be made if they all have a style vector, and not else. -/
theorem mapM_recommended {α : Type} {render : RecommendedPlace → Except Exc α}
    (hok : ∀ p ∈ getRecommendedPlaces e d vector, p.styleVector.isSome = true → ∃ row, render p = .ok row)
    (hnone : ∀ p ∈ getRecommendedPlaces e d vector, p.styleVector = none → render p = .error .typeError) :
    if d.Styled then ∃ rows, (getRecommendedPlaces e d vector).mapM render = .ok rows
    else (getRecommendedPlaces e d vector).mapM render = .error .typeError := by
  split
  · rename_i hstyled
    rw [Lib.Traverse.exists_mapM_ok]
    exact fun p hp => hok p hp ((recommended_styled_iff e d vector).mpr hstyled p hp)
  · rename_i hstyled
    cases hrows : (getRecommendedPlaces e d vector).mapM render with
    | ok rows =>
      refine absurd ((recommended_styled_iff e d vector).mp fun p hp => ?_) hstyled
      by_contra hstyle
      obtain ⟨row, hrow⟩ := Lib.Traverse.exists_mapM_ok.mp ⟨rows, hrows⟩ p hp
      rw [hnone p hp (Option.not_isSome_iff_eq_none.mp hstyle)] at hrow
      cases hrow
    | error error =>
      obtain ⟨p, hp, herror⟩ := Lib.Traverse.mapM_error hrows
      cases hstyle : p.styleVector with
      | none => rw [← Except.error.inj (herror.symm.trans (hnone p hp hstyle))]
      | some style =>
        obtain ⟨row, hrow⟩ := hok p hp (by rw [hstyle]; rfl)
        rw [hrow] at herror
        cases herror

theorem mapM_renderMatch (e : Engine StoredVector (Number binary64)) (d : Db StoredVector) (vector : List (Number f)) :
    if d.Styled then ∃ rows, (getRecommendedPlaces e d vector).mapM renderMatch = .ok rows
    else (getRecommendedPlaces e d vector).mapM renderMatch = .error .typeError := by
  refine mapM_recommended (fun p hp hstyle => ?_) fun p hp hstyle => ?_
  · obtain ⟨style, hstyle⟩ := Option.isSome_iff_exists.mp hstyle
    obtain ⟨rate, hrate⟩ := calculateMatchRate_ok (p := p)
      (by rw [(mem_recommendedRows (mem_getRecommendedPlaces hp)).2, hstyle]; rfl)
    exact ⟨_, by rw [renderMatch, hrate]; rfl⟩
  · rw [renderMatch, calculateMatchRate, (mem_recommendedRows (mem_getRecommendedPlaces hp)).2, hstyle]
    rfl

theorem mapM_renderDestination (e : Engine StoredVector (Number binary64)) (vector : List (Number f)) (hcolumn : d.StyleColumn) :
    if d.Styled then ∃ rows, (getRecommendedPlaces e d vector).mapM (renderDestination d) = .ok rows
    else (getRecommendedPlaces e d vector).mapM (renderDestination d) = .error .typeError := by
  refine mapM_recommended (fun p hp hstyle => ?_) fun p hp hstyle => ?_
  · obtain ⟨style, hstyle⟩ := Option.isSome_iff_exists.mp hstyle
    obtain ⟨⟨feature, hfeature, hsame⟩, hdistance⟩ := mem_recommendedRows (mem_getRecommendedPlaces hp)
    obtain ⟨hlength, hfinite⟩ := hcolumn feature hfeature style (hsame.trans hstyle)
    obtain ⟨labels, hlabels⟩ := labelVector_stored hlength hfinite
    obtain ⟨rate, hrate⟩ := calculateMatchRate_ok (p := p) (by rw [hdistance, hstyle]; rfl)
    unfold renderDestination
    rw [hstyle]
    dsimp only
    rw [hlabels, hrate]
    exact ⟨_, rfl⟩
  · unfold renderDestination
    rw [hstyle]
    rfl

end
end TravelMaker
