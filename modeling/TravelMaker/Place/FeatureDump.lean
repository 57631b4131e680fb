import Mathlib.Data.PNat.Basic
import TravelMaker.Lib.Rounding
import TravelMaker.Lib.Upsert
import TravelMaker.Place.Catalog

/-! Feature vectors dumped in one environment and loaded into another.

A row of the dump names its place by the content id: the primary keys are local. The load
works batch by batch, but a row is stored as if it were alone (`loadBatches_eval`), so the
batches do not show. -/
namespace TravelMaker
open Lib (Txn roundHalfEven)
open Lib.Upsert (upsert upserts)

structure PlaceFeatureRow where
  contentId : Int
  styleVector : Option (List ℚ)
  contentVector : Option (List ℚ)
deriving DecidableEq, Repr

structure LoadSummary where
  matched : Nat := 0
  unmatched : Nat := 0
deriving DecidableEq, Repr

def vectorPrecision : Nat := 6

/-- `round(v, _VECTOR_PRECISION)`, in exact numbers. -/
def roundValue (v : ℚ) : ℚ := roundHalfEven (v * 10 ^ vectorPrecision) / 10 ^ vectorPrecision

def roundVector (vector : List ℚ) : List ℚ := vector.map roundValue

/-- Features with their places, as `select_related("place")` reads them. -/
abbrev FeatureSet := List (PlaceFeature (List ℚ) × Place)

def serializePlaceFeatures (queryset : FeatureSet) : List PlaceFeatureRow :=
  queryset.map fun entry => {
    contentId := entry.2.contentId
    styleVector := entry.1.styleVector.map roundVector
    contentVector := entry.1.contentVector.map roundVector }

/-- `itertools.batched`. -/
def batched {α : Type} (size : ℕ+) : List α → List (List α)
  | [] => []
  | a :: rest => (a :: rest.take (size - 1)) :: batched size (rest.drop (size - 1))
termination_by rows => rows.length
decreasing_by rw [List.length_drop, List.length_cons]; omega

/-- The vector columns have 6 and 1024 dimensions. -/
def PlaceFeature.fitsColumns (feature : PlaceFeature (List ℚ)) : Prop :=
  (∀ vector ∈ feature.styleVector, vector.length = 6) ∧ ∀ vector ∈ feature.contentVector, vector.length = 1024

instance : DecidablePred PlaceFeature.fitsColumns := fun _ => inferInstanceAs (Decidable (_ ∧ _))

namespace Db
variable {V : Type}

def placeFeature? (d : Db V) (placeId : Int) : Option (PlaceFeature V) := d.placeFeatures.find? (·.placeId == placeId)

/-- The features with their places, by place id. -/
def featureRows (d : Db V) : List (PlaceFeature V × Place) :=
  (orderBy (·.placeId) d.placeFeatures).filterMap fun feature => (d.place? feature.placeId).map (feature, ·)

/-- The primary keys of the places of a batch. -/
def placeMapping (d : Db V) (contentIds : List Int) (contentId : Int) : Option Int :=
  ((d.places.filter fun place => contentIds.contains place.contentId).find? (·.contentId == contentId)).map (·.id)

/-- Insert the row, or set both vectors of the row there is. -/
def upsertFeature (feature : PlaceFeature V) (d : Db V) : Db V :=
  {d with placeFeatures := upsert (·.placeId) feature d.placeFeatures}

end Db

def saveFeatures : List (PlaceFeature (List ℚ)) → Service (List ℚ) Unit
  | [] => return
  | feature :: rest => do
    let _ ← Txn.put (.placeFeature feature.placeId) (Db.upsertFeature feature)
    saveFeatures rest

/-- `bulk_create` with `update_conflicts` on `place_id`. The statement fails on a vector of
other dimensions, and where two of its rows have one key. -/
def bulkCreate (features : List (PlaceFeature (List ℚ))) : Service (List ℚ) Unit := do
  Txn.orRaise ((∀ feature ∈ features, feature.fitsColumns) ∧ (features.map (·.placeId)).Nodup) .databaseError
  saveFeatures features
  Txn.commitNow

def loadBatches : List (List PlaceFeatureRow) → LoadSummary → Service (List ℚ) LoadSummary
  | [], summary => return summary
  | batch :: rest, summary => do
    let d ← Txn.read
    let placeMapping := d.placeMapping (batch.map (·.contentId))
    let featuresToCreate := batch.filterMap fun row => (placeMapping row.contentId).map fun placeId =>
      {placeId := placeId, styleVector := row.styleVector, contentVector := row.contentVector}
    if featuresToCreate ≠ [] then bulkCreate featuresToCreate
    loadBatches rest {
      matched := summary.matched + featuresToCreate.length
      unmatched := summary.unmatched + batch.countP fun row => (placeMapping row.contentId).isNone }

/-- `load_place_features` with batches of some size. -/
def loadPlaceFeaturesIn (size : ℕ+) (rows : List PlaceFeatureRow) : Service (List ℚ) LoadSummary :=
  loadBatches (batched size rows) {}

def loadPlaceFeatures (rows : List PlaceFeatureRow) : Service (List ℚ) LoadSummary := loadPlaceFeaturesIn 50 rows

/-! ### Rounding -/

@[simp] theorem roundValue_roundValue (v : ℚ) : roundValue (roundValue v) = roundValue v := by
  have hscale : (10 : ℚ) ^ vectorPrecision ≠ 0 := by positivity
  have hback : roundValue v * 10 ^ vectorPrecision = (roundHalfEven (v * 10 ^ vectorPrecision) : ℚ) := div_mul_cancel₀ _ hscale
  rw [roundValue, hback, Lib.roundHalfEven_intCast]
  rfl

@[simp] theorem roundVector_roundVector (vector : List ℚ) : roundVector (roundVector vector) = roundVector vector := by
  simp [roundVector]

@[simp] theorem length_roundVector (vector : List ℚ) : (roundVector vector).length = vector.length := List.length_map _

example : roundVector [0.1234565, 0.1234575, -0.5] = [0.123456, 0.123458, -0.5] := by decide +kernel

/-! ### A load, row by row -/

theorem flatten_batched {α : Type} (size : ℕ+) (rows : List α) : (batched size rows).flatten = rows := by
  fun_induction batched size rows with
  | case1 => rfl
  | case2 a rest ih => rw [List.flatten_cons, ih, List.cons_append, List.take_append_drop]

/-- What is stored for a row. -/
def featureOf (places : List Place) (row : PlaceFeatureRow) : Option (PlaceFeature (List ℚ)) :=
  (places.find? (·.contentId == row.contentId)).map fun place =>
    {placeId := place.id, styleVector := row.styleVector, contentVector := row.contentVector}

variable {d : Db (List ℚ)}

/-- A batch finds the places of its own rows. -/
theorem placeMapping_eq {contentIds : List Int} {contentId : Int} (h : contentId ∈ contentIds) :
    d.placeMapping contentIds contentId = (d.places.find? (·.contentId == contentId)).map (·.id) := by
  unfold Db.placeMapping
  rw [List.find?_filter]
  congr 2
  funext place
  by_cases hid : place.contentId = contentId
  · simp [hid, h]
  · simp [hid]

theorem saveFeatures_eval (features : List (PlaceFeature (List ℚ))) (d : Db (List ℚ)) (k : Nat) :
    (saveFeatures features).eval d k = .ok ((), {d with placeFeatures := upserts (·.placeId) features d.placeFeatures}, k) := by
  induction features generalizing d with
  | nil => rfl
  | cons feature rest ih => exact ih (d.upsertFeature feature)

theorem bulkCreate_eval {features : List (PlaceFeature (List ℚ))} (hfits : ∀ feature ∈ features, feature.fitsColumns)
    (hids : (features.map (·.placeId)).Nodup) (d : Db (List ℚ)) (k : Nat) :
    (bulkCreate features).eval d k = .ok ((), {d with placeFeatures := upserts (·.placeId) features d.placeFeatures}, k) := by
  unfold bulkCreate
  rw [Txn.orRaise_bind, if_pos ⟨hfits, hids⟩, Txn.eval_bind_ok (saveFeatures_eval features d k)]
  rfl

/-- What a load leaves. -/
def Db.loaded (rows : List PlaceFeatureRow) (d : Db (List ℚ)) : Db (List ℚ) :=
  {d with placeFeatures := upserts (·.placeId) (rows.filterMap (featureOf d.places)) d.placeFeatures}

theorem batchFeatures_eq (batch : List PlaceFeatureRow) :
    (batch.filterMap fun row => (d.placeMapping (batch.map (·.contentId)) row.contentId).map fun placeId =>
      ({placeId := placeId, styleVector := row.styleVector, contentVector := row.contentVector} : PlaceFeature (List ℚ))) =
        batch.filterMap (featureOf d.places) := by
  refine List.filterMap_congr fun row hrow => ?_
  rw [placeMapping_eq (List.mem_map_of_mem hrow), Option.map_map]
  rfl

theorem batchUnmatched_eq (batch : List PlaceFeatureRow) :
    (batch.countP fun row => (d.placeMapping (batch.map (·.contentId)) row.contentId).isNone) =
      batch.countP fun row => (featureOf d.places row).isNone := by
  refine List.countP_congr fun row hrow => ?_
  rw [placeMapping_eq (List.mem_map_of_mem hrow), featureOf, Option.isNone_map, Option.isNone_map]

/-- The summary with a batch added. -/
def LoadSummary.counted (places : List Place) (rows : List PlaceFeatureRow) (summary : LoadSummary) : LoadSummary where
  matched := summary.matched + (rows.filterMap (featureOf places)).length
  unmatched := summary.unmatched + rows.countP fun row => (featureOf places row).isNone

theorem loadBatches_cons (batch : List PlaceFeatureRow) (rest : List (List PlaceFeatureRow)) (summary : LoadSummary) (k : Nat) :
    (loadBatches (batch :: rest) summary).eval d k = (if batch.filterMap (featureOf d.places) ≠ [] then
      bulkCreate (batch.filterMap (featureOf d.places)) >>= fun _ => loadBatches rest (summary.counted d.places batch)
      else loadBatches rest (summary.counted d.places batch)).eval d k := by
  rw [LoadSummary.counted, ← batchFeatures_eq, ← batchUnmatched_eq]
  rfl

theorem loadBatches_eval (batches : List (List PlaceFeatureRow)) (summary : LoadSummary)
    (hfits : ∀ feature ∈ batches.flatten.filterMap (featureOf d.places), feature.fitsColumns)
    (hids : ((batches.flatten.filterMap (featureOf d.places)).map (·.placeId)).Nodup) (k : Nat) :
    (loadBatches batches summary).eval d k =
      .ok (summary.counted d.places batches.flatten, d.loaded batches.flatten, k) := by
  induction batches generalizing d summary with
  | nil => rfl
  | cons batch rest ih =>
    have hcounted : summary.counted d.places (batch ++ rest.flatten) = (summary.counted d.places batch).counted d.places rest.flatten := by
      simp [LoadSummary.counted, List.filterMap_append, List.countP_append, Nat.add_assoc]
    have hloaded : d.loaded (batch ++ rest.flatten) = (d.loaded batch).loaded rest.flatten := by
      simp [Db.loaded, upserts, List.filterMap_append]
    rw [List.flatten_cons, List.filterMap_append] at hfits hids
    rw [List.map_append, List.nodup_append] at hids
    have hrest := ih (summary.counted d.places batch) (d := d.loaded batch)
      (fun feature h => hfits feature (List.mem_append_right _ h)) hids.2.1
    rw [loadBatches_cons, List.flatten_cons, hcounted, hloaded]
    split
    · have hsaved := bulkCreate_eval (fun feature h => hfits feature (List.mem_append_left _ h)) hids.1 d k
      rw [Txn.eval_bind_ok hsaved]
      exact hrest
    · rename_i hnone
      rw [not_not] at hnone
      have hsame : d.loaded batch = d := by
        rw [Db.loaded, hnone]
        rfl
      rw [hsame] at hrest ⊢
      exact hrest

/-! ### From one store to another -/

/-- The primary keys and the unique content ids. -/
structure FeaturesOk {V : Type} (d : Db V) : Prop where
  places : (d.places.map (·.id)).Nodup
  contentIds : (d.places.map (·.contentId)).Nodup
  features : (d.placeFeatures.map (·.placeId)).Nodup

/-- Rows of one table: a content id each, and vectors as the columns take them. -/
structure Dumpable (source : FeatureSet) : Prop where
  contentIds : (source.map (·.2.contentId)).Nodup
  fits : ∀ entry ∈ source, entry.1.fitsColumns

/-- What a load of the dump of `source` makes of the tables `d`. -/
structure LoadsDump (source : FeatureSet) (d d' : Db (List ℚ)) (summary : LoadSummary) : Prop where
  hit : ∀ entry ∈ source, ∀ place ∈ d.places, place.contentId = entry.2.contentId → d'.placeFeature? place.id = some {
    placeId := place.id
    styleVector := entry.1.styleVector.map roundVector
    contentVector := entry.1.contentVector.map roundVector }
  others : ∀ placeId, (∀ place ∈ d.places, place.id = placeId → place.contentId ∉ source.map (·.2.contentId)) →
    d'.placeFeature? placeId = d.placeFeature? placeId
  tables : d' = {d with placeFeatures := d'.placeFeatures}
  rows : summary.matched + summary.unmatched = source.length
  matched : summary.matched = d.places.countP fun place => place.contentId ∈ source.map (·.2.contentId)
  again : (serializePlaceFeatures (d'.featureRows.filter fun entry => entry.2.contentId ∈ source.map (·.2.contentId))).Perm
    ((serializePlaceFeatures source).filter fun row => row.contentId ∈ d.places.map (·.contentId))

theorem map_contentId_serialize (source : FeatureSet) :
    (serializePlaceFeatures source).map (·.contentId) = source.map (·.2.contentId) := by
  simp [serializePlaceFeatures]

theorem mem_serialize {source : FeatureSet} {row : PlaceFeatureRow} : row ∈ serializePlaceFeatures source ↔
    ∃ entry ∈ source, {
      contentId := entry.2.contentId
      styleVector := entry.1.styleVector.map roundVector
      contentVector := entry.1.contentVector.map roundVector } = row := List.mem_map

theorem featureOf_eq_some {places : List Place} (h : (places.map (·.contentId)).Nodup) {row : PlaceFeatureRow}
    {feature : PlaceFeature (List ℚ)} : featureOf places row = some feature ↔ ∃ place ∈ places,
      place.contentId = row.contentId ∧ {placeId := place.id, styleVector := row.styleVector, contentVector := row.contentVector} =
        feature := by
  simp only [featureOf, Option.map_eq_some_iff, Lib.Upsert.find?_eq_some_iff h, and_assoc]

/-- A row is matched where a place has its content id. -/
theorem isSome_featureOf {places : List Place} {row : PlaceFeatureRow} :
    (featureOf places row).isSome = true ↔ row.contentId ∈ places.map (·.contentId) := by
  simp [featureOf, List.find?_isSome]

theorem FeaturesOk.loaded (h : FeaturesOk d) (rows : List PlaceFeatureRow) : FeaturesOk (d.loaded rows) where
  places := h.places
  contentIds := h.contentIds
  features := Lib.Upsert.nodup_upserts h.features

/-- The features read with their places. -/
theorem FeaturesOk.mem_featureRows (h : FeaturesOk d) (feature : PlaceFeature (List ℚ)) (place : Place) :
    (feature, place) ∈ d.featureRows ↔ place ∈ d.places ∧ d.placeFeature? place.id = some feature := by
  have hmem : (feature, place) ∈ d.featureRows ↔ feature ∈ d.placeFeatures ∧ d.place? feature.placeId = some place := by
    simp [Db.featureRows, mem_orderBy, Option.map_eq_some_iff]
  rw [hmem, Db.placeFeature?, Lib.Upsert.find?_eq_some_iff h.features, Db.place?, Lib.Upsert.find?_eq_some_iff h.places]
  constructor
  · intro hboth
    exact ⟨hboth.2.1, hboth.1, hboth.2.2.symm⟩
  · intro hboth
    exact ⟨hboth.2.1, hboth.1, hboth.2.2.symm⟩

/-- Each place is read at most once. -/
theorem nodup_featureRows (h : FeaturesOk d) : (d.featureRows.map (·.2.contentId)).Nodup := by
  have hids : ((orderBy (·.placeId) d.placeFeatures).map (·.placeId)).Nodup := (orderBy_perm.map _).nodup_iff.mpr h.features
  rw [List.Nodup, List.pairwise_map, Db.featureRows, List.pairwise_filterMap]
  refine (List.pairwise_map.mp hids).imp fun {feature other} hne entry hentry otherEntry hother hid => hne ?_
  obtain ⟨place, hplace, rfl⟩ := Option.map_eq_some_iff.mp hentry
  obtain ⟨otherPlace, hotherPlace, rfl⟩ := Option.map_eq_some_iff.mp hother
  obtain ⟨hmem, hplaceId⟩ := Db.place?_some hplace
  obtain ⟨hotherMem, hotherId⟩ := Db.place?_some hotherPlace
  rw [← hplaceId, ← hotherId, List.inj_on_of_nodup_map h.contentIds hmem hotherMem hid]

section
variable {source : FeatureSet} (hsource : Dumpable source) (hok : FeaturesOk d)
include hsource hok

theorem fits_loaded : ∀ feature ∈ (serializePlaceFeatures source).filterMap (featureOf d.places), feature.fitsColumns := by
  intro feature hfeature
  obtain ⟨row, hrow, hof⟩ := List.mem_filterMap.mp hfeature
  obtain ⟨entry, hentry, rfl⟩ := mem_serialize.mp hrow
  obtain ⟨place, -, -, rfl⟩ := (featureOf_eq_some hok.contentIds).mp hof
  obtain ⟨hstyle, hcontent⟩ := hsource.fits entry hentry
  simpa [PlaceFeature.fitsColumns] using ⟨hstyle, hcontent⟩

/-- Different rows are for different places. -/
theorem nodup_loaded : (((serializePlaceFeatures source).filterMap (featureOf d.places)).map (·.placeId)).Nodup := by
  have hrows : ((serializePlaceFeatures source).map (·.contentId)).Nodup := map_contentId_serialize source ▸ hsource.contentIds
  rw [List.Nodup, List.pairwise_map, List.pairwise_filterMap]
  refine (List.pairwise_map.mp hrows).imp fun {row other} hne feature hfeature otherFeature hother hid => hne ?_
  obtain ⟨place, hplace, hcontent, rfl⟩ := (featureOf_eq_some hok.contentIds).mp hfeature
  obtain ⟨otherPlace, hotherPlace, hotherContent, rfl⟩ := (featureOf_eq_some hok.contentIds).mp hother
  rw [← hcontent, ← hotherContent, List.inj_on_of_nodup_map hok.places hplace hotherPlace hid]

theorem placeFeature?_loaded (placeId : Int) : (d.loaded (serializePlaceFeatures source)).placeFeature? placeId =
    (((serializePlaceFeatures source).filterMap (featureOf d.places)).find? (·.placeId == placeId)).or (d.placeFeature? placeId) :=
  Lib.Upsert.find?_upserts hok.features (nodup_loaded hsource hok) placeId

theorem hit_loaded {entry : PlaceFeature (List ℚ) × Place} (hentry : entry ∈ source) {place : Place} (hplace : place ∈ d.places)
    (hcontent : place.contentId = entry.2.contentId) :
    (d.loaded (serializePlaceFeatures source)).placeFeature? place.id = some {
      placeId := place.id
      styleVector := entry.1.styleVector.map roundVector
      contentVector := entry.1.contentVector.map roundVector } := by
  rw [placeFeature?_loaded hsource hok]
  refine Option.or_eq_some_iff.mpr (.inl ?_)
  refine (Lib.Upsert.find?_eq_some_iff (nodup_loaded hsource hok)).mpr ⟨?_, rfl⟩
  exact List.mem_filterMap.mpr ⟨_, mem_serialize.mpr ⟨entry, hentry, rfl⟩,
    (featureOf_eq_some hok.contentIds).mpr ⟨place, hplace, hcontent, rfl⟩⟩

theorem others_loaded {placeId : Int}
    (h : ∀ place ∈ d.places, place.id = placeId → place.contentId ∉ source.map (·.2.contentId)) :
    (d.loaded (serializePlaceFeatures source)).placeFeature? placeId = d.placeFeature? placeId := by
  rw [placeFeature?_loaded hsource hok, Option.or_eq_right_of_none]
  refine List.find?_eq_none.mpr fun feature hfeature hid => ?_
  obtain ⟨row, hrow, hof⟩ := List.mem_filterMap.mp hfeature
  obtain ⟨place, hplace, hcontent, rfl⟩ := (featureOf_eq_some hok.contentIds).mp hof
  apply h place hplace (beq_iff_eq.mp hid)
  rw [hcontent, ← map_contentId_serialize]
  exact List.mem_map_of_mem hrow

/-- The features read again are those of the places that were hit. -/
theorem mem_again (row : PlaceFeatureRow) :
    row ∈ serializePlaceFeatures ((d.loaded (serializePlaceFeatures source)).featureRows.filter fun entry =>
        entry.2.contentId ∈ source.map (·.2.contentId)) ↔
      row ∈ (serializePlaceFeatures source).filter fun row => row.contentId ∈ d.places.map (·.contentId) := by
  have hread := fun feature place => (hok.loaded (serializePlaceFeatures source)).mem_featureRows feature place
  rw [mem_serialize, List.mem_filter, mem_serialize, decide_eq_true_eq]
  constructor
  · intro h
    obtain ⟨⟨feature, place⟩, hagain, rfl⟩ := h
    obtain ⟨hrow, hcontent⟩ := List.mem_filter.mp hagain
    obtain ⟨hplace, hfound⟩ := (hread feature place).mp hrow
    obtain ⟨entry, hentry, heq⟩ := List.mem_map.mp (of_decide_eq_true hcontent)
    rw [hit_loaded hsource hok hentry hplace heq.symm] at hfound
    obtain rfl := Option.some.inj hfound
    refine ⟨⟨entry, hentry, ?_⟩, List.mem_map_of_mem hplace⟩
    simp [heq, Function.comp_def]
  · intro h
    obtain ⟨⟨entry, hentry, rfl⟩, hcontent⟩ := h
    obtain ⟨place, hplace, heq⟩ := List.mem_map.mp hcontent
    have hfound := hit_loaded hsource hok hentry hplace heq
    refine ⟨(_, place), List.mem_filter.mpr ⟨(hread _ place).mpr ⟨hplace, hfound⟩, decide_eq_true ?_⟩, ?_⟩
    · exact List.mem_map.mpr ⟨entry, hentry, heq.symm⟩
    · simp [show place.contentId = entry.2.contentId from heq, Function.comp_def]

end

/-- What two lists have in common is as long in one as in the other. -/
theorem countP_mem_comm {α : Type} [DecidableEq α] {l l' : List α} (h : l.Nodup) (h' : l'.Nodup) :
    (l.countP fun a => a ∈ l') = l'.countP fun a => a ∈ l := by
  rw [List.countP_eq_length_filter, List.countP_eq_length_filter]
  refine ((List.perm_ext_iff_of_nodup (h.filter _) (h'.filter _)).mpr fun a => ?_).length_eq
  simp [and_comm]

/-- A row is matched or not. -/
theorem counted_rows (places : List Place) (rows : List PlaceFeatureRow) :
    (({} : LoadSummary).counted places rows).matched + (({} : LoadSummary).counted places rows).unmatched = rows.length := by
  have hnone : (fun row => (featureOf places row).isNone) = fun row => decide ¬ (featureOf places row).isSome = true := by
    funext row
    cases featureOf places row <;> rfl
  simp only [LoadSummary.counted, List.length_filterMap_eq_countP, hnone, Nat.zero_add]
  exact (List.length_eq_countP_add_countP _).symm

/-- **Vectors travel by content id**, and the batches do not show. -/
theorem load_round_trip (source : FeatureSet) (b : Txn.Base (Db (List ℚ))) (hsource : Dumpable source) (hok : FeaturesOk b.db) :
    ∃ summary b', (loadPlaceFeatures (serializePlaceFeatures source)).perform b = (.ok summary, b') ∧
      (∀ size, (loadPlaceFeaturesIn size (serializePlaceFeatures source)).perform b = (.ok summary, b')) ∧
      LoadsDump source b.db b'.db summary := by
  have hload : ∀ size, (loadPlaceFeaturesIn size (serializePlaceFeatures source)).perform b =
      (.ok (({} : LoadSummary).counted b.db.places (serializePlaceFeatures source)),
        {db := b.db.loaded (serializePlaceFeatures source), seq := b.seq}) := by
    intro size
    have heval := loadBatches_eval (d := b.db) (batched size (serializePlaceFeatures source)) {}
    rw [flatten_batched] at heval
    exact Txn.perform_of_eval_ok (heval (fits_loaded hsource hok) (nodup_loaded hsource hok) b.seq)
  have hrows : ((serializePlaceFeatures source).map (·.contentId)).Nodup := map_contentId_serialize source ▸ hsource.contentIds
  refine ⟨_, _, hload 50, hload, ?_⟩
  exact {
    hit := fun entry hentry place hplace hcontent => hit_loaded hsource hok hentry hplace hcontent
    others := fun placeId h => others_loaded hsource hok h
    tables := rfl
    rows := by rw [counted_rows, serializePlaceFeatures, List.length_map]
    matched := by
      show 0 + _ = _
      rw [Nat.zero_add, List.length_filterMap_eq_countP]
      calc _ = ((serializePlaceFeatures source).map (·.contentId)).countP fun id => id ∈ b.db.places.map (·.contentId) := by
            rw [List.countP_map]
            exact List.countP_congr fun row _ => by simp [isSome_featureOf]
        _ = (b.db.places.map (·.contentId)).countP fun id => id ∈ source.map (·.2.contentId) := by
            rw [countP_mem_comm hrows hok.contentIds, map_contentId_serialize]
        _ = _ := by
            rw [List.countP_map]
            rfl
    again := by
      refine (List.perm_ext_iff_of_nodup ?_ ?_).mpr (mem_again hsource hok)
      · have hagain := nodup_featureRows (hok.loaded (serializePlaceFeatures source))
        refine List.Nodup.of_map (·.contentId) ?_
        rw [map_contentId_serialize]
        exact hagain.sublist (List.filter_sublist.map _)
      · exact (List.Nodup.of_map _ hrows).filter _ }

/-- A museum with one vector, and a place that the other store does not have. -/
def museum : FeatureSet := [
  ({placeId := 7, styleVector := some [0.1234567, 0, 0, 0, 0, 1]}, {id := 7, contentId := 30, contentTypeId := 14}),
  ({placeId := 8}, {id := 8, contentId := 99, contentTypeId := 14})]

/-- A store with the museum and a place that is not in the dump. -/
def otherStore : Txn.Base (Db (List ℚ)) where
  db := {places := [{id := 1, contentId := 30, contentTypeId := 14}, {id := 2, contentId := 31, contentTypeId := 14}]}
  seq := 3

theorem load_round_trip_museum : ∃ summary b',
    (loadPlaceFeatures (serializePlaceFeatures museum)).perform otherStore = (.ok summary, b') ∧
      (∀ size, (loadPlaceFeaturesIn size (serializePlaceFeatures museum)).perform otherStore = (.ok summary, b')) ∧
      LoadsDump museum otherStore.db b'.db summary :=
  load_round_trip museum otherStore ⟨by decide, by decide⟩ ⟨by decide, by decide, List.nodup_nil⟩

end TravelMaker
