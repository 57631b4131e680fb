import TravelMaker.Place.NormalForm

/-! `clean_existing_place_info`, run again.

The first run leaves every row as `_clean_info_text` makes it, so the second one changes
exactly the rows with a text that has no normal form (`clean_normal_form_iff`). -/
namespace TravelMaker
open Lib (Regex Txn)
open Lib.Text (isSpace strip)

variable {V : Type}

/-! ### Texts -/

/-- The stripped text hides a break tag. -/
def BreaksAgain (text : String) : Prop := HidesBreak (strip text).toList

/-- A second cleaning of the text changes nothing, and the cleaned text has no markup. -/
def NormalForm (text : String) : Prop :=
  ∀ cleaned, cleanInfoText (.str text) = some cleaned → cleanInfoText (.str cleaned) = some cleaned ∧
    brRe.search cleaned.toList = none ∧ tagRe.search cleaned.toList = none

theorem cleanInfoText_str (text : String) :
    cleanInfoText (.str text) = orNone (.ofList (cleanChars (strip text).toList)) := by
  show (orNone (strip text)).bind cleanInfoString = _
  by_cases hempty : strip text = ""
  · rw [hempty]
    rfl
  · rw [orNone, if_neg hempty, Option.bind_some, cleanInfoString_eq]

theorem orNone_eq_some {s t : String} : orNone s = some t ↔ s ≠ "" ∧ s = t := by
  unfold orNone
  split
  · rename_i hempty
    simp [hempty]
  · rename_i hempty
    simp [hempty]

/-- A cleaned text is stripped. -/
theorem strip_clean (s : List Char) : strip (.ofList (cleanChars s)) = .ofList (cleanChars s) := by
  unfold strip
  rw [String.toList_ofList]
  exact congrArg String.ofList (Lib.Text.stripWith_stripWith isSpace _)

theorem cleanInfoText_clean (s : List Char) :
    cleanInfoText (.str (.ofList (cleanChars s))) = orNone (.ofList (cleanChars (cleanChars s))) := by
  rw [cleanInfoText_str, strip_clean, String.toList_ofList]

theorem tagRe_search {s : List Char} : tagRe.search s = none ↔ Untagged s := by
  have hforward : tagRe.Forward := by simp [tagRe, Regex.Forward, Regex.one]
  rw [Regex.search_eq_none_iff hforward]
  induction s with
  | nil =>
    have hnil : tagRe.matchAt none [] = none := by decide
    simp [hnil, Untagged]
  | cons c rest ih =>
    simp only [List.suffix_cons_iff, or_imp, forall_and, forall_eq, ih, tagRe_matchAt, Untagged]

/-- **The texts that have a normal form.** -/
theorem normalForm_iff (text : String) : NormalForm text ↔ ¬ BreaksAgain text := by
  unfold NormalForm BreaksAgain
  rw [cleanInfoText_str]
  generalize (strip text).toList = s
  constructor
  · intro h hhides
    have hbreak := (hasBreak_clean s).mpr hhides
    have hne : String.ofList (cleanChars s) ≠ "" := fun hempty => by
      rw [String.ofList_eq_empty_iff.mp hempty] at hbreak
      cases hbreak
    have hsearch := (h _ (orNone_eq_some.mpr ⟨hne, rfl⟩)).2.1
    rw [String.toList_ofList, brRe_search, hbreak] at hsearch
    cases hsearch
  · intro h cleaned hcleaned
    obtain ⟨hne, rfl⟩ := orNone_eq_some.mp hcleaned
    refine ⟨?_, ?_, ?_⟩
    · rw [cleanInfoText_clean, cleanChars_clean h]
      exact hcleaned
    · rw [String.toList_ofList, brRe_search]
      exact Bool.eq_false_iff.mpr fun hbreak => h ((hasBreak_clean s).mp hbreak)
    · rw [String.toList_ofList]
      exact tagRe_search.mpr (untagged_cleanChars s)

/-- A cleaned text stays as it is, unless it hid a break tag. -/
theorem cleanChars_fixed (s : List Char) : cleanChars (cleanChars s) = cleanChars s ↔ ¬ HidesBreak s := by
  refine ⟨fun h hhides => ?_, cleanChars_clean⟩
  exact cleanChars_ne ((hasBreak_clean s).mpr hhides) h

/-- Two cleanings of a column are one, unless the text breaks again. -/
theorem cleanColumn_fixed (column : Option String) :
    cleanColumn (cleanColumn column) = cleanColumn column ↔ ∀ text, column = some text → ¬ BreaksAgain text := by
  cases column with
  | none => exact iff_of_true rfl fun text h => by cases h
  | some text =>
    simp only [Option.some.injEq, forall_eq']
    show cleanColumn (cleanInfoText (.str text)) = cleanInfoText (.str text) ↔ _
    rw [cleanInfoText_str, BreaksAgain, ← cleanChars_fixed]
    generalize (strip text).toList = s
    by_cases hempty : String.ofList (cleanChars s) = ""
    · rw [String.ofList_eq_empty_iff.mp hempty]
      exact iff_of_true rfl rfl
    · have hsome : orNone (.ofList (cleanChars s)) = some (.ofList (cleanChars s)) := orNone_eq_some.mpr ⟨hempty, rfl⟩
      rw [hsome]
      show cleanInfoText (.str (.ofList (cleanChars s))) = _ ↔ _
      rw [cleanInfoText_clean, orNone_eq_some, String.ofList_inj]
      exact and_iff_right_of_imp fun h hnil => hempty (h ▸ hnil)

/-! ### Rows -/

/-- One field of `clean_existing_place_info`. -/
def cleanField (row : PlaceInfo × Nat) (field : InfoText) : PlaceInfo × Nat :=
  let cleaned := cleanColumn (row.1.text field)
  if cleaned ≠ row.1.text field then (row.1.set (.text field cleaned), row.2 + 1) else row

/-- A row without changes is one whose texts are clean. -/
theorem foldl_cleanField (fields : List InfoText) (row : PlaceInfo × Nat) :
    row.2 ≤ (fields.foldl cleanField row).2 ∧ ((fields.foldl cleanField row).2 = row.2 ↔
      ∀ field ∈ fields, cleanColumn (row.1.text field) = row.1.text field) ∧
    ((fields.foldl cleanField row).2 = row.2 → fields.foldl cleanField row = row) := by
  induction fields generalizing row with
  | nil => simp
  | cons field fields ih =>
    rw [List.foldl_cons, List.forall_mem_cons]
    by_cases hclean : cleanColumn (row.1.text field) = row.1.text field
    · have hstep : cleanField row field = row := if_neg (not_not.mpr hclean)
      rw [hstep]
      simpa [hclean] using ih row
    · have hstep : (cleanField row field).2 = row.2 + 1 := by
        unfold cleanField
        dsimp only
        rw [if_pos hclean]
      have hle := (ih (cleanField row field)).1
      refine ⟨by omega, ⟨fun h => ?_, fun h => (hclean h.1).elim⟩, fun h => ?_⟩ <;> omega

theorem cleanRow_eq_zero_iff (info : PlaceInfo) :
    (cleanRow info).2 = 0 ↔ ∀ field ∈ placeInfoTextFields, cleanColumn (info.text field) = info.text field :=
  (foldl_cleanField placeInfoTextFields (info, 0)).2.1

theorem cleanRow_of_zero {info : PlaceInfo} (h : (cleanRow info).2 = 0) : (cleanRow info).1 = info :=
  congrArg Prod.fst ((foldl_cleanField placeInfoTextFields (info, 0)).2.2 h)

theorem text_cleanRow (info : PlaceInfo) (field : InfoText) : (cleanRow info).1.text field = cleanColumn (info.text field) := by
  rw [PlaceInfo.cleanRow_eq]
  cases field <;> rfl

/-- The row has a text that breaks again. -/
def PlaceInfo.BreaksAgain (info : PlaceInfo) : Prop :=
  ∃ field ∈ placeInfoTextFields, ∃ text, info.text field = some text ∧ TravelMaker.BreaksAgain text

/-- A cleaned row is clean unless one of its texts breaks again. -/
theorem cleanRow_cleanRow (info : PlaceInfo) : (cleanRow (cleanRow info).1).2 = 0 ↔ ¬ info.BreaksAgain := by
  rw [cleanRow_eq_zero_iff]
  simp only [text_cleanRow, cleanColumn_fixed, PlaceInfo.BreaksAgain]
  simp

/-! ### The first run -/

/-- The batches, one after the other, are the rows. -/
theorem flatten_batchesOf {α : Type} {size : Int} (hsize : 0 < size) {rows : List α} {batches : List (List α)}
    (h : batchesOf size rows = .ok batches) : batches.flatten = rows := by
  obtain ⟨n, rfl⟩ := Int.eq_ofNat_of_zero_le hsize.le
  have hn : 0 < n := by omega
  have htake : ∀ count : Nat, ((List.range count).map fun i => (rows.drop (i * n)).take n).flatten = rows.take (count * n) := by
    intro count
    induction count with
    | zero => simp
    | succ count ih =>
      rw [List.range_succ, List.map_append, List.flatten_append, ih, Nat.succ_mul, List.take_add]
      simp
  unfold batchesOf at h
  rw [if_neg (by omega)] at h
  obtain rfl := Except.ok.inj h
  rw [Int.toNat_natCast, htake, List.take_of_length_le]
  have hround := Nat.div_add_mod (rows.length + n - 1) n
  have hmod := Nat.mod_lt (rows.length + n - 1) hn
  rw [Nat.mul_comm] at hround
  omega

/-- The updates that returned were all made. -/
theorem forEach_bulkUpdateTexts {out : Outside} {batches : List (List PlaceInfo)} {w : World V CleanInfoSummary}
    (h : (Collect.forEach (fun batch => Collect.atomic out (bulkUpdateTexts batch)) batches w).1 = .ok ()) :
    (Collect.forEach (fun batch => Collect.atomic out (bulkUpdateTexts batch)) batches w).2.db =
      batches.flatten.foldl (fun d row => d.saveTexts row) w.db := by
  induction batches generalizing w with
  | nil => rfl
  | cons batch batches ih =>
    unfold Collect.forEach at h ⊢
    rw [bind_run] at h ⊢
    cases hfault : out.fault w.transactions with
    | some fault =>
      obtain ⟨e, w', hrun, -⟩ := atomic_fault (S := CleanInfoSummary) hfault (atomic_bulkUpdateTexts batch)
      rw [hrun] at h
      cases h
    | none =>
      rw [atomic_ok hfault (atomic_bulkUpdateTexts batch) (bulkUpdateTexts_eval batch w.db w.seq)] at h ⊢
      rw [ih h, List.flatten_cons, List.foldl_append]

theorem foldl_saveTexts {d₀ : Db V} (hids : (d₀.placeInfos.map (·.placeId)).Nodup) (which : Int → Bool) {infos : List PlaceInfo}
    (hinfos : ∀ info ∈ infos, info ∈ d₀.placeInfos) :
    (infos.map fun info => (cleanRow info).1).foldl (fun d row => d.saveTexts row) (d₀.cleanedWhere which) =
      d₀.cleanedWhere fun id => which id || infos.any (·.placeId == id) := by
  induction infos generalizing which with
  | nil => simp
  | cons info infos ih =>
    rw [List.forall_mem_cons] at hinfos
    rw [List.map_cons, List.foldl_cons, saveTexts_cleanedWhere hids which hinfos.1, ih _ hinfos.2]
    refine congrArg (Db.cleanedWhere · d₀) (funext fun id => ?_)
    rw [List.any_cons, Bool.or_assoc, BEq.comm (a := id)]

/-- What a run counts. -/
def CleanInfoSummary.counted (rows : List (PlaceInfo × Nat)) (summary : CleanInfoSummary) : CleanInfoSummary :=
  {summary with
    scanned := summary.scanned + rows.length
    changedRows := summary.changedRows + ((rows.filter fun (_, changed) => 0 < changed).map (·.1)).length
    changedFields := summary.changedFields + (rows.map (·.2)).sum }

/-- What a run updates. -/
def rowsToUpdate (infos : List PlaceInfo) : List PlaceInfo :=
  ((infos.map cleanRow).filter fun (_, changed) => 0 < changed).map (·.1)

theorem rowsToUpdate_eq (infos : List PlaceInfo) :
    rowsToUpdate infos = (infos.filter fun info => 0 < (cleanRow info).2).map fun info => (cleanRow info).1 := by
  unfold rowsToUpdate
  rw [List.filter_map, List.map_map]
  rfl

/-- A run whose read returned. -/
theorem cleanExistingPlaceInfo_run {out : Outside} {w : World V CleanInfoSummary} (hfault : out.fault w.transactions = none)
    (dryRun : Bool) (batchSize : Int) : cleanExistingPlaceInfo out dryRun batchSize w =
      (if dryRun then pure () else Collect.ofExcept (batchesOf batchSize (rowsToUpdate w.db.placeInfos)) >>= fun batches =>
        batches |> Collect.forEach fun batch => Collect.atomic out (bulkUpdateTexts batch))
      {w with past := w.db :: w.past, summary := w.summary.counted (w.db.placeInfos.map cleanRow)} := by
  unfold cleanExistingPlaceInfo
  rw [bind_run, query_ok hfault]
  cases dryRun <;> rfl

/-- A run that returns has cleaned every row. -/
theorem cleanExistingPlaceInfo_ok {out : Outside} {batchSize : Int} (hsize : 0 < batchSize) {w : World V CleanInfoSummary}
    (hids : (w.db.placeInfos.map (·.placeId)).Nodup) (h : (cleanExistingPlaceInfo out false batchSize w).1 = .ok ()) :
    (cleanExistingPlaceInfo out false batchSize w).2.db =
      {w.db with placeInfos := w.db.placeInfos.map fun info => (cleanRow info).1} := by
  cases hfault : out.fault w.transactions with
  | some fault =>
    obtain ⟨e, w', hrun, -⟩ := query_fault (S := CleanInfoSummary) hfault
    unfold cleanExistingPlaceInfo at h
    rw [bind_run, hrun] at h
    cases h
  | none =>
    rw [cleanExistingPlaceInfo_run hfault, if_neg Bool.false_ne_true] at h ⊢
    cases hbatches : batchesOf batchSize (rowsToUpdate w.db.placeInfos) with
    | error e =>
      rw [hbatches] at h
      cases h
    | ok batches =>
      rw [hbatches] at h
      have hrun := forEach_bulkUpdateTexts h
      rw [flatten_batchesOf hsize hbatches, rowsToUpdate_eq] at hrun
      apply hrun.trans
      have hkept : ∀ info ∈ w.db.placeInfos.filter fun info => 0 < (cleanRow info).2, info ∈ w.db.placeInfos :=
        fun info hinfo => (List.mem_filter.mp hinfo).1
      have hclean := foldl_saveTexts hids (fun _ => false) hkept
      have hnone : w.db.cleanedWhere (fun _ => false) = w.db := by simp [Db.cleanedWhere]
      rw [hnone] at hclean
      apply hclean.trans
      unfold Db.cleanedWhere
      congr 1
      refine List.map_congr_left fun info hinfo => ?_
      split
      · rfl
      · rename_i hkept
        refine (cleanRow_of_zero (Nat.eq_zero_of_not_pos fun hpos => hkept ?_)).symm
        exact List.any_eq_true.mpr ⟨info, List.mem_filter.mpr ⟨hinfo, decide_eq_true hpos⟩, beq_self_eq_true _⟩

/-! ### The second run -/

/-- Whatever happens to it, a run over this store changes no row and counts none. -/
def ChangesNoRow (d : Db V) : Prop :=
  ∀ (out : Outside) (dryRun : Bool) (batchSize : Int) (w : World V CleanInfoSummary), w.db = d →
    (cleanExistingPlaceInfo out dryRun batchSize w).2.db = d ∧
      (cleanExistingPlaceInfo out dryRun batchSize w).2.summary.changedRows = w.summary.changedRows

theorem rowsToUpdate_eq_nil {infos : List PlaceInfo} : rowsToUpdate infos = [] ↔ ∀ info ∈ infos, (cleanRow info).2 = 0 := by
  rw [rowsToUpdate_eq, List.map_eq_nil_iff, List.filter_eq_nil_iff]
  simp

theorem batchesOf_nil {α : Type} (size : Int) : batchesOf size ([] : List α) = .ok [] ∨ ∃ e, batchesOf size ([] : List α) = .error e := by
  unfold batchesOf
  split
  · exact .inr ⟨_, rfl⟩
  · refine .inl ?_
    have hcount : (([] : List α).length + size.toNat - 1) / size.toNat = 0 := by
      rw [List.length_nil, Nat.zero_add]
      rcases Nat.eq_zero_or_pos size.toNat with hzero | hpos
      · rw [hzero]
      · exact Nat.div_eq_of_lt (Nat.sub_lt hpos Nat.one_pos)
    rw [hcount]
    rfl

theorem changesNoRow_iff (d : Db V) : ChangesNoRow d ↔ ∀ info ∈ d.placeInfos, (cleanRow info).2 = 0 := by
  rw [← rowsToUpdate_eq_nil]
  constructor
  · intro h
    have hcount := (h silent true 500 {db := d, seq := 0, summary := {}} rfl).2
    rw [cleanExistingPlaceInfo_run rfl] at hcount
    have hlength : 0 + (rowsToUpdate d.placeInfos).length = 0 := hcount
    exact List.length_eq_zero_iff.mp (by omega)
  · intro h out dryRun batchSize w hw
    subst hw
    cases hfault : out.fault w.transactions with
    | some fault =>
      obtain ⟨e, w', hrun, hdb, -⟩ := query_fault (S := CleanInfoSummary) hfault
      have hsummary : w'.summary = w.summary := by
        rw [← show (Collect.query out w).2 = w' from congrArg Prod.snd hrun]
        rfl
      unfold cleanExistingPlaceInfo
      rw [bind_run, hrun]
      exact ⟨hdb, congrArg CleanInfoSummary.changedRows hsummary⟩
    | none =>
      have hcount : (w.summary.counted (w.db.placeInfos.map cleanRow)).changedRows = w.summary.changedRows := by
        show w.summary.changedRows + (rowsToUpdate w.db.placeInfos).length = _
        rw [h]
        rfl
      rw [cleanExistingPlaceInfo_run hfault, h]
      cases dryRun with
      | true => exact ⟨rfl, hcount⟩
      | false =>
        rcases batchesOf_nil (α := PlaceInfo) batchSize with hbatches | ⟨e, hbatches⟩
        · rw [hbatches]
          exact ⟨rfl, hcount⟩
        · rw [hbatches]
          exact ⟨rfl, hcount⟩

/-- **Cleaning is a normal form for exactly the texts that hide no break tag**, and a second run
over a cleaned store changes no row exactly when no text of the store does. -/
theorem clean_normal_form_iff :
    cleanInfoText .null = none ∧ (∀ text, NormalForm text ↔ ¬ BreaksAgain text) ∧
      ∀ (out : Outside) (batchSize : Int) (w : World V CleanInfoSummary), 0 < batchSize →
        (w.db.placeInfos.map (·.placeId)).Nodup → (cleanExistingPlaceInfo out false batchSize w).1 = .ok () →
        (ChangesNoRow (cleanExistingPlaceInfo out false batchSize w).2.db ↔
          ∀ info ∈ w.db.placeInfos, ¬ info.BreaksAgain) := by
  refine ⟨rfl, normalForm_iff, fun out batchSize w hsize hids hok => ?_⟩
  rw [changesNoRow_iff, cleanExistingPlaceInfo_ok hsize hids hok]
  simp only [List.forall_mem_map, cleanRow_cleanRow]

/-- A store with one row for each text of operating hours. -/
def hoursStore (texts : List String) : World Unit CleanInfoSummary where
  db := {placeInfos := texts.mapIdx fun id text => {placeId := id, operatingHours := some text}}
  seq := 0
  summary := {}

/-- Two rows in batches of one, and then once more: only the break that opens inside another is found again. -/
theorem clean_normal_form_iff_hoursStore :
    (cleanExistingPlaceInfo silent false 1 (hoursStore ["a<br>b", "<<br>br"])).1 = .ok () ∧
      ¬ ChangesNoRow (cleanExistingPlaceInfo silent false 1 (hoursStore ["a<br>b", "<<br>br"])).2.db ∧
      ChangesNoRow (cleanExistingPlaceInfo silent false 1 (hoursStore ["a<br>b", "c <b>d</b>"])).2.db := by
  have hruns := (clean_normal_form_iff (V := Unit)).2.2 silent 1
  refine ⟨by decide +kernel, fun h => ?_, ?_⟩
  · have hkept := (hruns _ (by decide) (by decide) (by decide +kernel)).mp h
    simp only [← cleanRow_cleanRow] at hkept
    exact absurd hkept (by decide +kernel)
  · refine (hruns _ (by decide) (by decide) (by decide +kernel)).mpr ?_
    simp only [← cleanRow_cleanRow]
    decide +kernel

/-- A break tag that opens inside another. -/
theorem clean_not_normal_form : ¬ ∀ text, NormalForm text := by
  intro h
  have hbreaks : brRe.search ['<', '\n', 'b', 'r'] ≠ none := by decide +kernel
  have hclean : cleanInfoText (.str "<<br>br") = some "<\nbr" := by decide +kernel
  exact hbreaks (h "<<br>br" "<\nbr" hclean).2.1

end TravelMaker
