import Mathlib.Algebra.GroupWithZero.Nat
import TravelMaker.Lib.Replace
import TravelMaker.Place.Process

/-! Clean-up of the texts of `PlaceInfo`: `clean_existing_place_info`.

A text that is clean has no tag left to remove, and a clean-up of it keeps the word for
free admission (`contains_clean`). So the facilities of a place stay as they are. -/
namespace TravelMaker
open Lib (Txn Regex)
open Lib.Text (isSpace strip contains contains_iff)

variable {V : Type}

/-! ### Clean-up -/

structure CleanInfoSummary where
  scanned : Nat := 0
  changedRows : Nat := 0
  changedFields : Nat := 0
deriving DecidableEq, Repr

/-- `PLACE_INFO_TEXT_FIELDS`. -/
def placeInfoTextFields : List InfoText := [.operatingHours, .closedDays, .admissionFee, .spendTime, .discountInfo, .accomCount]

/-- `getattr(info, field)`. -/
def PlaceInfo.text (info : PlaceInfo) : InfoText → Option String
  | .operatingHours => info.operatingHours
  | .closedDays => info.closedDays
  | .admissionFee => info.admissionFee
  | .spendTime => info.spendTime
  | .discountInfo => info.discountInfo
  | .accomCount => info.accomCount

/-- `_clean_info_text` of a column. -/
def cleanColumn (current : Option String) : Option String := cleanInfoText (current.elim .null .str)

/-- The row with its texts cleaned, and how many of them changed. -/
def cleanRow (info : PlaceInfo) : PlaceInfo × Nat :=
  placeInfoTextFields.foldl (fun (info, changed) field =>
    let cleaned := cleanColumn (info.text field)
    if cleaned ≠ info.text field then (info.set (.text field cleaned), changed + 1) else (info, changed)) (info, 0)

/-- The row with the texts of another one. -/
def PlaceInfo.withTexts (info row : PlaceInfo) : PlaceInfo :=
  placeInfoTextFields.foldl (fun info field => info.set (.text field (row.text field))) info

/-- `UPDATE place_info` of the texts of a row. -/
def Db.saveTexts (row : PlaceInfo) (d : Db V) : Db V :=
  {d with placeInfos := d.placeInfos.map fun info => if info.placeId = row.placeId then info.withTexts row else info}

/-- `PlaceInfo.objects.bulk_update`; its one statement is made of one for each row. -/
def bulkUpdateTexts : List PlaceInfo → Service V Unit
  | [] => return ()
  | row :: rest => do
    let _ ← Txn.put (.placeInfo row.placeId) (Db.saveTexts row)
    bulkUpdateTexts rest

/-- `rows[start : start + size]` for `start` in `range(0, len(rows), size)`. -/
def batchesOf {α : Type} (size : Int) (rows : List α) : Except Exc (List (List α)) :=
  if size = 0 then .error (.valueError "range() arg 3 must not be zero")
  else .ok ((List.range ((rows.length + size.toNat - 1) / size.toNat)).map fun i => (rows.drop (i * size.toNat)).take size.toNat)

/-- What is made of the rows, once they are read. -/
def saveCleaned (out : Outside) (dryRun : Bool) (batchSize : Int) (rows : List (PlaceInfo × Nat)) :
    Collect V CleanInfoSummary Unit := do
  let toUpdate := (rows.filter fun (_, changed) => 0 < changed).map (·.1)
  Collect.tally fun s => {s with
    scanned := s.scanned + rows.length
    changedRows := s.changedRows + toUpdate.length
    changedFields := s.changedFields + (rows.map (·.2)).sum }
  if !dryRun then
    let batches ← Collect.ofExcept (batchesOf batchSize toUpdate)
    batches |> Collect.forEach fun batch => Collect.atomic out (bulkUpdateTexts batch)

def cleanExistingPlaceInfo (out : Outside) (dryRun : Bool) (batchSize : Int) : Collect V CleanInfoSummary Unit := do
  let d ← Collect.query out
  saveCleaned out dryRun batchSize (d.placeInfos.map cleanRow)

/-! ### Tags -/

theorem isSpace_of_isBlank {c : Char} (h : isBlank c = true) : isSpace c = true := by
  rcases (Bool.or_eq_true _ _).mp h with h | h
  · rw [beq_iff_eq.mp h]
    decide
  · rw [beq_iff_eq.mp h]
    decide

/-- Each `<` has its `>` right behind it, or none: there is nothing for `_TAG_RE`. -/
def Untagged : List Char → Prop
  | [] => True
  | c :: rest => (c = '<' → rest.head? = some '>' ∨ '>' ∉ rest) ∧ Untagged rest

theorem Untagged.suffix {s t : List Char} (h : Untagged t) (hsuffix : s <:+ t) : Untagged s := by
  induction t with
  | nil =>
    rw [List.suffix_nil.mp hsuffix]
    trivial
  | cons c rest ih =>
    rcases List.suffix_cons_iff.mp hsuffix with rfl | hsuffix
    · exact h
    · exact ih h.2 hsuffix

theorem Untagged.initial {s t : List Char} (h : Untagged t) (hstarts : s <+: t) : Untagged s := by
  induction s generalizing t with
  | nil => trivial
  | cons c s ih =>
    obtain ⟨rest, rfl, hrest⟩ := List.cons_prefix_iff.mp hstarts
    refine ⟨fun hc => ?_, ih h.2 hrest⟩
    rcases h.1 hc with hhead | hnone
    · cases s with
      | nil => exact .inr List.not_mem_nil
      | cons d s =>
        obtain ⟨rest', rfl, -⟩ := List.cons_prefix_iff.mp hrest
        exact .inl hhead
    · exact .inr fun hmem => hnone (hrest.subset hmem)

theorem ends_one (class_ : Char → Bool) (p : Regex.Pos) :
    (Regex.one class_).ends p = if p.rest.head?.any class_ then [p.skip 1] else [] := by
  unfold Regex.one Regex.ends Regex.run
  cases hrest : p.rest with
  | nil => rfl
  | cons c rest =>
    cases hc : class_ c with
    | false => simp [hc]
    | true => simp [hc]

/-- Behind a `<`, the expression needs a `>` that does not follow at once. -/
theorem exists_closes (p : Regex.Pos) : (∃ q ∈ (Regex.rep (· != '>') 1 none).ends p, q.rest.head? = some '>') ↔
    p.rest.head? ≠ some '>' ∧ '>' ∈ p.rest := by
  constructor
  · intro h
    obtain ⟨q, hq, hhead⟩ := h
    obtain ⟨i, hi, rfl⟩ := List.mem_map.mp hq
    have hn : i < (p.rest.takeWhile (· != '>')).length + 1 - 1 := List.mem_range.mp hi
    have hmem : '>' ∈ p.rest.drop (Regex.run (· != '>') none p.rest - i) := List.mem_of_mem_head? hhead
    refine ⟨fun hfirst => ?_, List.mem_of_mem_drop hmem⟩
    obtain ⟨tail, htail⟩ := List.head?_eq_some_iff.mp hfirst
    rw [htail] at hn
    exact absurd hn (Nat.not_lt_zero _)
  · intro h
    obtain ⟨hfirst, hmem⟩ := h
    have hpositive : 0 < (p.rest.takeWhile (· != '>')).length := by
      cases hrest : p.rest with
      | nil =>
        rw [hrest] at hmem
        cases hmem
      | cons d tail =>
        have hd : (d != '>') = true := by
          rw [hrest] at hfirst
          simpa using hfirst
        rw [List.takeWhile_cons, if_pos hd]
        exact Nat.succ_pos _
    refine ⟨p.skip (p.rest.takeWhile (· != '>')).length, List.mem_map.mpr ⟨0, List.mem_range.mpr hpositive, rfl⟩, ?_⟩
    show (p.rest.drop (p.rest.takeWhile (· != '>')).length).head? = some '>'
    have hdrop : p.rest.drop (p.rest.takeWhile (· != '>')).length = p.rest.dropWhile (· != '>') :=
      (congrArg (List.drop _) List.takeWhile_append_dropWhile.symm).trans List.drop_left
    rw [hdrop]
    have hnot := List.head?_dropWhile_not (· != '>') p.rest
    cases hrest : p.rest.dropWhile (· != '>') with
    | nil => exact absurd (List.dropWhile_eq_nil_iff.mp hrest _ hmem) (by decide)
    | cons d tail =>
      rw [hrest] at hnot
      exact congrArg some (by simpa using hnot)

/-- Where `_TAG_RE` matches. -/
theorem tagRe_matchAt (before : Option Char) (c : Char) (rest : List Char) :
    tagRe.matchAt before (c :: rest) = none ↔ (c = '<' → rest.head? = some '>' ∨ '>' ∉ rest) := by
  have hopen : ∀ p : Regex.Pos, p.rest = rest → (((Regex.rep (· != '>') 1 none).seq (.one (· == '>'))).ends p = [] ↔
      rest.head? = some '>' ∨ '>' ∉ rest) := by
    intro p heq
    subst heq
    have hcloses := not_congr (exists_closes p)
    rw [not_and_or, not_not] at hcloses
    rw [← hcloses]
    show List.flatMap _ _ = [] ↔ _
    rw [List.flatMap_eq_nil_iff, not_exists]
    refine forall_congr' fun q => ?_
    rw [not_and]
    refine forall_congr' fun _ => ?_
    rw [ends_one]
    cases q.rest.head? with
    | none => simp
    | some d => simp
  unfold Regex.matchAt
  rw [Option.map_eq_none_iff, List.head?_eq_none_iff]
  show List.flatMap _ _ = [] ↔ _
  rw [ends_one]
  by_cases hc : c = '<'
  · subst hc
    rw [if_pos (by rfl), List.flatMap_singleton]
    exact (hopen _ rfl).trans ⟨fun h _ => h, fun h => h rfl⟩
  · rw [if_neg (by simpa using hc)]
    exact iff_of_true rfl fun h => absurd h hc

theorem tagRe_startsWith : tagRe.StartsWith (· == '<') := (Regex.startsWith_rep Nat.one_pos fun _ hc => hc).seq

/-- `_TAG_RE.sub` leaves no tag. -/
theorem untagged_tagRe (s : List Char) : Untagged (tagRe.sub [] s) := by
  refine (Regex.sub_induction (P := fun s out => (∀ c ∈ out, c ∈ s) ∧ (s.head? = some '>' → out.head? = some '>') ∧ Untagged out)
    tagRe_startsWith (Regex.within_true tagRe) ?_ ?_ ?_ s).2.2
  · exact ⟨fun _ hc => hc, fun h => h, trivial⟩
  · intro before c rest out hnone ⟨hmem, hhead, hout⟩
    refine ⟨?_, fun h => h, fun hc => ?_, hout⟩
    · intro d hd
      exact (List.mem_cons.mp hd).elim (fun h => h ▸ List.mem_cons_self) fun hd => List.mem_cons_of_mem _ (hmem d hd)
    · exact ((tagRe_matchAt before c rest).mp hnone hc).imp hhead fun hnot hin => hnot (hmem _ hin)
  · intro _ _ c text rest out _ hc _ ⟨hmem, _, hout⟩
    refine ⟨fun d hd => List.mem_append_right _ (hmem d hd), fun hhead => ?_, hout⟩
    have hgt : c = '>' := Option.some.inj hhead
    subst hgt
    cases hc

/-- Where there is no tag, `_TAG_RE.sub` changes nothing. -/
theorem tagRe_untagged {s : List Char} (h : Untagged s) : tagRe.sub [] s = s := by
  refine Regex.sub_eq_self tagRe_startsWith fun before c rest hsuffix => ?_
  exact (tagRe_matchAt before c rest).mpr (h.suffix hsuffix).1

/-- A replacement that puts in no bracket and begins at no `>` makes no tag. -/
theorem Untagged.sub {r : Regex} {start : Char → Bool} {s : List Char} (h : Untagged s) (hstart : r.StartsWith start)
    (hgt : start '>' = false) {new : List Char} (hnew : ∀ c ∈ new, c ≠ '<' ∧ c ≠ '>') :
    Untagged (r.sub new s) := by
  have happend : ∀ {out : List Char}, Untagged out → ∀ new : List Char, (∀ c ∈ new, c ≠ '<' ∧ c ≠ '>') →
      Untagged (new ++ out) := by
    intro out hout new hnew
    induction new with
    | nil => exact hout
    | cons c new ih =>
      exact ⟨fun hc => absurd hc (hnew c List.mem_cons_self).1, ih fun d hd => hnew d (List.mem_cons_of_mem _ hd)⟩
  refine (Regex.sub_induction (P := fun s out => Untagged s → ('>' ∈ out → '>' ∈ s) ∧ (s.head? = some '>' → out.head? = some '>') ∧
    Untagged out) hstart (Regex.within_true r) ?_ ?_ ?_ s h).2.2
  · exact fun _ => ⟨fun hc => hc, fun h => h, trivial⟩
  · intro before c rest out _ ih hs
    obtain ⟨hmem, hhead, hout⟩ := ih hs.2
    refine ⟨fun hin => ?_, fun h => h, fun hc => ?_, hout⟩
    · exact (List.mem_cons.mp hin).elim (fun h => h ▸ List.mem_cons_self) fun hin => List.mem_cons_of_mem _ (hmem hin)
    · exact (hs.1 hc).imp hhead fun hnot hin => hnot (hmem hin)
  · intro _ _ c text rest out _ hc _ ih hs
    obtain ⟨hmem, -, hout⟩ := ih (hs.suffix (List.suffix_append _ _))
    refine ⟨fun hin => ?_, fun hhead => ?_, happend hout new hnew⟩
    · exact List.mem_append_right _ (hmem ((List.mem_append.mp hin).resolve_left fun hin => (hnew _ hin).2 rfl))
    · have hc' : c = '>' := Option.some.inj hhead
      rw [hc', hgt] at hc
      cases hc

theorem brRe_startsWith : brRe.StartsWith (· == '<') := (Regex.startsWith_rep Nat.one_pos fun _ hc => hc).seq

theorem wsLineRe_startsWith : wsLineRe.StartsWith isSpace := by
  have hnewline : (Regex.one (· == '\n')).StartsWith isSpace := by
    refine Regex.startsWith_rep Nat.one_pos fun c hc => ?_
    rw [beq_iff_eq.mp hc]
    decide
  exact hnewline.seq.rep_seq fun c hc => isSpace_of_isBlank hc

theorem multispaceRe_startsWith : multispaceRe.StartsWith isSpace :=
  Regex.startsWith_rep (by decide) fun c hc => isSpace_of_isBlank hc

theorem toList_strip (s : String) : (strip s).toList = Lib.Text.stripWith isSpace s.toList := by
  unfold Lib.Text.strip
  rw [String.toList_ofList]

/-- `_clean_info_text` of a text that is stripped, before `or None`. -/
def cleanChars (s : List Char) : List Char :=
  Lib.Text.stripWith isSpace (multispaceRe.sub [' '] (wsLineRe.sub ['\n'] (tagRe.sub [] (brRe.sub ['\n'] s))))

theorem cleanInfoString_eq (text : String) : cleanInfoString text = orNone (.ofList (cleanChars text.toList)) := by
  unfold cleanInfoString strip
  dsimp only
  rw [String.toList_ofList]
  rfl

theorem untagged_cleanChars (s : List Char) : Untagged (cleanChars s) := by
  have hlines : Untagged (wsLineRe.sub ['\n'] (tagRe.sub [] (brRe.sub ['\n'] s))) :=
    (untagged_tagRe _).sub wsLineRe_startsWith (by decide) (List.forall_mem_singleton.mpr (by decide))
  have hspaces : Untagged (multispaceRe.sub [' '] (wsLineRe.sub ['\n'] (tagRe.sub [] (brRe.sub ['\n'] s)))) :=
    hlines.sub multispaceRe_startsWith (by decide) (List.forall_mem_singleton.mpr (by decide))
  exact (hspaces.suffix (List.dropWhile_suffix isSpace)).initial (List.rdropWhile_prefix isSpace _)

/-- A clean text has no tag. -/
theorem untagged_clean {value : Scalar} {text : String} (h : cleanInfoText value = some text) : Untagged text.toList := by
  obtain ⟨raw, -, h⟩ := Option.bind_eq_some_iff.mp h
  rw [cleanInfoString_eq, orNone] at h
  split at h
  · cases h
  · obtain rfl := Option.some.inj h
    rw [String.toList_ofList]
    exact untagged_cleanChars raw.toList

/-! ### The word for free admission -/

/-- Neither character of the word. -/
def notFree (c : Char) : Bool := c != '무' && c != '료'

theorem notFree_of (class_ : Char → Bool) (hfirst : class_ '무' = false) (hsecond : class_ '료' = false) (c : Char)
    (hc : class_ c = true) : notFree c = true := by
  unfold notFree
  rw [Bool.and_eq_true, bne_iff_ne, bne_iff_ne]
  refine ⟨?_, ?_⟩
  · intro heq
    subst heq
    rw [hfirst] at hc
    cases hc
  · intro heq
    subst heq
    rw [hsecond] at hc
    cases hc

theorem within_notFree (class_ : Char → Bool) (least : Nat) (most : Option Nat) (hfirst : class_ '무' = false)
    (hsecond : class_ '료' = false) : (Regex.rep class_ least most).Within notFree :=
  Regex.within_rep (notFree_of class_ hfirst hsecond)

theorem brRe_within : brRe.Within notFree := by
  have hspaces : (Regex.rep isSpace 0 none).Within notFree := within_notFree _ _ _ (by decide) (by decide)
  have hslash : (Regex.rep (· == '/') 0 (some 1)).Within notFree := within_notFree _ _ _ (by decide) (by decide)
  have htext : ∀ t : String, t.toList.all (fun c => !('무' == c || (true && '무'.toLower == c)) &&
      !('료' == c || (true && '료'.toLower == c))) = true → (Regex.text t true).Within notFree := by
    intro t ht
    refine Regex.within_text fun c hc => notFree_of (fun x => x == c || (true && x.toLower == c)) ?_ ?_
    · exact Bool.not_eq_true' _ ▸ ((Bool.and_eq_true _ _).mp (List.all_eq_true.mp ht c hc)).1
    · exact Bool.not_eq_true' _ ▸ ((Bool.and_eq_true _ _).mp (List.all_eq_true.mp ht c hc)).2
  exact (within_notFree _ _ _ (by decide) (by decide)).seq (hspaces.seq (hslash.seq (hspaces.seq
    ((Regex.Within.alt (htext "br" (by decide)) (htext "vr" (by decide))).seq
      (Regex.within_ahead.seq (hspaces.seq (hslash.seq (hspaces.seq
        (within_notFree _ _ _ (by decide) (by decide))))))))))

theorem wsLineRe_within : wsLineRe.Within notFree :=
  (within_notFree _ _ _ (by decide) (by decide)).seq ((within_notFree _ _ _ (by decide) (by decide)).seq
    (within_notFree _ _ _ (by decide) (by decide)))

theorem multispaceRe_within : multispaceRe.Within notFree := within_notFree _ _ _ (by decide) (by decide)

theorem forall_mem_free {P : Char → Prop} (hfirst : P '무') (hsecond : P '료') : ∀ c ∈ ['무', '료'], P c :=
  List.forall_mem_cons.mpr ⟨hfirst, List.forall_mem_singleton.mpr hsecond⟩

/-- The replacements other than of tags leave the word where it is. -/
theorem free_sub_iff (s : List Char) : ['무', '료'] <:+: multispaceRe.sub [' '] (wsLineRe.sub ['\n'] (brRe.sub ['\n'] s)) ↔
    ['무', '료'] <:+: s := by
  have hword : ∀ c ∈ ['무', '료'], notFree c = false := forall_mem_free (by decide) (by decide)
  have hnewline : ∀ c ∈ ['무', '료'], c ∉ ['\n'] := forall_mem_free (by decide) (by decide)
  have hblank : ∀ c ∈ ['무', '료'], c ∉ [' '] := forall_mem_free (by decide) (by decide)
  have hbr := Regex.infix_sub brRe_startsWith brRe_within (by decide) hword hnewline s
  have hlines := Regex.infix_sub wsLineRe_startsWith wsLineRe_within (by decide) hword hnewline (brRe.sub ['\n'] s)
  have hspaces := Regex.infix_sub multispaceRe_startsWith multispaceRe_within (by decide) hword hblank
    (wsLineRe.sub ['\n'] (brRe.sub ['\n'] s))
  exact hspaces.trans (hlines.trans hbr)

theorem contains_free {s : String} : contains s "무료" = true ↔ ['무', '료'] <:+: s.toList := contains_iff

theorem contains_free_strip (s : String) : contains (strip s) "무료" = contains s "무료" := by
  have hspace : ∀ c ∈ ['무', '료'], isSpace c = false := forall_mem_free (by decide) (by decide)
  rw [Bool.eq_iff_iff, contains_free, contains_free, toList_strip, Lib.Text.infix_stripWith hspace]

theorem contains_free_orNone (s : String) : (orNone s).any (contains · "무료") = contains s "무료" := by
  have hempty : contains "" "무료" = false := by decide
  unfold orNone
  split
  · rename_i hs
    rw [hs, hempty]
    rfl
  · rfl

theorem contains_free_cleanInfoString {s : String} (hs : Untagged s.toList) :
    (cleanInfoString s).any (contains · "무료") = contains s "무료" := by
  have hbr : Untagged (brRe.sub ['\n'] s.toList) :=
    hs.sub brRe_startsWith (by decide) (List.forall_mem_singleton.mpr (by decide))
  have huntagged : multispaceRe.sub [' '] (wsLineRe.sub ['\n'] (tagRe.sub [] (brRe.sub ['\n'] s.toList))) =
      multispaceRe.sub [' '] (wsLineRe.sub ['\n'] (brRe.sub ['\n'] s.toList)) :=
    congrArg (fun t => multispaceRe.sub [' '] (wsLineRe.sub ['\n'] t)) (tagRe_untagged hbr)
  unfold cleanInfoString
  dsimp only
  rw [contains_free_orNone, contains_free_strip, huntagged, Bool.eq_iff_iff, contains_free, contains_free,
    String.toList_ofList]
  exact free_sub_iff s.toList

/-- The word for free admission is in a clean text if and only if it is there after another clean-up. -/
theorem contains_clean {text : String} (h : Untagged text.toList) :
    (cleanInfoText (.str text)).any (contains · "무료") = contains text "무료" := by
  obtain ⟨stripped, hstripped, huntagged⟩ : ∃ stripped, strip text = stripped ∧ Untagged stripped.toList := by
    refine ⟨strip text, rfl, ?_⟩
    rw [toList_strip]
    exact (h.suffix (List.dropWhile_suffix isSpace)).initial (List.rdropWhile_prefix isSpace _)
  show ((orNone (strip text)).bind cleanInfoString).any _ = _
  rw [← contains_free_strip text, hstripped, ← contains_free_orNone stripped]
  cases hraw : orNone stripped with
  | none => rfl
  | some raw =>
    obtain rfl : stripped = raw := by
      unfold orNone at hraw
      split at hraw
      · cases hraw
      · exact Option.some.inj hraw
    rw [Option.bind_some, contains_free_cleanInfoString huntagged, Option.any_some]

/-! ### Rows -/

namespace PlaceInfo

theorem set_text_self (info : PlaceInfo) (field : InfoText) : info.set (.text field (info.text field)) = info := by
  cases field <;> rfl

theorem cleanRow_eq (info : PlaceInfo) : (cleanRow info).1 = {info with
    operatingHours := cleanColumn info.operatingHours
    closedDays := cleanColumn info.closedDays
    admissionFee := cleanColumn info.admissionFee
    spendTime := cleanColumn info.spendTime
    discountInfo := cleanColumn info.discountInfo
    accomCount := cleanColumn info.accomCount } := by
  have hfold : ∀ (fields : List InfoText) (start : PlaceInfo × Nat),
      (fields.foldl (fun (info, changed) field =>
        let cleaned := cleanColumn (info.text field)
        if cleaned ≠ info.text field then (info.set (.text field cleaned), changed + 1) else (info, changed)) start).1 =
        fields.foldl (fun info field => info.set (.text field (cleanColumn (info.text field)))) start.1 := by
    intro fields
    induction fields with
    | nil => exact fun _ => rfl
    | cons field rest ih =>
      intro start
      rw [List.foldl_cons, List.foldl_cons, ih]
      dsimp only
      split
      · rfl
      · rename_i hsame
        rw [not_not.mp hsame, set_text_self]
  exact hfold placeInfoTextFields (info, 0)

theorem withTexts_eq (info row : PlaceInfo) : info.withTexts row = {info with
    operatingHours := row.operatingHours
    closedDays := row.closedDays
    admissionFee := row.admissionFee
    spendTime := row.spendTime
    discountInfo := row.discountInfo
    accomCount := row.accomCount } := rfl

/-- A row takes its cleaned texts, once or again. -/
theorem withTexts_cleanRow (info : PlaceInfo) (cleaned : Bool) :
    (if cleaned then (cleanRow info).1 else info).withTexts (cleanRow info).1 = (cleanRow info).1 := by
  rw [withTexts_eq, cleanRow_eq]
  cases cleaned <;> rfl

/-- The fee, if there is one, has no tag. -/
def CleanFee (info : PlaceInfo) : Prop := ∀ fee, info.admissionFee = some fee → Untagged fee.toList

theorem cleanFee_cleanRow (info : PlaceInfo) : (cleanRow info).1.CleanFee := by
  intro fee hfee
  rw [cleanRow_eq] at hfee
  exact untagged_clean hfee

/-- A row with a clean fee has the same facilities when it is cleaned. -/
theorem facilityTagNames_cleanRow {info : PlaceInfo} (h : info.CleanFee) :
    facilityTagNames (some (cleanRow info).1) = facilityTagNames (some info) := by
  have hfee : (cleanColumn info.admissionFee).any (contains · "무료") = info.admissionFee.any (contains · "무료") := by
    cases hcolumn : info.admissionFee with
    | none => rfl
    | some fee => exact contains_clean (h fee hcolumn)
  rw [cleanRow_eq]
  unfold facilityTagNames
  dsimp only
  rw [hfee]
  rfl

end PlaceInfo

/-! ### Runs -/

/-- Some rows are cleaned, and nothing else is changed. -/
def CleanedFrom (d₀ d : Db V) : Prop := ∃ which : Int → Bool,
  d = {d₀ with placeInfos := d₀.placeInfos.map fun info => if which info.placeId then (cleanRow info).1 else info}

theorem CleanedFrom.refl (d : Db V) : CleanedFrom d d := by
  refine ⟨fun _ => false, ?_⟩
  simp

theorem cleanRow_placeId (info : PlaceInfo) : (cleanRow info).1.placeId = info.placeId := by
  rw [PlaceInfo.cleanRow_eq]

/-- The store with some rows cleaned. -/
def Db.cleanedWhere (which : Int → Bool) (d : Db V) : Db V :=
  {d with placeInfos := d.placeInfos.map fun info => if which info.placeId then (cleanRow info).1 else info}

theorem saveTexts_cleanedWhere {d₀ : Db V} (hids : (d₀.placeInfos.map (·.placeId)).Nodup) (which : Int → Bool)
    {info : PlaceInfo} (hinfo : info ∈ d₀.placeInfos) :
    (d₀.cleanedWhere which).saveTexts (cleanRow info).1 = d₀.cleanedWhere fun id => which id || id == info.placeId := by
  unfold Db.saveTexts Db.cleanedWhere
  dsimp only
  rw [List.map_map]
  congr 1
  refine List.map_congr_left fun other hother => ?_
  rw [Function.comp_apply, cleanRow_placeId]
  have hkept : (if which other.placeId then (cleanRow other).1 else other).placeId = other.placeId := by
    split
    · exact cleanRow_placeId other
    · rfl
  rw [hkept]
  by_cases hid : other.placeId = info.placeId
  · obtain rfl : other = info := List.inj_on_of_nodup_map hids hother hinfo hid
    have hwhich : (which other.placeId || other.placeId == other.placeId) = true := by
      rw [beq_self_eq_true, Bool.or_true]
    rw [if_pos rfl]
    exact (PlaceInfo.withTexts_cleanRow other (which other.placeId)).trans (if_pos hwhich).symm
  · rw [if_neg hid]
    simp only [beq_eq_false_iff_ne.mpr hid, Bool.or_false]

theorem CleanedFrom.saveTexts {d₀ d : Db V} (hids : (d₀.placeInfos.map (·.placeId)).Nodup) (h : CleanedFrom d₀ d)
    {info : PlaceInfo} (hinfo : info ∈ d₀.placeInfos) : CleanedFrom d₀ (d.saveTexts (cleanRow info).1) := by
  obtain ⟨which, rfl⟩ := h
  exact ⟨fun id => which id || id == info.placeId, saveTexts_cleanedWhere hids which hinfo⟩

theorem bulkUpdateTexts_eval (rows : List PlaceInfo) (d : Db V) (n : Nat) :
    (bulkUpdateTexts rows).eval d n = .ok ((), rows.foldl (fun d row => d.saveTexts row) d, n) := by
  induction rows generalizing d with
  | nil => rfl
  | cons row rest ih => exact ih (d.saveTexts row)

theorem atomic_bulkUpdateTexts (rows : List PlaceInfo) : (bulkUpdateTexts (V := V) rows).Atomic := by
  induction rows with
  | nil => trivial
  | cons row rest ih => exact fun _ => ih

theorem mem_batchesOf {α : Type} {size : Int} {rows batch : List α} {batches : List (List α)}
    (h : batchesOf size rows = .ok batches) (hbatch : batch ∈ batches) : ∀ a ∈ batch, a ∈ rows := by
  unfold batchesOf at h
  split at h
  · cases h
  · obtain rfl := Except.ok.inj h
    obtain ⟨i, -, rfl⟩ := List.mem_map.mp hbatch
    exact fun a ha => List.mem_of_mem_drop (List.mem_of_mem_take ha)

theorem saveCleaned_cleans (out : Outside) (dryRun : Bool) (batchSize : Int) {d₀ : Db V}
    (hids : (d₀.placeInfos.map (·.placeId)).Nodup) :
    Keeps (fun d _ => CleanedFrom d₀ d) (saveCleaned out dryRun batchSize (d₀.placeInfos.map cleanRow)) := by
  have hfold : ∀ batch : List PlaceInfo, (∀ row ∈ batch, ∃ info ∈ d₀.placeInfos, (cleanRow info).1 = row) →
      ∀ d, CleanedFrom d₀ d → CleanedFrom d₀ (batch.foldl (fun d row => d.saveTexts row) d) := by
    intro batch
    induction batch with
    | nil => exact fun _ d h => h
    | cons row rest ih =>
      intro hrows d h
      obtain ⟨info, hinfo, rfl⟩ := hrows row List.mem_cons_self
      exact ih (fun row hrow => hrows row (List.mem_cons_of_mem _ hrow)) _ (h.saveTexts hids hinfo)
  refine (keeps_tally _).bind fun _ => ?_
  cases dryRun with
  | true => exact keeps_pure ()
  | false =>
    cases hbatches : batchesOf batchSize (((d₀.placeInfos.map cleanRow).filter fun (_, changed) => 0 < changed).map (·.1)) with
    | error e => exact fun _ h => h
    | ok batches =>
      have hall : Keeps (fun d _ => CleanedFrom d₀ d)
          (batches |> Collect.forEach fun batch => Collect.atomic out (bulkUpdateTexts batch) : Collect V CleanInfoSummary Unit) := by
        refine Keeps.forEach fun batch hbatch => keeps_atomic (fun _ _ _ _ h => h) (atomic_bulkUpdateTexts batch) ?_
        intro d n r h heval
        rw [bulkUpdateTexts_eval] at heval
        obtain rfl := Except.ok.inj heval
        refine hfold batch (fun row hrow => ?_) d h
        obtain ⟨⟨cleaned, changed⟩, hmem, rfl⟩ := List.mem_map.mp (mem_batchesOf hbatches hbatch row hrow)
        obtain ⟨info, hinfo, hcleaned⟩ := List.mem_map.mp (List.mem_filter.mp hmem).1
        exact ⟨info, hinfo, congrArg Prod.fst hcleaned⟩
      exact hall

/-- **A clean-up cleans rows**, and does nothing else. -/
theorem cleanExistingPlaceInfo_cleans (out : Outside) (dryRun : Bool) (batchSize : Int) (w : World V CleanInfoSummary)
    (hids : (w.db.placeInfos.map (·.placeId)).Nodup) :
    CleanedFrom w.db (cleanExistingPlaceInfo out dryRun batchSize w).2.db := by
  unfold cleanExistingPlaceInfo
  rw [bind_run]
  cases hfault : out.fault w.transactions with
  | some fault =>
    obtain ⟨e, w', hrun, hdb, -⟩ := query_fault (S := CleanInfoSummary) hfault
    rw [hrun]
    dsimp only
    rw [hdb]
    exact .refl w.db
  | none =>
    rw [query_ok hfault]
    exact saveCleaned_cleans out dryRun batchSize hids _ (.refl w.db)

end TravelMaker
