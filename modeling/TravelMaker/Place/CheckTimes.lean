import TravelMaker.Place.CleanTwice

/-! Texts as collection stores them, and the markup in them.

Every text goes through `_clean_info_text`, except the opening hours of a lodging: those are
put together from the raw times of check-in and check-out (`collected_clean_iff`). -/
namespace TravelMaker
open Lib (Regex)
open Lib.Text (isSpace)

/-- No break tag and no other tag. -/
def NoMarkup (text : String) : Prop := brRe.search text.toList = none ∧ tagRe.search text.toList = none

/-- The same, of the characters. -/
def Plain (s : List Char) : Prop := hasBreak (s.map some) = false ∧ Untagged s

theorem noMarkup_iff {text : String} : NoMarkup text ↔ Plain text.toList := and_congr (brRe_search _) tagRe_search

/-- A `<` that no `>` follows. -/
def OpenBracket : List Char → Prop
  | [] => False
  | c :: rest => c = '<' ∧ '>' ∉ rest ∨ OpenBracket rest

/-! ### Texts put together -/

theorem untagged_append {before s : List Char} (h : '<' ∉ before) : Untagged (before ++ s) ↔ Untagged s := by
  induction before with
  | nil => exact Iff.rfl
  | cons c before ih =>
    rw [List.mem_cons, not_or] at h
    rw [← ih h.2]
    exact and_iff_right fun heq => (h.1 heq.symm).elim

theorem hasBreak_append {before s : List Char} (h : '<' ∉ before) :
    hasBreak ((before ++ s).map some) = hasBreak (s.map some) := by
  induction before with
  | nil => rfl
  | cons c before ih =>
    rw [List.mem_cons, not_or] at h
    have hopen : (some c == some '<') = false := beq_false_of_ne fun heq => h.1 (Option.some.inj heq).symm
    rw [List.cons_append, List.map_cons, hasBreak, hopen, Bool.false_and, Bool.false_or, ih h.2]

/-- A text behind another one without brackets. -/
theorem plain_append {before s : List Char} (h : '<' ∉ before) : Plain (before ++ s) ↔ Plain s := by
  unfold Plain
  rw [hasBreak_append h, untagged_append h]

section
variable {gap : Option Char} {between : List (Option Char)} (hgap : isGap gap = true)
  (hbetween : ∀ slash after, opensBreak slash (gap :: between ++ after) = false)
include hgap hbetween

/-- What starts before the text between does not end behind it. -/
theorem opensBreak_between (slash : Bool) (before after : List (Option Char)) :
    opensBreak slash (before ++ (gap :: between ++ after)) = opensBreak slash before := by
  have hname : ∀ piece (before : List (Option Char)),
      breakName (piece :: (before ++ (gap :: between ++ after))) = breakName (piece :: before) := by
    intro piece before
    rcases before with _ | ⟨second, _ | ⟨third, before⟩⟩
    · simp [breakName, gap_not_r hgap]
    · simp [breakName, isBoundary, hgap]
    · rfl
  induction before generalizing slash with
  | nil => exact hbetween slash after
  | cons piece before ih => rw [List.cons_append, opensBreak, opensBreak, ih, ih, hname]

theorem hasBreak_between (before after : List (Option Char)) :
    hasBreak (before ++ (gap :: between ++ after)) = (hasBreak before || hasBreak (gap :: between ++ after)) := by
  induction before with
  | nil => rw [List.nil_append, hasBreak, Bool.false_or]
  | cons piece before ih =>
    rw [List.cons_append, hasBreak, hasBreak, ih, opensBreak_between hgap hbetween, Bool.or_assoc]

end

/-- Two texts around one without brackets. -/
theorem untagged_between {between after : List Char} (hlt : '<' ∉ between) (hgt : '>' ∉ between) (hne : between ≠ [])
    (before : List Char) : Untagged (before ++ (between ++ after)) ↔
      Untagged before ∧ Untagged after ∧ ¬ (OpenBracket before ∧ '>' ∈ after) := by
  induction before with
  | nil =>
    rw [List.nil_append, untagged_append hlt]
    simp [Untagged, OpenBracket]
  | cons c before ih =>
    have hhead : (before ++ (between ++ after)).head? = some '>' ↔ before.head? = some '>' := by
      cases before with
      | nil =>
        obtain ⟨d, between, rfl⟩ := List.exists_cons_of_ne_nil hne
        have hd : d ≠ '>' := fun heq => hgt (heq ▸ List.mem_cons_self)
        simp [hd]
      | cons d before => rfl
    have hmem : '>' ∈ before ++ (between ++ after) ↔ '>' ∈ before ∨ '>' ∈ after := by
      simp [hgt]
    have hin : before.head? = some '>' → '>' ∈ before := List.mem_of_mem_head?
    rw [List.cons_append, Untagged, Untagged, OpenBracket, ih, hhead, hmem]
    grind

/-! ### Check-in and check-out -/

def checkTimesBetween : List Char := " / 체크아웃 ".toList

/-- The raw times, stripped. -/
def checkin (item : Item) : Option String := blankToNone (item.get "checkintime")
def checkout (item : Item) : Option String := blankToNone (item.get "checkouttime")

/-- The raw times have no markup, and no tag begins in the first and ends in the second. -/
structure PlainTimes (item : Item) : Prop where
  arrival : ∀ text, checkin item = some text → NoMarkup text
  departure : ∀ text, checkout item = some text → NoMarkup text
  apart : ∀ first second, checkin item = some first → checkout item = some second →
    ¬ (OpenBracket first.toList ∧ '>' ∈ second.toList)

theorem plain_times {first second : List Char} : Plain (first ++ (checkTimesBetween ++ second)) ↔
    Plain first ∧ Plain second ∧ ¬ (OpenBracket first ∧ '>' ∈ second) := by
  have hopens : ∀ slash after, opensBreak slash (some ' ' :: ("/ 체크아웃 ".toList.map some) ++ after) = false := by
    intro slash after
    cases slash <;> rfl
  have hgap : isGap (some ' ') = true := by decide
  have hbreak := hasBreak_between hgap hopens (first.map some) (second.map some)
  have hsecond : hasBreak (some ' ' :: ("/ 체크아웃 ".toList.map some) ++ second.map some) = hasBreak (second.map some) := by
    have h : hasBreak ((checkTimesBetween ++ second).map some) = hasBreak (second.map some) := hasBreak_append (by decide)
    rw [List.map_append] at h
    exact h
  unfold Plain
  rw [untagged_between (by decide) (by decide) (by decide), List.map_append, List.map_append]
  have hall : hasBreak (first.map some ++ (checkTimesBetween.map some ++ second.map some)) =
      (hasBreak (first.map some) || hasBreak (second.map some)) := hbreak.trans (by rw [hsecond])
  rw [hall, Bool.or_eq_false_iff]
  tauto

theorem noMarkup_append {before text : String} (h : '<' ∉ before.toList) : NoMarkup (before ++ text) ↔ NoMarkup text := by
  rw [noMarkup_iff, noMarkup_iff, String.toList_append, plain_append h]

/-- Both times in one text. -/
theorem noMarkup_times (first second : String) : NoMarkup ("체크인 " ++ first ++ " / " ++ ("체크아웃 " ++ second)) ↔
    NoMarkup first ∧ NoMarkup second ∧ ¬ (OpenBracket first.toList ∧ '>' ∈ second.toList) := by
  simp only [noMarkup_iff, String.toList_append, List.append_assoc]
  rw [plain_append (by decide)]
  exact plain_times

theorem orNone_append {before text : String} (h : before.toList ≠ []) : orNone (before ++ text) = some (before ++ text) := by
  refine orNone_eq_some.mpr ⟨fun hempty => h ?_, rfl⟩
  have hchars := congrArg String.toList hempty
  rw [String.toList_append] at hchars
  exact (List.append_eq_nil_iff.mp hchars).1

/-- **The opening hours of a lodging have no markup where the times have none.** -/
theorem lodgingOperatingHours_noMarkup (item : Item) :
    (∀ text, lodgingOperatingHours item = some text → NoMarkup text) ↔ PlainTimes item := by
  have htimes : PlainTimes item ↔ (∀ text, checkin item = some text → NoMarkup text) ∧
      (∀ text, checkout item = some text → NoMarkup text) ∧ ∀ first second, checkin item = some first →
        checkout item = some second → ¬ (OpenBracket first.toList ∧ '>' ∈ second.toList) :=
    ⟨fun h => ⟨h.arrival, h.departure, h.apart⟩, fun h => ⟨h.1, h.2.1, h.2.2⟩⟩
  rw [htimes]
  unfold lodgingOperatingHours
  show (∀ text, orNone (" / ".intercalate ((((checkin item).map _).toList ++ ((checkout item).map _).toList))) = some text → _) ↔ _
  cases checkin item with
  | none =>
    cases checkout item with
    | none => simp [orNone]
    | some second =>
      have hours : orNone ("체크아웃 " ++ second) = some ("체크아웃 " ++ second) := orNone_append (by decide)
      have hplain : NoMarkup ("체크아웃 " ++ second) ↔ NoMarkup second := noMarkup_append (by decide)
      simp [hours, hplain]
  | some first =>
    cases checkout item with
    | none =>
      have hours : orNone ("체크인 " ++ first) = some ("체크인 " ++ first) := orNone_append (by decide)
      have hplain : NoMarkup ("체크인 " ++ first) ↔ NoMarkup first := noMarkup_append (by decide)
      simp [hours, hplain]
    | some second =>
      have hours : orNone ("체크인 " ++ first ++ " / " ++ ("체크아웃 " ++ second)) =
          some ("체크인 " ++ first ++ " / " ++ ("체크아웃 " ++ second)) := by
        rw [String.append_assoc, String.append_assoc]
        exact orNone_append (by decide)
      simp [hours, noMarkup_times]

/-! ### Collected texts -/

/-- The raw texts of the item have no markup once they are cleaned. -/
def CleansPlain (item : Item) : Prop := ∀ key text, cleanInfoText (item.get key) = some text → NoMarkup text

/-- The stored texts have none. -/
def CollectsPlain (contentTypeId : Int) (item : Item) : Prop :=
  ∀ defaults, buildPlaceInfoDefaults contentTypeId item = some defaults →
    ∀ field text, .text field (some text) ∈ defaults → NoMarkup text

theorem mem_ite_append {α : Type} {p : Prop} [Decidable p] {a last : α} {l : List α}
    (h : a ∈ if p then l ++ [last] else l) : a ∈ l ∨ p ∧ a = last := by
  split at h
  · rename_i hp
    exact (List.mem_append.mp h).imp_right fun hin => ⟨hp, List.mem_singleton.mp hin⟩
  · exact .inl h

theorem mem_buildPlaceInfoDefaults {contentTypeId : Int} {item : Item} {defaults : List InfoDefault}
    (h : buildPlaceInfoDefaults contentTypeId item = some defaults) {field : InfoText} {text : String}
    (hmem : .text field (some text) ∈ defaults) : (∃ key, cleanInfoText (item.get key) = some text) ∨
      contentTypeId = lodgingTypeId ∧ lodgingOperatingHours item = some text := by
  obtain ⟨fieldMap, -, rfl⟩ := Option.map_eq_some_iff.mp h
  rcases mem_ite_append hmem with hin | ⟨hlodging, heq⟩
  · obtain ⟨⟨found, key⟩, -, hentry⟩ := List.mem_map.mp hin
    cases found with
    | text f => exact .inl ⟨key, (InfoDefault.text.inj hentry).2⟩
    | flag f => cases hentry
  · exact .inr ⟨hlodging, (InfoDefault.text.inj heq).2.symm⟩

theorem text_set (info : PlaceInfo) (value : InfoDefault) (field : InfoText) :
    (info.set value).text field = info.text field ∨ value = .text field ((info.set value).text field) := by
  rcases value with ⟨found, value⟩ | ⟨found, value⟩
  · cases found <;> cases field <;> first | exact .inl rfl | exact .inr rfl
  · cases found <;> cases field <;> exact .inl rfl

/-- A text of a row that was just stored is one of the defaults. -/
theorem text_foldl_set {defaults : List InfoDefault} {info : PlaceInfo} {field : InfoText} {text : String}
    (h : (defaults.foldl PlaceInfo.set info).text field = some text) :
    .text field (some text) ∈ defaults ∨ info.text field = some text := by
  induction defaults generalizing info with
  | nil => exact .inr h
  | cons value defaults ih =>
    rcases ih h with hmem | hfirst
    · exact .inl (List.mem_cons_of_mem value hmem)
    · rcases text_set info value field with hkept | hset
      · exact .inr (hkept ▸ hfirst)
      · rw [hfirst] at hset
        exact .inl (hset ▸ List.mem_cons_self)

/-- The row that collection makes of the item has no markup in its texts. -/
def StoresPlain (contentTypeId : Int) (item : Item) : Prop :=
  ∀ defaults, buildPlaceInfoDefaults contentTypeId item = some defaults →
    ∀ placeId field text, (defaults.foldl PlaceInfo.set {placeId := placeId}).text field = some text → NoMarkup text

theorem CollectsPlain.stores {contentTypeId : Int} {item : Item} (h : CollectsPlain contentTypeId item) :
    StoresPlain contentTypeId item := by
  intro defaults hdefaults placeId field text htext
  rcases text_foldl_set htext with hmem | hempty
  · exact h defaults hdefaults field text hmem
  · cases field <;> cases hempty

theorem CollectsPlain.times {item : Item} (h : CollectsPlain lodgingTypeId item) : PlainTimes item := by
  refine (lodgingOperatingHours_noMarkup item).mp fun text htext => h _ rfl .operatingHours text ?_
  rw [← htext]
  exact List.mem_append_right _ (List.mem_singleton_self _)

/-- **Collected texts have no markup**, unless the place is a lodging with markup in its times. -/
theorem collected_clean_iff (contentTypeId : Int) (item : Item) (h : CleansPlain item) :
    (CollectsPlain contentTypeId item ∧ StoresPlain contentTypeId item) ↔
      (contentTypeId = lodgingTypeId → PlainTimes item) := by
  constructor
  · intro hcollects hlodging
    subst hlodging
    exact hcollects.1.times
  · intro htimes
    have hcollects : CollectsPlain contentTypeId item := by
      intro defaults hdefaults field text hmem
      rcases mem_buildPlaceInfoDefaults hdefaults hmem with ⟨key, hkey⟩ | ⟨hlodging, hhours⟩
      · exact h key text hkey
      · exact (lodgingOperatingHours_noMarkup item).mpr (htimes hlodging) text hhours
    exact ⟨hcollects, hcollects.stores⟩

/-! ### Two lodgings -/

/-- A lodging with these times. -/
def lodgingItem (arrival departure : String) : Item := [("checkintime", .str arrival), ("checkouttime", .str departure)]

theorem cleansPlain_lodgingItem {arrival departure : String}
    (h : ∀ value ∈ [arrival, departure], ∀ text, cleanInfoText (.str value) = some text → NoMarkup text) :
    CleansPlain (lodgingItem arrival departure) := by
  intro key text htext
  have hget : (lodgingItem arrival departure).get key = .str arrival ∨ (lodgingItem arrival departure).get key = .str departure ∨
      (lodgingItem arrival departure).get key = .null := by
    unfold Item.get lodgingItem
    rw [List.lookup_cons, List.lookup_cons]
    split
    · exact .inl rfl
    · split
      · exact .inr (.inl rfl)
      · exact .inr (.inr rfl)
  rcases hget with hget | hget | hget
  · exact h arrival (by simp) text (hget ▸ htext)
  · exact h departure (by simp) text (hget ▸ htext)
  · rw [hget] at htext
    cases htext

instance (text : String) : Decidable (NoMarkup text) := inferInstanceAs (Decidable (_ ∧ _))

theorem cleansPlain_of_eq {value cleaned : String} (h : cleanInfoText (.str value) = some cleaned) (hplain : NoMarkup cleaned) :
    ∀ text, cleanInfoText (.str value) = some text → NoMarkup text := by
  intro text htext
  rw [h] at htext
  exact Option.some.inj htext ▸ hplain

theorem collected_clean_iff_plainLodging :
    (CollectsPlain lodgingTypeId (lodgingItem "15:00" "11:00") ∧ StoresPlain lodgingTypeId (lodgingItem "15:00" "11:00")) ↔
      (lodgingTypeId = lodgingTypeId → PlainTimes (lodgingItem "15:00" "11:00")) := by
  have harrival : cleanInfoText (.str "15:00") = some "15:00" := by decide +kernel
  have hdeparture : cleanInfoText (.str "11:00") = some "11:00" := by decide +kernel
  have hplain : NoMarkup "15:00" ∧ NoMarkup "11:00" := by decide +kernel
  refine collected_clean_iff lodgingTypeId _ (cleansPlain_lodgingItem (List.forall_mem_cons.mpr ⟨?_, ?_⟩))
  · exact cleansPlain_of_eq harrival hplain.1
  · exact List.forall_mem_singleton.mpr (cleansPlain_of_eq hdeparture hplain.2)

/-- A break between two times of arrival stays in the opening hours. -/
theorem collected_not_clean : ¬ ∀ contentTypeId item, CleansPlain item →
    CollectsPlain contentTypeId item ∧ StoresPlain contentTypeId item := by
  intro h
  have harrival : cleanInfoText (.str "15:00<br>16:00") = some "15:00\n16:00" := by decide +kernel
  have hdeparture : cleanInfoText (.str "11:00") = some "11:00" := by decide +kernel
  have hplain : NoMarkup "15:00\n16:00" ∧ NoMarkup "11:00" := by decide +kernel
  have hmarkup : ¬ NoMarkup "15:00<br>16:00" := by decide +kernel
  have hcheckin : checkin (lodgingItem "15:00<br>16:00" "11:00") = some "15:00<br>16:00" := by decide +kernel
  have hcleans : CleansPlain (lodgingItem "15:00<br>16:00" "11:00") :=
    cleansPlain_lodgingItem (List.forall_mem_cons.mpr
      ⟨cleansPlain_of_eq harrival hplain.1, List.forall_mem_singleton.mpr (cleansPlain_of_eq hdeparture hplain.2)⟩)
  exact hmarkup ((h lodgingTypeId _ hcleans).1.times.arrival _ hcheckin)

end TravelMaker
