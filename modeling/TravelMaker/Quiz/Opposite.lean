import TravelMaker.Quiz.Answers

/-! The other choice in every question.

It turns each axis around, so its type is the one that `_INCOMPATIBLE_MAP` has for the
first. `_COMPATIBLE_MAP` turns one axis around. -/
namespace TravelMaker
open Lib (Number binary64)

/-! ### Types -/

def letterOf (side : Bool) : String := if side then "t" else "f"

/-- The type key of three sides. -/
def typeKeyOf (isActive isSolo isNature : Bool) : String := letterOf isActive ++ letterOf isSolo ++ letterOf isNature

def tagOf (labels : String × String) (side : Bool) : String := if side then labels.1 else labels.2

section
variable (isActive isSolo isNature : Bool)

theorem incompatibleMap_typeKeyOf :
    incompatibleMap.lookup (typeKeyOf isActive isSolo isNature) = some (typeKeyOf (!isActive) (!isSolo) (!isNature)) := by
  revert isActive isSolo isNature
  decide

theorem compatibleMap_typeKeyOf :
    compatibleMap.lookup (typeKeyOf isActive isSolo isNature) = some (typeKeyOf isActive (!isSolo) isNature) := by
  revert isActive isSolo isNature
  decide

theorem buildTypeTags_typeKeyOf : buildTypeTags (typeKeyOf isActive isSolo isNature) =
    .ok [tagOf ("액티비티형", "힐링형") isActive, tagOf ("혼자형", "단체형") isSolo, tagOf ("자연형", "도시형") isNature] := by
  cases isActive <;> cases isSolo <;> cases isNature <;> rfl

end

theorem letter_eq (k : Nat) : letter k = letterOf (decide (3 ≤ k)) := by
  by_cases h : 3 ≤ k <;> simp [letter, letterOf, h]

/-! ### Sides -/

def Sides.other (s : Sides) : Sides := ⟨!s.isActive, !s.isPlanned, !s.isSolo, !s.isNature, !s.isCultural, !s.isBudget⟩

/-- The sides of answers, by the majority on each axis. -/
def sidesOf (answers : List String) : Sides :=
  ⟨3 ≤ agreement answers 0, 3 ≤ agreement answers 1, 3 ≤ agreement answers 2, 3 ≤ agreement answers 3,
    3 ≤ agreement answers 4, 3 ≤ agreement answers 5⟩

def cardsOf (s : Sides) : List DetailCard :=
  [card1 s.isActive, card2 s.isPlanned s.isSolo, card3 s.isNature, card4 s.isCultural s.isBudget]

/-- No title and no description is on both. -/
theorem cardsOf_other (s : Sides) : ∀ card ∈ cardsOf s, ∀ other ∈ cardsOf s.other,
    card.title ≠ other.title ∧ card.description ≠ other.description := by
  obtain ⟨isActive, isPlanned, isSolo, isNature, isCultural, isBudget⟩ := s
  revert isActive isPlanned isSolo isNature isCultural isBudget
  decide

section
variable {answers : List String} (hlength : answers.length = 12)
include hlength

theorem sides_vectorOf {f : Lib.Format} [Lib.PySum f] [ExactFifths f] : sides (vectorOf f answers) = .ok (sidesOf answers) := by
  unfold sides
  simp only [isAbove_vectorOf hlength (by decide : 0 < 6), isAbove_vectorOf hlength (by decide : 1 < 6),
    isAbove_vectorOf hlength (by decide : 2 < 6), isAbove_vectorOf hlength (by decide : 3 < 6),
    isAbove_vectorOf hlength (by decide : 4 < 6), isAbove_vectorOf hlength (by decide : 5 < 6)]
  rfl

theorem majority_other {axis : Nat} (haxis : axis < 6) :
    decide (3 ≤ agreement (answers.map otherChoice) axis) = !decide (3 ≤ agreement answers axis) := by
  have hle := agreement_le hlength haxis
  rw [agreement_other hlength haxis, ← decide_not]
  exact decide_eq_decide.mpr (by omega)

theorem sidesOf_other : sidesOf (answers.map otherChoice) = (sidesOf answers).other := by
  unfold sidesOf Sides.other
  simp only [majority_other hlength (by decide : 0 < 6), majority_other hlength (by decide : 1 < 6),
    majority_other hlength (by decide : 2 < 6), majority_other hlength (by decide : 3 < 6),
    majority_other hlength (by decide : 4 < 6), majority_other hlength (by decide : 5 < 6)]

/-- The type key is that of the sides. -/
theorem determineTypeKey_eq : determineTypeKey (vectorOf binary64 answers) =
    .ok (typeKeyOf (sidesOf answers).isActive (sidesOf answers).isSolo (sidesOf answers).isNature) := by
  rw [determineTypeKey_vectorOf hlength, letter_eq, letter_eq, letter_eq]
  rfl

/-- The labels of the axes, next to those of the other choices. -/
theorem labelsOf_other : List.Forall₂ (fun a b : AxisLabel => a.value = b.value ∧
    ((a.label, b.label) ∈ axisLabelPairs ∨ (b.label, a.label) ∈ axisLabelPairs)) (labelsOf answers)
      (labelsOf (answers.map otherChoice)) := by
  unfold labelsOf
  rw [List.forall₂_map_left_iff, List.forall₂_map_right_iff, List.forall₂_same]
  intro ⟨labels, axis⟩ hmem
  obtain ⟨-, haxis, hlabels⟩ := List.mem_zipIdx hmem
  replace haxis : axis < 6 := by simpa [axisLabelPairs] using haxis
  have hle := agreement_le hlength haxis
  have hpair : labels ∈ axisLabelPairs := hlabels ▸ List.getElem_mem _
  simp only [agreement_other hlength haxis]
  refine ⟨by omega, ?_⟩
  by_cases h : 3 ≤ agreement answers axis
  · rw [if_pos h, if_neg (by omega)]
    exact .inl hpair
  · rw [if_neg h, if_pos (by omega)]
    exact .inr hpair

theorem leaning_other {axis : Nat} (haxis : axis < 6) :
    leaning (agreement (answers.map otherChoice) axis) = leaning (agreement answers axis) := by
  have hle := agreement_le hlength haxis
  rw [agreement_other hlength haxis]
  unfold leaning
  omega

end

/-! ### Results -/

/-- Two results that have nothing in common but how clear they are. -/
structure OppositeResults (norm other : List (Number binary64)) : Prop where
  /-- Each is of the type that the other does not fit. -/
  typeKey : ∃ key otherKey, determineTypeKey norm = .ok key ∧ determineTypeKey other = .ok otherKey ∧
    incompatibleMap.lookup key = some otherKey ∧ incompatibleMap.lookup otherKey = some key
  /-- The type that fits differs in one tag, and the fit is mutual. -/
  compatible : ∃ key fit active solo otherSolo nature, determineTypeKey norm = .ok key ∧ compatibleMap.lookup key = some fit ∧
    compatibleMap.lookup fit = some key ∧ buildTypeTags key = .ok [active, solo, nature] ∧
    buildTypeTags fit = .ok [active, otherSolo, nature] ∧ solo ≠ otherSolo
  /-- The labels are those of the other sides, with the same percentages. -/
  labels : ∃ labels otherLabels, labelVector norm = .ok labels ∧ labelVector other = .ok otherLabels ∧
    List.Forall₂ (fun a b : AxisLabel => a.value = b.value ∧
      ((a.label, b.label) ∈ axisLabelPairs ∨ (b.label, a.label) ∈ axisLabelPairs)) labels otherLabels
  cards : ∃ cards otherCards, buildDetailCards norm = .ok cards ∧ buildDetailCards other = .ok otherCards ∧
    ∀ card ∈ cards, ∀ otherCard ∈ otherCards, card.title ≠ otherCard.title ∧ card.description ≠ otherCard.description
  accuracy : calculateAccuracy other = calculateAccuracy norm

/-- **The other choice in every question leads to the type that does not fit**, as clearly
as the first. -/
theorem other_choices {data : Json} {answers : List String} (h : QuizSubmitSerializer.run data = .ok answers) :
    ∃ norm other, calculateNormVector answers = .ok norm ∧ calculateNormVector (answers.map otherChoice) = .ok other ∧
      OppositeResults norm other := by
  have haccepted := QuizSubmitSerializer.accepted h
  have hlength := haccepted.length
  have hother : (answers.map otherChoice).length = 12 := haccepted.other.length
  refine ⟨_, _, calculateNormVector_eq haccepted, calculateNormVector_eq haccepted.other, ?_, ?_, ?_, ?_, ?_⟩
  · refine ⟨_, _, determineTypeKey_eq hlength, determineTypeKey_eq hother, ?_, ?_⟩
    · rw [sidesOf_other hlength]
      exact incompatibleMap_typeKeyOf ..
    · rw [sidesOf_other hlength, Sides.other, incompatibleMap_typeKeyOf]
      simp only [Bool.not_not]
  · exact ⟨_, _, _, _, _, _, determineTypeKey_eq hlength, compatibleMap_typeKeyOf .., by
      rw [compatibleMap_typeKeyOf, Bool.not_not], buildTypeTags_typeKeyOf .., buildTypeTags_typeKeyOf .., by
      cases (sidesOf answers).isSolo <;> decide⟩
  · exact ⟨_, _, labelVector_vectorOf hlength, labelVector_vectorOf hother, labelsOf_other hlength⟩
  · refine ⟨cardsOf (sidesOf answers), cardsOf (sidesOf (answers.map otherChoice)), ?_, ?_, ?_⟩
    · rw [buildDetailCards, sides_vectorOf hlength]
      rfl
    · rw [buildDetailCards, sides_vectorOf hother]
      rfl
    · rw [sidesOf_other hlength]
      exact cardsOf_other _
  · rw [calculateAccuracy_vectorOf hother, calculateAccuracy_vectorOf hlength]
    have heq : typeKeyAxes.map (fun axis => leaning (agreement (answers.map otherChoice) axis)) =
        typeKeyAxes.map fun axis => leaning (agreement answers axis) :=
      List.map_congr_left fun axis haxis => leaning_other hlength (by revert axis; decide)
    rw [heq]

theorem other_choices_first : ∃ norm other, calculateNormVector (List.replicate 12 "A") = .ok norm ∧
    calculateNormVector ((List.replicate 12 "A").map otherChoice) = .ok other ∧ OppositeResults norm other := by
  have h : QuizSubmitSerializer.run firstChoices = .ok (List.replicate 12 "A") := rfl
  exact other_choices h

end TravelMaker
