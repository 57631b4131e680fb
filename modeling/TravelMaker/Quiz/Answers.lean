import TravelMaker.Lib.Tally
import TravelMaker.Quiz.Scoring
import TravelMaker.Share.Serializer

/-! The answers that a quiz takes, and what their result is.

Each axis is in five of the questions. Its place in the vector is how many of these were
answered for it, in fifths, and what the pages say of it in floats is what the numbers say
(`submitted_result`). -/
namespace TravelMaker
open Lib (Format Number PySum binary32 binary64)

/-! ### The request -/

namespace QuizSubmitSerializer

/-- `_VALID_CHOICES`. -/
def validChoices : List String := ["A", "B"]

/-- `answer.upper()`. -/
def upper (answer : String) : String := .ofList (answer.toList.map Char.toUpper)

/-- `ListField(child=CharField())`. -/
def answersField : InputField (List String)
  | .array items => items.mapM (InputField.char none)
  | .scalar .null => InputField.fail .null
  | _ => InputField.fail .notAList

def validateAnswers (value : List String) : Except Refused (List String) :=
  if value.length ≠ 12 then .error (.raised (.api 400 "answers 길이가 12여야 합니다."))
  else
    let normalized := value.map upper
    if normalized.any (!validChoices.contains ·) then
      .error (.raised (.api 400 "answers 각 항목은 'A' 또는 'B'여야 합니다."))
    else .ok normalized

def run : Json → Except Refused (List String)
  | .object fields => do
    let value ← answersField.run "answers" fields
    validateAnswers value
  | _ => .error (.field nonFieldErrors .invalid)

end QuizSubmitSerializer

/-- Twelve answers, each `A` or `B`. -/
structure Accepted (answers : List String) : Prop where
  length : answers.length = 12
  choices : ∀ answer ∈ answers, answer = "A" ∨ answer = "B"

theorem QuizSubmitSerializer.accepted {data : Json} {answers : List String} (h : run data = .ok answers) : Accepted answers := by
  unfold run at h
  split at h
  · obtain ⟨value, -, h⟩ := ok_of_bind h
    unfold validateAnswers at h
    split at h
    · cases h
    · rename_i hlength
      dsimp only at h
      split at h
      · cases h
      · rename_i hchoices
        obtain rfl := Except.ok.inj h
        refine ⟨by rw [List.length_map]; exact not_not.mp hlength, fun answer hanswer => ?_⟩
        by_contra hother
        refine hchoices (List.any_eq_true.mpr ⟨answer, hanswer, ?_⟩)
        simpa [validChoices] using not_or.mp hother
  · cases h

/-- The other choice. -/
def otherChoice (answer : String) : String := if answer = "A" then "B" else "A"

theorem Accepted.other {answers : List String} (h : Accepted answers) : Accepted (answers.map otherChoice) := by
  refine ⟨by rw [List.length_map]; exact h.length, fun answer hanswer => ?_⟩
  obtain ⟨chosen, hchosen, rfl⟩ := List.mem_map.mp hanswer
  obtain rfl | rfl := h.choices chosen hchosen
  · exact .inr rfl
  · exact .inl rfl

/-! ### How many are for an axis -/

/-- What the answer to a question adds to the axes. -/
def QuizQuestion.chosen (question : QuizQuestion) (answer : String) : List Int :=
  if answer = "A" then question.a else question.b

def QuizQuestion.vote (question : QuizQuestion) (answer : String) (axis : Nat) : Int := (question.chosen answer).getD axis 0

def votes (answers : List String) (axis : Nat) : List Int :=
  (quizData.zip answers).map fun (question, answer) => question.vote answer axis

/-- The answers that are for an axis. -/
def agreement (answers : List String) (axis : Nat) : Nat := (votes answers axis).count 1

/-- How the questions weigh the axes: a choice adds what the other takes away. -/
structure QuizQuestion.Balanced (question : QuizQuestion) : Prop where
  length : question.a.length = 6
  opposite : question.b = question.a.map (- ·)
  votes : ∀ w ∈ question.a, Lib.Tally.IsVote w

theorem quizData_balanced : ∀ question ∈ quizData, question.Balanced := by
  intro question hquestion
  have h : ∀ question ∈ quizData, question.a.length = 6 ∧ question.b = question.a.map (- ·) ∧
      ∀ w ∈ question.a, w = -1 ∨ w = 0 ∨ w = 1 := by decide
  obtain ⟨hlength, hopposite, hvotes⟩ := h question hquestion
  exact ⟨hlength, hopposite, hvotes⟩

/-- Each axis is in five questions. -/
theorem countP_quizData : ∀ axis < 6, quizData.countP (fun question => question.a.getD axis 0 != 0) = 5 := by decide

section
variable {question : QuizQuestion} (hq : question.Balanced)
include hq

theorem QuizQuestion.Balanced.getD_b (axis : Nat) : question.b.getD axis 0 = -question.a.getD axis 0 := by
  rw [hq.opposite, List.getD_eq_getElem?_getD, List.getD_eq_getElem?_getD, List.getElem?_map]
  cases question.a[axis]? <;> rfl

theorem QuizQuestion.Balanced.isVote (answer : String) (axis : Nat) : Lib.Tally.IsVote (question.vote answer axis) := by
  have ha : Lib.Tally.IsVote (question.a.getD axis 0) := by
    rw [List.getD_eq_getElem?_getD]
    cases h : question.a[axis]? with
    | none => exact .inr (.inl rfl)
    | some w => exact hq.votes w (List.mem_of_getElem? h)
  unfold QuizQuestion.vote QuizQuestion.chosen
  split
  · exact ha
  · rw [hq.getD_b]
    unfold Lib.Tally.IsVote at ha ⊢
    omega

theorem QuizQuestion.Balanced.vote_ne_zero (answer : String) (axis : Nat) :
    question.vote answer axis != 0 ↔ question.a.getD axis 0 != 0 := by
  unfold QuizQuestion.vote QuizQuestion.chosen
  split
  · rfl
  · rw [hq.getD_b]
    simp

theorem QuizQuestion.Balanced.vote_other (answer : String) (axis : Nat) :
    question.vote (otherChoice answer) axis = -question.vote answer axis := by
  unfold QuizQuestion.vote QuizQuestion.chosen otherChoice
  by_cases h : answer = "A"
  · rw [if_pos h, if_pos h, if_neg (by decide), hq.getD_b]
  · rw [if_neg h, if_neg h, if_pos rfl, hq.getD_b, neg_neg]

end

section
variable {answers : List String} {axis : Nat}

theorem isVote_of_mem_votes {v : Int} (h : v ∈ votes answers axis) : Lib.Tally.IsVote v := by
  obtain ⟨⟨question, answer⟩, hmem, rfl⟩ := List.mem_map.mp h
  exact (quizData_balanced question (List.of_mem_zip hmem).1).isVote answer axis

theorem votes_other : votes (answers.map otherChoice) axis = (votes answers axis).map (- ·) := by
  unfold votes
  rw [List.zip_map_right, List.map_map, List.map_map]
  refine List.map_congr_left fun ⟨question, answer⟩ hmem => ?_
  exact (quizData_balanced question (List.of_mem_zip hmem).1).vote_other answer axis

/-- Twelve answers have five votes on an axis. -/
theorem countP_votes (hlength : answers.length = 12) (haxis : axis < 6) : (votes answers axis).countP (· != 0) = 5 := by
  have hfst : (quizData.zip answers).map Prod.fst = quizData := List.map_fst_zip (by rw [hlength]; decide)
  rw [← countP_quizData axis haxis, ← hfst, votes, List.countP_map, List.countP_map]
  refine List.countP_congr fun ⟨question, answer⟩ hmem => ?_
  exact (quizData_balanced question (List.of_mem_zip hmem).1).vote_ne_zero answer axis

theorem agreement_add (hlength : answers.length = 12) (haxis : axis < 6) :
    agreement answers axis + (votes answers axis).count (-1) = 5 := by
  rw [agreement, Lib.Tally.count_add_count fun _ => isVote_of_mem_votes, countP_votes hlength haxis]

theorem agreement_le (hlength : answers.length = 12) (haxis : axis < 6) : agreement answers axis ≤ 5 :=
  Nat.le.intro (agreement_add hlength haxis)

/-- Who is for an axis is against it with the other choices. -/
theorem agreement_other (hlength : answers.length = 12) (haxis : axis < 6) :
    agreement (answers.map otherChoice) axis = 5 - agreement answers axis := by
  have hadd := agreement_add hlength haxis
  have hother : agreement (answers.map otherChoice) axis = (votes answers axis).count (-1) := by
    rw [agreement, votes_other, Lib.Tally.count_neg]
  omega

theorem sum_votes (hlength : answers.length = 12) (haxis : axis < 6) :
    (votes answers axis).sum = 2 * agreement answers axis - 5 := by
  have hadd := agreement_add hlength haxis
  rw [Lib.Tally.sum_eq_count_sub fun _ => isVote_of_mem_votes, ← agreement]
  omega

/-- Question six is for one of activity and social, whatever the answer. -/
theorem agreement_activity_or_social (h : Accepted answers) : 0 < agreement answers 0 ∨ 0 < agreement answers 2 := by
  obtain ⟨answer, hanswer⟩ : ∃ answer, answers[5]? = some answer := ⟨_, List.getElem?_eq_getElem (by rw [h.length]; decide)⟩
  have hquestion : quizData[5]? = some ⟨[-1, 0, 1, 0, 0, 0], [1, 0, -1, 0, 0, 0]⟩ := rfl
  have hvote : ∀ axis, QuizQuestion.vote ⟨[-1, 0, 1, 0, 0, 0], [1, 0, -1, 0, 0, 0]⟩ answer axis ∈ votes answers axis := by
    intro axis
    refine List.mem_map.mpr ⟨(_, answer), List.mem_of_getElem? (i := 5) ?_, rfl⟩
    rw [List.getElem?_zip_eq_some]
    exact ⟨hquestion, hanswer⟩
  obtain rfl | rfl := h.choices answer (List.mem_of_getElem? hanswer)
  · exact .inr (List.count_pos_iff.mpr (hvote 2))
  · exact .inl (List.count_pos_iff.mpr (hvote 0))

end

/-! ### The vector -/

/-- So many fifths, as a float. -/
def fifths (f : Format) (k : Nat) : Number f := .nearestTo f (k / 5)

theorem normOf_eq : ∀ k < 6, normOf (2 * (k : Nat) - 5) = fifths binary64 k := by decide +kernel

theorem weights_eq (question : QuizQuestion) {answer : String} (h : answer = "A" ∨ answer = "B") :
    question.weights answer = .ok (question.chosen answer) := by
  obtain rfl | rfl := h <;> rfl

theorem addWeights_eq {questions : List QuizQuestion} {answers : List String} (hlength : answers.length = questions.length)
    (hchoices : ∀ answer ∈ answers, answer = "A" ∨ answer = "B") (scores : List Int) :
    addWeights scores answers questions =
      .ok (Lib.Tally.tally scores ((questions.zip answers).map fun (question, answer) => question.chosen answer)) := by
  induction questions generalizing answers scores with
  | nil =>
    obtain rfl := List.length_eq_zero_iff.mp hlength
    rfl
  | cons question questions ih =>
    obtain ⟨answer, rest, rfl⟩ := List.exists_cons_of_length_eq_add_one hlength
    rw [List.forall_mem_cons] at hchoices
    rw [addWeights, weights_eq question hchoices.1]
    exact ih (Nat.succ.inj hlength) hchoices.2 _

/-- The vector of the agreements. -/
def vectorOf (f : Format) (answers : List String) : List (Number f) :=
  (List.range 6).map fun axis => fifths f (agreement answers axis)

theorem calculateNormVector_eq {answers : List String} (h : Accepted answers) :
    calculateNormVector answers = .ok (vectorOf binary64 answers) := by
  have hrows : ∀ row ∈ (quizData.zip answers).map fun (question, answer) => question.chosen answer, row.length = 6 := by
    intro row hrow
    obtain ⟨⟨question, answer⟩, hmem, rfl⟩ := List.mem_map.mp hrow
    have hq := quizData_balanced question (List.of_mem_zip hmem).1
    show (if answer = "A" then question.a else question.b).length = 6
    split
    · exact hq.length
    · rw [hq.opposite, List.length_map, hq.length]
  rw [calculateNormVector, addWeights_eq (by rw [h.length]; rfl) h.choices]
  refine congrArg Except.ok (List.ext_getElem? fun axis => ?_)
  rw [List.getElem?_map, vectorOf, List.getElem?_map]
  by_cases haxis : axis < 6
  · have hsum : (List.replicate 6 (0 : Int)).getD axis 0 +
        (((quizData.zip answers).map fun (question, answer) => question.chosen answer).map (·.getD axis 0)).sum =
          2 * agreement answers axis - 5 := by
      rw [← sum_votes h.length haxis, votes, List.map_map, List.getD_eq_getElem?_getD, List.getElem?_replicate, if_pos haxis]
      exact zero_add _
    rw [Lib.Tally.getElem?_tally (List.length_replicate ..) hrows haxis, hsum, List.getElem?_range haxis]
    exact congrArg some (normOf_eq _ (Nat.lt_succ_of_le (agreement_le h.length haxis)))
  · have hlength := Lib.Tally.length_tally (List.length_replicate (n := 6) (a := (0 : Int))) hrows
    rw [List.getElem?_eq_none (by omega), List.getElem?_eq_none (by rw [List.length_range]; omega)]
    rfl

/-! ### What is said of it -/

/-- The letter of an axis with so many answers for it. -/
def letter (k : Nat) : String := if 3 ≤ k then "t" else "f"

/-- How far an axis is from the middle, in fifths of the way. -/
def leaning (k : Nat) : Nat := (2 * (k : Int) - 5).natAbs

/-- `abs(norm[i] - 0.5) * 2` of so many fifths. -/
def deviationOf (f : Format) (k : Nat) : Number f := ((fifths f k).sub (.nearestTo f (1 / 2))).abs.mul (.ofSize f false 2)

/-- The deviations there are, with how far they are. -/
def deviations (f : Format) : List (Number f × Nat) :=
  [(deviationOf f 0, 5), (deviationOf f 1, 3), (deviationOf f 4, 3), (deviationOf f 2, 1), (deviationOf f 3, 1)]

/-- The roundings of a format do not show in what is said of fifths. -/
class ExactFifths (f : Format) [PySum f] : Prop where
  le : ∀ k < 6, (Number.nearestTo f (1 / 2)).le (fifths f k) = decide (3 ≤ k)
  toRat : ∀ k < 6, 0 < k → (fifths f k).toRat? ≠ some 0
  percent : ∀ k < 6, ((fifths f k).mul (.ofSize f false 100)).roundInt? = some (20 * k : Int)
  rest : ∀ k < 6, (((Number.ofSize f false 1).sub (fifths f k)).mul (.ofSize f false 100)).roundInt? = some (20 * (5 - k : Nat) : Int)
  deviation : ∀ k < 6, (deviationOf f k, leaning k) ∈ deviations f
  accuracy : ∀ a ∈ deviations f, ∀ b ∈ deviations f, ∀ c ∈ deviations f,
    (((PySum.sum [a.1, b.1, c.1]).divNat 3).mul (.ofSize f false 100)).roundInt? =
      some (Lib.roundHalfEven ((a.2 + b.2 + c.2 : Nat) * 100 / 15))

instance : ExactFifths binary64 where
  le := by decide +kernel
  toRat := by decide +kernel
  percent := by decide +kernel
  rest := by decide +kernel
  deviation := by decide +kernel
  accuracy := by decide +kernel

instance : ExactFifths binary32 where
  le := by decide +kernel
  toRat := by decide +kernel
  percent := by decide +kernel
  rest := by decide +kernel
  deviation := by decide +kernel
  accuracy := by decide +kernel

section
variable {f : Format} [PySum f] [ExactFifths f]

omit [PySum f] [ExactFifths f] in
theorem pyRound_eq {x : Number f} {n : Int} (h : x.roundInt? = some n) : pyRound x = .ok n := by
  cases x with
  | finite negative m => rw [pyRound, h]; rfl
  | infinity negative => cases h
  | nan => cases h

theorem labelOf_fifths {k : Nat} (hk : k < 6) (labels : String × String) :
    labelOf labels (fifths f k) = .ok ⟨if 3 ≤ k then labels.1 else labels.2, 20 * max k (5 - k)⟩ := by
  unfold labelOf
  rw [ExactFifths.le k hk]
  by_cases h : 3 ≤ k
  · rw [if_pos (decide_eq_true h), if_pos h, pyRound_eq (ExactFifths.percent k hk), Nat.max_eq_left (by omega)]
    rfl
  · rw [if_neg (by simpa using h), if_neg h, pyRound_eq (ExactFifths.rest k hk), Nat.max_eq_right (by omega)]
    rfl

variable {answers : List String} (hlength : answers.length = 12)
include hlength

theorem calculateAccuracy_vectorOf : calculateAccuracy (vectorOf f answers) =
    .ok (Lib.roundHalfEven ((typeKeyAxes.map fun axis => leaning (agreement answers axis)).sum * 100 / 15)) := by
  have hmem : ∀ axis < 6, (deviationOf f (agreement answers axis), leaning (agreement answers axis)) ∈ deviations f :=
    fun axis haxis => ExactFifths.deviation _ (Nat.lt_succ_of_le (agreement_le hlength haxis))
  have hround := ExactFifths.accuracy _ (hmem 0 (by decide)) _ (hmem 2 (by decide)) _ (hmem 3 (by decide))
  exact pyRound_eq (hround.trans (by simp [typeKeyAxes, add_assoc]))

theorem isAbove_vectorOf {axis : Nat} (haxis : axis < 6) :
    isAbove (vectorOf f answers) axis = .ok (decide (3 ≤ agreement answers axis)) := by
  unfold isAbove vectorOf
  rw [List.getElem?_map, List.getElem?_range haxis]
  exact congrArg Except.ok (ExactFifths.le _ (Nat.lt_succ_of_le (agreement_le hlength haxis)))

theorem determineTypeKey_vectorOf : determineTypeKey (vectorOf f answers) =
    .ok (letter (agreement answers 0) ++ letter (agreement answers 2) ++ letter (agreement answers 3)) := by
  unfold determineTypeKey
  rw [isAbove_vectorOf hlength (by decide), isAbove_vectorOf hlength (by decide), isAbove_vectorOf hlength (by decide)]
  simp [letter, bind, Except.bind, pure, Except.pure]

omit hlength in
/-- The labels by the majority on each axis. -/
def labelsOf (answers : List String) : List AxisLabel := axisLabelPairs.zipIdx.map fun (labels, axis) =>
  ⟨if 3 ≤ agreement answers axis then labels.1 else labels.2, 20 * max (agreement answers axis) (5 - agreement answers axis)⟩

theorem labelVector_vectorOf : labelVector (vectorOf f answers) = .ok (labelsOf answers) := by
  have hlabel := fun axis (haxis : axis < 6) => labelOf_fifths (f := f) (Nat.lt_succ_of_le (agreement_le hlength haxis))
  show labelAxes axisLabelPairs [_, _, _, _, _, _] = _
  unfold axisLabelPairs
  simp only [labelAxes, hlabel 0 (by decide), hlabel 1 (by decide), hlabel 2 (by decide), hlabel 3 (by decide),
    hlabel 4 (by decide), hlabel 5 (by decide)]
  rfl

end

/-- The zero vector has no direction, and no answers lead to it. -/
theorem vectorOf_ne_zero {f : Format} [PySum f] [ExactFifths f] {answers : List String} (h : Accepted answers) :
    ∃ value ∈ vectorOf f answers, value.toRat? ≠ some 0 := by
  have hmem : ∀ axis < 6, 0 < agreement answers axis → ∃ value ∈ vectorOf f answers, value.toRat? ≠ some 0 :=
    fun axis haxis hpos => ⟨_, List.mem_map_of_mem (List.mem_range.mpr haxis),
      ExactFifths.toRat _ (Nat.lt_succ_of_le (agreement_le h.length haxis)) hpos⟩
  obtain hpos | hpos := agreement_activity_or_social h
  · exact hmem 0 (by decide) hpos
  · exact hmem 2 (by decide) hpos

/-- A result is what the answers say in whole numbers. -/
structure ExactResult (answers : List String) (norm : List (Number binary64)) : Prop where
  /-- Five questions are about each axis. -/
  fifths : ∀ axis < 6, agreement answers axis ≤ 5
  vector : norm = (List.range 6).map fun axis => .nearestTo binary64 (agreement answers axis / 5)
  nonzero : ∃ value ∈ norm, value.toRat? ≠ some 0
  typeKey : determineTypeKey norm =
    .ok (letter (agreement answers 0) ++ letter (agreement answers 2) ++ letter (agreement answers 3))
  labels : labelVector norm = .ok (labelsOf answers)
  accuracy : calculateAccuracy norm =
    .ok (Lib.roundHalfEven ((typeKeyAxes.map fun axis => leaning (agreement answers axis)).sum * 100 / 15))

/-- **Every quiz that is submitted has a result, and the floats say what the whole numbers
do**: an axis is never in the middle, and its percentage and the accuracy are exact. -/
theorem submitted_result {data : Json} {answers : List String} (h : QuizSubmitSerializer.run data = .ok answers) :
    ∃ norm, calculateNormVector answers = .ok norm ∧ ExactResult answers norm := by
  have haccepted := QuizSubmitSerializer.accepted h
  have hlength := haccepted.length
  exact ⟨vectorOf binary64 answers, calculateNormVector_eq haccepted, fun _ => agreement_le hlength, rfl, vectorOf_ne_zero haccepted,
    determineTypeKey_vectorOf hlength, labelVector_vectorOf hlength, calculateAccuracy_vectorOf hlength⟩

/-- The first choice of every question. -/
def firstChoices : Json := .object [("answers", .array (List.replicate 12 (.str "a")))]

theorem submitted_result_first : ∃ norm, calculateNormVector (List.replicate 12 "A") = .ok norm ∧
    ExactResult (List.replicate 12 "A") norm := by
  have h : QuizSubmitSerializer.run firstChoices = .ok (List.replicate 12 "A") := rfl
  exact submitted_result h

end TravelMaker
