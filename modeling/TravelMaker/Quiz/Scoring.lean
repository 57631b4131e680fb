import TravelMaker.Lib.Arithmetic
import TravelMaker.Quiz.Data

/-! The result of a quiz, from its answers: `_calculate_norm_vector`, and what the pages say of a vector.

The vector is one of floats, and so is what is made of it: comparisons, percentages and the
accuracy go through their arithmetic. A vector that was stored comes back with floats of
another format, and the same functions run on these. -/
namespace TravelMaker
open Lib (Format Number PySum binary64)

/-! ### The vector -/

/-- `question[answer.lower()]["weights"]`. -/
def QuizQuestion.weights (question : QuizQuestion) (answer : String) : Except Exc (List Int) :=
  let key : String := .ofList (answer.toList.map Char.toLower)
  if key = "a" then .ok question.a
  else if key = "b" then .ok question.b
  else .error (.keyError key)

/-- The loop over `zip(answers, QUIZ_DATA, strict=True)`. -/
def addWeights : (scores : List Int) → List String → List QuizQuestion → Except Exc (List Int)
  | scores, [], [] => .ok scores
  | scores, answer :: answers, question :: questions => do
    let weights ← question.weights answer
    addWeights (List.zipWith (· + ·) scores weights) answers questions
  | _, _ :: _, [] => .error (.valueError "zip() argument 2 is shorter than argument 1")
  | _, [], _ :: _ => .error (.valueError "zip() argument 2 is longer than argument 1")

/-- `max(0.0, min(1.0, (score + 5) / 10))`. -/
def normOf (score : Int) : Number binary64 :=
  .max (.ofSize _ false 0) (.min (.ofSize _ false 1) (.nearestTo _ ((score + 5 : Int) / 10)))

/-- `_calculate_norm_vector`. -/
def calculateNormVector (answers : List String) : Except Exc (List (Number binary64)) :=
  (addWeights (List.replicate 6 0) answers quizData).map (·.map normOf)

/-! ### Types and labels -/

section
variable {f : Format}

/-- `norm[i] >= 0.5`. -/
def isAbove (norm : List (Number f)) (i : Nat) : Except Exc Bool :=
  match norm[i]? with
  | some value => .ok ((Number.nearestTo f (1 / 2)).le value)
  | none => .error (.other "IndexError")

/-- `_determine_type_key`. -/
def determineTypeKey (norm : List (Number f)) : Except Exc String := do
  let isActive ← isAbove norm 0
  let isSolo ← isAbove norm 2
  let isNature ← isAbove norm 3
  return (if isActive then "t" else "f") ++ (if isSolo then "t" else "f") ++ if isNature then "t" else "f"

/-- `_AXIS_TAG_LABELS`: the labels of `t` and of `f`. -/
def axisTagLabels : List (String × String) := [("액티비티형", "힐링형"), ("혼자형", "단체형"), ("자연형", "도시형")]

/-- `[labels[char] for labels, char in zip(labels, type_key, strict=True)]`. -/
def tagsOf : List (String × String) → List Char → Except Exc (List String)
  | [], [] => .ok []
  | (t, f) :: labels, char :: chars =>
    if char = 't' then (tagsOf labels chars).map (t :: ·)
    else if char = 'f' then (tagsOf labels chars).map (f :: ·)
    else .error (.keyError (.ofList [char]))
  | _ :: _, [] => .error (.valueError "zip() argument 2 is shorter than argument 1")
  | [], _ :: _ => .error (.valueError "zip() argument 2 is longer than argument 1")

/-- `build_type_tags`. -/
def buildTypeTags (typeKey : String) : Except Exc (List String) := tagsOf axisTagLabels typeKey.toList

/-- `_AXIS_LABEL_PAIRS`. -/
def axisLabelPairs : List (String × String) := [
  ("액티비티형", "힐링형"), ("계획형", "즉흥형"), ("혼자형", "단체형"),
  ("자연형", "도시형"), ("문화형", "체험형"), ("가성비형", "럭셔리형")]

structure AxisLabel where
  label : String
  value : Int
deriving DecidableEq, Repr

/-- `round(x)`. -/
def pyRound (x : Number f) : Except Exc Int :=
  match x with
  | .finite .. => .ok (x.roundInt?.getD 0)
  | .infinity _ => .error .overflowError
  | .nan => .error (.valueError "cannot convert float NaN to integer")

def labelOf (labels : String × String) (value : Number f) : Except Exc AxisLabel :=
  if (Number.nearestTo f (1 / 2)).le value then
    (pyRound (value.mul (.ofSize f false 100))).map (⟨labels.1, ·⟩)
  else (pyRound (((Number.ofSize f false 1).sub value).mul (.ofSize f false 100))).map (⟨labels.2, ·⟩)

/-- The loop over `zip(_AXIS_LABEL_PAIRS, values, strict=True)`. -/
def labelAxes : List (String × String) → List (Number f) → Except Exc (List AxisLabel)
  | [], [] => .ok []
  | labels :: rest, value :: values => do
    let first ← labelOf labels value
    return first :: (← labelAxes rest values)
  | _ :: _, [] => .error (.valueError "zip() argument 2 is shorter than argument 1")
  | [], _ :: _ => .error (.valueError "zip() argument 2 is longer than argument 1")

def labelVector (values : List (Number f)) : Except Exc (List AxisLabel) := labelAxes axisLabelPairs values

/-! ### Accuracy -/

/-- `_TYPE_KEY_AXES`. -/
def typeKeyAxes : List Nat := [0, 2, 3]

/-- `abs(norm[i] - 0.5) * 2`. -/
def deviation (norm : List (Number f)) (i : Nat) : Except Exc (Number f) :=
  match norm[i]? with
  | some value => .ok ((value.sub (.nearestTo f (1 / 2))).abs.mul (.ofSize f false 2))
  | none => .error (.other "IndexError")

def calculateAccuracy [PySum f] (norm : List (Number f)) : Except Exc Int := do
  let deviations ← typeKeyAxes.mapM (deviation norm)
  pyRound (((PySum.sum deviations).divNat deviations.length).mul (.ofSize f false 100))

end

/-! ### Texts -/

/-- `_PLAN_SOLO_DESCRIPTIONS`. -/
def planSoloDescription : (isPlanned isSolo : Bool) → String
  | true, true => "철저한 준비로 혼자만의 루트를 만들며"
  | false, true => "계획 없이도 혼자 유연하게 움직이는 걸 즐기며"
  | true, false => "철저한 준비로 일행 모두의 동선을 짜며"
  | false, false => "즉흥적인 선택으로 함께하는 우연을 사랑하며"

/-- `_EXPERIENCE_BUDGET_DESCRIPTIONS`. -/
def experienceBudgetDescription : (isCultural isBudget : Bool) → String
  | true, true => "현지 문화를 가성비 있게 깊이 파고드는 걸 즐겨요."
  | true, false => "그 지역의 이야기와 역사에 아낌없이 투자해요."
  | false, true => "직접 체험하는 여행을 합리적인 가격에 즐겨요."
  | false, false => "특별한 체험을 위해서라면 지갑 열기를 주저 않아요."

/-- The six sides of a vector. -/
structure Sides where
  isActive : Bool
  isPlanned : Bool
  isSolo : Bool
  isNature : Bool
  isCultural : Bool
  isBudget : Bool
deriving DecidableEq, Repr

def sides {f : Format} (norm : List (Number f)) : Except Exc Sides := do
  return ⟨← isAbove norm 0, ← isAbove norm 1, ← isAbove norm 2, ← isAbove norm 3, ← isAbove norm 4, ← isAbove norm 5⟩

def makeDescription {f : Format} (norm : List (Number f)) : Except Exc String := do
  let s ← sides norm
  let d1 := if s.isActive then "체력을 아낌없이 쓰는 활동형 여행자예요." else "천천히 스며드는 여행을 좋아하는 힐링형 여행자예요."
  let d2 := planSoloDescription s.isPlanned s.isSolo
  let d3 := if s.isNature then "자연 속에서 에너지를 충전하는 타입이에요." else "도시의 문화와 에너지에서 영감을 받는 타입이에요."
  let d4 := experienceBudgetDescription s.isCultural s.isBudget
  return d1 ++ " " ++ d2 ++ " " ++ d3 ++ " " ++ d4

structure DetailCard where
  title : String
  description : String
deriving DecidableEq, Repr

/-- `_CARD1`. -/
def card1 : Bool → DetailCard
  | true => ⟨"몸으로 떠나는 여행", "체력을 아낌없이 쓰는 게 진짜 여행이에요."⟩
  | false => ⟨"천천히 스며드는 여행", "여유롭게 흡수하는 것이 나만의 여행법이에요."⟩

/-- `_CARD2`. -/
def card2 : (isPlanned isSolo : Bool) → DetailCard
  | true, true => ⟨"나만의 완벽한 루트", "철저한 준비로 혼자만의 동선을 완성해요."⟩
  | false, true => ⟨"즉흥적인 이동", "계획 없이 끌리는 골목으로 자유롭게 떠나요."⟩
  | true, false => ⟨"완벽한 단체 동선", "철저한 준비로 일행 모두의 여행을 완성해요."⟩
  | false, false => ⟨"함께하는 우연", "즉흥적인 선택으로 함께 만드는 특별한 순간이에요."⟩

/-- `_CARD3`. -/
def card3 : Bool → DetailCard
  | true => ⟨"자연 속 충전", "자연 속에서 에너지를 회복하는 타입이에요."⟩
  | false => ⟨"도시의 분위기", "도시의 빛과 문화에서 영감을 받아요."⟩

/-- `_CARD4`. -/
def card4 : (isCultural isBudget : Bool) → DetailCard
  | true, true => ⟨"알뜰한 문화 탐방", "현지 문화를 가성비 있게 깊이 파고들어요."⟩
  | true, false => ⟨"문화에 아낌없이", "그 지역의 이야기와 역사에 아낌없이 투자해요."⟩
  | false, true => ⟨"합리적인 체험", "직접 체험하는 여행을 합리적인 가격에 즐겨요."⟩
  | false, false => ⟨"특별한 경험엔 아낌없이", "기억에 남을 순간엔 지갑을 열어요."⟩

def buildDetailCards {f : Format} (norm : List (Number f)) : Except Exc (List DetailCard) := do
  let s ← sides norm
  return [card1 s.isActive, card2 s.isPlanned s.isSolo, card3 s.isNature, card4 s.isCultural s.isBudget]

end TravelMaker
