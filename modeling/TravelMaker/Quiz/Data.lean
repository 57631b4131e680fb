import TravelMaker.Database

/-! What the travel quiz is made of: its questions, the types that fit each other and the
types that are seeded.

The axes are activity, plan, social, space, experience and budget. A type key has a letter
for activity, social and space: `t` or `f`. -/
namespace TravelMaker

/-- What each of the two choices adds to the axes. -/
structure QuizQuestion where
  a : List Int
  b : List Int

def quizData : List QuizQuestion := [
  ⟨[0, 0, 1, 1, 0, 1], [0, 0, -1, -1, 0, -1]⟩,
  ⟨[0, 1, 0, 0, 0, 1], [0, -1, 0, 0, 0, -1]⟩,
  ⟨[1, 1, 0, 0, 0, 0], [-1, -1, 0, 0, 0, 0]⟩,
  ⟨[0, 1, 0, 1, 0, 0], [0, -1, 0, -1, 0, 0]⟩,
  ⟨[1, 1, 1, 0, 0, 0], [-1, -1, -1, 0, 0, 0]⟩,
  ⟨[-1, 0, 1, 0, 0, 0], [1, 0, -1, 0, 0, 0]⟩,
  ⟨[1, 0, 0, 1, -1, 0], [-1, 0, 0, -1, 1, 0]⟩,
  ⟨[0, 0, 1, 0, 1, 0], [0, 0, -1, 0, -1, 0]⟩,
  ⟨[0, 0, 0, 1, -1, 1], [0, 0, 0, -1, 1, -1]⟩,
  ⟨[1, 0, 0, 0, 1, 1], [-1, 0, 0, 0, -1, -1]⟩,
  ⟨[0, 1, 0, 0, 1, 0], [0, -1, 0, 0, -1, 0]⟩,
  ⟨[0, 0, 1, 1, 0, 1], [0, 0, -1, -1, 0, -1]⟩]

/-! ### Types that fit -/

/-- `_COMPATIBLE_MAP`. -/
def compatibleMap : List (String × String) := [
  ("ttt", "tft"), ("ttf", "tff"), ("tft", "ttt"), ("tff", "ttf"),
  ("ftt", "fft"), ("ftf", "fff"), ("fft", "ftt"), ("fff", "ftf")]

/-- `_INCOMPATIBLE_MAP`. -/
def incompatibleMap : List (String × String) := [
  ("ttt", "fff"), ("ttf", "fft"), ("tft", "ftf"), ("tff", "ftt"),
  ("ftt", "tff"), ("ftf", "tft"), ("fft", "ttf"), ("fff", "ttt")]

structure CompatibilityMessages where
  compatible : String
  incompatible : String
deriving DecidableEq, Repr

def compatibilityMessages : List (String × CompatibilityMessages) := [
  ("ttt", ⟨"통하는 게 많아요! 여행 스타일이 잘 맞는 기러기예요.", "지구 정반대편 사람! 모든 여행 스타일이 극과 극인 참새예요."⟩),
  ("ttf", ⟨"통하는 게 많아요! 여행 스타일이 잘 맞는 제비예요.", "지구 정반대편 사람! 모든 여행 스타일이 극과 극인 백로예요."⟩),
  ("tft", ⟨"통하는 게 많아요! 여행 스타일이 잘 맞는 늑대예요.", "지구 정반대편 사람! 모든 여행 스타일이 극과 극인 고양이예요."⟩),
  ("tff", ⟨"통하는 게 많아요! 여행 스타일이 잘 맞는 여우예요.", "지구 정반대편 사람! 모든 여행 스타일이 극과 극인 사슴이에요."⟩),
  ("ftt", ⟨"통하는 게 많아요! 여행 스타일이 잘 맞는 백로예요.", "지구 정반대편 사람! 모든 여행 스타일이 극과 극인 제비예요."⟩),
  ("ftf", ⟨"통하는 게 많아요! 여행 스타일이 잘 맞는 참새예요.", "지구 정반대편 사람! 모든 여행 스타일이 극과 극인 기러기예요."⟩),
  ("fft", ⟨"통하는 게 많아요! 여행 스타일이 잘 맞는 사슴이에요.", "지구 정반대편 사람! 모든 여행 스타일이 극과 극인 여우예요."⟩),
  ("fff", ⟨"통하는 게 많아요! 여행 스타일이 잘 맞는 고양이예요.", "지구 정반대편 사람! 모든 여행 스타일이 극과 극인 늑대예요."⟩)]

/-! ### Types that are seeded -/

structure TravelTypeSeed where
  name : String
  imageUrl : String
deriving DecidableEq, Repr

def travelTypeSeeds : List (String × TravelTypeSeed) := [
  ("ttt", ⟨"새벽을 달리는 늑대", "https://travel-maker-bucket.s3.ap-northeast-2.amazonaws.com/avatar/ttt-wolf.webp"⟩),
  ("ttf", ⟨"골목을 가르는 여우", "https://travel-maker-bucket.s3.ap-northeast-2.amazonaws.com/avatar/ttf-fox.webp"⟩),
  ("tft", ⟨"파도를 헤치는 기러기", "https://travel-maker-bucket.s3.ap-northeast-2.amazonaws.com/avatar/tft-goose.webp"⟩),
  ("tff", ⟨"도시를 누비는 제비", "https://travel-maker-bucket.s3.ap-northeast-2.amazonaws.com/avatar/tff-swallow.webp"⟩),
  ("ftt", ⟨"노을을 기다리는 사슴", "https://travel-maker-bucket.s3.ap-northeast-2.amazonaws.com/avatar/ftt-deer.webp"⟩),
  ("ftf", ⟨"달빛 아래 걷는 고양이", "https://travel-maker-bucket.s3.ap-northeast-2.amazonaws.com/avatar/ftf-cat.webp"⟩),
  ("fft", ⟨"강가에 모이는 백로", "https://travel-maker-bucket.s3.ap-northeast-2.amazonaws.com/avatar/fft-heron.webp"⟩),
  ("fff", ⟨"카페에 둥지 트는 참새", "https://travel-maker-bucket.s3.ap-northeast-2.amazonaws.com/avatar/fff-sparrow.webp"⟩)]

end TravelMaker
