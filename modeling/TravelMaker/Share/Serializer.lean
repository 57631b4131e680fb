import TravelMaker.Lib.DoubleText
import TravelMaker.Place.TourResponse

/-! What the two ends of a share link let through: `ShareRequestSerializer` where it is
made, `SharedQuizRequestSerializer` where it is opened.

The fields are those of the framework, each a function on the data of one key. Of several
errors the model keeps the first. -/
namespace TravelMaker
open Lib (Double)

/-- Why a field refuses its data: a code of the framework, or the serializer's own text. -/
inductive FieldError where
  | required
  | null
  | blank
  | invalid
  | invalidChoice
  | maxStringTooLong
  | minValue
  | notAList
  | minLength
  | maxLength
  | nullCharacters
  | text (message : String)
deriving DecidableEq, Repr

/-- What a serializer ends in besides its attributes. -/
inductive Refused where
  | field (name : String) (error : FieldError)
  /-- An exception that no field catches. -/
  | raised (e : Exc)
deriving DecidableEq, Repr

/-- What a field makes of its data. -/
abbrev InputField (α : Type) := Json → Except (FieldError ⊕ Exc) α

namespace InputField

def fail {α : Type} (error : FieldError) : Except (FieldError ⊕ Exc) α := .error (.inl error)

/-- The string a `CharField` is left with, checked. -/
def charValue (maxLength : Option Nat) (s : String) : Except (FieldError ⊕ Exc) String :=
  let value := Lib.Text.strip s
  if value = "" then fail .blank
  else if maxLength.any (· < value.length) then fail .maxLength
  else if value.toList.contains '\x00' then fail .nullCharacters
  else .ok value

/-- `CharField(max_length=…)`: numbers are read as their text. -/
def char (maxLength : Option Nat) : InputField String
  | .scalar .null => fail .null
  | .scalar (.bool _) => fail .invalid
  | .scalar value => charValue maxLength value.toStr
  | _ => fail .invalid

/-- The most characters that a number field reads. -/
def maxStringLength : Nat := 1000

/-- `FloatField()`. -/
def float : InputField Double
  | .scalar .null => fail .null
  | .scalar (.bool b) =>
    match Double.ofInt? (if b then 1 else 0) with
    | some x => .ok x
    | none => .error (.inr .overflowError)
  | .scalar (.int n) =>
    match Double.ofInt? n with
    | some x => .ok x
    | none => .error (.inr .overflowError)
  | .scalar (.float (.infinity negative)) => .ok (.infinity negative)
  | .scalar (.float .nan) => .ok .nan
  | .scalar (.float (.finite text _)) =>
    match Double.ofText? text with
    | some x => .ok x
    | none => fail .invalid
  | .scalar (.str s) =>
    if maxStringLength < s.length then fail .maxStringTooLong
    else
      match Double.ofText? s with
      | some x => .ok x
      | none => fail .invalid
  | _ => fail .invalid

/-- A text without the point and the zeros at its end: `re_decimal`. -/
def dropDecimal (s : List Char) : List Char :=
  let body := (s.rdropWhile Lib.Text.isSpace).rdropWhile (· == '0')
  if body.getLast? = some '.' then body.dropLast else s

/-- `IntegerField(min_value=…)`. -/
def integer (minValue : Int) : InputField Int
  | .scalar .null => fail .null
  | .scalar value =>
    if maxStringLength < value.toStr.length then fail .maxStringTooLong
    else
      match Lib.Text.int? (.ofList (dropDecimal value.toStr.toList)) with
      | none => fail .invalid
      | some n => if n < minValue then fail .minValue else .ok n
  | _ => fail .invalid

/-- `ChoiceField(choices=…)`. -/
def choice (choices : List String) : InputField String
  | .scalar .null => fail .null
  | .scalar value => if choices.contains value.toStr then .ok value.toStr else fail .invalidChoice
  | _ => fail .invalidChoice

/-- `ListField(child=…, min_length=…, max_length=…)`. -/
def list {α : Type} (child : InputField α) (minLength maxLength : Nat) : InputField (List α)
  | .array items => do
    let values ← items.mapM child
    if values.length < minLength then fail .minLength
    else if maxLength < values.length then fail .maxLength
    else return values
  | .scalar .null => fail .null
  | _ => fail .notAList

def refuse (name : String) : FieldError ⊕ Exc → Refused
  | .inl error => .field name error
  | .inr e => .raised e

/-- The field on the data of its key; `none` where the key is missing. -/
def run? {α : Type} (field : InputField α) (name : String) (fields : List (String × Json)) : Except Refused (Option α) :=
  match fields.lookup name with
  | none => .ok none
  | some data =>
    match field data with
    | .ok value => .ok (some value)
    | .error e => .error (refuse name e)

/-- A field with `required=True`. -/
def run {α : Type} (field : InputField α) (name : String) (fields : List (String × Json)) : Except Refused α :=
  match field.run? name fields with
  | .ok (some value) => .ok value
  | .ok none => .error (.field name .required)
  | .error e => .error e

end InputField

/-! ### Requests for a link -/

def contentTypeChoices : List String := ["place", "route", "travel_quiz"]

/-- The validated attributes. -/
structure ShareAttrs where
  contentType : String
  contentId : Option Int
  typeKey : Option String
  vector : Option (List Double)
deriving DecidableEq, Repr

/-- Errors that belong to no field. -/
def nonFieldErrors : String := "non_field_errors"

namespace ShareRequestSerializer

def validate (attrs : ShareAttrs) : Except Refused ShareAttrs :=
  if attrs.contentType = "travel_quiz" then
    if attrs.contentId.isNone ∧ ¬ (attrs.typeKey.isSome ∧ attrs.vector.isSome) then
      .error (.field nonFieldErrors
        (.text "travel_quiz 공유는 content_id 또는 type_key와 vector를 함께 입력해야 합니다."))
    else .ok attrs
  else if attrs.contentId.isNone then .error (.field "content_id" (.text "이 필드는 필수입니다."))
  else .ok attrs

def run : Json → Except Refused ShareAttrs
  | .object fields => do
    let contentType ← (InputField.choice contentTypeChoices).run "content_type" fields
    let contentId ← (InputField.integer 1).run? "content_id" fields
    let typeKey ← (InputField.char (some 10)).run? "type_key" fields
    let vector ← (InputField.list InputField.float 6 6).run? "vector" fields
    validate ⟨contentType, contentId, typeKey, vector⟩
  | _ => .error (.field nonFieldErrors .invalid)

end ShareRequestSerializer

/-! ### Opening a link -/

namespace SharedQuizRequestSerializer

/-- `validate_vector`. -/
def validateVector (value : String) : Except Refused (List Double) :=
  match (value.toList.splitOn ',').mapM fun part => Double.ofText? (.ofList part) with
  | none => .error (.field "vector" (.text "vector는 쉼표 구분 숫자여야 합니다."))
  | some parts =>
    if parts.length ≠ 6 ∨ parts.any (!·.inUnit) then
      .error (.field "vector" (.text "vector는 0.0~1.0 범위의 숫자 6개여야 합니다."))
    else .ok parts

/-- The query parameters are texts. -/
def run (params : List (String × Json)) : Except Refused (String × List Double) := do
  let typeKey ← (InputField.char (some 3)).run "type_key" params
  let vector ← (InputField.char none).run "vector" params
  return (typeKey, ← validateVector vector)

end SharedQuizRequestSerializer

/-! ### What is accepted -/

/-- Both parts of a computation that succeeds succeed. -/
theorem ok_of_bind {ε α β : Type} {x : Except ε α} {f : α → Except ε β} {b : β} (h : x >>= f = .ok b) :
    ∃ a, x = .ok a ∧ f a = .ok b := by
  cases x with
  | ok a => exact ⟨a, rfl, h⟩
  | error e => cases h

section
variable {α : Type} {field : InputField α} {name : String} {fields : List (String × Json)} {value : α}

namespace InputField

theorem run?_ok {value? : Option α} (h : field.run? name fields = .ok value?) :
    (fields.lookup name = none ∧ value? = none) ∨
      ∃ data value, fields.lookup name = some data ∧ field data = .ok value ∧ value? = some value := by
  unfold run? at h
  split at h
  · rename_i hlookup
    exact .inl ⟨hlookup, (Except.ok.inj h).symm⟩
  · rename_i data hlookup
    split at h
    · rename_i value hvalue
      exact .inr ⟨data, value, hlookup, hvalue, (Except.ok.inj h).symm⟩
    · cases h

theorem run_ok_iff : field.run name fields = .ok value ↔ ∃ data, fields.lookup name = some data ∧ field data = .ok value := by
  unfold run run?
  cases fields.lookup name with
  | none => exact iff_of_false (fun h => nomatch h) fun ⟨_, h, _⟩ => nomatch h
  | some data =>
    simp only [Option.some.injEq, exists_eq_left']
    cases field data with
    | ok found => constructor <;> intro h <;> cases h <;> rfl
    | error e => exact iff_of_false (fun h => nomatch h) fun h => nomatch h

theorem charValue_ok_iff {maxLength : Option Nat} {s value : String} : charValue maxLength s = .ok value ↔
    Lib.Text.strip s = value ∧ value ≠ "" ∧ (∀ n, maxLength = some n → value.length ≤ n) ∧ '\x00' ∉ value.toList := by
  simp only [charValue]
  constructor
  · intro h
    split at h
    · cases h
    · rename_i hblank
      split at h
      · cases h
      · rename_i hlength
        split at h
        · cases h
        · rename_i hnull
          obtain rfl := Except.ok.inj h
          refine ⟨rfl, hblank, ?_, fun hmem => hnull (List.contains_iff_mem.mpr hmem)⟩
          rintro n rfl
          simpa using hlength
  · rintro ⟨rfl, hblank, hlength, hnull⟩
    have hmax : ¬ (maxLength.any fun n => n < (Lib.Text.strip s).length) = true := by
      cases maxLength with
      | none => exact fun h => nomatch h
      | some n => simpa using hlength n rfl
    rw [if_neg hblank, if_neg hmax, if_neg fun h => hnull (List.contains_iff_mem.mp h)]

/-- A `CharField` returns the stripped text of its data. -/
theorem char_ok {maxLength : Option Nat} {data : Json} {value : String} (h : char maxLength data = .ok value) :
    ∃ s, charValue maxLength s = .ok value := by
  unfold char at h
  split at h
  · cases h
  · cases h
  · exact ⟨_, h⟩
  · cases h

theorem list_ok {child : InputField α} {minLength maxLength : Nat} {data : Json} {values : List α}
    (h : list child minLength maxLength data = .ok values) : minLength ≤ values.length ∧ values.length ≤ maxLength := by
  unfold list at h
  split at h
  · obtain ⟨found, -, hfound⟩ := ok_of_bind h
    split at hfound
    · cases hfound
    · split at hfound
      · cases hfound
      · obtain rfl := Except.ok.inj hfound
        omega
  · cases h
  · cases h

end InputField
end

/-- What `ShareRequestSerializer` lets through. -/
structure ShareAttrs.Accepted (attrs : ShareAttrs) : Prop where
  typeKey : ∀ typeKey, attrs.typeKey = some typeKey →
    Lib.Text.strip typeKey = typeKey ∧ typeKey ≠ "" ∧ typeKey.length ≤ 10 ∧ '\x00' ∉ typeKey.toList
  vector : ∀ vector, attrs.vector = some vector → vector.length = 6
  direct : attrs.contentType = "travel_quiz" → attrs.contentId = none → attrs.typeKey.isSome ∧ attrs.vector.isSome

theorem ShareRequestSerializer.validate_ok {attrs attrs' : ShareAttrs} (h : validate attrs = .ok attrs') :
    attrs = attrs' ∧ (attrs.contentType = "travel_quiz" → attrs.contentId = none →
      attrs.typeKey.isSome = true ∧ attrs.vector.isSome = true) := by
  unfold validate at h
  split at h
  · split at h
    · cases h
    · rename_i hquiz hnot
      refine ⟨Except.ok.inj h, fun _ hid => ?_⟩
      by_contra hdirect
      exact hnot ⟨by rw [hid]; rfl, hdirect⟩
  · rename_i hother
    split at h
    · cases h
    · exact ⟨Except.ok.inj h, fun hquiz => absurd hquiz hother⟩

theorem ShareRequestSerializer.accepted {data : Json} {attrs : ShareAttrs} (h : run data = .ok attrs) : attrs.Accepted := by
  unfold run at h
  split at h
  · rename_i fields
    obtain ⟨contentType, -, h⟩ := ok_of_bind h
    obtain ⟨contentId, -, h⟩ := ok_of_bind h
    obtain ⟨typeKey?, htypeKey, h⟩ := ok_of_bind h
    obtain ⟨vector?, hvector, h⟩ := ok_of_bind h
    obtain ⟨rfl, hdirect⟩ := validate_ok h
    refine ⟨?_, ?_, hdirect⟩
    · rintro typeKey rfl
      obtain ⟨-, h⟩ | ⟨data, value, -, hvalue, hsome⟩ := InputField.run?_ok htypeKey
      · cases h
      · obtain rfl := Option.some.inj hsome
        obtain ⟨s, hs⟩ := InputField.char_ok hvalue
        obtain ⟨hstrip, hblank, hlength, hnull⟩ := InputField.charValue_ok_iff.mp hs
        refine ⟨?_, hblank, hlength 10 rfl, hnull⟩
        rw [← hstrip, Lib.Text.strip, Lib.Text.strip, String.toList_ofList, Lib.Text.stripWith_stripWith]
    · rintro vector rfl
      obtain ⟨-, h⟩ | ⟨data, value, -, hvalue, hsome⟩ := InputField.run?_ok hvector
      · cases h
      · obtain rfl := Option.some.inj hsome
        have hlength := InputField.list_ok hvalue
        omega
  · cases h

end TravelMaker
