import TravelMaker.Lib.Regex
import TravelMaker.Place.TourApi

/-! From items of the Tour API to columns: the values of `place_sync` and the field
tables of `place_info_mapping`. -/
namespace TravelMaker
open Lib (Regex Decimal)
open Lib.Text (isSpace isDigit strip)

/-! ### Expressions -/

def isQuote (c : Char) : Bool := c == '"' || c == '\''
def isBlank (c : Char) : Bool := c == ' ' || c == '\t'
def isHangul (c : Char) : Bool := '가' ≤ c && c ≤ '힣'

def hrefRe : Regex :=
  .seq (.text "href=" true)
    (.seq (.one isQuote) (.seq (.group (.rep (!isQuote ·) 1 none)) (.one isQuote)))

def urlRe : Regex :=
  .seq (.text "http") (.seq (.rep (· == 's') 0 (some 1)) (.seq (.text "://") (.rep (!isSpace ·) 1 none)))

def hangulTrailRe : Regex := .seq (.rep isHangul 1 none) .atEnd

/-- Spaces, a hyphen, spaces. -/
def hyphenRe : Regex :=
  .seq (.rep (· == ' ') 0 none) (.seq (.one (· == '-')) (.rep (· == ' ') 0 none))

def digitsRe (least most : Nat) : Regex := .rep isDigit least (some most)

def phoneRe : Regex :=
  .seq (.notBehind isDigit)
    (.alt
      (.seq (digitsRe 2 4) (.seq hyphenRe (.seq (digitsRe 3 4) (.seq hyphenRe (digitsRe 4 4)))))
      (.alt
        (.seq (digitsRe 4 4) (.seq hyphenRe (digitsRe 4 4)))
        (.seq (.one (· == '0')) (digitsRe 8 11))))

def brRe : Regex :=
  .seq (.one (· == '<')) (.seq (.rep isSpace 0 none) (.seq (.rep (· == '/') 0 (some 1))
    (.seq (.rep isSpace 0 none) (.seq (.alt (.text "br" true) (.text "vr" true))
      (.seq (.ahead (.alt (.one fun c => isSpace c || c == '/' || c == '<' || c == '>') .atEnd))
        (.seq (.rep isSpace 0 none) (.seq (.rep (· == '/') 0 (some 1))
          (.seq (.rep isSpace 0 none) (.rep (fun c => c == '<' || c == '>') 0 (some 1))))))))))

def tagRe : Regex := .seq (.one (· == '<')) (.seq (.rep (· != '>') 1 none) (.one (· == '>')))

def wsLineRe : Regex :=
  .seq (.rep isBlank 0 none) (.seq (.one (· == '\n')) (.rep (fun c => isBlank c || c == '\n') 0 none))

def multispaceRe : Regex := .rep isBlank 2 none

/-! ### Values -/

/-- `text or None`. -/
def orNone (s : String) : Option String := if s = "" then none else some s

def blankToNone : Scalar → Option String
  | .null => none
  | value => orNone (strip value.toStr)

/-- What `_clean_info_text` makes of a text that is not blank. -/
def cleanInfoString (text : String) : Option String :=
  let text := brRe.sub ['\n'] text.toList
  let text := tagRe.sub [] text
  let text := wsLineRe.sub ['\n'] text
  let text := multispaceRe.sub [' '] text
  orNone (strip (.ofList text))

def cleanInfoText (value : Scalar) : Option String := (blankToNone value).bind cleanInfoString

def toDecimal (value : Scalar) : Option Decimal := (blankToNone value).bind Decimal.ofText?

def cleanHomepage (value : Scalar) : Option String :=
  (blankToNone value).bind fun text =>
    match hrefRe.search text.toList with
    | some m => m.captured.map .ofList
    | none => (urlRe.search text.toList).bind fun m => orNone (.ofList (hangulTrailRe.sub [] m.text))

def telArea4Prefixes : List String := ["0303", "0502", "0503", "0504", "0505", "0506", "0507", "0508"]

def areaLen (digits : List Char) : Nat :=
  if "02".toList.isPrefixOf digits then 2
  else if String.ofList (digits.take 4) ∈ telArea4Prefixes then 4
  else 3

def hyphenateBare (digits : List Char) : List Char :=
  let area := digits.take (areaLen digits)
  let body := digits.drop (areaLen digits)
  if body.length ≤ 4 then digits
  else area ++ '-' :: body.take (body.length - 4) ++ '-' :: body.drop (body.length - 4)

def cleanTel (value : Scalar) : Option String :=
  (blankToNone value).bind fun text =>
    (phoneRe.search text.toList).map fun m =>
      let token := m.text.filter (· != ' ')
      .ofList (if '-' ∈ token then token else hyphenateBare token)

def toBool (value : Scalar) : Option Bool :=
  (blankToNone value).map fun text => !Lib.Text.contains text "불가" && !Lib.Text.contains text "없음"

/-! ### Fields of `PlaceInfo` -/

/-- The free texts, `PLACE_INFO_TEXT_FIELDS`. -/
inductive InfoText where
  | operatingHours
  | closedDays
  | admissionFee
  | spendTime
  | discountInfo
  | accomCount
deriving DecidableEq, Repr

/-- `BOOLEAN_FIELDS`. -/
inductive InfoFlag where
  | parking
  | pet
  | babyCarriage
  | creditCard
deriving DecidableEq, Repr

inductive InfoField where
  | text (f : InfoText)
  | flag (f : InfoFlag)
deriving DecidableEq, Repr

/-- A field with the value it gets. -/
inductive InfoDefault where
  | text (f : InfoText) (value : Option String)
  | flag (f : InfoFlag) (value : Option Bool)
deriving DecidableEq, Repr

def InfoDefault.field : InfoDefault → InfoField
  | .text f _ => .text f
  | .flag f _ => .flag f

def PlaceInfo.set (info : PlaceInfo) : InfoDefault → PlaceInfo
  | .text .operatingHours v => {info with operatingHours := v}
  | .text .closedDays v => {info with closedDays := v}
  | .text .admissionFee v => {info with admissionFee := v}
  | .text .spendTime v => {info with spendTime := v}
  | .text .discountInfo v => {info with discountInfo := v}
  | .text .accomCount v => {info with accomCount := v}
  | .flag .parking v => {info with parking := v}
  | .flag .pet v => {info with pet := v}
  | .flag .babyCarriage v => {info with babyCarriage := v}
  | .flag .creditCard v => {info with creditCard := v}

/-- `PLACE_INFO_FIELD_MAP`. -/
def placeInfoFieldMap : Int → Option (List (InfoField × String))
  | 12 => some [
      (.text .operatingHours, "usetime"),
      (.text .closedDays, "restdate"),
      (.flag .parking, "parking"),
      (.text .accomCount, "accomcount"),
      (.flag .pet, "chkpet"),
      (.flag .babyCarriage, "chkbabycarriage"),
      (.flag .creditCard, "chkcreditcard")]
  | 14 => some [
      (.text .operatingHours, "usetimeculture"),
      (.text .closedDays, "restdateculture"),
      (.flag .parking, "parkingculture"),
      (.text .admissionFee, "usefee"),
      (.text .spendTime, "spendtime"),
      (.text .discountInfo, "discountinfo"),
      (.text .accomCount, "accomcountculture"),
      (.flag .pet, "chkpetculture"),
      (.flag .babyCarriage, "chkbabycarriageculture"),
      (.flag .creditCard, "chkcreditcardculture")]
  | 28 => some [
      (.text .operatingHours, "usetimeleports"),
      (.text .closedDays, "restdateleports"),
      (.flag .parking, "parkingleports"),
      (.text .admissionFee, "usefeeleports"),
      (.text .accomCount, "accomcountleports"),
      (.flag .pet, "chkpetleports"),
      (.flag .babyCarriage, "chkbabycarriageleports"),
      (.flag .creditCard, "chkcreditcardleports")]
  | 32 => some [
      (.flag .parking, "parkinglodging"),
      (.text .accomCount, "accomcountlodging")]
  | 38 => some [
      (.text .operatingHours, "opentime"),
      (.text .closedDays, "restdateshopping"),
      (.flag .parking, "parkingshopping"),
      (.flag .pet, "chkpetshopping"),
      (.flag .babyCarriage, "chkbabycarriageshopping"),
      (.flag .creditCard, "chkcreditcardshopping")]
  | 39 => some [
      (.text .operatingHours, "opentimefood"),
      (.text .closedDays, "restdatefood"),
      (.flag .parking, "parkingfood"),
      (.text .discountInfo, "discountinfofood"),
      (.flag .creditCard, "chkcreditcardfood")]
  | _ => none

/-- `INFOCENTER_KEY`. -/
def infocenterKey : Int → Option String
  | 12 => some "infocenter"
  | 14 => some "infocenterculture"
  | 28 => some "infocenterleports"
  | 32 => some "infocenterlodging"
  | 38 => some "infocentershopping"
  | 39 => some "infocenterfood"
  | _ => none

def lodgingTypeId : Int := 32

/-- The types with a phone key are those with a field table. -/
theorem infocenterKey_isSome (contentTypeId : Int) :
    (infocenterKey contentTypeId).isSome = (placeInfoFieldMap contentTypeId).isSome := by
  unfold infocenterKey placeInfoFieldMap
  split <;> simp_all

/-! ### Rows -/

def resolveTel (contentTypeId : Int) (listItem : Item) (introItem : Option Item) : Option String :=
  let intro := introItem.bind fun item => (infocenterKey contentTypeId).bind fun key => cleanTel (item.get key)
  intro.or (cleanTel (listItem.get "tel"))

def lodgingOperatingHours (introItem : Item) : Option String :=
  let checkin := blankToNone (introItem.get "checkintime")
  let checkout := blankToNone (introItem.get "checkouttime")
  let parts := (checkin.map fun t => "체크인 " ++ t).toList ++ (checkout.map fun t => "체크아웃 " ++ t).toList
  orNone (" / ".intercalate parts)

def buildPlaceInfoDefaults (contentTypeId : Int) (introItem : Item) : Option (List InfoDefault) :=
  (placeInfoFieldMap contentTypeId).map fun fieldMap =>
    let defaults := fieldMap.map fun (field, key) =>
      match field with
      | .text f => .text f (cleanInfoText (introItem.get key))
      | .flag f => .flag f (toBool (introItem.get key))
    if contentTypeId = lodgingTypeId then
      defaults ++ [.text .operatingHours (lodgingOperatingHours introItem)]
    else defaults

/-- Which fields are written depends on the type only. -/
theorem buildPlaceInfoDefaults_fields (contentTypeId : Int) (introItem : Item) :
    (buildPlaceInfoDefaults contentTypeId introItem).map (·.map InfoDefault.field) =
      (placeInfoFieldMap contentTypeId).map fun fieldMap =>
        fieldMap.map (·.1) ++ if contentTypeId = lodgingTypeId then [.text .operatingHours] else [] := by
  unfold buildPlaceInfoDefaults
  cases placeInfoFieldMap contentTypeId with
  | none => rfl
  | some fieldMap =>
    have hfields : ∀ fields : List (InfoField × String), (fields.map fun (field, key) =>
        match field with
        | .text f => InfoDefault.text f (cleanInfoText (introItem.get key))
        | .flag f => InfoDefault.flag f (toBool (introItem.get key))).map InfoDefault.field = fields.map (·.1) := by
      intro fields
      rw [List.map_map]
      refine List.map_congr_left fun (field, key) _ => ?_
      cases field <;> rfl
    rw [Option.map_some, Option.map_some, Option.map_some]
    dsimp only
    split
    · rw [List.map_append, hfields]
      rfl
    · rw [hfields, List.append_nil]

/-- The columns of a collected place. -/
structure PlaceDefaults where
  placeName : String
  contentTypeId : Int
  latitude : Option Decimal
  longitude : Option Decimal
  addressPrimary : Option String
  addressDetail : Option String
  tel : Option String
  zipcode : Option String
  lclsSystm1 : Option String
  lclsSystm2 : Option String
  lclsSystm3 : Option String
  description : Option String
  homepage : Option String
  sourceModifiedAt : Option String
  isActive : Bool
deriving DecidableEq, Repr

def buildPlaceDefaults (listItem : Item) (commonItem introItem : Option Item) : Except Exc PlaceDefaults := do
  let common := commonItem.getD []
  let contentTypeId ← listItem.intAt "contenttypeid"
  return {
    placeName := (blankToNone (listItem.get "title")).getD ""
    contentTypeId := contentTypeId
    latitude := toDecimal (listItem.get "mapy")
    longitude := toDecimal (listItem.get "mapx")
    addressPrimary := blankToNone (listItem.get "addr1")
    addressDetail := blankToNone (listItem.get "addr2")
    tel := resolveTel contentTypeId listItem introItem
    zipcode := blankToNone (listItem.get "zipcode")
    lclsSystm1 := blankToNone (listItem.get "lclsSystm1")
    lclsSystm2 := blankToNone (listItem.get "lclsSystm2")
    lclsSystm3 := blankToNone (listItem.get "lclsSystm3")
    description := blankToNone (common.get "overview")
    homepage := cleanHomepage (common.get "homepage")
    sourceModifiedAt := blankToNone (listItem.get "modifiedtime")
    isActive := true }

/-! ### A phone number is not empty -/

theorem phoneRe_startsWith : phoneRe.StartsWith isDigit := by
  have hdigits {least most : Nat} (h : 0 < least) : (digitsRe least most).StartsWith isDigit :=
    Regex.startsWith_rep h fun _ hc => hc
  refine .notBehind (.alt (hdigits (by decide)).seq (.alt (hdigits (by decide)).seq ?_))
  refine (Regex.startsWith_rep (by decide) fun c hc => ?_).seq
  rw [beq_iff_eq.mp hc]
  decide

theorem hyphenateBare_ne_nil {digits : List Char} (h : digits ≠ []) : hyphenateBare digits ≠ [] := by
  unfold hyphenateBare
  simp only
  split
  · exact h
  · simp

theorem cleanTel_ne_empty {value : Scalar} {tel : String} (h : cleanTel value = some tel) : tel ≠ "" := by
  obtain ⟨text, -, h⟩ := Option.bind_eq_some_iff.mp h
  obtain ⟨m, hm, rfl⟩ := Option.map_eq_some_iff.mp h
  obtain ⟨c, rest, htext, hc⟩ := phoneRe_startsWith.search hm
  have hspace : c ≠ ' ' := by
    intro heq
    subst heq
    revert hc
    decide
  have htoken : m.text.filter (· != ' ') ≠ [] := by
    rw [htext, List.filter_cons_of_pos (by simpa using hspace)]
    exact List.cons_ne_nil _ _
  intro hempty
  have hnil := congrArg String.toList hempty
  rw [String.toList_ofList] at hnil
  split at hnil
  · exact htoken hnil
  · exact hyphenateBare_ne_nil htoken hnil

end TravelMaker
