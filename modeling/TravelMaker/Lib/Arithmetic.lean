import TravelMaker.Lib.Format

/-! Arithmetic on the floats of a format, as IEEE 754 has it.

An operation is that of the numbers, rounded once. `Double.number` reads the floats that
have texts as those of `binary64`. -/
namespace TravelMaker.Lib

/-- The size of a finite float. -/
structure Size (f : Format) where
  value : ℚ
  nearest_eq : f.nearest value = value
  lt : value < 2 ^ f.top
deriving DecidableEq, Repr

inductive Number (f : Format) where
  | finite (negative : Bool) (size : Size f)
  | infinity (negative : Bool)
  | nan
deriving DecidableEq, Repr

namespace Number
variable {f : Format}

/-- The float nearest to a number of this size. -/
def ofSize (f : Format) (negative : Bool) (q : ℚ) : Number f :=
  if h : f.nearest q < 2 ^ f.top then .finite negative ⟨f.nearest q, Format.nearest_nearest q, h⟩ else .infinity negative

/-- The float nearest to a number. -/
def nearestTo (f : Format) (q : ℚ) : Number f := ofSize f (q < 0) |q|

/-- The value of a finite float. -/
def toRat? : Number f → Option ℚ
  | .finite negative m => some (if negative then -m.value else m.value)
  | _ => none

/-! ### Comparisons -/

/-- `x < y`. -/
def lt (x y : Number f) : Bool :=
  match x, y with
  | .nan, _ | _, .nan => false
  | .infinity negative, .infinity negative' => negative && !negative'
  | .infinity negative, .finite .. => negative
  | .finite .., .infinity negative => !negative
  | .finite .., .finite .. => x.toRat?.any fun q => y.toRat?.any (q < ·)

/-- `x <= y`. -/
def le (x y : Number f) : Bool :=
  match x, y with
  | .nan, _ | _, .nan => false
  | .infinity negative, .infinity negative' => negative || !negative'
  | .infinity negative, .finite .. => negative
  | .finite .., .infinity negative => !negative
  | .finite .., .finite .. => x.toRat?.any fun q => y.toRat?.any (q ≤ ·)

/-- `min(x, y)`: the first, unless the second is below it. -/
def min (x y : Number f) : Number f := if y.lt x then y else x

/-- `max(x, y)`: the first, unless the second is above it. -/
def max (x y : Number f) : Number f := if x.lt y then y else x

/-! ### Operations -/

def neg : Number f → Number f
  | .finite negative m => .finite (!negative) m
  | .infinity negative => .infinity (!negative)
  | .nan => .nan

/-- `abs(x)`. -/
def abs : Number f → Number f
  | .finite _ m => .finite false m
  | .infinity _ => .infinity false
  | .nan => .nan

/-- `x + y`; where nothing is left the sum is negative if both are. -/
def add (x y : Number f) : Number f :=
  match x, y with
  | .nan, _ | _, .nan => .nan
  | .infinity negative, .infinity negative' => if negative = negative' then .infinity negative else .nan
  | .infinity negative, .finite .. | .finite .., .infinity negative => .infinity negative
  | .finite negative m, .finite negative' m' =>
    let sum := (if negative then -m.value else m.value) + (if negative' then -m'.value else m'.value)
    if sum = 0 then ofSize f (negative && negative') 0 else nearestTo f sum

/-- `x - y`. -/
def sub (x y : Number f) : Number f := x.add y.neg

/-- `x * y`. -/
def mul (x y : Number f) : Number f :=
  match x, y with
  | .nan, _ | _, .nan => .nan
  | .infinity negative, .infinity negative' => .infinity (negative != negative')
  | .infinity negative, .finite negative' m | .finite negative' m, .infinity negative =>
    if m.value = 0 then .nan else .infinity (negative != negative')
  | .finite negative m, .finite negative' m' => ofSize f (negative != negative') (m.value * m'.value)

/-- `x / n`, for a positive int that is a float. -/
def divNat (x : Number f) (n : ℕ) : Number f :=
  match x with
  | .finite negative m => ofSize f negative (m.value / n)
  | .infinity negative => .infinity negative
  | .nan => .nan

/-- `round(x)` for a finite float. -/
def roundInt? (x : Number f) : Option ℤ := x.toRat?.map roundHalfEven

/-- The nearest float of another format. -/
def cast {f : Format} (g : Format) : Number f → Number g
  | .finite negative m => ofSize g negative m.value
  | .infinity negative => .infinity negative
  | .nan => .nan

theorem ofSize_eq {negative : Bool} {q : ℚ} {m : Size f} (h : f.nearest q = m.value) :
    ofSize f negative q = .finite negative m := by
  obtain ⟨value, hnearest, hlt⟩ := m
  subst h
  rw [ofSize, dif_pos hlt]

/-- Once in a format, a number stays as it is there. -/
theorem cast_cast (g : Format) (x : Number f) : (x.cast g).cast g = x.cast g := by
  cases x with
  | finite negative m =>
    show (ofSize g negative m.value).cast g = ofSize g negative m.value
    unfold ofSize
    split
    · exact ofSize_eq (Format.nearest_nearest _)
    · rfl
  | infinity negative => rfl
  | nan => rfl

/-! ### Bounds -/

/-- A finite float, at most of this size. -/
def Within (m : ℚ) (x : Number f) : Prop := ∃ negative size, x = .finite negative size ∧ size.value ≤ m

theorem size_nonneg (size : Size f) : 0 ≤ size.value := size.nearest_eq ▸ Format.nearest_nonneg

variable {x y : Number f} {m a b q : ℚ}

/-- Rounding does not go past a float. -/
theorem ofSize_within (hm : f.nearest m = m) (hlt : m < 2 ^ f.top) (h : q ≤ m) (negative : Bool) :
    (ofSize f negative q).Within m := by
  have hle : f.nearest q ≤ m := Format.nearest_le hm h
  exact ⟨negative, ⟨f.nearest q, Format.nearest_nearest q, hle.trans_lt hlt⟩, ofSize_eq rfl, hle⟩

theorem Within.neg (h : x.Within m) : x.neg.Within m := by
  obtain ⟨negative, size, rfl, hsize⟩ := h
  exact ⟨!negative, size, rfl, hsize⟩

theorem Within.add (hx : x.Within a) (hy : y.Within b) (hm : f.nearest (a + b) = a + b) (hlt : a + b < 2 ^ f.top) :
    (x.add y).Within (a + b) := by
  obtain ⟨negative, size, rfl, hsize⟩ := hx
  obtain ⟨negative', size', rfl, hsize'⟩ := hy
  have hnonneg := size_nonneg size
  have hnonneg' := size_nonneg size'
  have hleft : |if negative then -size.value else size.value| ≤ a := by
    split <;> simpa [abs_of_nonneg hnonneg] using hsize
  have hright : |if negative' then -size'.value else size'.value| ≤ b := by
    split <;> simpa [abs_of_nonneg hnonneg'] using hsize'
  simp only [Number.add]
  by_cases hsum : (if negative then -size.value else size.value) + (if negative' then -size'.value else size'.value) = 0
  · rw [if_pos hsum]
    exact ofSize_within hm hlt (by linarith) _
  · rw [if_neg hsum]
    exact ofSize_within hm hlt ((abs_add_le _ _).trans (add_le_add hleft hright)) _

theorem Within.sub (hx : x.Within a) (hy : y.Within b) (hm : f.nearest (a + b) = a + b) (hlt : a + b < 2 ^ f.top) :
    (x.sub y).Within (a + b) := hx.add hy.neg hm hlt

theorem Within.mul (hx : x.Within a) (hy : y.Within b) (hm : f.nearest (a * b) = a * b) (hlt : a * b < 2 ^ f.top) :
    (x.mul y).Within (a * b) := by
  obtain ⟨negative, size, rfl, hsize⟩ := hx
  obtain ⟨negative', size', rfl, hsize'⟩ := hy
  have hnonneg := size_nonneg size
  exact ofSize_within hm hlt (mul_le_mul hsize hsize' (size_nonneg size') (hnonneg.trans hsize)) _

theorem Within.cast {g : Format} (h : x.Within m) (hm : g.nearest m = m) (hlt : m < 2 ^ g.top) : (x.cast g).Within m := by
  obtain ⟨negative, size, rfl, hsize⟩ := h
  exact ofSize_within hm hlt hsize negative

/-- Between 0 and a finite float there is nothing else. -/
theorem within_of_lt {size : Size f} (hpos : (ofSize f false 0).lt x = true) (hlt : x.lt (.finite false size) = true) :
    x.Within size.value := by
  cases x with
  | nan => simp [lt] at hlt
  | infinity negative' =>
    cases negative' with
    | true => simp [ofSize, lt, Format.nearest] at hpos
    | false => simp [lt] at hlt
  | finite negative' size' =>
    have hnonneg := size_nonneg size'
    refine ⟨negative', size', rfl, ?_⟩
    cases negative' with
    | true =>
      simp [ofSize, lt, toRat?, Format.nearest] at hpos
      linarith
    | false =>
      simp [lt, toRat?] at hlt
      exact hlt.le

theorem max_min_cases (low high x : Number f) : low.max (high.min x) = low ∨ low.max (high.min x) = high ∨
    low.max (high.min x) = x ∧ low.lt x = true ∧ x.lt high = true := by
  unfold max min
  split <;> split <;> simp_all

/-- Cut off below 0 and above a float, anything is finite, even what is no number. -/
theorem within_clamp (hm : f.nearest m = m) (hlt : m < 2 ^ f.top) (hpos : 0 ≤ m) (x : Number f) :
    ((ofSize f false 0).max ((ofSize f false m).min x)).Within m := by
  have hhigh : ofSize f false m = .finite false ⟨m, hm, hlt⟩ := ofSize_eq hm
  rcases max_min_cases (ofSize f false 0) (ofSize f false m) x with h | h | ⟨h, hlow, hbelow⟩
  · rw [h]
    exact ofSize_within hm hlt hpos false
  · rw [h]
    exact ofSize_within hm hlt le_rfl false
  · rw [h]
    rw [hhigh] at hbelow
    exact within_of_lt hlow hbelow

end Number

/-! ### Sums -/

/-- `sum(xs)` of a list with an element. -/
class PySum (f : Format) where
  sum : List (Number f) → Number f

/-- A running sum, and the part that its roundings lost. -/
structure CompensatedSum (f : Format) where
  hi : Number f
  lo : Number f

namespace CompensatedSum
variable {f : Format}

/-- One addition of `sum`: what is lost is lost of the smaller number. -/
def add (total : CompensatedSum f) (x : Number f) : CompensatedSum f :=
  let t := total.hi.add x
  if x.abs.le total.hi.abs then ⟨t, total.lo.add ((total.hi.sub t).add x)⟩
  else ⟨t, total.lo.add ((x.sub t).add total.hi)⟩

def total (s : CompensatedSum f) : Number f := if s.lo.toRat?.any (· ≠ 0) then s.hi.add s.lo else s.hi

end CompensatedSum

/-- The floats of Python are summed with the part that is lost. -/
instance : PySum binary64 where
  sum xs :=
    match xs with
    | [] => .ofSize binary64 false 0
    | x :: rest => (rest.foldl .add ⟨(Number.ofSize binary64 false 0).add x, .ofSize binary64 false 0⟩ : CompensatedSum _).total

/-- Other numbers are added one by one, from 0. -/
instance : PySum binary32 where
  sum xs := xs.foldl .add (.ofSize binary32 false 0)

/-! ### Floats with texts -/

def Double.number : Double → Number binary64
  | .finite negative m => .finite negative ⟨m.value, m.nearest_eq, m.lt⟩
  | .infinity negative => .infinity negative
  | .nan => .nan

def Number.double : Number binary64 → Double
  | .finite negative m => .finite negative ⟨m.value, m.nearest_eq, m.lt⟩
  | .infinity negative => .infinity negative
  | .nan => .nan

@[simp] theorem Double.double_number (x : Double) : x.number.double = x := by cases x <;> rfl

@[simp] theorem Number.number_double (x : Number binary64) : x.double.number = x := by cases x <;> rfl

end TravelMaker.Lib
