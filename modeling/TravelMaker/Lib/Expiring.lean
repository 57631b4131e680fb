import Mathlib.Order.Lattice
import Mathlib.Tactic.Common

/-! A cache whose entries end.

Each entry is there until a time of its own, on a clock of any linear order. What counts
for a key is up to when it is there: `Holds` is kept by every write that does not end
the entry sooner. -/
namespace TravelMaker.Lib.Expiring

variable {K T : Type} [DecidableEq K] [LinearOrder T]

/-- The entries, each with its end. -/
abbrev Cache (K T : Type) := List (K × T)

def set (key : K) (last : T) (cache : Cache K T) : Cache K T := (key, last) :: cache.filter (·.1 != key)

def has (now : T) (key : K) (cache : Cache K T) : Bool := cache.any fun entry => entry.1 == key && now < entry.2

/-- The key is there at every time from `first` on and before `last`. -/
def Holds (key : K) (first last : T) (cache : Cache K T) : Prop :=
  ∀ now, first ≤ now → now < last → has now key cache = true

variable {key other : K} {first first' last last' : T} {cache : Cache K T}

/-- Nothing is asked once the time is over. -/
theorem holds_of_le (h : last ≤ first) : Holds key first last cache := fun _ hfirst hlast =>
  absurd (lt_of_lt_of_le hlast (le_trans h hfirst)) (lt_irrefl _)

theorem Holds.later (h : Holds key first last cache) (hfirst : first ≤ first') : Holds key first' last cache :=
  fun now hnow => h now (le_trans hfirst hnow)

theorem holds_set (h : last ≤ last') : Holds key first last (set key last' cache) := by
  intro now _ hnow
  rw [has, set, List.any_cons, Bool.or_eq_true, Bool.and_eq_true, beq_self_eq_true, decide_eq_true_eq]
  exact .inl ⟨rfl, lt_of_lt_of_le hnow h⟩

/-- A write to another key changes nothing for this one. -/
theorem has_set_of_ne (h : other ≠ key) (now : T) : has now key (set other last' cache) = has now key cache := by
  rw [has, has, set, List.any_cons, beq_false_of_ne h, Bool.false_and, Bool.false_or, List.any_filter]
  congr 1
  funext entry
  by_cases hkey : entry.1 = key
  · rw [hkey, bne_iff_ne.mpr h.symm, Bool.true_and]
  · rw [beq_false_of_ne hkey, Bool.false_and, Bool.and_false]

theorem Holds.set (h : Holds key first last cache) (hsame : other = key → last ≤ last') :
    Holds key first last (set other last' cache) := by
  by_cases heq : other = key
  · subst heq
    exact holds_set (hsame rfl)
  · intro now hfirst hlast
    rw [has_set_of_ne heq]
    exact h now hfirst hlast

end TravelMaker.Lib.Expiring
