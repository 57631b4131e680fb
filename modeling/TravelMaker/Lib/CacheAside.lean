import Mathlib.Logic.Function.Basic
import Mathlib.Order.Lattice
import TravelMaker.Lib.History

/-! A cache beside a source, read before the source and filled from it.

Each entry ends a lifetime after it was made. `entries_were_so` says of any system that fills
its cache with what it sees that an entry was so in a state that the system went through;
`served_was_so` says the same of what is served. -/
namespace TravelMaker.Lib.CacheAside
open History

variable {K V T S O : Type}

/-- What is kept for a key, with its end. -/
abbrev Cache (K V T : Type) := K → Option (V × T)

section
variable [LinearOrder T]

/-- What is kept for the key and has not ended. -/
def get (now : T) (key : K) (cache : Cache K V T) : Option V := ((cache key).filter (now < ·.2)).map (·.1)

variable [DecidableEq K]

def set (key : K) (value : V) (last : T) (cache : Cache K V T) : Cache K V T := Function.update cache key (some (value, last))

/-- Read the cache, or else the source; what the source has is kept if `keeps` says so. -/
def readThrough (now last : T) (key : K) (source : V) (keeps : V → Bool) (cache : Cache K V T) : V × Cache K V T :=
  match get now key cache with
  | some value => (value, cache)
  | none => (source, if keeps source then set key source last cache else cache)

end

section
variable [LinearOrder T] {now last : T} {key : K} {value source : V} {keeps : V → Bool} {cache : Cache K V T}

theorem get_eq_some : get now key cache = some value ↔ ∃ last, cache key = some (value, last) ∧ now < last := by
  unfold get
  constructor
  · intro h
    obtain ⟨entry, hfilter, rfl⟩ := Option.map_eq_some_iff.mp h
    obtain ⟨hentry, hlive⟩ := Option.filter_eq_some_iff.mp hfilter
    exact ⟨entry.2, hentry, of_decide_eq_true hlive⟩
  · rintro ⟨last, hentry, hlive⟩
    rw [hentry, Option.filter_some, if_pos (decide_eq_true hlive)]
    rfl

variable [DecidableEq K]

theorem readThrough_fst : (readThrough now last key source keeps cache).1 = (get now key cache).getD source := by
  unfold readThrough
  cases get now key cache <;> rfl

/-- Reading leaves an entry as it is, or makes one of what the source has. -/
theorem readThrough_entry {other : K} {entry : V × T} (h : (readThrough now last key source keeps cache).2 other = some entry) :
    cache other = some entry ∨ other = key ∧ entry = (source, last) ∧ keeps source = true := by
  unfold readThrough at h
  split at h
  · exact .inl h
  · dsimp only at h
    split at h
    · rename_i hkeeps
      by_cases hkey : other = key
      · subst hkey
        rw [set, Function.update_self] at h
        exact .inr ⟨rfl, (Option.some.inj h).symm, hkeeps⟩
      · rw [set, Function.update_of_ne hkey] at h
        exact .inl h
    · exact .inl h

end

/-! ### Histories -/

section
variable [Add T] {step : S → O → S} {clock : S → T} {cache : S → Cache K V T} {view : K → S → V} {ttl : T}

/-- Every step leaves an entry as it is, or makes one of what the source has. -/
def FilledFromSource (step : S → O → S) (clock : S → T) (cache : S → Cache K V T) (view : K → S → V) (ttl : T) : Prop :=
  ∀ s o key entry, cache (step s o) key = some entry → cache s key = some entry ∨ entry = (view key s, clock s + ttl)

variable (hfill : FilledFromSource step clock cache view ttl) {s : S} (hempty : ∀ key, cache s key = none)
include hfill

/-- An entry is one of before, or was made in a state of the history. -/
theorem entries_were_so (ops : List O) {key : K} {entry : V × T} (h : cache (ops.foldl step s) key = some entry) :
    cache s key = some entry ∨ ∃ t ∈ states step s ops, entry = (view key t, clock t + ttl) := by
  induction ops generalizing s with
  | nil => exact .inl h
  | cons o rest ih =>
    obtain hbefore | ⟨t, ht, hentry⟩ := ih h
    · obtain hkept | hmade := hfill s o key entry hbefore
      · exact .inl hkept
      · exact .inr ⟨s, mem_states_self _ _, hmade⟩
    · exact .inr ⟨t, List.mem_cons_of_mem _ ht, hentry⟩

include hempty

/-- **What is served was so less than a lifetime ago.** -/
theorem served_was_so [LinearOrder T] [DecidableEq K] (ops : List O) {key : K} {last : T} {keeps : V → Bool}
    (hpos : clock (ops.foldl step s) < clock (ops.foldl step s) + ttl) :
    ∃ t ∈ states step s ops, clock (ops.foldl step s) < clock t + ttl ∧
      (readThrough (clock (ops.foldl step s)) last key (view key (ops.foldl step s)) keeps (cache (ops.foldl step s))).1 =
        view key t := by
  rw [readThrough_fst]
  cases hget : get (clock (ops.foldl step s)) key (cache (ops.foldl step s)) with
  | none => exact ⟨_, foldl_mem_states s ops, hpos, rfl⟩
  | some value =>
    obtain ⟨ends, hentry, hlive⟩ := get_eq_some.mp hget
    obtain h | ⟨t, ht, heq⟩ := entries_were_so hfill ops hentry
    · rw [hempty] at h
      cases h
    · obtain ⟨rfl, rfl⟩ := Prod.mk.inj heq
      exact ⟨t, ht, hlive, rfl⟩

end

end TravelMaker.Lib.CacheAside
