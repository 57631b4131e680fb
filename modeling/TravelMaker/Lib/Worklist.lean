import Mathlib.Data.List.Nodup
import Mathlib.Data.List.Sort
import Mathlib.Logic.Function.Basic
import Mathlib.Logic.Function.Iterate

/-! Work lists that are recomputed from the store.

A run takes the keys that are pending, in order, decides from the store what to write
for each, and writes it step by step. Nothing else remembers what was done: the next run
takes what is pending then. `resume_iff` is about a run cut between two writes,
`batches_iff` about runs that take a few keys each. -/
namespace TravelMaker.Lib

/-- The keys of some rows in order are those of the keys in order that fit. -/
theorem keys_sorted_filter {α κ : Type} [LinearOrder κ] (key : α → κ) {p : α → Bool} {q : κ → Bool} {xs : List α}
    (h : ∀ x ∈ xs, q (key x) = p x) :
    ((xs.filter p).insertionSort (key · ≤ key ·)).map key = ((xs.map key).insertionSort (· ≤ ·)).filter q := by
  have hleft : ((xs.filter p).insertionSort (key · ≤ key ·)).map key =
      ((xs.filter p).map key).insertionSort (· ≤ ·) :=
    List.map_insertionSort (fun x y => key x ≤ key y) (· ≤ ·) key _ fun _ _ _ _ => Iff.rfl
  have hright : (xs.map key).filter q = (xs.filter p).map key := by
    rw [List.filter_map]
    exact congrArg (List.map _) (List.filter_congr h)
  rw [hleft]
  refine List.Perm.eq_of_sortedLE List.sortedLE_insertionSort ?_ ?_
  · exact (List.sortedLE_insertionSort.pairwise.sublist List.filter_sublist).sortedLE
  · exact (List.perm_insertionSort _ _).trans (hright ▸ (List.perm_insertionSort _ _).symm.filter _)

structure Worklist (K σ : Type) where
  pending : K → σ → Bool
  /-- The writes for a key, decided when the run begins. -/
  steps : K → σ → List (σ → σ)

namespace Worklist
variable {K σ : Type}

/-- Steps one after the other. -/
def after (fs : List (σ → σ)) (x : σ) : σ := fs.foldl (fun x f => f x) x

section
variable (W : Worklist K σ)

/-- What a run makes of a key. -/
def finish (k : K) (x : σ) : σ := if W.pending k x then after (W.steps k x) x else x

def targets (ks : List K) (s : K → σ) : List K := ks.filter fun k => W.pending k (s k)

/-- The writes for some keys, in order. -/
def writes (s : K → σ) (ts : List K) : List (K × (σ → σ)) := ts.flatMap fun k => (W.steps k (s k)).map fun f => (k, f)

theorem writes_append (s : K → σ) (ts us : List K) : W.writes s (ts ++ us) = W.writes s ts ++ W.writes s us :=
  List.flatMap_append

theorem nodup_targets {ks : List K} (hks : ks.Nodup) (s : K → σ) : (W.targets ks s).Nodup := hks.filter _

theorem mem_targets {ks : List K} {s : K → σ} {k : K} : k ∈ W.targets ks s ↔ k ∈ ks ∧ W.pending k (s k) = true :=
  List.mem_filter

/-- A cut is after the last write, or within the writes of some key. -/
theorem take_writes (s : K → σ) (ts : List K) (m : Nat) : (W.writes s ts).take m = W.writes s ts ∨
    ∃ before k rest j, ts = before ++ k :: rest ∧ m = (W.writes s before).length + j ∧
      j < (W.steps k (s k)).length ∧
      (W.writes s ts).take m = W.writes s before ++ ((W.steps k (s k)).take j).map fun f => (k, f) := by
  induction ts generalizing m with
  | nil => exact .inl List.take_nil
  | cons t ts ih =>
    have hcons : W.writes s (t :: ts) = (W.steps t (s t)).map (fun f => (t, f)) ++ W.writes s ts := rfl
    by_cases hm : m < (W.steps t (s t)).length
    · refine .inr ⟨[], t, ts, m, rfl, (Nat.zero_add m).symm, hm, ?_⟩
      rw [hcons, List.take_append_of_le_length (by simpa using Nat.le_of_lt hm), ← List.map_take]
      rfl
    · have hlen : ((W.steps t (s t)).map fun f => (t, f)).length ≤ m := by simpa using hm
      rw [hcons, List.take_append, List.take_of_length_le hlen]
      rcases ih (m - ((W.steps t (s t)).map fun f => (t, f)).length) with h | ⟨before, k, rest, j, rfl, hj, hlt, htake⟩
      · exact .inl (by rw [h])
      · refine .inr ⟨t :: before, k, rest, j, rfl, ?_, hlt, ?_⟩
        · rw [show W.writes s (t :: before) = (W.steps t (s t)).map (fun f => (t, f)) ++ W.writes s before from rfl,
            List.length_append]
          omega
        · rw [htake, ← List.append_assoc]
          rfl

/-- Where nothing becomes pending, the targets are among those of before. -/
theorem targets_sub {ks : List K} {s s' : K → σ}
    (h : ∀ k ∈ ks, W.pending k (s' k) = true → W.pending k (s k) = true) :
    W.targets ks s' = (W.targets ks s).filter fun k => W.pending k (s' k) := by
  unfold targets
  rw [List.filter_filter]
  refine List.filter_congr fun k hk => ?_
  cases hpending : W.pending k (s' k) with
  | false => rfl
  | true => rw [h k hk hpending, Bool.and_true]

variable [DecidableEq K]

def put (s : K → σ) (w : K × (σ → σ)) : K → σ := Function.update s w.1 (w.2 (s w.1))

def apply (ws : List (K × (σ → σ))) (s : K → σ) : K → σ := ws.foldl put s

/-- A run over the keys. -/
def run (ks : List K) (s : K → σ) : K → σ := apply (W.writes s (W.targets ks s)) s

/-- A run that takes `n` keys at most. -/
def batch (n : Nat) (ks : List K) (s : K → σ) : K → σ := apply (W.writes s ((W.targets ks s).take n)) s

end

/-! ### Writes -/

section
variable [DecidableEq K]

theorem apply_append (ws vs : List (K × (σ → σ))) (s : K → σ) : apply (ws ++ vs) s = apply vs (apply ws s) :=
  List.foldl_append

/-- The writes of one key. -/
theorem apply_map (k : K) (fs : List (σ → σ)) (s : K → σ) :
    apply (fs.map fun f => (k, f)) s = Function.update s k (after fs (s k)) := by
  induction fs generalizing s with
  | nil => exact (Function.update_eq_self k s).symm
  | cons f fs ih =>
    show apply (fs.map _) (Function.update s k (f (s k))) = _
    rw [ih, Function.update_idem, Function.update_self]
    rfl

variable (W : Worklist K σ)

/-- Each key gets its own writes. -/
theorem apply_writes (s s' : K → σ) {ts : List K} (hts : ts.Nodup) (k : K) :
    apply (W.writes s ts) s' k = if k ∈ ts then after (W.steps k (s k)) (s' k) else s' k := by
  induction ts generalizing s' with
  | nil => rfl
  | cons t ts ih =>
    rw [List.nodup_cons] at hts
    rw [show t :: ts = [t] ++ ts from rfl, writes_append, apply_append, ih _ hts.2]
    rw [show W.writes s [t] = (W.steps t (s t)).map (fun f => (t, f)) from List.append_nil _, apply_map]
    by_cases hk : k = t
    · rw [hk, if_neg hts.1, if_pos (List.mem_append_left _ (List.mem_singleton_self t)), Function.update_self]
    · rw [Function.update_of_ne hk]
      simp [hk]

/-- Some targets finished, the others left. -/
theorem apply_targets {ks ts : List K} {s : K → σ} (hts : ts.Nodup) (hsub : ∀ k ∈ ts, k ∈ W.targets ks s) (k : K) :
    apply (W.writes s ts) s k = if k ∈ ts then W.finish k (s k) else s k := by
  rw [W.apply_writes s s hts]
  split
  · rename_i hk
    exact (if_pos (W.mem_targets.mp (hsub k hk)).2).symm
  · rfl

theorem run_eq {ks : List K} (hks : ks.Nodup) (s : K → σ) (k : K) :
    W.run ks s k = if k ∈ ks then W.finish k (s k) else s k := by
  rw [run, W.apply_targets (W.nodup_targets hks s) fun _ h => h]
  by_cases hk : k ∈ ks
  · rw [if_pos hk]
    by_cases hpending : W.pending k (s k) = true
    · rw [if_pos (W.mem_targets.mpr ⟨hk, hpending⟩)]
    · rw [if_neg fun h => hpending (W.mem_targets.mp h).2, finish, if_neg hpending]
  · rw [if_neg hk, if_neg fun h => hk (W.mem_targets.mp h).1]

/-! ### Runs cut short -/

variable {ks : List K} {s : K → σ} (hks : ks.Nodup) (hfinish : ∀ k x, W.finish k (W.finish k x) = W.finish k x)
include hks hfinish

/-- A run resumed between two keys. -/
theorem resume_between {ts rest : List K} (hts : W.targets ks s = ts ++ rest) :
    W.run ks (apply (W.writes s ts) s) = W.run ks s := by
  have hnodup : ts.Nodup := (List.nodup_append.mp (hts ▸ W.nodup_targets hks s)).1
  have hsub : ∀ k ∈ ts, k ∈ W.targets ks s := fun k hk => hts ▸ List.mem_append_left _ hk
  funext k
  rw [W.run_eq hks, W.run_eq hks, W.apply_targets hnodup hsub]
  by_cases hk : k ∈ ts
  · have hmem := (W.mem_targets.mp (hsub k hk)).1
    rw [if_pos hk, if_pos hmem, if_pos hmem, hfinish]
  · rw [if_neg hk]

/-- What a run cut within the writes of `k` leaves, resumed. -/
theorem resume_within {before rest : List K} {k : K} (hts : W.targets ks s = before ++ k :: rest) (fs : List (σ → σ)) :
    W.run ks (apply (W.writes s before ++ fs.map fun f => (k, f)) s) = W.run ks s ↔
      W.finish k (after fs (s k)) = W.finish k (s k) := by
  have hnodup := hts ▸ W.nodup_targets hks s
  rw [List.nodup_middle, List.nodup_cons, List.mem_append, not_or] at hnodup
  have hmem : k ∈ ks := (W.mem_targets.mp (hts ▸ List.mem_append_right _ List.mem_cons_self)).1
  have hbetween := W.resume_between hks hfinish hts
  have hk : apply (W.writes s before) s k = s k := by
    rw [W.apply_writes s s (List.nodup_append.mp hnodup.2).1, if_neg hnodup.1.1]
  rw [apply_append, apply_map, hk]
  constructor
  · intro h
    have hat := congrFun h k
    rwa [W.run_eq hks, W.run_eq hks, if_pos hmem, if_pos hmem, Function.update_self] at hat
  · intro h
    rw [← hbetween]
    funext k'
    rw [W.run_eq hks, W.run_eq hks]
    by_cases hne : k' = k
    · rw [hne, if_pos hmem, if_pos hmem, Function.update_self, h, hk]
    · rw [Function.update_of_ne hne]

/-- **When a cut run can be resumed**: if it is cut within the writes of a key, the next
run makes of what is written what it would have made of the key. -/
theorem resume_iff (m : Nat) : W.run ks (apply ((W.writes s (W.targets ks s)).take m) s) = W.run ks s ↔
    ∀ before k rest j, W.targets ks s = before ++ k :: rest → m = (W.writes s before).length + j → 0 < j →
      j < (W.steps k (s k)).length → W.finish k (after ((W.steps k (s k)).take j) (s k)) = W.finish k (s k) := by
  constructor
  · intro h before k rest j hts hm _ hlt
    have htake : (W.writes s (W.targets ks s)).take m =
        W.writes s before ++ ((W.steps k (s k)).take j).map fun f => (k, f) := by
      rw [hts, writes_append, hm, List.take_append, List.take_of_length_le (Nat.le_add_right _ _),
        Nat.add_sub_cancel_left]
      show _ ++ ((W.steps k (s k)).map _ ++ _).take j = _
      rw [List.take_append_of_le_length (by simpa using Nat.le_of_lt hlt), ← List.map_take]
    rw [htake] at h
    exact (W.resume_within hks hfinish hts _).mp h
  · intro h
    rcases W.take_writes s (W.targets ks s) m with htake | ⟨before, k, rest, j, hts, hm, hlt, htake⟩
    · rw [htake]
      exact W.resume_between hks hfinish (List.append_nil _).symm
    · rw [htake, W.resume_within hks hfinish hts]
      by_cases hj : 0 < j
      · exact h before k rest j hts hm hj hlt
      · rw [Nat.eq_zero_of_not_pos hj, List.take_zero]
        rfl

/-! ### Batches -/

omit hks hfinish in
/-- How far `r` runs of at most `n` keys each get into the targets: each run takes again
the keys before that are still pending. -/
def reached (n : Nat) (s : K → σ) (ts : List K) : Nat → Nat
  | 0 => 0
  | r + 1 => reached n s ts r +
      (n - ((ts.take (reached n s ts r)).filter fun k => W.pending k (W.finish k (s k))).length)

omit hfinish in
/-- What is pending once the first `m` targets are finished: those still pending, then the rest. -/
theorem targets_apply (m : Nat) :
    W.targets ks (apply (W.writes s ((W.targets ks s).take m)) s) =
      ((W.targets ks s).take m).filter (fun k => W.pending k (W.finish k (s k))) ++ (W.targets ks s).drop m := by
  have hnodup := W.nodup_targets hks s
  have hat := W.apply_targets (s := s) (hnodup.sublist (List.take_sublist m _)) fun k hk => List.mem_of_mem_take hk
  have hsplit := List.take_append_drop m (W.targets ks s)
  have hdisjoint := List.disjoint_of_nodup_append (hsplit.symm ▸ hnodup)
  have hstill : ∀ k ∈ ks, W.pending k (apply (W.writes s ((W.targets ks s).take m)) s k) = true →
      W.pending k (s k) = true := by
    intro k hk h
    rw [hat] at h
    split at h
    · rename_i htaken
      exact (W.mem_targets.mp (List.mem_of_mem_take htaken)).2
    · exact h
  rw [W.targets_sub hstill]
  conv_lhs => rw [← hsplit, List.filter_append]
  rw [hsplit]
  congr 1
  · refine List.filter_congr fun k hk => ?_
    rw [hat, if_pos hk]
  · refine List.filter_eq_self.mpr fun k hk => ?_
    rw [hat, if_neg fun h => hdisjoint h hk]
    exact (W.mem_targets.mp (List.mem_of_mem_drop hk)).2

/-- One more batch. -/
theorem batch_apply (n m : Nat) : W.batch n ks (apply (W.writes s ((W.targets ks s).take m)) s) =
    apply (W.writes s ((W.targets ks s).take (m + (n -
      (((W.targets ks s).take m).filter fun k => W.pending k (W.finish k (s k))).length)))) s := by
  have hnodup := W.nodup_targets hks s
  have hat : ∀ m, _ := fun m =>
    W.apply_targets (s := s) (hnodup.sublist (List.take_sublist m _)) fun k hk => List.mem_of_mem_take hk
  have hnow := W.nodup_targets hks (apply (W.writes s ((W.targets ks s).take m)) s)
  funext k
  rw [batch, W.apply_targets (hnow.sublist (List.take_sublist n _)) fun k hk => List.mem_of_mem_take hk, hat, hat,
    W.targets_apply hks m, List.take_append, List.take_add]
  by_cases hdone : k ∈ (W.targets ks s).take m
  · rw [if_pos hdone, if_pos (List.mem_append_left _ hdone), hfinish, ite_self]
  · have hstill : k ∉ (((W.targets ks s).take m).filter fun k => W.pending k (W.finish k (s k))).take n :=
      fun h => hdone (List.mem_of_mem_filter (List.mem_of_mem_take h))
    simp only [List.mem_append, hdone, hstill, false_or, if_false]

theorem batches_eq (n r : Nat) : (W.batch n ks)^[r] s =
    apply (W.writes s ((W.targets ks s).take (W.reached n s (W.targets ks s) r))) s := by
  induction r with
  | zero => rfl
  | succ r ih => rw [Function.iterate_succ_apply', ih, W.batch_apply hks hfinish, reached]

/-- What is pending after some batches was pending before them. -/
theorem pending_of_batches {n r : Nat} {k : K} (h : W.pending k ((W.batch n ks)^[r] s k) = true) :
    W.pending k (s k) = true := by
  have hnodup := W.nodup_targets hks s
  rw [W.batches_eq hks hfinish, W.apply_targets (hnodup.sublist (List.take_sublist _ _)) fun k hk =>
    List.mem_of_mem_take hk] at h
  split at h
  · rename_i htaken
    exact (W.mem_targets.mp (List.mem_of_mem_take htaken)).2
  · exact h

/-- What some batches leave: the keys they took that are still pending, and those they did not reach. -/
theorem targets_batches (n r : Nat) : W.targets ks ((W.batch n ks)^[r] s) =
    ((W.targets ks s).take (W.reached n s (W.targets ks s) r)).filter (fun k => W.pending k (W.finish k (s k))) ++
      (W.targets ks s).drop (W.reached n s (W.targets ks s) r) := by
  rw [W.batches_eq hks hfinish, W.targets_apply hks]

/-- **When batches do what one run does**: what they do not reach has nothing to do. -/
theorem batches_iff (n r : Nat) : (W.batch n ks)^[r] s = W.run ks s ↔
    ∀ k ∈ (W.targets ks s).drop (W.reached n s (W.targets ks s) r), W.finish k (s k) = s k := by
  have hnodup := W.nodup_targets hks s
  generalize hm : W.reached n s (W.targets ks s) r = m
  have hat := W.apply_targets (s := s) (hnodup.sublist (List.take_sublist m _)) fun k hk => List.mem_of_mem_take hk
  have hsplit := List.take_append_drop m (W.targets ks s)
  rw [W.batches_eq hks hfinish, hm]
  constructor
  · intro h k hk
    have hk' := congrFun h k
    have hdisjoint := List.disjoint_of_nodup_append (hsplit.symm ▸ hnodup)
    rw [hat, if_neg fun h => hdisjoint h hk, W.run_eq hks,
      if_pos (W.mem_targets.mp (List.mem_of_mem_drop hk)).1] at hk'
    exact hk'.symm
  · intro h
    funext k
    rw [hat, run, W.apply_targets hnodup fun _ h => h]
    by_cases hk : k ∈ W.targets ks s
    · rw [if_pos hk]
      rcases List.mem_append.mp (hsplit.symm ▸ hk) with hk | hk
      · rw [if_pos hk]
      · rw [h k hk, ite_self]
    · rw [if_neg hk, if_neg fun h => hk (List.mem_of_mem_take h)]

end

end Worklist
end TravelMaker.Lib
