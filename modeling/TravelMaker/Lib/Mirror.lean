import Mathlib.Data.List.Chain
import Mathlib.Data.List.Nodup
import Mathlib.Order.WithBot

/-! One row of a store that mirrors listings.

Listings are read one kind after the other. A listing is read entry by entry against
a snapshot: what the store held of its kind when the listing began. An entry that is
shown and can be stored is collected if the snapshot does not have its key, or an older
time; a hidden one turns the row off if the snapshot has its key.

`settled_iff` says when reading everything once is enough: the times never go back,
and reading the same listings again changes nothing. -/
namespace TravelMaker.Lib.Mirror

variable {C T : Type}

structure Row (C T : Type) where
  kind : C
  time : WithBot T
  live : Bool

/-- An entry of the row's key. -/
structure Entry (T : Type) where
  hidden : Bool
  complete : Bool
  time : WithBot T

/-- The entry would be collected if its key were new. -/
def Entry.storable (e : Entry T) : Bool := !e.hidden && e.complete

/-- An optional time as one that may be missing: it is then before all others. -/
def stamp (t : Option T) : WithBot T := t.elim ⊥ WithBot.some

/-- The time of a row, none while there is no row. -/
def time (r : Option (Row C T)) : WithBot T := r.elim ⊥ Row.time

def off (r : Option (Row C T)) : Option (Row C T) := r.map fun r => {r with live := false}

/-- What the snapshot of a kind has of a row. -/
def known [DecidableEq C] (kind : C) (r : Option (Row C T)) : Option (WithBot T) :=
  r.bind fun r => if r.kind = kind then some r.time else none

@[simp] theorem time_off (r : Option (Row C T)) : time (off r) = time r := by cases r <;> rfl

@[simp] theorem off_off (r : Option (Row C T)) : off (off r) = off r := by cases r <;> rfl

theorem off_eq_self {row : Row C T} : off (some row) = some row ↔ row.live = false := by
  constructor
  · intro h
    rw [← Option.some.inj h]
  · intro h
    rw [off, Option.map_some, ← h]

@[simp] theorem known_off [DecidableEq C] (kind : C) (r : Option (Row C T)) : known kind (off r) = known kind r := by
  cases r <;> rfl

theorem known_some [DecidableEq C] {kind : C} {r : Option (Row C T)} {t : WithBot T} (h : known kind r = some t) :
    ∃ row, r = some row ∧ row.kind = kind ∧ row.time = t := by
  obtain ⟨row, rfl, hrow⟩ := Option.bind_eq_some_iff.mp h
  split at hrow
  · exact ⟨row, rfl, ‹_›, Option.some.inj hrow⟩
  · cases hrow

/-- Listings of different kinds are different. -/
theorem fst_ne_of_nodup {β : Type} {before after : List (C × β)} {l l' : C × β}
    (hkinds : ((before ++ l :: after).map (·.1)).Nodup) (hl' : l' ∈ before ∨ l' ∈ after) : l'.1 ≠ l.1 := by
  rw [List.map_append, List.map_cons, List.nodup_middle, List.nodup_cons, List.mem_append] at hkinds
  intro heq
  rw [← heq] at hkinds
  exact hkinds.1 (hl'.imp List.mem_map_of_mem List.mem_map_of_mem)

theorem stamp_le [LinearOrder T] {t : T} {o : Option T} : stamp (some t) ≤ stamp o ↔ ∃ s, o = some s ∧ t ≤ s := by
  cases o with
  | none => exact iff_of_false (WithBot.not_coe_le_bot t) fun ⟨_, h, _⟩ => nomatch h
  | some s =>
    show (t : WithBot T) ≤ s ↔ _
    simp

/-! ### One listing -/

section
variable [LinearOrder T]

/-- The entry is collected, against what the snapshot has. -/
def Entry.collected (k : Option (WithBot T)) (e : Entry T) : Bool := e.storable && k.all fun t => decide (t < e.time)

def step (kind : C) (k : Option (WithBot T)) (r : Option (Row C T)) (e : Entry T) : Option (Row C T) :=
  if e.collected k then some ⟨kind, e.time, true⟩
  else if e.hidden && k.isSome then off r
  else r

/-- The row after the entries of a listing. -/
def follow (kind : C) (k : Option (WithBot T)) (es : List (Entry T)) (r : Option (Row C T)) : Option (Row C T) :=
  es.foldl (step kind k) r

/-- No step of a listing takes the time back. -/
def Ascends (kind : C) (k : Option (WithBot T)) : Option (Row C T) → List (Entry T) → Prop
  | _, [] => True
  | r, e :: es => time r ≤ time (step kind k r e) ∧ Ascends kind k (step kind k r e) es

/-- Each collected entry is followed by a hidden one. -/
def Closed (k : Option (WithBot T)) : List (Entry T) → Prop
  | [] => True
  | e :: es => (e.collected k = true → ∃ h ∈ es, h.hidden = true) ∧ Closed k es

variable {kind : C} {k : Option (WithBot T)} {e : Entry T} {es : List (Entry T)} {r : Option (Row C T)}

theorem shown_of_collected (h : e.collected k = true) : e.hidden = false := by
  simp only [Entry.collected, Entry.storable, Bool.and_eq_true, Bool.not_eq_true'] at h
  exact h.1.1

theorem step_collected (h : e.collected k = true) (r : Option (Row C T)) :
    step kind k r e = some ⟨kind, e.time, true⟩ := if_pos h

theorem step_of_not (h : e.collected k = false) (r : Option (Row C T)) :
    step kind k r e = if (e.hidden && k.isSome) = true then off r else r := if_neg (by simp [h])

theorem time_step_of_not (h : e.collected k = false) (r : Option (Row C T)) :
    time (step kind k r e) = time r := by
  rw [step_of_not h]
  split
  · exact time_off r
  · rfl

/-- A listing that collects nothing turns the row off, or leaves it. -/
theorem follow_of_none_collected (h : ∀ e ∈ es, e.collected k = false) (r : Option (Row C T)) :
    follow kind k es r = if (k.isSome && es.any (·.hidden)) = true then off r else r := by
  induction es generalizing r with
  | nil => simp [follow]
  | cons e es ih =>
    show follow kind k es (step kind k r e) = _
    rw [ih (fun e' h' => h e' (List.mem_cons_of_mem _ h')), step_of_not (h e List.mem_cons_self), List.any_cons]
    cases k.isSome <;> cases e.hidden <;> cases es.any (·.hidden) <;> simp

theorem ascends_iff :
    Ascends kind k r es ↔ (time r :: (es.filter (·.collected k)).map (·.time)).IsChain (· ≤ ·) := by
  induction es generalizing r with
  | nil => simp [Ascends]
  | cons e es ih =>
    unfold Ascends
    cases he : e.collected k with
    | true =>
      rw [List.filter_cons_of_pos he, List.map_cons, List.isChain_cons_cons, ih, step_collected he]
      rfl
    | false =>
      rw [List.filter_cons_of_neg (by simp [he]), ih, time_step_of_not he]
      exact and_iff_right le_rfl

theorem follow_append {es' : List (Entry T)} : follow kind k (es ++ es') r = follow kind k es' (follow kind k es r) :=
  List.foldl_append

theorem ascends_append {es' : List (Entry T)} :
    Ascends kind k r (es ++ es') ↔ Ascends kind k r es ∧ Ascends kind k (follow kind k es r) es' := by
  induction es generalizing r with
  | nil => exact (and_iff_right trivial).symm
  | cons e es ih =>
    show _ ∧ Ascends kind k _ (es ++ es') ↔ (_ ∧ _) ∧ _
    rw [ih, and_assoc]
    rfl

/-- Where the times ascend, the row ends with the latest of those collected. -/
theorem Ascends.le (h : Ascends kind k r es) : time r ≤ time (follow kind k es r) ∧
    ∀ e ∈ es, e.collected k = true → e.time ≤ time (follow kind k es r) := by
  induction es generalizing r with
  | nil => exact ⟨le_rfl, fun e he => nomatch he⟩
  | cons e es ih =>
    obtain ⟨hr, hes⟩ := ih h.2
    refine ⟨h.1.trans hr, fun e' he' hc => ?_⟩
    rcases List.mem_cons.mp he' with rfl | he'
    · show e'.time ≤ time (follow kind k es (step kind k r e'))
      rw [step_collected hc] at hr ⊢
      exact hr
    · exact hes e' he' hc

/-- What a collected entry sets and the entries after it keep. -/
theorem follow_of_collected {P : Row C T → Prop} (hset : ∀ t, P ⟨kind, t, true⟩)
    (hkeep : ∀ row e row', P row → step kind k (some row) e = some row' → P row')
    (h : ∃ e ∈ es, e.collected k = true) (r : Option (Row C T)) :
    ∃ row, follow kind k es r = some row ∧ P row := by
  have hrest : ∀ (es : List (Entry T)) (row : Row C T), P row →
      ∃ row', follow kind k es (some row) = some row' ∧ P row' := by
    intro es
    induction es with
    | nil => exact fun row hrow => ⟨row, rfl, hrow⟩
    | cons e es ih =>
      intro row hrow
      have hsome : ∃ row', step kind k (some row) e = some row' := by
        unfold step off
        split
        · exact ⟨_, rfl⟩
        · split
          · exact ⟨_, rfl⟩
          · exact ⟨_, rfl⟩
      obtain ⟨row', hrow'⟩ := hsome
      show ∃ row'', follow kind k es (step kind k (some row) e) = some row'' ∧ _
      rw [hrow']
      exact ih row' (hkeep row e row' hrow hrow')
  obtain ⟨e, he, hc⟩ := h
  induction es generalizing r with
  | nil => cases he
  | cons e' es ih =>
    rcases List.mem_cons.mp he with rfl | he
    · show ∃ row, follow kind k es (step kind k r e) = some row ∧ _
      rw [step_collected hc]
      exact hrest es _ (hset _)
    · exact ih (step kind k r e') he

/-- A row that an entry was collected for has the kind of the listing. -/
theorem kind_of_collected (h : ∃ e ∈ es, e.collected k = true) (r : Option (Row C T)) :
    ∃ row, follow kind k es r = some row ∧ row.kind = kind := by
  refine follow_of_collected (fun _ => rfl) (fun row e row' hrow hstep => ?_) h r
  unfold step off at hstep
  split at hstep
  · cases hstep
    rfl
  · split at hstep <;> cases hstep <;> exact hrow

/-- What the snapshot does not have stays on. -/
theorem live_of_unknown (h : ∃ e ∈ es, e.collected none = true) (r : Option (Row C T)) :
    ∃ row, follow kind none es r = some row ∧ row.live = true := by
  refine follow_of_collected (fun _ => rfl) (fun row e row' hrow hstep => ?_) h r
  unfold step at hstep
  rw [Option.isSome_none, Bool.and_false, if_neg Bool.false_ne_true] at hstep
  split at hstep
  · cases hstep
    rfl
  · cases hstep
    exact hrow

/-- **When a known row ends off**: a hidden entry follows what was collected last. -/
theorem live_of_known (kind : C) (t : WithBot T) (es : List (Entry T)) (row : Row C T) :
    ∃ row', follow kind (some t) es (some row) = some row' ∧
      (row'.live = false ↔ Closed (some t) es ∧ (row.live = false ∨ ∃ h ∈ es, h.hidden = true)) := by
  induction es generalizing row with
  | nil => exact ⟨row, rfl, by simp [Closed]⟩
  | cons e es ih =>
    cases hc : e.collected (some t) with
    | true =>
      have hshown := shown_of_collected hc
      obtain ⟨row', hrow', hlive⟩ := ih ⟨kind, e.time, true⟩
      refine ⟨row', ?_, ?_⟩
      · show follow kind (some t) es (step kind (some t) (some row) e) = _
        rw [step_collected hc, hrow']
      · rw [hlive]
        simp only [Closed, hc, List.exists_mem_cons_iff, hshown, Bool.true_eq_false, Bool.false_eq_true, false_or,
          true_implies]
        constructor
        · intro h
          obtain ⟨hclosed, h⟩ := h
          exact ⟨⟨h, hclosed⟩, .inr h⟩
        · intro h
          obtain ⟨⟨h, hclosed⟩, -⟩ := h
          exact ⟨hclosed, h⟩
    | false =>
      have hstep : step kind (some t) (some row) e = some {row with live := row.live && !e.hidden} := by
        rw [step_of_not hc]
        cases e.hidden <;> simp [off]
      obtain ⟨row', hrow', hlive⟩ := ih {row with live := row.live && !e.hidden}
      refine ⟨row', ?_, ?_⟩
      · show follow kind (some t) es (step kind (some t) (some row) e) = _
        rw [hstep, hrow']
      · rw [hlive]
        simp only [Closed, hc, List.exists_mem_cons_iff, Bool.false_eq_true, false_implies, true_and,
          Bool.and_eq_false_iff, Bool.not_eq_false', or_assoc]

end

/-! ### Listings -/

section
variable [LinearOrder T] [DecidableEq C]

/-- The row after listings, each against the snapshot at its beginning. -/
def run (ls : List (C × List (Entry T))) (r : Option (Row C T)) : Option (Row C T) :=
  ls.foldl (fun r l => follow l.1 (known l.1 r) l.2 r) r

/-- No step of a run takes the time back. -/
def AscendsAll : Option (Row C T) → List (C × List (Entry T)) → Prop
  | _, [] => True
  | r, l :: ls => Ascends l.1 (known l.1 r) r l.2 ∧ AscendsAll (follow l.1 (known l.1 r) l.2 r) ls

/-- A run collects some entry. -/
def Collects : Option (Row C T) → List (C × List (Entry T)) → Prop
  | _, [] => False
  | r, l :: ls => (∃ e ∈ l.2, e.collected (known l.1 r) = true) ∨ Collects (follow l.1 (known l.1 r) l.2 r) ls

/-- No entry would be collected against what is known of `r`. -/
def Resting (r : Option (Row C T)) (ls : List (C × List (Entry T))) : Prop :=
  ∀ l ∈ ls, ∀ e ∈ l.2, e.collected (known l.1 r) = false

variable {ls before after : List (C × List (Entry T))} {r : Option (Row C T)}

theorem follow_resting (h : Resting r ls) {l : C × List (Entry T)} (hl : l ∈ ls) :
    follow l.1 (known l.1 r) l.2 r =
      if ((known l.1 r).isSome && l.2.any (·.hidden)) = true then off r else r :=
  follow_of_none_collected (h l hl) r

/-- Nothing changes but that the row is turned off. -/
theorem run_resting (h : Resting r ls) :
    run ls r = if ls.any (fun l => (known l.1 r).isSome && l.2.any (·.hidden)) = true then off r else r := by
  induction ls generalizing r with
  | nil => simp [run]
  | cons l ls ih =>
    show run ls (follow l.1 (known l.1 r) l.2 r) = _
    have hrest : Resting r ls := fun l' hl' => h l' (List.mem_cons_of_mem _ hl')
    rw [follow_resting h List.mem_cons_self, List.any_cons]
    cases (known l.1 r).isSome && l.2.any (·.hidden) with
    | false =>
      rw [Bool.false_or]
      exact ih hrest
    | true =>
      have hoff : Resting (off r) ls := fun l' hl' e he => by
        rw [known_off]
        exact hrest l' hl' e he
      simpa using ih hoff

theorem ascendsAll_resting (h : Resting r ls) : AscendsAll r ls := by
  induction ls generalizing r with
  | nil => trivial
  | cons l ls ih =>
    refine ⟨ascends_iff.mpr ?_, ih fun l' hl' e he => ?_⟩
    · rw [List.filter_eq_nil_iff.mpr fun e he => by simp [h l List.mem_cons_self e he]]
      exact List.isChain_singleton _
    · have hknown : known l'.1 (follow l.1 (known l.1 r) l.2 r) = known l'.1 r := by
        rw [follow_resting h List.mem_cons_self]
        split
        · exact known_off _ _
        · rfl
      rw [hknown]
      exact h l' (List.mem_cons_of_mem _ hl') e he

theorem collects_iff : Collects r ls ↔ ¬ Resting r ls := by
  induction ls generalizing r with
  | nil => exact iff_of_false id fun h => h fun l hl => nomatch hl
  | cons l ls ih =>
    unfold Collects
    rw [ih]
    by_cases hl : ∃ e ∈ l.2, e.collected (known l.1 r) = true
    · refine iff_of_true (.inl hl) fun h => ?_
      obtain ⟨e, he, hc⟩ := hl
      rw [h l List.mem_cons_self e he] at hc
      cases hc
    · have hnone : ∀ e ∈ l.2, e.collected (known l.1 r) = false := fun e he =>
        Bool.eq_false_iff.mpr fun hc => hl ⟨e, he, hc⟩
      have hknown : ∀ kind, known kind (follow l.1 (known l.1 r) l.2 r) = known kind r := by
        intro kind
        rw [follow_of_none_collected hnone]
        split
        · exact known_off _ _
        · rfl
      simp only [Resting, hknown, List.forall_mem_cons, hl, false_or]
      exact not_congr ⟨fun h => ⟨hnone, h⟩, fun h => h.2⟩

theorem run_append : run (before ++ after) r = run after (run before r) := List.foldl_append

theorem ascendsAll_append : AscendsAll r (before ++ after) ↔ AscendsAll r before ∧ AscendsAll (run before r) after := by
  induction before generalizing r with
  | nil => exact (and_iff_right trivial).symm
  | cons l ls ih =>
    show _ ∧ AscendsAll _ (ls ++ after) ↔ (_ ∧ _) ∧ _
    rw [ih, and_assoc]
    rfl

/-! ### Reading everything once -/

/-- Where something is collected: its key is stored from no other kind, the times of
what is collected go up from the row's, and the row is to end off if an entry is hidden. -/
def Calm (r : Option (Row C T)) (ls : List (C × List (Entry T))) : Prop :=
  ∀ l ∈ ls, (∃ e ∈ l.2, e.collected (known l.1 r) = true) →
    (∀ l' ∈ ls, l'.1 ≠ l.1 → ∀ e ∈ l'.2, e.storable = false) ∧
    (time r :: (l.2.filter (·.collected (known l.1 r))).map (·.time)).IsChain (· ≤ ·) ∧
    ((∃ h ∈ l.2, h.hidden = true) → (known l.1 r).isSome = true ∧ Closed (known l.1 r) l.2)

/-- Reading the listings takes no time back, and reading them again does nothing. -/
structure Settled (r : Option (Row C T)) (ls : List (C × List (Entry T))) : Prop where
  ascends : AscendsAll r ls
  collects : ¬ Collects (run ls r) ls
  fixed : run ls (run ls r) = run ls r

theorem collected_of_storable {e : Entry T} (h : e.storable = false) (k : Option (WithBot T)) :
    e.collected k = false := by
  rw [Entry.collected, h, Bool.false_and]

/-- A run in which one listing stores the key ends with that listing. -/
theorem run_split {l : C × List (Entry T)} (hkinds : ((before ++ l :: after).map (·.1)).Nodup)
    (hother : ∀ l' ∈ before ++ l :: after, l'.1 ≠ l.1 → ∀ e ∈ l'.2, e.storable = false)
    (hcollected : ∃ e ∈ l.2, e.collected (known l.1 r) = true) :
    ∃ r', (r' = r ∨ r' = off r) ∧ run (before ++ l :: after) r = follow l.1 (known l.1 r) l.2 r' ∧
      (AscendsAll r (before ++ l :: after) ↔ Ascends l.1 (known l.1 r) r l.2) := by
  have hidle : ∀ l', l' ∈ before ∨ l' ∈ after → ∀ e ∈ l'.2, e.storable = false := fun l' hl' =>
    hother l' (List.mem_append.mpr (hl'.imp id (List.mem_cons_of_mem _))) (fst_ne_of_nodup hkinds hl')
  have hbefore : Resting r before := fun l' hl' e he => collected_of_storable (hidle l' (.inl hl') e he) _
  have hrun := run_resting hbefore
  refine ⟨run before r, ?_, ?_⟩
  · rw [hrun]
    split
    · exact .inr rfl
    · exact .inl rfl
  have htime : time (run before r) = time r := by
    rw [hrun]
    split
    · exact time_off r
    · rfl
  have hknown : known l.1 (run before r) = known l.1 r := by
    rw [hrun]
    split
    · exact known_off _ r
    · rfl
  obtain ⟨row, hrow, hkind⟩ := kind_of_collected hcollected (run before r)
  have hafter : Resting (some row) after := fun l' hl' e he => collected_of_storable (hidle l' (.inr hl') e he) _
  have hnone : ∀ l' ∈ after, known l'.1 (some row) = none := fun l' hl' =>
    if_neg fun h => fst_ne_of_nodup hkinds (.inr hl') (h.symm.trans hkind)
  constructor
  · rw [run_append]
    show run after (follow l.1 (known l.1 (run before r)) l.2 (run before r)) = _
    rw [hknown, hrow, run_resting hafter, if_neg]
    rw [List.any_eq_true]
    intro h
    obtain ⟨l', hl', h⟩ := h
    rw [hnone l' hl'] at h
    cases h
  · rw [ascendsAll_append, and_iff_right (ascendsAll_resting hbefore), AscendsAll, hknown, hrow,
      and_iff_left (ascendsAll_resting hafter), ascends_iff, ascends_iff, htime]

/-- What is storable and not collected is known, and no newer. -/
theorem known_of_storable {k : Option (WithBot T)} {e : Entry T} (hstorable : e.storable = true)
    (h : e.collected k = false) : ∃ t, k = some t ∧ e.time ≤ t := by
  rw [Entry.collected, hstorable, Bool.true_and] at h
  cases k with
  | none => cases h
  | some t => exact ⟨t, rfl, not_lt.mp (of_decide_eq_false h)⟩

/-- A known row ends off exactly if what is collected is followed by a hidden entry. -/
theorem live_of_isSome {kind : C} {es : List (Entry T)} {r' : Option (Row C T)} (hr' : r' = r ∨ r' = off r)
    (hknown : (known kind r).isSome = true) (hhidden : ∃ h ∈ es, h.hidden = true) {row : Row C T}
    (hrow : follow kind (known kind r) es r' = some row) : row.live = false ↔ Closed (known kind r) es := by
  obtain ⟨t, ht⟩ := Option.isSome_iff_exists.mp hknown
  obtain ⟨old, rfl, -, -⟩ := known_some ht
  rw [ht] at hrow ⊢
  have hstart : ∃ start, r' = some start := hr'.elim (fun h => ⟨_, h⟩) fun h => ⟨_, h⟩
  obtain ⟨start, rfl⟩ := hstart
  obtain ⟨row', hrow', hlive⟩ := live_of_known kind t es start
  rw [hrow'] at hrow
  cases hrow
  rw [hlive, and_iff_left (.inr hhidden)]

theorem settled_of_resting (h : Resting r ls) : Settled r ls := by
  have hsame : ∀ kind, known kind (run ls r) = known kind r := by
    intro kind
    rw [run_resting h]
    split
    · exact known_off _ _
    · rfl
  have hrest : Resting (run ls r) ls := fun l hl e he => by
    rw [hsame]
    exact h l hl e he
  refine ⟨ascendsAll_resting h, fun hc => collects_iff.mp hc hrest, ?_⟩
  rw [run_resting hrest]
  simp only [hsame]
  rw [run_resting h]
  split
  · exact off_off r
  · rfl

theorem calm_of_settled (hkinds : (ls.map (·.1)).Nodup) (h : Settled r ls) : Calm r ls := by
  intro l hl hcollected
  have hrest : Resting (run ls r) ls := by
    by_contra hnot
    exact h.collects (collects_iff.mpr hnot)
  -- what is stored against the row that the run leaves has that row's kind
  have hkind : ∀ l' ∈ ls, ∀ e ∈ l'.2, e.storable = true → ∃ row, run ls r = some row ∧ row.kind = l'.1 := by
    intro l' hl' e he hstorable
    obtain ⟨t, ht, -⟩ := known_of_storable hstorable (hrest l' hl' e he)
    obtain ⟨row, hrow, hkind, -⟩ := known_some ht
    exact ⟨row, hrow, hkind⟩
  obtain ⟨row, hrow, hrowKind⟩ : ∃ row, run ls r = some row ∧ row.kind = l.1 := by
    obtain ⟨e, he, hc⟩ := hcollected
    exact hkind l hl e he (Bool.and_eq_true_iff.mp hc).1
  have hother : ∀ l' ∈ ls, l'.1 ≠ l.1 → ∀ e ∈ l'.2, e.storable = false := by
    intro l' hl' hne e he
    by_contra hstorable
    obtain ⟨row', hrow', hkind'⟩ := hkind l' hl' e he (Bool.eq_true_of_not_eq_false hstorable)
    rw [hrow] at hrow'
    cases hrow'
    exact hne (hkind'.symm.trans hrowKind)
  obtain ⟨before, after, rfl⟩ := List.append_of_mem hl
  obtain ⟨r', hr', hrun, hascends⟩ := run_split hkinds hother hcollected
  refine ⟨hother, ascends_iff.mp (hascends.mp h.ascends), fun hhidden => ?_⟩
  have hoff : row.live = false := by
    have hfixed := h.fixed
    rw [run_resting hrest, if_pos, hrow] at hfixed
    · exact off_eq_self.mp hfixed
    · refine List.any_eq_true.mpr ⟨l, hl, ?_⟩
      rw [hrow, known, Option.bind_some, if_pos hrowKind, Option.isSome_some, Bool.true_and]
      exact List.any_eq_true.mpr hhidden
  rw [hrow] at hrun
  cases hknown : (known l.1 r).isSome with
  | true => exact ⟨rfl, (live_of_isSome hr' hknown hhidden hrun.symm).mp hoff⟩
  | false =>
    have hnone : known l.1 r = none := Option.isNone_iff_eq_none.mp (by simpa using hknown)
    rw [hnone] at hrun hcollected
    obtain ⟨row', hrow', hlive⟩ := live_of_unknown hcollected r'
    rw [hrow'] at hrun
    cases hrun
    rw [hoff] at hlive
    cases hlive

section
variable {l : C × List (Entry T)} {row : Row C T} (hsame : ∀ l' ∈ ls, l'.1 = l.1 → l' = l) (hkind : row.kind = l.1)
include hsame hkind

/-- A row that is as late as the listing of its kind is not collected again. -/
theorem resting_row (hother : ∀ l' ∈ ls, l'.1 ≠ l.1 → ∀ e ∈ l'.2, e.storable = false)
    (hlatest : ∀ e ∈ l.2, e.storable = true → e.time ≤ row.time) : Resting (some row) ls := by
  intro l' hl' e he
  by_cases heq : l'.1 = l.1
  · rw [hsame l' hl' heq] at he ⊢
    rw [known, Option.bind_some, if_pos hkind, Entry.collected, Option.all_some]
    cases hstorable : e.storable with
    | false => rfl
    | true => exact decide_eq_false (not_lt.mpr (hlatest e he hstorable))
  · exact collected_of_storable (hother l' hl' heq e he) _

/-- It stays as it is if it is off where the listing hides it. -/
theorem run_row (hrest : Resting (some row) ls) (hoff : (∃ e ∈ l.2, e.hidden = true) → row.live = false) :
    run ls (some row) = some row := by
  rw [run_resting hrest]
  split
  · rename_i hany
    obtain ⟨l', hl', hboth⟩ := List.any_eq_true.mp hany
    obtain ⟨hknown, hhidden⟩ := Bool.and_eq_true_iff.mp hboth
    have heq : l'.1 = l.1 := by
      by_contra hne
      rw [known, Option.bind_some, if_neg (fun h => hne (h.symm.trans hkind))] at hknown
      cases hknown
    rw [hsame l' hl' heq] at hhidden
    exact off_eq_self.mpr (hoff (List.any_eq_true.mp hhidden))
  · rfl

end

theorem settled_of_calm (hkinds : (ls.map (·.1)).Nodup) (h : Calm r ls) : Settled r ls := by
  by_cases hresting : Resting r ls
  · exact settled_of_resting hresting
  obtain ⟨l, hl, hcollected⟩ : ∃ l ∈ ls, ∃ e ∈ l.2, e.collected (known l.1 r) = true := by
    simpa [Resting] using hresting
  obtain ⟨hother, hchain, hhidden⟩ := h l hl hcollected
  have hsame : ∀ l' ∈ ls, l'.1 = l.1 → l' = l := fun l' hl' => List.inj_on_of_nodup_map hkinds hl' hl
  obtain ⟨before, after, rfl⟩ := List.append_of_mem hl
  obtain ⟨r', hr', hrun, hascends⟩ := run_split hkinds hother hcollected
  have htime : time r' = time r := by rcases hr' with rfl | rfl <;> simp
  obtain ⟨hfrom, hlatest⟩ := Ascends.le (ascends_iff.mpr (htime ▸ hchain) : Ascends l.1 (known l.1 r) r' l.2)
  obtain ⟨row, hrow, hrowKind⟩ := kind_of_collected hcollected r'
  rw [hrow] at hrun hfrom hlatest
  have hrest : Resting (some row) (before ++ l :: after) := by
    refine resting_row hsame hrowKind hother fun e he hstorable => ?_
    cases hc : e.collected (known l.1 r) with
    | true => exact hlatest e he hc
    | false =>
      obtain ⟨t, ht, hle⟩ := known_of_storable hstorable hc
      obtain ⟨old, rfl, -, rfl⟩ := known_some ht
      exact hle.trans (htime.ge.trans hfrom)
  refine ⟨hascends.mpr (ascends_iff.mpr hchain), fun hc => ?_, ?_⟩
  · rw [hrun] at hc
    exact collects_iff.mp hc hrest
  · rw [hrun]
    refine run_row hsame hrowKind hrest fun hhid => ?_
    obtain ⟨hsome, hclosed⟩ := hhidden hhid
    exact (live_of_isSome hr' hsome hhid hrow).mpr hclosed

/-- **When reading everything once is enough.** -/
theorem settled_iff (hkinds : (ls.map (·.1)).Nodup) : Settled r ls ↔ Calm r ls :=
  ⟨calm_of_settled hkinds, settled_of_calm hkinds⟩

end

end TravelMaker.Lib.Mirror
