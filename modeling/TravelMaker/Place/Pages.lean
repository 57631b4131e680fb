import TravelMaker.Lib.Pages
import TravelMaker.Place.SyncRun

/-! What collection reads and hands over.

A run is a sequence of moves: list calls with their answers, and items handed to the
function that processes them. `every_page_once` says which moves: of each type the pages
in order, up to the last one or to the first call that fails, and each item as it comes. -/
namespace TravelMaker
open Lib.Pages (page pageCount)

variable {V S : Type}

/-! ### Moves -/

inductive Move where
  | list (c : Call) (answer : Except Exc (List Item))
  | hand (item : Item)

/-- The list calls of a run. -/
def listCalls (moves : List Move) : List Call :=
  moves.filterMap fun
    | .list c _ => some c
    | .hand _ => none

/-- The items that are handed over. -/
def handedOver (moves : List Move) : List Item :=
  moves.filterMap fun
    | .list _ _ => none
    | .hand item => some item

/-- From `w` the moves are made one after the other, up to the first item that raises, and
the run ends as `o`. -/
def Makes (out : Outside) (process : Item → Collect V S Unit) : List Move → World V S → Except Exc Unit × World V S → Prop
  | [], w, o => o = (.ok (), w)
  | .list c answer :: rest, w, o => out.get w.calls.length c = answer ∧ Makes out process rest {w with calls := c :: w.calls} o
  | .hand item :: rest, w, o =>
    match process item w with
    | (.ok (), w') => Makes out process rest w' o
    | (.error e, w') => o = (.error e, w')

/-- Type by type: what is known before, then the moves with a summary of their own. -/
def MakesEach (out : Outside) {σ : Type} (snapshot : Int → Collect V SyncSummary σ)
    (process : σ → Int → Item → Collect V SyncSummary Unit) :
    List (Int × List Move) → World V SyncSummary → Except Exc Unit × World V SyncSummary → Prop
  | [], w, o => o = (.ok (), w)
  | (contentTypeId, moves) :: rest, w, o =>
    match snapshot contentTypeId w with
    | (.error e, w') => o = (.error e, w')
    | (.ok known, w') => ∃ r w'', Makes out (process known contentTypeId) moves {w' with summary := {}} (r, w'') ∧
      match r with
      | .ok () => MakesEach out snapshot process rest {w'' with summary := w'.summary.add w''.summary} o
      | .error e => o = (.error e, {w'' with summary := w'.summary})

/-- The items before the page whose call fails; all of them if none does. -/
def reached (n : Nat) (items : List Item) : Option Nat → List Item
  | none => items
  | some k => items.take ((k - 1) * n)

theorem reached_sublist (n : Nat) (items : List Item) (failed : Option Nat) : (reached n items failed).Sublist items := by
  cases failed with
  | none => exact List.Sublist.refl items
  | some k => exact List.take_sublist _ _

/-- Every page is asked for once, in order, and every item is handed over as it comes; or a
call fails, and the items of the pages before it are. -/
structure ReadsOnce (listCall : Nat → Call) (n : Nat) (items : List Item) (failed : Option Nat) (moves : List Move) : Prop where
  calls : listCalls moves = (List.range' 1 (failed.getD (pageCount n items))).map listCall
  handed : handedOver moves = reached n items failed
  answers : ∀ k answer, .list (listCall k) answer ∈ moves →
    answer = if failed = some k then .error .tourApiError else .ok (page n items k)
  failedPage : ∀ k ∈ failed, 0 < k ∧ k ≤ pageCount n items

/-! ### One listing -/

/-- The moves of a page. -/
def pageMoves (listCall : Nat → Call) (n : Nat) (items : List Item) (failed : Option Nat) (k : Nat) : List Move :=
  if failed = some k then [.list (listCall k) (.error .tourApiError)]
  else .list (listCall k) (.ok (page n items k)) :: (page n items k).map .hand

/-- The moves from page `k` on. -/
def movesFrom (listCall : Nat → Call) (n : Nat) (items : List Item) (failed : Option Nat) (k : Nat) : List Move :=
  (List.range' k (failed.getD (pageCount n items) + 1 - k)).flatMap (pageMoves listCall n items failed)

theorem listCalls_append (moves moves' : List Move) : listCalls (moves ++ moves') = listCalls moves ++ listCalls moves' :=
  List.filterMap_append

theorem handedOver_append (moves moves' : List Move) : handedOver (moves ++ moves') = handedOver moves ++ handedOver moves' :=
  List.filterMap_append

theorem listCalls_hand (items : List Item) : listCalls (items.map .hand) = [] := by
  simp [listCalls]

theorem handedOver_hand (items : List Item) : handedOver (items.map .hand) = items := by
  simp [handedOver]

section
variable {listCall : Nat → Call} {n : Nat} {items : List Item} {failed : Option Nat} {k : Nat}

theorem listCalls_pageMoves : listCalls (pageMoves listCall n items failed k) = [listCall k] := by
  unfold pageMoves
  split
  · rfl
  · exact congrArg (listCall k :: ·) (listCalls_hand _)

theorem handedOver_pageMoves : handedOver (pageMoves listCall n items failed k) = if failed = some k then [] else page n items k := by
  unfold pageMoves
  split
  · rfl
  · exact handedOver_hand _

theorem listCalls_flatMap (ks : List Nat) : listCalls (ks.flatMap (pageMoves listCall n items failed)) = ks.map listCall := by
  induction ks with
  | nil => rfl
  | cons k ks ih => rw [List.flatMap_cons, listCalls_append, listCalls_pageMoves, ih]; rfl

theorem handedOver_flatMap (ks : List Nat) : handedOver (ks.flatMap (pageMoves listCall n items failed)) =
    ks.flatMap fun k => if failed = some k then [] else page n items k := by
  induction ks with
  | nil => rfl
  | cons k ks ih => rw [List.flatMap_cons, handedOver_append, handedOver_pageMoves, ih]; rfl

theorem movesFrom_one : movesFrom listCall n items failed 1 =
    (List.range' 1 (failed.getD (pageCount n items))).flatMap (pageMoves listCall n items failed) := by
  rw [movesFrom, Nat.add_sub_cancel]

/-- The moves from the first page on are a whole reading. -/
theorem readsOnce_moves (hn : 0 < n) (hinj : ∀ k k', listCall k = listCall k' → k = k')
    (hfailed : ∀ k ∈ failed, 0 < k ∧ k ≤ pageCount n items) :
    ReadsOnce listCall n items failed (movesFrom listCall n items failed 1) where
  calls := by rw [movesFrom_one, listCalls_flatMap]
  handed := by
    rw [movesFrom_one, handedOver_flatMap]
    cases failed with
    | none =>
      simp only [reduceCtorEq, if_false]
      exact Lib.Pages.flatMap_pageCount hn items
    | some k =>
      obtain ⟨last, rfl⟩ := Nat.exists_eq_succ_of_ne_zero (hfailed k rfl).1.ne'
      have hbefore : (List.range' 1 last).flatMap (fun k => if some last.succ = some k then [] else page n items k) =
          (List.range' 1 last).flatMap (page n items) := by
        refine List.flatMap_congr fun k hk => if_neg fun heq => ?_
        have hlt := (List.mem_range'_1.mp hk).2
        have := Option.some.inj heq
        omega
      rw [Option.getD_some, List.range'_1_concat, List.flatMap_append, List.flatMap_singleton, hbefore, Lib.Pages.flatMap_page,
        Nat.add_comm 1, if_pos rfl, List.append_nil]
      rfl
  answers := by
    intro k answer hmem
    obtain ⟨k', -, hmem⟩ := List.mem_flatMap.mp hmem
    unfold pageMoves at hmem
    split at hmem
    · rename_i hk
      obtain ⟨hcall, rfl⟩ := Move.list.inj (List.mem_singleton.mp hmem)
      rw [hinj k k' hcall, if_pos hk]
    · rename_i hk
      rcases List.mem_cons.mp hmem with heq | hhand
      · obtain ⟨hcall, rfl⟩ := Move.list.inj heq
        rw [hinj k k' hcall, if_neg hk]
      · obtain ⟨item, -, heq⟩ := List.mem_map.mp hhand
        cases heq
  failedPage := hfailed

end

/-! ### The loop -/

section
variable {out : Outside} {process : Item → Collect V S Unit}

/-- Items are handed over until one raises. -/
theorem makes_hand (rest : List Item) (moves : List Move) (w : World V S) (o : Except Exc Unit × World V S) :
    Makes out process (rest.map .hand ++ moves) w o ↔
      match Collect.forEach process rest w with
      | (.ok (), w') => Makes out process moves w' o
      | (.error e, w') => o = (.error e, w') := by
  induction rest generalizing w with
  | nil => rfl
  | cons item rest ih =>
    simp only [List.map_cons, List.cons_append, Makes, Collect.forEach, bind_run]
    rcases process item w with ⟨r, w'⟩
    cases r with
    | ok a => exact ih w'
    | error e => rfl

theorem safeList_call (c : Call) (w : World V S) : safeList (Collect.call out c) w =
    match out.get w.calls.length c with
    | .ok items => (.ok items, {w with calls := c :: w.calls})
    | .error .tourApiError => (.ok [], {w with calls := c :: w.calls})
    | .error e => (.error e, {w with calls := c :: w.calls}) := by
  simp only [safeList, bind_run, Collect.attempt, Collect.call]
  cases out.get w.calls.length c with
  | ok items => rfl
  | error e => cases e <;> rfl

variable {listCall : Nat → Call} {n : Nat} {items : List Item}

/-- The answer of a page is the page, or the call fails. -/
def Serves (out : Outside) (listCall : Nat → Call) (n : Nat) (items : List Item) : Prop :=
  ∀ t k, 0 < k → out.get t (listCall k) = .ok (page n items k) ∨ out.get t (listCall k) = .error .tourApiError

theorem movesFrom_cons {failed : Option Nat} {k : Nat} (hk : k ≤ failed.getD (pageCount n items)) :
    movesFrom listCall n items failed k = pageMoves listCall n items failed k ++ movesFrom listCall n items failed (k + 1) := by
  obtain ⟨more, hmore⟩ := Nat.exists_eq_add_of_le hk
  have hthis : failed.getD (pageCount n items) + 1 - k = more + 1 := by omega
  have hnext : failed.getD (pageCount n items) + 1 - (k + 1) = more := by omega
  rw [movesFrom, movesFrom, hthis, hnext, List.range'_succ, List.flatMap_cons]

/-- After the last page. -/
theorem movesFrom_nil {failed : Option Nat} {k : Nat} (hk : failed.getD (pageCount n items) < k) :
    movesFrom listCall n items failed k = [] := by
  rw [movesFrom, Nat.sub_eq_zero_of_le hk]
  rfl

/-- A page that is answered, and what comes after it. -/
theorem makes_page {failed : Option Nat} {k : Nat} (hanswer : failed ≠ some k) (hk : k ≤ failed.getD (pageCount n items))
    {w : World V S} {o : Except Exc Unit × World V S} (hget : out.get w.calls.length (listCall k) = .ok (page n items k)) :
    Makes out process (movesFrom listCall n items failed k) w o ↔
      match Collect.forEach process (page n items k) {w with calls := listCall k :: w.calls} with
      | (.ok (), w') => Makes out process (movesFrom listCall n items failed (k + 1)) w' o
      | (.error e, w') => o = (.error e, w') := by
  rw [movesFrom_cons hk, pageMoves, if_neg hanswer, List.cons_append, Makes, makes_hand]
  exact and_iff_right hget

theorem pageCount_ge {k : Nat} (hn : 0 < n) (hbefore : (k - 1) * n ≤ items.length) : k ≤ pageCount n items := by
  have hquotient := (Nat.le_div_iff_mul_le hn).mpr hbefore
  rw [pageCount]
  omega

/-- A page with items is no later than the last one upstream has. -/
theorem le_lastPage {t k : Nat} {answer : List Item} (hpages : ∀ k, (listCall k).page? = some k)
    (hget : out.get t (listCall k) = .ok answer) (hne : answer ≠ []) : k ≤ out.lastPage := by
  by_contra hafter
  have hpage : (listCall k).page?.any (out.lastPage < ·) = true := by
    rw [hpages]
    exact decide_eq_true (Nat.lt_of_not_le hafter)
  exact hne (out.finite _ _ _ hpage hget)

variable (process) in
/-- The loop ends with the items of a short page. -/
theorem makes_shortPage {k : Nat} (hn : 0 < n) (hk : 0 < k) (hbefore : (k - 1) * n ≤ items.length)
    (hshort : (page n items k).length < n) {w : World V S} (hget : out.get w.calls.length (listCall k) = .ok (page n items k)) :
    Makes out process (movesFrom listCall n items none k) w
      (Collect.forEach process (page n items k) {w with calls := listCall k :: w.calls}) := by
  have hlastPage := (Lib.Pages.eq_pageCount_iff hn hk hbefore).mpr hshort
  rw [makes_page (Option.some_ne_none k).symm (pageCount_ge hn hbefore) hget, movesFrom_nil (Nat.lt_succ_of_le hlastPage.ge)]
  rcases Collect.forEach process (page n items k) {w with calls := listCall k :: w.calls} with ⟨r, w'⟩
  cases r <;> rfl

/-- The loop goes on after a full page. -/
theorem makes_fullPage {failed : Option Nat} {k : Nat} (hfailed : ∀ k' ∈ failed, k + 1 ≤ k') (hcount : k ≤ pageCount n items)
    {w w' : World V S} {o : Except Exc Unit × World V S} (hget : out.get w.calls.length (listCall k) = .ok (page n items k))
    (hrun : Collect.forEach process (page n items k) {w with calls := listCall k :: w.calls} = (.ok (), w'))
    (hrest : Makes out process (movesFrom listCall n items failed (k + 1)) w' o) :
    Makes out process (movesFrom listCall n items failed k) w o := by
  have hnot : failed ≠ some k := fun heq => Nat.not_succ_le_self k (hfailed k heq)
  have hthis : k ≤ failed.getD (pageCount n items) := by
    cases hcase : failed with
    | none => exact hcount
    | some k' => exact Nat.le_of_succ_le (hfailed k' hcase)
  rw [makes_page hnot hthis hget, hrun]
  exact hrest

variable (process) in
/-- **The loop makes the moves from its page on.** No fuel is missing: a page after the
last has no items, so it is never full. -/
theorem forPages_makes (hserves : Serves out listCall n items) (hpages : ∀ k, (listCall k).page? = some k) (hn : 0 < n)
    {fuel k : Nat} (w : World V S) (hk : 0 < k) (hfuel : fuel + k = out.lastPage + 2) (hlast : k ≤ out.lastPage + 1)
    (hbefore : (k - 1) * n ≤ items.length) :
    ∃ failed, (∀ k' ∈ failed, k ≤ k' ∧ k' ≤ pageCount n items) ∧ Makes out process (movesFrom listCall n items failed k) w
      (forPages n none (fun k => safeList (Collect.call out (listCall k))) process fuel k w) := by
  induction fuel generalizing k w with
  | zero => omega
  | succ fuel ih =>
    have hcount := pageCount_ge hn hbefore
    have hnone : ∀ k' ∈ (none : Option Nat), k ≤ k' ∧ k' ≤ pageCount n items := by simp
    unfold forPages
    simp only [Option.any_none, Bool.false_eq_true, if_false, bind_run, safeList_call]
    rcases hserves w.calls.length k hk with hget | hget
    · rw [hget]
      dsimp only
      by_cases hshort : (page n items k).length < n
      · refine ⟨none, hnone, ?_⟩
        have hmoves := makes_shortPage process hn hk hbefore hshort hget
        by_cases hempty : page n items k = []
        · rw [if_pos hempty]
          rwa [hempty] at hmoves
        · rw [if_neg hempty, bind_run, if_pos hshort]
          rcases hrun : Collect.forEach process (page n items k) {w with calls := listCall k :: w.calls} with ⟨r, w'⟩
          rw [hrun] at hmoves
          cases r <;> exact hmoves
      · have hne : page n items k ≠ [] := fun hempty => hshort (hempty ▸ hn)
        rw [if_neg hne, bind_run, if_neg hshort]
        have hinside := le_lastPage hpages hget hne
        rcases hrun : Collect.forEach process (page n items k) {w with calls := listCall k :: w.calls} with ⟨r, w'⟩
        cases r with
        | error e =>
          refine ⟨none, hnone, (makes_page (Option.some_ne_none k).symm hcount hget).mpr ?_⟩
          rw [hrun]
        | ok a =>
          obtain ⟨failed, hfailed, hmoves⟩ := ih w' (Nat.succ_pos k) (by omega) (by omega) (Lib.Pages.next_le hk hbefore hshort)
          exact ⟨failed, fun k' hk' => (hfailed k' hk').imp_left Nat.le_of_succ_le,
            makes_fullPage (fun k' hk' => (hfailed k' hk').1) hcount hget hrun hmoves⟩
    · rw [hget]
      refine ⟨some k, fun k' hk' => ?_, ?_⟩
      · obtain rfl := Option.some.inj hk'
        exact ⟨Nat.le_refl k, hcount⟩
      · rw [movesFrom_cons (Nat.le_refl k), movesFrom_nil (Nat.lt_succ_self k), pageMoves, if_pos rfl]
        exact ⟨hget, rfl⟩

end

/-! ### What raises -/

/-- The exceptions of a part of a run. -/
def Raises {α : Type} (P : Exc → Prop) (x : Collect V S α) : Prop := ∀ w e, (x w).1 = .error e → P e

/-- A statement failed as `e`. -/
def FromDatabase (out : Outside) (e : Exc) : Prop := ∃ t fault, out.fault t = some fault ∧ fault.2.1 = e

theorem Makes.raises {out : Outside} {process : Item → Collect V S Unit} {P : Exc → Prop} {moves : List Move}
    (h : ∀ item ∈ handedOver moves, Raises P (process item)) {w : World V S} {o : Except Exc Unit × World V S}
    (hmakes : Makes out process moves w o) {e : Exc} (he : o.1 = .error e) : P e := by
  induction moves generalizing w with
  | nil =>
    obtain rfl := hmakes
    cases he
  | cons move rest ih =>
    cases move with
    | list c answer => exact ih h hmakes.2
    | hand item =>
      have hrest : ∀ item ∈ handedOver rest, Raises P (process item) := fun i hi => h i (List.mem_cons_of_mem _ hi)
      unfold Makes at hmakes
      split at hmakes
      · exact ih hrest hmakes
      · rename_i e' w' hrun
        obtain rfl := hmakes
        cases he
        exact h item List.mem_cons_self w e (congrArg Prod.fst hrun)

theorem MakesEach.raises {out : Outside} {σ : Type} {snapshot : Int → Collect V SyncSummary σ}
    {process : σ → Int → Item → Collect V SyncSummary Unit} {P : Exc → Prop} (hsnapshot : ∀ id, Raises P (snapshot id))
    {visits : List (Int × List Move)}
    (h : ∀ v ∈ visits, ∀ known, ∀ item ∈ handedOver v.2, Raises P (process known v.1 item)) {w : World V SyncSummary}
    {o : Except Exc Unit × World V SyncSummary} (hmakes : MakesEach out snapshot process visits w o) {e : Exc}
    (he : o.1 = .error e) : P e := by
  induction visits generalizing w with
  | nil =>
    obtain rfl := hmakes
    cases he
  | cons v rest ih =>
    obtain ⟨contentTypeId, moves⟩ := v
    rw [List.forall_mem_cons] at h
    unfold MakesEach at hmakes
    split at hmakes
    · rename_i e' w' hrun
      obtain rfl := hmakes
      cases he
      exact hsnapshot contentTypeId w e (congrArg Prod.fst hrun)
    · rename_i known w' hrun
      obtain ⟨r, w'', hmoves, hrest⟩ := hmakes
      cases r with
      | ok a => exact ih h.2 hrest
      | error e' =>
        obtain rfl := hrest
        cases he
        exact hmoves.raises (h.1 known) rfl

theorem Raises.bind {α β : Type} {P : Exc → Prop} {x : Collect V S α} {f : α → Collect V S β} (hx : Raises P x)
    (hf : ∀ a, Raises P (f a)) : Raises P (x >>= f) := by
  intro w e he
  rw [bind_run] at he
  rcases hrun : x w with ⟨r, w'⟩
  rw [hrun] at he
  cases r with
  | ok a => exact hf a w' e he
  | error e' =>
    cases he
    exact hx w e (congrArg Prod.fst hrun)

theorem raises_pure {α : Type} {P : Exc → Prop} (a : α) : Raises P (pure a : Collect V S α) := fun _ _ he => by cases he

/-- A block that does not raise by itself raises what its statements do. -/
theorem raises_atomic {out : Outside} {α : Type} {p : Service V α} (hp : p.Atomic) (hok : ∀ d n, ∃ r, p.eval d n = .ok r) :
    Raises (FromDatabase out) (Collect.atomic out p : Collect V S α) := by
  intro w e he
  obtain ⟨r, hr⟩ := hok w.db w.seq
  have hresult := (atomic_run out hp w).1
  rw [he, transaction_eval] at hresult
  cases hfault : out.fault w.transactions with
  | none =>
    rw [hfault, hr] at hresult
    cases hresult
  | some fault =>
    rw [hfault, hr] at hresult
    cases hresult
    exact ⟨w.transactions, fault, hfault, rfl⟩

theorem raises_query (out : Outside) : Raises (FromDatabase out) (Collect.query out : Collect V S (Db V)) :=
  raises_atomic atomic_read fun _ _ => ⟨_, rfl⟩

theorem raises_deactivatePlace (out : Outside) (contentId : Int) :
    Raises (FromDatabase out) (Collect.atomic out (deactivatePlace contentId) : Collect V S Unit) :=
  raises_atomic (atomic_deactivatePlace contentId) fun _ _ => ⟨_, deactivatePlace_eval _ _ _⟩

/-- Storing a well-formed item raises nothing by itself. -/
theorem WellFormed.stores {out : Outside} {contentTypeId : Int} {listItem : Item} (h : WellFormed out.column contentTypeId listItem)
    (contentId : Int) (firstimage : String) (common : Option Item) (images : List Item) (intro : Option Item) (d : Db V) (n : Nat) :
    ∃ r, (saveListItem out.column contentTypeId contentId listItem firstimage common images intro).eval d n = .ok r := by
  obtain ⟨defaults, hdefaults⟩ := (buildPlaceDefaults_ok common intro).mpr ⟨_, h.contentType⟩
  obtain ⟨c, hc⟩ := h.coordinates
  rw [saveListItem_eval_ok hdefaults, hc]
  exact ⟨_, rfl⟩

section
variable {out : Outside} (herrors : ∀ t c e, out.get t c = .error e → e = .tourApiError)
include herrors

theorem raises_detailsOf (contentId contentTypeId : Int) :
    Raises (· = .tourApiError) (detailsOf out contentId contentTypeId : Collect V S _) :=
  Composes.detailsOf ⟨raises_pure, Raises.bind⟩ (fun c _ _ e => herrors _ c e) contentId contentTypeId

/-- A well-formed item is stored or skipped; only an exception of the database that is no
`DatabaseError` goes through. -/
theorem raises_processListItem {contentTypeId : Int} {listItem : Item} (hitem : WellFormed out.column contentTypeId listItem)
    (dryRun skipExisting : Bool) (existingIds : Option (List Int)) :
    Raises (V := V) (fun e => FromDatabase out e ∧ e.isDatabaseError = false)
      (processListItem out contentTypeId listItem dryRun skipExisting existingIds) := by
  intro w e he
  obtain ⟨contentId, hid⟩ := hitem.contentId
  cases himage : blankToNone (listItem.get "firstimage") with
  | none =>
    rw [processListItem_noImage himage] at he
    cases he
  | some firstimage =>
    cases hskip : (skipExisting && existingIds.any (·.contains contentId)) with
    | true =>
      rw [processListItem_skipped himage hid hskip] at he
      cases he
    | false =>
      cases dryRun with
      | true =>
        rw [processListItem_dryRun himage hid hskip] at he
        cases he
      | false =>
        rcases hdetails : detailsOf out contentId contentTypeId w.fetched with ⟨r, w'⟩
        cases r with
        | error e' =>
          have hfailed : e' = .tourApiError := raises_detailsOf herrors contentId contentTypeId w.fetched e' (congrArg Prod.fst hdetails)
          rw [processListItem_detailFailed himage hid hskip hdetails, if_pos hfailed] at he
          cases he
        | ok details =>
          obtain ⟨common, images, intro⟩ := details
          rcases hsave : Collect.atomic out (saveListItem out.column contentTypeId contentId listItem firstimage common images intro)
            w' with ⟨r, w''⟩
          cases r with
          | ok saved =>
            rw [processListItem_saved himage hid hskip hdetails hsave] at he
            cases he
          | error e' =>
            rw [processListItem_saveFailed himage hid hskip hdetails hsave] at he
            split at he
            · cases he
            · rename_i hdatabase
              cases he
              exact ⟨raises_atomic (atomic_saveListItem ..) (hitem.stores contentId firstimage common images intro) w' e (congrArg Prod.fst hsave),
                Bool.eq_false_iff.mpr hdatabase⟩

theorem raises_processSyncItem {contentTypeId : Int} {listItem : Item} (hitem : WellFormed out.column contentTypeId listItem)
    (existing : Existing) (dryRun : Bool) :
    Raises (V := V) (FromDatabase out) (processSyncItem out contentTypeId existing dryRun listItem) := by
  have hcollect : Raises (V := V) (FromDatabase out) (processListItem out contentTypeId listItem dryRun) :=
    fun w e he => (raises_processListItem herrors hitem dryRun false none w e he).1
  have htally : ∀ f, Raises (V := V) (FromDatabase out) (Collect.tally f : Collect V SyncSummary Unit) := fun _ _ _ he => by cases he
  obtain ⟨contentId, hid⟩ := hitem.contentId
  unfold processSyncItem
  rw [hid]
  refine Raises.bind (fun _ _ he => by cases he) fun contentId => ?_
  split
  · split
    · dsimp only
      split
      · exact (raises_deactivatePlace out contentId).bind fun _ => htally _
      · exact htally _
    · exact raises_pure ()
  · split
    · exact hcollect
    · split
      · exact hcollect
      · exact htally _

end

/-! ### Both runs -/

/-- The loop over the types. -/
def collectTypes {σ : Type} (snapshot : Int → Collect V SyncSummary σ) (listPage : Int → Nat → Collect V SyncSummary (List Item))
    (process : σ → Int → Item → Collect V SyncSummary Unit) (numOfRows fuel : Nat) (contentTypeIds : List Int) :
    Collect V SyncSummary Unit :=
  contentTypeIds |> Collect.forEach fun contentTypeId => do
    let known ← snapshot contentTypeId
    withSummary (forPages numOfRows none (listPage contentTypeId) (process known contentTypeId) fuel 1)

/-- The ids to skip, if asked for. -/
def idsToSkip (out : Outside) (skipExisting : Bool) (contentTypeId : Int) : Collect V SyncSummary (Option (List Int)) :=
  if skipExisting then do
    let d ← Collect.query out
    pure (some (d.contentIds contentTypeId))
  else pure none

/-- `existing`, as the type begins. -/
def storedTimes (out : Outside) (contentTypeId : Int) : Collect V SyncSummary Existing := do
  let d ← Collect.query out
  pure (d.existing contentTypeId)

inductive Collection where
  | all (skipExisting dryRun : Bool) (arrange : Option String)
  | incremental (dryRun : Bool)

namespace Collection

def listCall (numOfRows : Nat) : Collection → Int → Nat → Call
  | all _ _ arrange, contentTypeId, pageNo => .areaBasedList contentTypeId none numOfRows pageNo arrange
  | incremental _, contentTypeId, pageNo => .areaBasedSyncList contentTypeId numOfRows pageNo

def run (out : Outside) (contentTypeIds : List Int) (numOfRows : Nat) : Collection → Collect V SyncSummary Unit
  | all skipExisting dryRun arrange => syncAll out contentTypeIds numOfRows none skipExisting dryRun arrange
  | incremental dryRun => syncIncremental out contentTypeIds numOfRows none dryRun

/-- What the run does to an item that is handed over. -/
def makes (out : Outside) (visits : List (Int × List Move)) (w : World V SyncSummary) (o : Except Exc Unit × World V SyncSummary) :
    Collection → Prop
  | all skipExisting dryRun _ => MakesEach out (idsToSkip out skipExisting) (fun existingIds contentTypeId listItem =>
      processListItem out contentTypeId listItem dryRun skipExisting existingIds) visits w o
  | incremental dryRun => MakesEach out (storedTimes out) (fun existing contentTypeId listItem =>
      processSyncItem out contentTypeId existing dryRun listItem) visits w o

/-- Every statement of the run is in the transaction of an item. -/
def onlySaves : Collection → Bool
  | all skipExisting _ _ => !skipExisting
  | incremental _ => false

theorem query_map_bind {α β : Type} (out : Outside) (f : Db V → α) (g : α → Collect V S β) :
    (Collect.query out >>= fun d => pure (f d)) >>= g = Collect.query out >>= fun d => g (f d) := by
  funext w
  simp only [bind_run]
  rcases Collect.query out w with ⟨r, w'⟩
  cases r <;> rfl

theorem run_all (out : Outside) (contentTypeIds : List Int) (numOfRows : Nat) (skipExisting dryRun : Bool) (arrange : Option String) :
    (all skipExisting dryRun arrange).run (V := V) out contentTypeIds numOfRows = collectTypes (idsToSkip out skipExisting)
      (fun contentTypeId k => safeList (Collect.call out ((all skipExisting dryRun arrange).listCall numOfRows contentTypeId k)))
      (fun existingIds contentTypeId listItem => processListItem out contentTypeId listItem dryRun skipExisting existingIds)
      numOfRows (out.lastPage + 1) contentTypeIds := by
  cases skipExisting with
  | false => rfl
  | true =>
    refine congrArg (Collect.forEach · contentTypeIds) (funext fun contentTypeId => ?_)
    conv_rhs => rw [idsToSkip, if_pos rfl, query_map_bind]
    rfl

theorem run_incremental (out : Outside) (contentTypeIds : List Int) (numOfRows : Nat) (dryRun : Bool) :
    (incremental dryRun).run (V := V) out contentTypeIds numOfRows = collectTypes (storedTimes out)
      (fun contentTypeId k => safeList (Collect.call out ((incremental dryRun).listCall numOfRows contentTypeId k)))
      (fun existing contentTypeId listItem => processSyncItem out contentTypeId existing dryRun listItem)
      numOfRows (out.lastPage + 1) contentTypeIds := by
  refine congrArg (Collect.forEach · contentTypeIds) (funext fun contentTypeId => ?_)
  conv_rhs => rw [storedTimes, query_map_bind]
  rfl

end Collection

/-- Every type is visited, in order, and its listing read once. -/
def ReadsEach (listCall : Int → Nat → Call) (n : Nat) (listing : Int → List Item) (contentTypeIds : List Int)
    (visits : List (Int × List Move)) : Prop :=
  visits.map Prod.fst = contentTypeIds ∧ ∀ v ∈ visits, ∃ failed, ReadsOnce (listCall v.1) n (listing v.1) failed v.2

section
variable {out : Outside} {listCall : Int → Nat → Call} {n : Nat} {listing : Int → List Item}
  (hpages : ∀ contentTypeId k, (listCall contentTypeId k).page? = some k) (hn : 0 < n)
include hpages hn

theorem readsOnce_movesFrom (contentTypeId : Int) {failed : Option Nat}
    (hfailed : ∀ k ∈ failed, 0 < k ∧ k ≤ pageCount n (listing contentTypeId)) :
    ReadsOnce (listCall contentTypeId) n (listing contentTypeId) failed
      (movesFrom (listCall contentTypeId) n (listing contentTypeId) failed 1) := by
  refine readsOnce_moves hn (fun k k' heq => ?_) hfailed
  have hpage := congrArg Call.page? heq
  rw [hpages, hpages] at hpage
  exact Option.some.inj hpage

theorem ReadsEach.cons {contentTypeId : Int} {contentTypeIds : List Int} {visits : List (Int × List Move)} {failed : Option Nat}
    (hfailed : ∀ k ∈ failed, 0 < k ∧ k ≤ pageCount n (listing contentTypeId))
    (h : ReadsEach listCall n listing contentTypeIds visits) :
    ReadsEach listCall n listing (contentTypeId :: contentTypeIds)
      ((contentTypeId, movesFrom (listCall contentTypeId) n (listing contentTypeId) failed 1) :: visits) :=
  ⟨congrArg (contentTypeId :: ·) h.1, List.forall_mem_cons.mpr
    ⟨⟨failed, readsOnce_movesFrom hpages hn contentTypeId hfailed⟩, h.2⟩⟩

/-- What would be read if no call failed. -/
theorem exists_readsEach (contentTypeIds : List Int) : ∃ visits, ReadsEach listCall n listing contentTypeIds visits := by
  induction contentTypeIds with
  | nil => exact ⟨[], rfl, List.forall_mem_nil _⟩
  | cons contentTypeId rest ih =>
    obtain ⟨visits, hvisits⟩ := ih
    have hnone : ∀ k ∈ (none : Option Nat), 0 < k ∧ k ≤ pageCount n (listing contentTypeId) := fun _ h => absurd h (Option.not_mem_none _)
    exact ⟨_, hvisits.cons hpages hn hnone⟩

theorem collectTypes_makes {σ : Type} (snapshot : Int → Collect V SyncSummary σ)
    (process : σ → Int → Item → Collect V SyncSummary Unit) {contentTypeIds : List Int}
    (hserves : ∀ id ∈ contentTypeIds, Serves out (listCall id) n (listing id)) (w : World V SyncSummary) :
    ∃ visits, ReadsEach listCall n listing contentTypeIds visits ∧ MakesEach out snapshot process visits w
      (collectTypes snapshot (fun id k => safeList (Collect.call out (listCall id k))) process n (out.lastPage + 1) contentTypeIds w) := by
  induction contentTypeIds generalizing w with
  | nil => exact ⟨[], ⟨rfl, List.forall_mem_nil _⟩, rfl⟩
  | cons contentTypeId rest ih =>
    rw [List.forall_mem_cons] at hserves
    have hrest := ih hserves.2
    obtain ⟨whole, hwhole⟩ : ∃ visits, ReadsEach listCall n listing rest visits := exists_readsEach hpages hn rest
    unfold collectTypes at hrest ⊢
    simp only [Collect.forEach, bind_run, withSummary]
    rcases hsnapshot : snapshot contentTypeId w with ⟨r, w'⟩
    cases r with
    | error e =>
      have hnone : ∀ k ∈ (none : Option Nat), 0 < k ∧ k ≤ pageCount n (listing contentTypeId) :=
        fun _ h => absurd h (Option.not_mem_none _)
      refine ⟨_, hwhole.cons hpages hn hnone, ?_⟩
      rw [MakesEach, hsnapshot]
    | ok known =>
      dsimp only
      have hfuel : out.lastPage + 1 + 1 = out.lastPage + 2 := rfl
      obtain ⟨failed, hfailed, hmoves⟩ := forPages_makes (process known contentTypeId) hserves.1 (hpages contentTypeId) hn
        {w' with summary := {}} Nat.one_pos hfuel (Nat.le_add_left 1 _) (by simp)
      rcases hrun : forPages n none (fun k => safeList (Collect.call out (listCall contentTypeId k))) (process known contentTypeId)
        (out.lastPage + 1) 1 {w' with summary := {}} with ⟨r, w''⟩
      rw [hrun] at hmoves
      cases r with
      | error e =>
        refine ⟨_, hwhole.cons hpages hn hfailed, ?_⟩
        rw [MakesEach, hsnapshot]
        exact ⟨_, _, hmoves, rfl⟩
      | ok a =>
        obtain ⟨visits, hvisits, hmakes⟩ := hrest {w'' with summary := w'.summary.add w''.summary}
        refine ⟨_, hvisits.cons hpages hn hfailed, ?_⟩
        rw [MakesEach, hsnapshot]
        exact ⟨_, _, hmoves, hmakes⟩

end

/-- The listings in pages of `numOfRows` well-formed items, from a client whose keys last. -/
structure Supplies (out : Outside) (listCall : Int → Nat → Call) (numOfRows : Nat) (listing : Int → List Item)
    (contentTypeIds : List Int) : Prop where
  positive : 0 < numOfRows
  serves : ∀ id ∈ contentTypeIds, Serves out (listCall id) numOfRows (listing id)
  errors : ∀ t c e, out.get t c = .error e → e = .tourApiError
  wellFormed : ∀ id ∈ contentTypeIds, ∀ item ∈ listing id, WellFormed out.column id item

/-- **Every page once, every item once**, up to a call that fails. Only the database ends a
run before, and a `DatabaseError` does so outside an item alone. -/
theorem every_page_once (c : Collection) (out : Outside) (numOfRows : Nat) (listing : Int → List Item) (contentTypeIds : List Int)
    (w : World V SyncSummary) (h : Supplies out (c.listCall numOfRows) numOfRows listing contentTypeIds) :
    (∃ visits, ReadsEach (c.listCall numOfRows) numOfRows listing contentTypeIds visits ∧
      c.makes out visits w (c.run out contentTypeIds numOfRows w)) ∧
    ∀ e, (c.run out contentTypeIds numOfRows w).1 = .error e →
      FromDatabase out e ∧ (c.onlySaves = true → e.isDatabaseError = false) := by
  have hpages : ∀ contentTypeId k, (c.listCall numOfRows contentTypeId k).page? = some k := by
    intro contentTypeId k
    cases c <;> rfl
  have hmakes : ∃ visits, ReadsEach (c.listCall numOfRows) numOfRows listing contentTypeIds visits ∧
      c.makes out visits w (c.run out contentTypeIds numOfRows w) := by
    cases c with
    | all skipExisting dryRun arrange =>
      rw [Collection.run_all]
      exact collectTypes_makes hpages h.positive _ _ h.serves w
    | incremental dryRun =>
      rw [Collection.run_incremental]
      exact collectTypes_makes hpages h.positive _ _ h.serves w
  refine ⟨hmakes, fun e he => ?_⟩
  obtain ⟨visits, ⟨hids, hreads⟩, hmoves⟩ := hmakes
  -- the items that are handed over are items of the listing
  have hitems : ∀ v ∈ visits, ∀ item ∈ handedOver v.2, WellFormed out.column v.1 item := by
    intro v hv item hitem
    obtain ⟨failed, hread⟩ := hreads v hv
    rw [hread.handed] at hitem
    exact h.wellFormed v.1 (hids ▸ List.mem_map_of_mem hv) item ((reached_sublist _ _ _).subset hitem)
  cases c with
  | all skipExisting dryRun arrange =>
    have hprocess : ∀ v ∈ visits, ∀ existingIds, ∀ item ∈ handedOver v.2,
        Raises (fun e => FromDatabase out e ∧ ((!skipExisting) = true → e.isDatabaseError = false))
          (processListItem out v.1 item dryRun skipExisting existingIds : Collect V SyncSummary Unit) :=
      fun v hv existingIds item hitem w e he =>
        (raises_processListItem h.errors (hitems v hv item hitem) dryRun skipExisting existingIds w e he).imp_right fun hno _ => hno
    refine MakesEach.raises (fun id w e he => ?_) hprocess hmoves he
    cases skipExisting with
    | false => cases he
    | true => exact ⟨((raises_query out).bind fun _ => raises_pure _) w e he, fun hfalse => by cases hfalse⟩
  | incremental dryRun =>
    have hprocess : ∀ v ∈ visits, ∀ existing, ∀ item ∈ handedOver v.2,
        Raises (FromDatabase out) (processSyncItem out v.1 existing dryRun item : Collect V SyncSummary Unit) :=
      fun v hv existing item hitem => raises_processSyncItem h.errors (hitems v hv item hitem) existing dryRun
    have hsnapshot : ∀ id, Raises (FromDatabase out) (storedTimes out id : Collect V SyncSummary Existing) :=
      fun id => (raises_query out).bind fun _ => raises_pure _
    exact ⟨MakesEach.raises hsnapshot hprocess hmoves he, fun hfalse => by cases hfalse⟩

theorem Upstream.supplies {out : Outside} {numOfRows : Nat} {listing : Int → List Item} (h : Upstream out numOfRows listing)
    (dryRun : Bool) (contentTypeIds : List Int) :
    Supplies out ((Collection.incremental dryRun).listCall numOfRows) numOfRows listing contentTypeIds where
  positive := h.positive
  serves id _ t k _ := .inl (h.pages t id k)
  errors t c e he := by
    obtain ⟨items, hitems⟩ := h.answers t c
    rw [hitems] at he
    cases he
  wellFormed id _ := h.wellFormed id

theorem every_page_once_twoVisits :
    (∃ visits', ReadsEach ((Collection.incremental false).listCall 1) 1 (visits ["20250101000000", "20260101000000"]) [14] visits' ∧
      (Collection.incremental false).makes (visitsUpstream ["20250101000000", "20260101000000"]) visits'
        (World.start (visited "20240101000000" true) 2) ((Collection.incremental false).run
          (visitsUpstream ["20250101000000", "20260101000000"]) [14] 1 (World.start (visited "20240101000000" true) 2))) ∧
    ∀ e, ((Collection.incremental false).run (visitsUpstream ["20250101000000", "20260101000000"]) [14] 1
        (World.start (visited "20240101000000" true) 2)).1 = .error e →
      FromDatabase (visitsUpstream ["20250101000000", "20260101000000"]) e ∧
        ((Collection.incremental false).onlySaves = true → e.isDatabaseError = false) :=
  every_page_once _ _ _ _ _ _ ((visits_upstream _).supplies false [14])

end TravelMaker
