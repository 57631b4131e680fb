import TravelMaker.Place.Backfill

/-! Parts of a run.

What a run keeps, which calls it makes and what it counts go through the same steps:
a property of the smallest parts that goes through the sequence of two is one of the loops,
of the items and of the targets of a backfill. -/
namespace TravelMaker

variable {V S : Type}

/-- A property of parts of a run, by their parts. -/
structure Composes (P : ∀ {α : Type}, Collect V S α → Prop) : Prop where
  pure : ∀ {α : Type} (a : α), P (pure a : Collect V S α)
  bind : ∀ {α β : Type} {x : Collect V S α} {f : α → Collect V S β}, P x → (∀ a, P (f a)) → P (x >>= f)

/-- It does not look at what is raised, caught or counted. -/
structure Blind (P : ∀ {α : Type}, Collect V S α → Prop) : Prop extends Composes P where
  raise : ∀ {α : Type} (e : Exc), P (Collect.raise e : Collect V S α)
  attempt : ∀ {α : Type} {x : Collect V S α}, P x → P (Collect.attempt x)
  tally : ∀ f : S → S, P (Collect.tally f)

section
variable {R : World V S → World V S → Prop} (hrefl : ∀ w, R w w) (htrans : ∀ w w' w'', R w w' → R w' w'' → R w w'')
include hrefl htrans

/-- What each part does to the world, the sequence does. -/
theorem composes_of_trans : Composes fun x => ∀ w, R w (x w).2 where
  pure _ w := hrefl w
  bind := by
    intro α β x f hx hf w
    have hfirst := hx w
    rw [bind_run]
    rcases hrun : x w with ⟨r, w'⟩
    rw [hrun] at hfirst
    cases r with
    | ok a => exact htrans w w' _ hfirst (hf a w')
    | error e => exact hfirst

/-- What each part that returns does to the world, a sequence that returns does. -/
theorem composes_of_returned : Composes fun x => ∀ w a w', x w = (.ok a, w') → R w w' where
  pure a w b w' h := by
    cases h
    exact hrefl w
  bind := by
    intro α β x f hx hf w b w'' h
    rw [bind_run] at h
    rcases hrun : x w with ⟨r, w'⟩
    rw [hrun] at h
    cases r with
    | ok a => exact htrans w w' w'' (hx w a w' hrun) (hf a w' b w'' h)
    | error e => cases h

theorem blind_of_trans (htally : ∀ (f : S → S) w, R w {w with summary := f w.summary}) : Blind fun x => ∀ w, R w (x w).2 where
  toComposes := composes_of_trans hrefl htrans
  raise _ w := hrefl w
  attempt h := h
  tally := htally

end

namespace Composes
variable {P : ∀ {α : Type}, Collect V S α → Prop} (h : Composes P)
include h

theorem forEach {α : Type} {body : α → Collect V S Unit} {as : List α} (hbody : ∀ a ∈ as, P (body a)) :
    P (Collect.forEach body as) := by
  induction as with
  | nil => exact h.pure ()
  | cons a rest ih =>
    rw [List.forall_mem_cons] at hbody
    exact h.bind hbody.1 fun _ => ih hbody.2

theorem forPages {numOfRows : Nat} {maxPages : Option Nat} {fetch : Nat → Collect V S (List Item)}
    {body : Item → Collect V S Unit} (hfetch : ∀ page, P (fetch page)) (hbody : ∀ item, P (body item)) (fuel page : Nat) :
    P (forPages numOfRows maxPages fetch body fuel page) := by
  induction fuel generalizing page with
  | zero => exact h.pure ()
  | succ fuel ih =>
    unfold TravelMaker.forPages
    split
    · exact h.pure ()
    · refine h.bind (hfetch page) fun items => ?_
      split
      · exact h.pure ()
      · refine h.bind (h.forEach fun item _ => hbody item) fun _ => ?_
        split
        · exact h.pure ()
        · exact ih (page + 1)

theorem detailsOf {out : Outside} (hcall : ∀ c : Call, c.page? = none → P (Collect.call out c)) (contentId contentTypeId : Int) :
    P (detailsOf out contentId contentTypeId) := by
  have hcommon : P (Collect.detailCommon out contentId) := h.bind (hcall (.detailCommon contentId) rfl) fun _ => h.pure _
  have himage : P (Collect.detailImage out contentId) := hcall (.detailImage contentId) rfl
  have hintro : P (Collect.detailIntro out contentId contentTypeId) :=
    h.bind (hcall (.detailIntro contentId contentTypeId) rfl) fun _ => h.pure _
  refine h.bind hcommon fun common => h.bind himage fun images => ?_
  dsimp only
  split
  · exact h.bind hintro fun intro => h.pure _
  · exact h.bind (h.pure none) fun intro => h.pure _

end Composes

namespace Blind
variable {P : ∀ {α : Type}, Collect V S α → Prop} (h : Blind P)
include h

theorem ofExcept_bind {α β : Type} {x : Except Exc α} {f : α → Collect V S β} (hf : ∀ a, x = .ok a → P (f a)) :
    P (Collect.ofExcept x >>= f) := by
  cases x with
  | ok a => exact hf a rfl
  | error e => exact h.raise e

theorem safeList {x : Collect V S (List Item)} (hx : P x) : P (safeList x) := by
  refine h.bind (h.attempt hx) fun answer => ?_
  split
  · exact h.pure _
  · exact h.pure _
  · exact h.raise _

end Blind

section
variable {P : ∀ {α : Type}, Collect V SyncSummary α → Prop} (h : Blind P) {out : Outside} {contentTypeId : Int} {listItem : Item}
  {dryRun : Bool}
include h

/-- An item to collect; a dry run stores nothing. -/
theorem Blind.processListItem {skipExisting : Bool} {existingIds : Option (List Int)}
    (hcall : ∀ c : Call, c.page? = none → P (Collect.call out c))
    (hsave : dryRun = false → ∀ contentId, listItem.intAt "contentid" = .ok contentId → ∀ firstimage common images intro,
      P (Collect.atomic out (saveListItem out.column contentTypeId contentId listItem firstimage common images intro))) :
    P (processListItem out contentTypeId listItem dryRun skipExisting existingIds) := by
  refine h.bind (h.tally _) fun _ => ?_
  split
  · exact h.tally _
  · refine h.ofExcept_bind fun contentId hid => ?_
    split
    · exact h.tally _
    · split
      · exact h.pure ()
      · rename_i hdry
        refine h.bind (h.attempt (h.detailsOf hcall contentId contentTypeId)) fun details => ?_
        split
        · exact h.tally _
        · exact h.raise _
        · refine h.bind (h.attempt (hsave (Bool.eq_false_iff.mpr hdry) contentId hid _ _ _ _)) fun saved => ?_
          split
          · split
            · exact h.tally _
            · exact h.raise _
          · exact h.tally _

/-- An item of `sync_incremental`; a dry run takes no place down. -/
theorem Blind.processSyncItem {existing : Existing} (hcollect : P (TravelMaker.processListItem out contentTypeId listItem dryRun))
    (hoff : dryRun = false → ∀ contentId, listItem.intAt "contentid" = .ok contentId →
      P (Collect.atomic out (deactivatePlace contentId))) :
    P (TravelMaker.processSyncItem out contentTypeId existing dryRun listItem) := by
  refine h.ofExcept_bind fun contentId hid => ?_
  split
  · split
    · dsimp only
      split
      · rename_i hdry
        exact h.bind (hoff (by simpa using hdry) contentId hid) fun _ => h.tally _
      · exact h.tally _
    · exact h.pure ()
  · split
    · exact hcollect
    · split
      · exact hcollect
      · exact h.tally _

end

/-- A target of a backfill, by its two writes. -/
theorem Blind.backfillTarget {P : ∀ {α : Type}, Collect V DetailBackfillSummary α → Prop} (h : Blind P) {out : Outside}
    {dryRun refreshInfo : Bool} {hasInfo : List Int} {target : BackfillTarget} {intro : Option Item}
    (htel : ∀ tel, P (unlessDry dryRun (Collect.atomic out (setTel target.id tel))))
    (hinfo : ∀ item defaults, buildPlaceInfoDefaults target.contentTypeId item = some defaults →
      P (unlessDry dryRun (Collect.atomic out (updateOrCreateInfo target.id defaults)))) :
    P (backfillTarget out dryRun refreshInfo hasInfo target intro) := by
  have htold : P (backfillTel out dryRun target intro) := by
    refine h.ofExcept_bind fun key _ => ?_
    split
    · exact h.tally _
    · exact h.bind (htel _) fun _ => h.tally _
  have hwritten : P (backfillInfo out dryRun refreshInfo hasInfo target intro) := by
    unfold backfillInfo
    split
    · exact h.pure ()
    · rename_i item
      dsimp only
      split
      · split
        · exact h.pure ()
        · rename_i defaults hdefaults
          exact h.bind (hinfo item defaults hdefaults) fun _ => h.tally _
      · exact h.pure ()
  exact h.bind (h.tally _) fun _ => h.bind htold fun _ => hwritten

end TravelMaker
