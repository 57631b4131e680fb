import TravelMaker.Place.SyncRun

/-! `sync_incremental` twice on one upstream.

`idempotent_iff`: the first run takes no time back and the second does nothing exactly
if, of every content id, the times of what is collected go up, its storable items are
listed under one type, and the item that comes last decides whether it is shown. -/
namespace TravelMaker
open Lib.Mirror (Row Entry stamp)

variable {V : Type}

section
variable (out : Outside) (contentTypeIds : List Int) (numOfRows : Nat) (db : Db V) (seq : Nat)

def firstRun : Except Exc Unit × World V SyncSummary :=
  syncIncremental out contentTypeIds numOfRows none false (World.start db seq)

def secondRun : Except Exc Unit × World V SyncSummary :=
  syncIncremental out contentTypeIds numOfRows none false
    (World.start (firstRun out contentTypeIds numOfRows db seq).2.db
      (firstRun out contentTypeIds numOfRows db seq).2.seq)

/-- Both runs end, the first takes no time back, and the second asks for no details,
creates and updates nothing and leaves the store as it is. -/
structure Idempotent : Prop where
  returns : (firstRun out contentTypeIds numOfRows db seq).1 = .ok () ∧
    (secondRun out contentTypeIds numOfRows db seq).1 = .ok ()
  neverBack : ∀ contentId, NeverBack contentId (firstRun out contentTypeIds numOfRows db seq).2
  noDetail : ∀ c ∈ (secondRun out contentTypeIds numOfRows db seq).2.calls, c.contentId? = none
  created : (secondRun out contentTypeIds numOfRows db seq).2.summary.created = 0
  updated : (secondRun out contentTypeIds numOfRows db seq).2.summary.updated = 0
  store : (secondRun out contentTypeIds numOfRows db seq).2.db = (firstRun out contentTypeIds numOfRows db seq).2.db

end

/-! ### Equal tables -/

theorem place_eq_of_shown {p q : Place} (h : p.shown = q.shown) (hactive : p.isActive = q.isActive) : p = q := by
  cases p
  cases q
  simp_all [Place.shown]

/-- Tables that differ in `is_active` at most are equal if the rows are. -/
theorem eq_of_shown {d d' : Db V} {seq seq' : Nat} (hok : PlacesOk d seq) (hok' : PlacesOk d' seq')
    (hshown : d'.shown = d.shown) (hrow : ∀ contentId, d'.row contentId = d.row contentId) : d' = d := by
  have hmap : d'.places.map Place.shown = d.places.map Place.shown := congrArg Db.places hshown
  have hplaces : d'.places = d.places := by
    refine List.ext_getElem (by simpa using congrArg List.length hmap) fun i hi' hi => ?_
    have hsame : d'.places[i].shown = d.places[i].shown := by
      simpa [hi, hi'] using congrArg (fun l : List Place => l[i]?) hmap
    apply place_eq_of_shown hsame
    have hid : d'.places[i].contentId = d.places[i].contentId := by
      show d'.places[i].shown.contentId = d.places[i].shown.contentId
      rw [hsame]
    have hboth := hrow d.places[i].contentId
    rw [Db.row, Db.row, placeOf?_eq_of_mem hok.contentIds (List.getElem_mem hi), ← hid,
      placeOf?_eq_of_mem hok'.contentIds (List.getElem_mem hi')] at hboth
    exact congrArg Row.live (Option.some.inj hboth)
  cases d
  cases d'
  simp only [Db.shown, Db.mk.injEq] at hshown hplaces ⊢
  obtain ⟨husers, hsocial, htags, -, hrest⟩ := hshown
  exact ⟨husers, hsocial, htags, hplaces, hrest⟩

/-! ### Two runs -/

section
variable {listing : Int → List Item} {contentTypeIds : List Int} {db : Db V} {seq : Nat} {w w₁ w₂ : World V SyncSummary}

theorem RunReads.row (h : RunReads listing contentTypeIds (World.start db seq) w) (contentId : Int) :
    w.db.row contentId = Lib.Mirror.run (listings listing contentId contentTypeIds) (db.row contentId) :=
  (h.follows contentId).row

theorem RunReads.neverBack (h : RunReads listing contentTypeIds (World.start db seq) w) (contentId : Int) :
    NeverBack contentId w ↔ Lib.Mirror.AscendsAll (db.row contentId) (listings listing contentId contentTypeIds) := by
  rw [(h.follows contentId).back]
  exact and_iff_right (List.isChain_singleton _)

theorem RunReads.detailCalled (h : RunReads listing contentTypeIds (World.start db seq) w) (contentId : Int) :
    DetailCalled contentId w ↔ Lib.Mirror.Collects (db.row contentId) (listings listing contentId contentTypeIds) := by
  rw [(h.follows contentId).calls]
  exact or_iff_right fun ⟨_, hc, _⟩ => nomatch hc

variable (h₁ : RunReads listing contentTypeIds (World.start db seq) w₁)
  (h₂ : RunReads listing contentTypeIds (World.start w₁.db w₁.seq) w₂)
include h₁ h₂

/-- A second run that asks for nothing and changes nothing finds every content id settled. -/
theorem settled_of_quiet (hback : ∀ contentId, NeverBack contentId w₁) (hcalls : ∀ c ∈ w₂.calls, c.contentId? = none)
    (hstore : w₂.db = w₁.db) (contentId : Int) :
    Lib.Mirror.Settled (db.row contentId) (listings listing contentId contentTypeIds) := by
  refine ⟨(h₁.neverBack contentId).mp (hback contentId), ?_, ?_⟩
  · rw [← h₁.row, ← h₂.detailCalled]
    intro h
    obtain ⟨c, hc, hid⟩ := h
    rw [hcalls c hc] at hid
    cases hid
  · rw [← h₁.row, ← h₂.row]
    exact congrArg (Db.row · contentId) hstore

/-- On settled content ids the second run does nothing. -/
theorem quiet_of_settled
    (hsettled : ∀ contentId, Lib.Mirror.Settled (db.row contentId) (listings listing contentId contentTypeIds)) :
    (∀ c ∈ w₂.calls, c.contentId? = none) ∧ w₂.summary.created = 0 ∧ w₂.summary.updated = 0 ∧ w₂.db = w₁.db := by
  have hnone : ∀ contentId, ¬ Lib.Mirror.Collects (w₁.db.row contentId) (listings listing contentId contentTypeIds) := by
    intro contentId
    rw [h₁.row]
    exact (hsettled contentId).collects
  obtain ⟨hshown, hcreated, hupdated⟩ := h₂.quiet hnone
  refine ⟨?_, hcreated, hupdated, ?_⟩
  · intro c hc
    by_contra hid
    obtain ⟨contentId, hid⟩ := Option.ne_none_iff_exists'.mp hid
    exact hnone contentId ((h₂.detailCalled contentId).mp ⟨c, hc, hid⟩)
  · refine eq_of_shown h₁.ok h₂.ok hshown fun contentId => ?_
    rw [h₂.row, h₁.row]
    exact (hsettled contentId).fixed

end

section
variable {out : Outside} {numOfRows : Nat} {listing : Int → List Item} {contentTypeIds : List Int} {db : Db V}
  {seq : Nat} (hup : Upstream out numOfRows listing) (hok : PlacesOk db seq)
include hup hok

theorem idempotent_iff_settled : Idempotent out contentTypeIds numOfRows db seq ↔
    ∀ contentId, Lib.Mirror.Settled (db.row contentId) (listings listing contentId contentTypeIds) := by
  obtain ⟨w₁, hrun₁, h₁⟩ := syncIncremental_reads hup contentTypeIds (World.start db seq) hok
  obtain ⟨w₂, hrun₂, h₂⟩ := syncIncremental_reads hup contentTypeIds (World.start w₁.db w₁.seq) h₁.ok
  have hfirst : firstRun out contentTypeIds numOfRows db seq = (.ok (), w₁) := hrun₁
  have hsecond : secondRun out contentTypeIds numOfRows db seq = (.ok (), w₂) := by
    rw [secondRun, hfirst]
    exact hrun₂
  constructor
  · intro h
    obtain ⟨-, hneverBack, hnoDetail, -, -, hstore⟩ := h
    rw [hfirst] at hneverBack hstore
    rw [hsecond] at hnoDetail hstore
    exact settled_of_quiet h₁ h₂ hneverBack hnoDetail hstore
  · intro hsettled
    obtain ⟨hcalls, hcreated, hupdated, hstore⟩ := quiet_of_settled h₁ h₂ hsettled
    constructor
    · rw [hfirst, hsecond]
      exact ⟨rfl, rfl⟩
    · intro contentId
      rw [hfirst]
      exact (h₁.neverBack contentId).mpr (hsettled contentId).ascends
    · rw [hsecond]
      exact hcalls
    · rw [hsecond]
      exact hcreated
    · rw [hsecond]
      exact hupdated
    · rw [hfirst, hsecond]
      exact hstore

/-- **When a second run finds nothing to do.** -/
theorem idempotent_iff (htypes : contentTypeIds.Nodup) : Idempotent out contentTypeIds numOfRows db seq ↔
    ∀ contentId, Lib.Mirror.Calm (db.row contentId) (listings listing contentId contentTypeIds) := by
  rw [idempotent_iff_settled hup hok]
  refine forall_congr' fun contentId => Lib.Mirror.settled_iff ?_
  rw [listings, List.map_map]
  exact (List.map_id contentTypeIds).symm ▸ htypes

end

/-! ### A listing that shifted -/

theorem idempotent_iff_visits :
    Idempotent (visitsUpstream ["20250101000000", "20260101000000"]) [14] 1 (visited "20240101000000" true) 2 ↔
      ∀ contentId, Lib.Mirror.Calm ((visited "20240101000000" true).row contentId)
        (listings (visits ["20250101000000", "20260101000000"]) contentId [14]) :=
  idempotent_iff (visits_upstream _) (visited_ok _ _) (by decide)

/-- The older item comes last: the place goes back to 2025, and a second run collects it again. -/
theorem shifted_listing_goes_back :
    ¬ Idempotent (visitsUpstream ["20260101000000", "20250101000000"]) [14] 1 (visited "20240101000000" true) 2 := by
  rw [idempotent_iff_settled (visits_upstream _) (visited_ok _ _)]
  intro h
  obtain ⟨⟨-, hback, -⟩, -⟩ := (h 1006).ascends
  revert hback
  show ¬ (stamp (some "20260101000000") ≤ stamp (some "20250101000000"))
  decide

end TravelMaker
