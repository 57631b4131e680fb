import TravelMaker.Lib.Guarded
import TravelMaker.Review.Rating

/-! Ratings under concurrent reviews of one place.

The transactions of `create_review`, `update_review` and `delete_review` write the
review first and take the row of the place afterwards. Whatever the interleaving,
each of them commits holding that row, with an average and a count taken after it
had the row: no other commit can come between. -/
namespace TravelMaker
open Lib (Txn)
open Lib.ReadCommitted

variable {V : Type}

/-- A request on the place `p`. -/
inductive ReviewRequest where
  | create (now : Instant) (userId : Int) (data : ReviewCreateData)
  | update (userId reviewId : Int) (data : ReviewUpdateData)
  | delete (userId reviewId : Int)

def ReviewRequest.program (p : Int) : ReviewRequest → Service V Unit
  | .create now userId data => do
    let _ ← createReview now userId p data
    return ()
  | .update userId reviewId data => updateReview userId reviewId data
  | .delete userId reviewId => deleteReview userId reviewId

/-- The review that the request names. -/
def ReviewRequest.target : ReviewRequest → Option Int
  | .create .. => none
  | .update _ reviewId _ => some reviewId
  | .delete _ reviewId => some reviewId

/-- The columns of the place `p` say what its reviews say. -/
def RatedAt (p : Int) (d : Db V) : Prop := ∀ place ∈ d.places, place.id = p → Agrees d place

instance (p : Int) (d : Db V) : Decidable (RatedAt p d) :=
  inferInstanceAs (Decidable (∀ place ∈ d.places, place.id = p → Agrees d place))

/-! ### What the row of the place guards -/

/-- The reviews of the place, and whether there is such a place. -/
def ratingData (p : Int) (d : Db V) : List Review × Bool := (d.reviewsOf p, (d.place? p).isSome)

section
variable (p : Int) (T : Int → Prop)

/-- The reviews that requests name are reviews of the place. -/
def TargetsAt (d : Db V) : Prop := ∀ r ∈ d.reviews, T r.id → r.placeId = p

/-- Committing these writes leaves the place rated, if its reviews are still `x`. -/
def Rates (x : List Review × Bool) (log : List (Db V → Db V)) : Prop :=
  ∀ c, TargetsAt p T c → ratingData p c = x → RatedAt p (replay log c) ∧ TargetsAt p T (replay log c)

/-- What the row of the place protects. -/
def ratingProtocol : Protocol (Db V) RowKey (List Review × Bool) where
  row := .place p
  part := ratingData p
  inv := TargetsAt p T

/-- The commit happens with the row of the place and leaves it rated. -/
def RatesHeld (k : Knowledge (Db V) (List Review × Bool)) : Prop :=
  ∃ x, k.held = some x ∧ Rates p T x k.log

/-- The writes before the rating: they change the reviews of the place as `F` says
and no place. -/
structure Edits (F : List Review → List Review) (log : List (Db V → Db V)) : Prop where
  places : ∀ c, (replay log c).places = c.places
  reviews : ∀ c, (replay log c).reviewsOf p = F (c.reviewsOf p)
  targets : ∀ c, TargetsAt p T c → TargetsAt p T (replay log c)

end

variable {p : Int} {T : Int → Prop}

theorem edits_insert (data : ReviewCreateData) (id userId : Int) (routeId : Option Int) :
    Edits (V := V) p T (· ++ [data.row id userId p routeId]) [Db.insertReview (data.row id userId p routeId)] where
  places := fun _ => rfl
  reviews := fun c => by
    have hp : (data.row id userId p routeId).placeId = p := rfl
    simp [hp]
  targets := by
    intro c hc r hr ht
    rcases List.mem_append.mp hr with hr | hr
    · exact hc r hr ht
    · rw [List.mem_singleton.mp hr]
      rfl

theorem edits_modify (reviewId : Int) (data : ReviewUpdateData) :
    Edits (V := V) p T (·.map fun r => if r.id = reviewId then data.assign r else r)
      [Db.modifyReview reviewId data.assign] where
  places := fun _ => rfl
  reviews := fun c => Db.reviewsOf_modifyReview reviewId data.assign (fun _ => rfl) c p
  targets := by
    intro c hc r hr ht
    obtain ⟨r', hr', rfl⟩ := List.mem_map.mp hr
    split at ht
    · rename_i hid
      rw [if_pos hid]
      exact hc r' hr' ht
    · rename_i hid
      rw [if_neg hid]
      exact hc r' hr' ht

theorem edits_delete (reviewId : Int) :
    Edits (V := V) p T (·.filter (·.id != reviewId)) [Db.deleteReview reviewId] where
  places := fun _ => rfl
  reviews := fun c => Db.reviewsOf_deleteReview reviewId c p
  targets := fun _ hc r hr ht => hc r (List.mem_filter.mp hr).1 ht

/-- The writes of a transaction whose place is gone. -/
theorem Edits.rates_missing {F : List Review → List Review} {log : List (Db V → Db V)}
    (h : Edits p T F log) {x : List Review × Bool} (hx : x.2 = false) : Rates p T x log := by
  intro c hc hπ
  refine ⟨fun place hplace hid => ?_, h.targets c hc⟩
  rw [h.places] at hplace
  have hnone : c.place? p = none := by
    have : (c.place? p).isSome = false := by rw [← hx, ← hπ]; rfl
    simpa using this
  exact absurd hid (Db.place?_none hnone place hplace)

/-- The writes of a transaction that rated the place from the reviews it had then. -/
theorem Edits.rates_saved {F : List Review → List Review} {log : List (Db V → Db V)}
    (h : Edits p T F log) {x : List Review × Bool} {ratings : List Nat}
    (hr : ratings = (F x.1).map (·.rating.value)) :
    Rates p T x (log ++ [Db.savePlaceRating p (ratingAvgOf ratings) ratings.length]) := by
  intro c hc hπ
  rw [replay_append, replay_cons, replay_nil]
  have hnow : (replay log c).ratingsOf p = ratings := by
    rw [Db.ratingsOf, h.reviews c, hr, ← hπ]
    rfl
  refine ⟨fun place hplace hid => ?_, h.targets c hc⟩
  rcases mem_savePlaceRating hplace with ⟨-, ha, hn⟩ | ⟨hne, -⟩
  · exact ⟨by rw [ratingsOf_savePlaceRating, hid, hnow]; exact hn,
      by rw [ratingsOf_savePlaceRating, hid, hnow]; exact ha⟩
  · exact absurd hid hne

/-- A behaviour log changes no rating. -/
theorem Rates.log {x : List Review × Bool} {log : List (Db V → Db V)} (h : Rates p T x log)
    (l : UserActionLog) : Rates p T x (log ++ [Db.insertActionLog l]) := by
  intro c hc hπ
  rw [replay_append, replay_cons, replay_nil]
  obtain ⟨hrated, htargets⟩ := h c hc hπ
  exact ⟨fun place hplace hid => (hrated place hplace hid).congr rfl, htargets⟩

/-! ### The programs -/

section
variable (p : Int) (T : Int → Prop)

/-- The program commits only with the row of the place and the place rated. -/
def RatesNext (k : Knowledge (Db V) (List Review × Bool)) (q : Service V Unit) : Prop :=
  Guarded (ratingProtocol p T) (RatesHeld p T) k q

/-- The program commits what it is handed once the place is rated. -/
def Finishes (q : Service V Unit) : Prop :=
  ∀ x k, k.held = some x → Rates p T x k.log → RatesNext p T k q

end

theorem finishes_ret : Finishes (V := V) p T (.ret ()) := fun x _ hx h => ⟨x, hx, h⟩

theorem finishes_recordReview (now : Instant) (userId : Int) (place : Place) (rating : Rating)
    {q : UserActionLog → Service V Unit} (hq : ∀ l, Finishes p T (q l)) :
    Finishes p T (recordAction now userId place .review (some rating) >>= q) := by
  intro x k hx h
  simp only [recordAction, Txn.read_bind, Txn.query_bind, RatesNext, guarded_query]
  intro c hc
  obtain ⟨a, ha⟩ := computeFinalWeight_ok .review (replay k.log c) place (some rating) (fun _ => rfl)
  simp only [ha, Txn.fresh_bind, Txn.nextval_bind, Txn.put_bind, Txn.write_bind, Txn.pure_eq, Txn.ret_bind,
    guarded_nextval, guarded_write]
  intro id _ c' hc'
  rw [take_ne (by simp [ratingProtocol])]
  exact hq _ x _ hx (h.log _)

theorem follows_updatePlaceRating {F : List Review → List Review}
    {k : Knowledge (Db V) (List Review × Bool)} (h : Edits p T F k.log) {q : Unit → Service V Unit}
    (hq : Finishes p T (q ())) : RatesNext p T k (updatePlaceRating p >>= q) := by
  simp only [updatePlaceRating, Txn.forUpdate_bind, Txn.lock_bind, RatesNext, guarded_lock]
  intro c hc
  have htake : k.take (ratingProtocol p T) (.place p) c = {k with held := some (ratingData p c)} := take_row _
  rw [htake]
  cases hp : (replay k.log c).place? p with
  | none =>
    have hplace : c.place? p = none := by rw [Db.place?, ← h.places c]; exact hp
    exact hq _ _ rfl (h.rates_missing (by simp [ratingData, hplace]))
  | some place =>
    simp only [Txn.read_bind, Txn.query_bind, Txn.put_bind, Txn.write_bind, Txn.pure_eq, Txn.ret_bind,
      guarded_query, guarded_write]
    intro c₁ hc₁ c₂ hc₂
    have hheld : ratingData p c₂ = ratingData p c := hc₂.held _ rfl
    refine hq (ratingData p c) _ ?_ (h.rates_saved ?_)
    · exact (congrArg Knowledge.held (take_row (ratingProtocol p T))).trans (congrArg some hheld)
    · have hthen : ratingData p c₁ = ratingData p c := hc₁.held _ rfl
      rw [Db.ratingsOf, h.reviews, ← hthen]
      rfl

/-- The route check writes and locks nothing. -/
theorem follows_getReviewRoute {userId : Int} {routeId : Option Int}
    {k : Knowledge (Db V) (List Review × Bool)} {q : Option Int → Service V Unit}
    (hq : ∀ k', k'.log = k.log → RatesNext p T k' (q routeId)) :
    RatesNext p T k (getReviewRoute userId p routeId >>= q) := by
  cases routeId with
  | none => exact hq k rfl
  | some id =>
    simp only [getReviewRoute, Txn.read_bind, Txn.query_bind, RatesNext, guarded_query]
    intro c hc
    cases (replay k.log c).routes.find? (fun r => r.id == id && r.userId == userId) with
    | none => trivial
    | some route =>
      simp only [Txn.orRaise_bind, Txn.pure_eq]
      split
      · exact hq _ rfl
      · trivial

theorem follows_createReview (now : Instant) (userId : Int) (data : ReviewCreateData)
    {k : Knowledge (Db V) (List Review × Bool)} (hk : k.log = []) :
    RatesNext p T k (ReviewRequest.program p (.create now userId data)) := by
  simp only [ReviewRequest.program, createReview, getPlaceOr404, Txn.read_bind, Txn.query_bind, RatesNext,
    guarded_query]
  intro c hc
  cases (replay k.log c).place? p with
  | none => trivial
  | some place =>
    simp only [Txn.pure_eq, Txn.ret_bind, Txn.query_bind, guarded_query, Txn.orRaise_bind]
    intro c₁ hc₁
    split
    · rw [bind_assoc]
      refine follows_getReviewRoute fun k' hk' => ?_
      simp only [Txn.fresh_bind, Txn.nextval_bind, insertReviewRow, bind_assoc, Txn.put_bind, Txn.orRaise_bind,
        RatesNext, guarded_nextval]
      intro id _
      split
      case isFalse => trivial
      simp only [Txn.write_bind, Txn.orRaise_bind, guarded_write]
      intro c₂ hc₂
      rw [take_ne (by simp [ratingProtocol])]
      split
      · refine follows_updatePlaceRating (F := (· ++ [data.row id userId p data.routeId])) ?_ ?_
        · have hlog : k'.log = [] := hk'.trans hk
          simp only [Knowledge.write, Knowledge.draw, hlog]
          exact edits_insert data id userId data.routeId
        · split
          · exact finishes_ret
          · rw [bind_assoc]
            exact finishes_recordReview now userId place data.rating fun _ => finishes_ret
      · trivial
    · trivial

theorem follows_updateReview (userId reviewId : Int) (data : ReviewUpdateData) (ht : T reviewId)
    {k : Knowledge (Db V) (List Review × Bool)} (hk : k.log = []) :
    RatesNext p T k (updateReview userId reviewId data) := by
  simp only [updateReview, Txn.read_bind, RatesNext, guarded_query, hk, replay_nil]
  intro c hc
  cases hr : c.review? reviewId with
  | none => trivial
  | some review =>
    obtain ⟨hmem, hid⟩ := Db.review?_some hr
    have hp : review.placeId = p := hc.inv review hmem (hid ▸ ht)
    simp only [Txn.orRaise_bind, hp]
    split
    · refine follows_getReviewRoute fun k' hk' => ?_
      simp only [saveReview, Txn.put_bind, Txn.orRaise_bind, RatesNext]
      split
      case isFalse => trivial
      simp only [Txn.write_bind, Txn.orRaise_bind, guarded_write]
      intro c₁ hc₁
      rw [take_ne (by simp [ratingProtocol])]
      split
      · rw [← bind_pure (updatePlaceRating p)]
        refine follows_updatePlaceRating
          (F := (·.map fun r => if r.id = reviewId then data.assign r else r)) ?_ finishes_ret
        have hlog : k'.log = [] := hk'.trans hk
        simp only [Knowledge.write, hlog]
        exact edits_modify reviewId data
      · trivial
    · trivial

theorem follows_deleteReview (userId reviewId : Int) (ht : T reviewId)
    {k : Knowledge (Db V) (List Review × Bool)} (hk : k.log = []) :
    RatesNext p T k (deleteReview userId reviewId) := by
  simp only [deleteReview, Txn.read_bind, RatesNext, guarded_query, hk, replay_nil]
  intro c hc
  cases hr : c.review? reviewId with
  | none => trivial
  | some review =>
    obtain ⟨hmem, hid⟩ := Db.review?_some hr
    have hp : review.placeId = p := hc.inv review hmem (hid ▸ ht)
    simp only [Txn.orRaise_bind, Txn.put_bind, hp]
    split
    · simp only [guarded_write]
      intro c₁ hc₁
      rw [take_ne (by simp [ratingProtocol]), ← bind_pure (updatePlaceRating p)]
      refine follows_updatePlaceRating (F := (·.filter (·.id != reviewId))) ?_ finishes_ret
      simp only [Knowledge.write, Knowledge.look, hk]
      exact edits_delete reviewId
    · trivial

/-! ### Any interleaving -/

/-- The request names a review of the place, if any. -/
def ReviewRequest.Names (T : Int → Prop) (l : ReviewRequest) : Prop := ∀ id, l.target = some id → T id

theorem review_discipline : Discipline (ratingProtocol (V := V) p T) (ReviewRequest.program p)
    (fun l _ => l.Names T) (fun _ => RatesHeld p T) where
  guarded := by
    intro l c hl hc
    cases l with
    | create now userId data => exact follows_createReview now userId data rfl
    | update userId reviewId data => exact follows_updateReview userId reviewId data (hl reviewId rfl) rfl
    | delete userId reviewId => exact follows_deleteReview userId reviewId (hl reviewId rfl) rfl
  keeps := by
    intro l k c hr hc
    obtain ⟨x, hx, hrates⟩ := hr
    exact (hrates c hc.inv (hc.held x hx)).2
  clean := by
    intro l k c hr hc hnone
    obtain ⟨x, hx, -⟩ := hr
    rw [hx] at hnone
    cases hnone
  fresh := fun _ _ _ _ _ _ _ _ => trivial
  grows := fun _ _ _ _ _ => trivial

/-- **No update of a rating is lost.** Any number of review transactions on one
place, interleaved statement by statement, waiting for each other's rows, committed
or lost: if the committed columns of the place agreed with its reviews at the
start, they agree after every step, and so when no transaction is left. -/
theorem rated_exec (p : Int) (d : Db V) (seq : Nat) (hrated : RatedAt p d)
    (actions : List (Action ReviewRequest))
    (htargets : ∀ l ∈ started actions, ∀ id, l.target = some id → ∀ r ∈ d.reviews, r.id = id → r.placeId = p)
    {s : State (Db V) RowKey Exc Unit ReviewRequest}
    (hrun : exec (ReviewRequest.program p) (.idle d seq) actions = some s) : RatedAt p s.committed := by
  let T (id : Int) : Prop := ∃ l ∈ started actions, l.target = some id
  have htargets' : TargetsAt p T d := by
    intro r hr ⟨l, hl, hid⟩
    exact htargets l hl r.id hid r hr rfl
  have hall : ∀ l ∈ started actions, l.Names T := fun l hl id hid => ⟨l, hl, hid⟩
  refine exec_guarded (Q := RatedAt p) (review_discipline (p := p) (T := T)) ?_ htargets'
    (fun _ _ => trivial) hrated (along_started hall _) hrun
  intro l k c hr hc _
  obtain ⟨x, hx, hrates⟩ := hr
  exact (hrates c hc.inv (hc.held x hx)).1

/-- Two readers and one place. -/
def Db.twoReaders : Db Unit := {Db.oneReader with users := [{id := 1}, {id := 2}]}

def ReviewCreateData.oneStar : ReviewCreateData where
  rating := ⟨1, le_rfl, Nat.one_le_ofNat⟩
  content := "별로예요"
  content_length := by decide

/-- Both insert their review before either has the row of the place. -/
def bothReview : List (Action ReviewRequest) :=
  [.start 0 (.create 0 1 .fiveStars), .start 1 (.create 0 2 .oneStar)] ++
    (List.replicate 4 [.advance 0, .advance 1]).flatten ++
    List.replicate 7 (.advance 0) ++ List.replicate 7 (.advance 1)

theorem rated_exec_bothReview :
    ∃ s, exec (ReviewRequest.program 1) (.idle Db.twoReaders 1) bothReview = some s ∧
      RatedAt 1 s.committed := by
  have h : (exec (ReviewRequest.program 1) (.idle Db.twoReaders 1) bothReview).isSome = true := by
    decide +kernel
  have hrun := (Option.some_get h).symm
  exact ⟨_, hrun, rated_exec 1 Db.twoReaders 1 (by decide) bothReview
    (fun _ _ _ _ _ hr => nomatch hr) hrun⟩

end TravelMaker
