import TravelMaker.Lib.History
import TravelMaker.User.Session

/-! Concurrent refreshes with one token: the steps of `TokenRefreshView.post`.

A request looks for the token in the blacklist, and puts it there in a later step.
`single_use_iff` says that one pair is issued as long as no request looks between the two
steps of another. -/
namespace TravelMaker
open Lib.History (Along states)

variable {V : Type}

/-- How far a request is. -/
inductive RefreshPhase where
  | received
  | parsed
  /-- The token was not blacklisted. -/
  | checked
  /-- The token is blacklisted now. -/
  | revoked
  | loaded (user : User)
  | issued
  | answered (status : Nat)
  | raised (e : Exc)
deriving DecidableEq, Repr

/-- The requests that carry the token, and what they share. -/
structure Rotation (V : Type) where
  db : Db V
  cache : Blacklist := []
  requests : Nat → RefreshPhase := fun _ => .received

/-- The next step of a request, taken while the token is valid. -/
structure RefreshStep (token : Token) where
  request : Nat
  now : Instant
  valid : token.valid now = true

/-- The request is past its write to the blacklist. -/
def RefreshPhase.wrote : RefreshPhase → Bool
  | .revoked | .loaded _ | .issued | .raised _ => true
  | _ => false

/-- The request is past the check. -/
def RefreshPhase.passed (phase : RefreshPhase) : Bool := phase == .checked || phase.wrote

namespace Rotation
variable {token : Token}

def advance (request : Nat) (phase : RefreshPhase) (s : Rotation V) : Rotation V :=
  {s with requests := Function.update s.requests request phase}

def step (token : Token) (s : Rotation V) (o : RefreshStep token) : Rotation V :=
  match s.requests o.request with
  | .received => s.advance o.request (if token.valid o.now then .parsed else .answered 403)
  | .parsed => s.advance o.request (if isJtiBlacklisted o.now token.jti s.cache then .answered 403 else .checked)
  | .checked => {s with cache := blacklistToken o.now token s.cache}.advance o.request .revoked
  | .revoked =>
    match s.db.user? token.userId with
    | some user => s.advance o.request (.loaded user)
    | none => s.advance o.request (.raised userDoesNotExist)
  | .loaded _ => s.advance o.request .issued
  | .issued | .answered _ | .raised _ => s

def start (db : Db V) (cache : Blacklist) : Rotation V := {db := db, cache := cache}

/-- At most one request issues a pair. -/
def SingleUse (s : Rotation V) : Prop := ∀ i j, s.requests i = .issued → s.requests j = .issued → i = j

/-- No request looks in the blacklist while another is about to write to it. -/
def Alone (s : Rotation V) (o : RefreshStep token) : Prop :=
  s.requests o.request = .parsed → ∀ i, s.requests i ≠ .checked

/-- At most one request has passed the check. -/
def OnePassed (s : Rotation V) : Prop :=
  ∀ i j, (s.requests i).passed = true → (s.requests j).passed = true → i = j

/-- The blacklist has the token once a request wrote it there, and until it expires. -/
structure Marked (token : Token) (s : Rotation V) : Prop where
  written : ∀ i, (s.requests i).wrote = true → ∀ now, token.valid now = true →
    isJtiBlacklisted now token.jti s.cache = true
  only : ∀ now, isJtiBlacklisted now token.jti s.cache = true → ∃ i, (s.requests i).wrote = true

/-! ### One step -/

section
variable {s : Rotation V} {o : RefreshStep token}

theorem advance_self (request : Nat) (phase : RefreshPhase) : (s.advance request phase).requests request = phase :=
  Function.update_self ..

theorem advance_of_ne {request i : Nat} (h : i ≠ request) (phase : RefreshPhase) :
    (s.advance request phase).requests i = s.requests i :=
  Function.update_of_ne h _ _

/-- A step that moves a request within the phases before or after the check. -/
theorem onePassed_advance {request : Nat} {phase : RefreshPhase}
    (h : phase.passed = (s.requests request).passed) : (s.advance request phase).OnePassed ↔ s.OnePassed := by
  have hsame : ∀ i, ((s.advance request phase).requests i).passed = (s.requests i).passed := by
    intro i
    by_cases hi : i = request
    · rw [hi, advance_self, h]
    · rw [advance_of_ne hi]
  unfold OnePassed
  simp only [hsame]

theorem marked_advance {request : Nat} {phase : RefreshPhase} (h : phase.wrote = (s.requests request).wrote)
    (hs : s.Marked token) : (s.advance request phase).Marked token := by
  have hsame : ∀ i, ((s.advance request phase).requests i).wrote = (s.requests i).wrote := by
    intro i
    by_cases hi : i = request
    · rw [hi, advance_self, h]
    · rw [advance_of_ne hi]
  constructor
  · intro i hi
    rw [hsame] at hi
    exact hs.written i hi
  · intro now hnow
    obtain ⟨i, hi⟩ := hs.only now hnow
    exact ⟨i, (hsame i).trans hi⟩

theorem marked_step (s : Rotation V) (o : RefreshStep token) (hs : s.Marked token) : (s.step token o).Marked token := by
  unfold step
  cases hphase : s.requests o.request with
  | received => exact marked_advance (by rw [hphase, if_pos o.valid]; rfl) hs
  | parsed =>
    refine marked_advance ?_ hs
    rw [hphase]
    split <;> rfl
  | checked =>
    -- the entry outlasts every later step
    constructor
    · intro _ _ now hnow
      exact isJtiBlacklisted_blacklistToken o.valid hnow s.cache
    · intro _ _
      refine ⟨o.request, ?_⟩
      rw [advance_self]
      rfl
  | revoked =>
    dsimp only
    split
    · exact marked_advance (by rw [hphase]; rfl) hs
    · exact marked_advance (by rw [hphase]; rfl) hs
  | loaded user => exact marked_advance (by rw [hphase]; rfl) hs
  | issued => exact hs
  | answered status => exact hs
  | raised e => exact hs

/-- The check lets a second request pass if it comes before the write of the first. -/
theorem onePassed_check (hs : s.Marked token) (hone : s.OnePassed) (hphase : s.requests o.request = .parsed) :
    (s.step token o).OnePassed ↔ ∀ i, s.requests i ≠ .checked := by
  unfold step
  rw [hphase]
  dsimp only
  split
  · rename_i hblacklisted
    rw [onePassed_advance (by rw [hphase]; rfl)]
    refine iff_of_true hone fun i hi => ?_
    obtain ⟨j, hj⟩ := hs.only o.now hblacklisted
    have hij : i = j := hone i j (by rw [hi]; rfl) (by rw [RefreshPhase.passed, hj, Bool.or_true])
    rw [← hij, hi] at hj
    cases hj
  · rename_i hnot
    have hnone : ∀ i, (s.requests i).wrote = false := by
      intro i
      by_contra hi
      exact hnot (hs.written i ((Bool.not_eq_false _).mp hi) o.now o.valid)
    constructor
    · intro h i hi
      have hne : i ≠ o.request := by
        intro heq
        subst heq
        rw [hphase] at hi
        cases hi
      refine hne (h i o.request ?_ ?_)
      · rw [advance_of_ne hne, hi]
        rfl
      · rw [advance_self]
        rfl
    · intro h i j hi hj
      have hrequest : ∀ k, ((s.advance o.request .checked).requests k).passed = true → k = o.request := by
        intro k hk
        by_contra hne
        rw [advance_of_ne hne, RefreshPhase.passed, hnone, Bool.or_false, beq_iff_eq] at hk
        exact h k hk
      rw [hrequest i hi, hrequest j hj]

theorem onePassed_step (s : Rotation V) (o : RefreshStep token) (hs : s.Marked token) (hone : s.OnePassed) :
    (s.step token o).OnePassed ↔ s.Alone o := by
  cases hphase : s.requests o.request with
  | parsed =>
    rw [onePassed_check hs hone hphase, Alone, hphase]
    exact ⟨fun h _ => h, fun h => h rfl⟩
  | received | checked | revoked | loaded | issued | answered | raised =>
    refine iff_of_true ?_ fun h => ?_
    · unfold step
      rw [hphase]
      dsimp only
      first
        | exact hone
        | (split <;> exact (onePassed_advance (by rw [hphase]; rfl)).mpr hone)
        | exact (onePassed_advance (by rw [hphase]; rfl)).mpr hone
    · rw [hphase] at h
      cases h

end

/-! ### Runs -/

section
variable {db : Db V} {cache : Blacklist}

theorem marked_start (hcache : ∀ entry ∈ cache, entry.1 ≠ token.jti) : (start db cache).Marked token where
  written _ h := nomatch h
  only now h := by
    obtain ⟨entry, hentry, hsame⟩ := List.any_eq_true.mp h
    rw [Bool.and_eq_true, beq_iff_eq] at hsame
    exact absurd hsame.1 (hcache entry hentry)

theorem onePassed_iff (hcache : ∀ entry ∈ cache, entry.1 ≠ token.jti) (ops : List (RefreshStep token)) :
    (∀ t ∈ states (step token) (start db cache) ops, t.OnePassed) ↔ Along (step token) Alone (start db cache) ops :=
  Lib.History.forall_states_iff marked_step onePassed_step (marked_start hcache) (fun _ _ h => nomatch h) ops

theorem OnePassed.singleUse {s : Rotation V} (h : s.OnePassed) : s.SingleUse := by
  intro i j hi hj
  apply h
  · rw [hi]
    rfl
  · rw [hj]
    rfl

theorem step_of_ne {s : Rotation V} {o : RefreshStep token} {i : Nat} (hi : i ≠ o.request) :
    (s.step token o).requests i = s.requests i := by
  unfold step
  cases s.requests o.request with
  | revoked =>
    dsimp only
    split <;> exact advance_of_ne hi _
  | received | parsed | checked | loaded => exact advance_of_ne hi _
  | issued | answered | raised => rfl

/-- A request that passed the check stays so. -/
theorem passed_step {s : Rotation V} {o : RefreshStep token} {i : Nat} (h : (s.requests i).passed = true) :
    ((s.step token o).requests i).passed = true := by
  by_cases hi : i = o.request
  · rw [hi] at h ⊢
    unfold step
    cases hphase : s.requests o.request with
    | received | parsed | answered =>
      rw [hphase] at h
      cases h
    | checked =>
      show ((advance o.request .revoked _).requests o.request).passed = true
      rw [advance_self]
      rfl
    | revoked =>
      dsimp only
      split
      · rw [advance_self]
        rfl
      · rw [advance_self]
        rfl
    | loaded user =>
      dsimp only
      rw [advance_self]
      rfl
    | issued | raised => exact h
  · rwa [step_of_ne hi]

/-- **When one token makes one pair**: no request looks in the blacklist while another is
about to write to it. Once all requests have run to their end, only then. -/
theorem single_use_iff (hcache : ∀ entry ∈ cache, entry.1 ≠ token.jti) (ops : List (RefreshStep token)) :
    (Along (step token) Alone (start db cache) ops → ∀ t ∈ states (step token) (start db cache) ops, t.SingleUse) ∧
      ((∀ i, ((ops.foldl (step token) (start db cache)).requests i).passed = true →
          (ops.foldl (step token) (start db cache)).requests i = .issued) →
        (ops.foldl (step token) (start db cache)).SingleUse → Along (step token) Alone (start db cache) ops) := by
  constructor
  · intro halone t ht
    exact ((onePassed_iff hcache ops).mpr halone t ht).singleUse
  · intro hcomplete hsingle
    refine (onePassed_iff hcache ops).mp fun t ht i j hi hj => ?_
    have hlast : ∀ k, (t.requests k).passed = true → ((ops.foldl (step token) (start db cache)).requests k).passed = true :=
      fun k hk => Lib.History.foldl_of_states (P := fun s => (s.requests k).passed = true) (fun _ _ => passed_step) ht hk
    exact hsingle i j (hcomplete i (hlast i hi)) (hcomplete j (hlast j hj))

end

/-! ### Two requests at once -/

/-- An account and its token. -/
def holder : Db Unit where
  users := [{id := 1}]

def heldToken : Token := ⟨7, 1, 100⟩

/-- Steps of the requests in this order. -/
def inTurn (requests : List Nat) : List (RefreshStep heldToken) := requests.map fun request => ⟨request, 0, rfl⟩

theorem single_use_iff_oneByOne :
    (Along (step heldToken) Alone (start holder []) (inTurn [1, 1, 1, 1, 1, 2, 2]) →
        ∀ t ∈ states (step heldToken) (start holder []) (inTurn [1, 1, 1, 1, 1, 2, 2]), t.SingleUse) ∧
      ((∀ i, (((inTurn [1, 1, 1, 1, 1, 2, 2]).foldl (step heldToken) (start holder [])).requests i).passed = true →
          ((inTurn [1, 1, 1, 1, 1, 2, 2]).foldl (step heldToken) (start holder [])).requests i = .issued) →
        ((inTurn [1, 1, 1, 1, 1, 2, 2]).foldl (step heldToken) (start holder [])).SingleUse →
        Along (step heldToken) Alone (start holder []) (inTurn [1, 1, 1, 1, 1, 2, 2])) :=
  single_use_iff (List.forall_mem_nil _) _

/-- Both requests look before either writes. -/
theorem both_requests_issue : ¬ ∀ t ∈ states (step heldToken) (start holder []) (inTurn [1, 1, 2, 2, 1, 1, 1, 2, 2, 2]),
    t.SingleUse := by
  intro h
  have hlast := h _ (Lib.History.foldl_mem_states _ _)
  exact absurd (hlast 1 2 (by decide) (by decide)) (by decide)

end Rotation
end TravelMaker
