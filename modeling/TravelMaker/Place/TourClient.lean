import Mathlib.Algebra.Order.Field.Rat
import TravelMaker.Place.TourResponse

/-! Keys and retries: `TourApiClient._get`.

A call asks until a request succeeds or an error ends it. An exhausted key is left for the
next one, a transient error is tried again after a pause, and each key has its own retries.
A key is its place in the list of keys. -/
namespace TravelMaker

/-- A client between two requests. -/
structure TourApiClient where
  serviceKeys : List String
  keyIndex : Nat
  maxRetries : Nat
  backoffBase : ℚ
  inRange : keyIndex < serviceKeys.length

/-- What `_get` raises. -/
inductive GetError where
  | tourApiError (e : TourApiError)
  | allKeysExhaustedError (e : TourApiError)
  | other (e : Exc)

def RequestError.raised : RequestError → GetError
  | .tourApiError e => .tourApiError e
  | .other e => .other e

/-- `exc.code in ("22", "429")`. -/
def TourApiError.isLimit (e : TourApiError) : Bool := e.code.isStr "22" || e.code.isStr "429"

/-- The keys of `TourApiClient.__init__`. -/
def initKeys (serviceKeys : Option (List String)) (serviceKey : Option String) (tourApiCodes : List String)
    (tourApiCode : String) : List String :=
  let keys := match serviceKeys, serviceKey with
    | some keys, _ => keys.filter (· ≠ "")
    | none, some key => [key]
    | none, none => if tourApiCodes = [] then [tourApiCode] else tourApiCodes
  if keys = [] then [""] else keys

theorem initKeys_ne_nil (serviceKeys : Option (List String)) (serviceKey : Option String) (tourApiCodes : List String)
    (tourApiCode : String) : initKeys serviceKeys serviceKey tourApiCodes tourApiCode ≠ [] := by
  unfold initKeys
  extract_lets keys
  by_cases h : keys = []
  · rw [if_pos h]
    exact List.cons_ne_nil _ _
  · rw [if_neg h]
    exact h

/-- How the loop goes on after an error of the client. -/
inductive Reaction where
  | rotate (c : TourApiClient)
  | retry (delay : ℚ)
  | exhausted
  | fail

namespace TourApiClient

/-- `TourApiClient.__init__`. -/
def init (serviceKeys : Option (List String)) (serviceKey : Option String) (tourApiCodes : List String)
    (tourApiCode : String) (maxRetries : Nat := 3) (backoffBase : ℚ := 1) : TourApiClient where
  serviceKeys := initKeys serviceKeys serviceKey tourApiCodes tourApiCode
  keyIndex := 0
  maxRetries := maxRetries
  backoffBase := backoffBase
  inRange := List.length_pos_of_ne_nil (initKeys_ne_nil serviceKeys serviceKey tourApiCodes tourApiCode)

/-- `_rotate_key`. -/
def rotateKey (c : TourApiClient) : Option TourApiClient :=
  if h : c.keyIndex + 1 < c.serviceKeys.length then some {c with keyIndex := c.keyIndex + 1, inRange := h} else none

/-- The pause before the next attempt. -/
def delay (c : TourApiClient) (attempt : Nat) (e : TourApiError) : ℚ :=
  let delay := c.backoffBase * 2 ^ attempt
  if e.isLimit then max delay (c.backoffBase * 8) else delay

/-- The `except` branch of the loop. -/
def react (c : TourApiClient) (attempt : Nat) (e : TourApiError) : Reaction :=
  match if e.isLimit then c.rotateKey else none with
  | some c' => .rotate c'
  | none =>
    if e.isLimit ∧ 1 < c.serviceKeys.length then .exhausted
    else if e.retryable ∧ attempt < c.maxRetries then .retry (c.delay attempt e)
    else .fail

theorem rotateKey_eq_some {c c' : TourApiClient} (h : c.rotateKey = some c') :
    c'.serviceKeys = c.serviceKeys ∧ c'.keyIndex = c.keyIndex + 1 ∧ c'.maxRetries = c.maxRetries := by
  unfold rotateKey at h
  split at h
  · cases h
    exact ⟨rfl, rfl, rfl⟩
  · cases h

theorem rotateKey_eq_none {c : TourApiClient} (h : c.rotateKey = none) : c.keyIndex + 1 = c.serviceKeys.length := by
  have := c.inRange
  unfold rotateKey at h
  split at h
  · cases h
  · omega

/-- What an error says about the reaction, and what that changes. -/
inductive Reacts (c : TourApiClient) (attempt : Nat) (e : TourApiError) : Reaction → Prop
  | rotate (c' : TourApiClient) : e.isLimit = true → c'.serviceKeys = c.serviceKeys →
      c'.keyIndex = c.keyIndex + 1 → c'.maxRetries = c.maxRetries → Reacts c attempt e (.rotate c')
  | exhausted : e.isLimit = true → 1 < c.serviceKeys.length → c.keyIndex + 1 = c.serviceKeys.length →
      Reacts c attempt e .exhausted
  | retry (delay : ℚ) : (e.isLimit = true → c.serviceKeys.length ≤ 1) → e.retryable = true → attempt < c.maxRetries →
      Reacts c attempt e (.retry delay)
  | fail : (e.isLimit = true → c.serviceKeys.length ≤ 1) → (e.retryable = true → c.maxRetries ≤ attempt) →
      Reacts c attempt e .fail

theorem react_reacts (c : TourApiClient) (attempt : Nat) (e : TourApiError) : c.Reacts attempt e (c.react attempt e) := by
  unfold react
  split
  · rename_i c' hrotate
    split at hrotate
    · rename_i hlimit
      obtain ⟨hkeys, hindex, hretries⟩ := rotateKey_eq_some hrotate
      exact .rotate c' hlimit hkeys hindex hretries
    · cases hrotate
  · rename_i hrotate
    split
    · rename_i hexhausted
      rw [if_pos hexhausted.1] at hrotate
      exact .exhausted hexhausted.1 hexhausted.2 (rotateKey_eq_none hrotate)
    · rename_i hnot
      have hone : e.isLimit = true → c.serviceKeys.length ≤ 1 := fun hlimit => Nat.le_of_not_lt fun hmany => hnot ⟨hlimit, hmany⟩
      split
      · rename_i hretry
        exact .retry _ hone hretry.1 hretry.2
      · rename_i hlast
        exact .fail hone fun hretryable => Nat.le_of_not_lt fun hleft => hlast ⟨hretryable, hleft⟩

end TourApiClient

/-! ### A call -/

/-- A request: the key it used, and how it ended. -/
structure KeyRequest where
  key : Nat
  outcome : Outcome

/-- What a call ends in: its result, the client afterwards, its requests and its pauses. -/
structure Answer where
  result : Except GetError (List Json)
  client : TourApiClient
  requests : List KeyRequest
  slept : List ℚ := []

/-- An answer with one more request before it, and a pause. -/
def Answer.after (a : Answer) (r : KeyRequest) (delay : ℚ) : Answer :=
  {a with requests := r :: a.requests, slept := if delay = 0 then a.slept else delay :: a.slept}

namespace TourApiClient

/-- The loop of `_get`, at its `attempt` with a key; the request is the `n`-th of the call. -/
def getFrom (c : TourApiClient) (outcome : Nat → Outcome) (attempt n : Nat) : Answer :=
  let r : KeyRequest := ⟨c.keyIndex, outcome n⟩
  match outcome n with
  | .ok items => ⟨.ok items, c, [r], []⟩
  | .error (.other e) => ⟨.error (.other e), c, [r], []⟩
  | .error (.tourApiError e) =>
    match h : c.react attempt e with
    | .rotate c' => (getFrom c' outcome 0 (n + 1)).after r 0
    | .exhausted => ⟨.error (.allKeysExhaustedError ⟨e.code, false⟩), c, [r], []⟩
    | .retry delay => (getFrom c outcome (attempt + 1) (n + 1)).after r delay
    | .fail => ⟨.error (.tourApiError e), c, [r], []⟩
termination_by (c.serviceKeys.length - c.keyIndex, c.maxRetries - attempt)
decreasing_by
  · have hreacts := c.react_reacts attempt e
    rw [h] at hreacts
    cases hreacts with
    | rotate _ _ hkeys hindex _ =>
      have := c.inRange
      rw [hkeys, hindex]
      exact Prod.Lex.left _ _ (by omega)
  · have hreacts := c.react_reacts attempt e
    rw [h] at hreacts
    cases hreacts with
    | retry _ _ _ hleft => exact Prod.Lex.right _ (by omega)

def get (c : TourApiClient) (outcome : Nat → Outcome) : Answer := c.getFrom outcome 0 0

end TourApiClient

/-! ### Turn by turn -/

/-- The error says that the key is exhausted. -/
def RequestError.isLimit : RequestError → Bool
  | .tourApiError e => e.isLimit
  | .other _ => false

/-- The error ends a call whatever is left: it is neither retryable nor about the key. -/
def RequestError.isFatal : RequestError → Bool
  | .tourApiError e => !e.retryable && !e.isLimit
  | .other _ => true

/-- The request was answered with code 22 or 429. -/
def KeyRequest.HitLimit (r : KeyRequest) : Prop := ∃ e, r.outcome = .error e ∧ e.isLimit = true

/-- The calls of the loop, one constructor a turn. -/
inductive Turns (outcome : Nat → Outcome) : TourApiClient → (attempt n : Nat) → Answer → Prop
  | returned (c : TourApiClient) (attempt n : Nat) (items : List Json) : outcome n = .ok items →
      Turns outcome c attempt n ⟨.ok items, c, [⟨c.keyIndex, .ok items⟩], []⟩
  | raised (c : TourApiClient) (attempt n : Nat) (e : RequestError) : outcome n = .error e →
      (e.isLimit = true → c.serviceKeys.length ≤ 1) →
      Turns outcome c attempt n ⟨.error e.raised, c, [⟨c.keyIndex, .error e⟩], []⟩
  | exhausted (c : TourApiClient) (attempt n : Nat) (e : TourApiError) : outcome n = .error (.tourApiError e) →
      e.isLimit = true → 1 < c.serviceKeys.length → c.keyIndex + 1 = c.serviceKeys.length →
      Turns outcome c attempt n ⟨.error (.allKeysExhaustedError ⟨e.code, false⟩), c,
        [⟨c.keyIndex, .error (.tourApiError e)⟩], []⟩
  | rotated (c c' : TourApiClient) (attempt n : Nat) (e : TourApiError) (a : Answer) :
      outcome n = .error (.tourApiError e) → e.isLimit = true → c'.serviceKeys = c.serviceKeys →
      c'.keyIndex = c.keyIndex + 1 → c'.maxRetries = c.maxRetries → Turns outcome c' 0 (n + 1) a →
      Turns outcome c attempt n (a.after ⟨c.keyIndex, .error (.tourApiError e)⟩ 0)
  | retried (c : TourApiClient) (attempt n : Nat) (e : TourApiError) (delay : ℚ) (a : Answer) :
      outcome n = .error (.tourApiError e) → (e.isLimit = true → c.serviceKeys.length ≤ 1) → e.retryable = true →
      attempt < c.maxRetries → Turns outcome c (attempt + 1) (n + 1) a →
      Turns outcome c attempt n (a.after ⟨c.keyIndex, .error (.tourApiError e)⟩ delay)

section
variable {outcome : Nat → Outcome} {c : TourApiClient} {attempt n : Nat} {a : Answer}

theorem Turns.ne_nil (h : Turns outcome c attempt n a) : a.requests ≠ [] := by
  cases h <;> exact List.cons_ne_nil _ _

/-- The attempts left with this key, and all attempts with the keys after it. -/
theorem Turns.length_le (h : Turns outcome c attempt n a) (hattempt : attempt ≤ c.maxRetries) :
    a.requests.length ≤
      (c.serviceKeys.length - c.keyIndex - 1) * (c.maxRetries + 1) + (c.maxRetries + 1 - attempt) := by
  have hone : ∀ left, 1 ≤ left + (c.maxRetries + 1 - attempt) := fun left => by omega
  induction h with
  | returned c attempt n items _ => exact hone _
  | raised c attempt n e _ _ => exact hone _
  | exhausted c attempt n e _ _ _ _ => exact hone _
  | rotated c c' attempt n e a _ _ hkeys hindex hretries _ ih =>
    have hrest := ih (Nat.zero_le _) fun left => by omega
    have hin := c'.inRange
    rw [hkeys, hindex, hretries] at hrest
    rw [hkeys, hindex] at hin
    have hsplit : c.serviceKeys.length - c.keyIndex - 1 = c.serviceKeys.length - (c.keyIndex + 1) - 1 + 1 := by omega
    rw [hsplit, Nat.succ_mul]
    simp only [Answer.after, List.length_cons]
    omega
  | retried c attempt n e delay a _ _ _ hleft _ ih =>
    have hrest := ih hleft fun left => by omega
    simp only [Answer.after, List.length_cons]
    omega

/-- The key never goes back. -/
theorem Turns.keys (h : Turns outcome c attempt n a) :
    (c.keyIndex :: (a.requests.map (·.key) ++ [a.client.keyIndex])).Pairwise (· ≤ ·) ∧
      (∀ r ∈ a.requests, r.key < c.serviceKeys.length) ∧ a.client.serviceKeys = c.serviceKeys := by
  induction h with
  | returned c attempt n items _ => simp [c.inRange]
  | raised c attempt n e _ _ => simp [c.inRange]
  | exhausted c attempt n e _ _ _ _ => simp [c.inRange]
  | rotated c c' attempt n e a _ _ hkeys hindex _ _ ih =>
    obtain ⟨hsorted, hrange, hclient⟩ := ih
    rw [hkeys] at hrange hclient
    refine ⟨?_, List.forall_mem_cons.mpr ⟨c.inRange, hrange⟩, hclient⟩
    have hle : ∀ k ∈ a.requests.map (·.key) ++ [a.client.keyIndex], c.keyIndex ≤ k := fun k hk => by
      have := (List.pairwise_cons.mp hsorted).1 k hk
      omega
    have hrest := (List.pairwise_cons.mp hsorted).2
    refine List.Pairwise.cons (fun k hk => ?_) (List.Pairwise.cons hle hrest)
    rcases List.mem_cons.mp hk with rfl | hk
    · exact Nat.le_refl _
    · exact hle k hk
  | retried c attempt n e delay a _ _ _ _ _ ih =>
    obtain ⟨hsorted, hrange, hclient⟩ := ih
    refine ⟨?_, List.forall_mem_cons.mpr ⟨c.inRange, hrange⟩, hclient⟩
    refine List.Pairwise.cons (fun k hk => ?_) hsorted
    rcases List.mem_cons.mp hk with rfl | hk
    · exact Nat.le_refl _
    · exact (List.pairwise_cons.mp hsorted).1 k hk

/-- Another request follows only an error that is about the key or retryable. -/
theorem Turns.goesOn (h : Turns outcome c attempt n a) :
    ∀ r ∈ a.requests.dropLast, ∃ e, r.outcome = .error e ∧ e.isFatal = false := by
  induction h with
  | returned c attempt n items _ => exact fun r hr => nomatch hr
  | raised c attempt n e _ _ => exact fun r hr => nomatch hr
  | exhausted c attempt n e _ _ _ _ => exact fun r hr => nomatch hr
  | rotated c c' attempt n e a _ hlimit _ _ _ hrest ih =>
    simp only [Answer.after, List.dropLast_cons_of_ne_nil hrest.ne_nil]
    refine List.forall_mem_cons.mpr ⟨⟨_, rfl, ?_⟩, ih⟩
    simp [RequestError.isFatal, hlimit]
  | retried c attempt n e delay a _ _ hretryable _ hrest ih =>
    simp only [Answer.after, List.dropLast_cons_of_ne_nil hrest.ne_nil]
    refine List.forall_mem_cons.mpr ⟨⟨_, rfl, ?_⟩, ih⟩
    simp [RequestError.isFatal, hretryable]

/-- A call returns what its last request got, or raises what that raised, or
`AllKeysExhaustedError` if the last key of several is exhausted. -/
theorem Turns.result (h : Turns outcome c attempt n a) : ∃ r, a.requests.getLast? = some r ∧
    ((∃ items, r.outcome = .ok items ∧ a.result = .ok items) ∨
      (∃ e, r.outcome = .error e ∧ a.result = .error e.raised ∧ (e.isLimit = true → c.serviceKeys.length ≤ 1)) ∨
      ∃ e, r.HitLimit ∧ a.result = .error (.allKeysExhaustedError e) ∧ 2 ≤ c.serviceKeys.length ∧
        r.key + 1 = c.serviceKeys.length) := by
  induction h with
  | returned c attempt n items _ => exact ⟨_, rfl, .inl ⟨items, rfl, rfl⟩⟩
  | raised c attempt n e _ hone => exact ⟨_, rfl, .inr (.inl ⟨e, rfl, rfl, hone⟩)⟩
  | exhausted c attempt n e _ hlimit hmany hlast => exact ⟨_, rfl, .inr (.inr ⟨_, ⟨_, rfl, hlimit⟩, rfl, hmany, hlast⟩)⟩
  | rotated c c' attempt n e a _ _ hkeys _ _ hrest ih =>
    obtain ⟨r, hr, hresult⟩ := ih
    rw [hkeys] at hresult
    exact ⟨r, by simp [Answer.after, List.getLast?_cons, hr], hresult⟩
  | retried c attempt n e delay a _ _ _ _ hrest ih =>
    obtain ⟨r, hr, hresult⟩ := ih
    exact ⟨r, by simp [Answer.after, List.getLast?_cons, hr], hresult⟩

/-- An error that no other request follows is that of the last one. -/
theorem Turns.eq_last (h : Turns outcome c attempt n a) {last : KeyRequest} (hlast : a.requests.getLast? = some last)
    {r : KeyRequest} (hr : r ∈ a.requests) (hends : ∀ e, r.outcome = .error e → e.isFatal = true) : r = last := by
  obtain ⟨before, hbefore⟩ := List.getLast?_eq_some_iff.mp hlast
  have hgoesOn := h.goesOn
  rw [hbefore, List.dropLast_concat] at hgoesOn
  rw [hbefore] at hr
  rcases List.mem_append.mp hr with hr | hr
  · obtain ⟨e, he, hfatal⟩ := hgoesOn r hr
    rw [hends e he] at hfatal
    cases hfatal
  · exact List.mem_singleton.mp hr

theorem Turns.returns (h : Turns outcome c attempt n a) {r : KeyRequest} (hr : r ∈ a.requests) {items : List Json}
    (hitems : r.outcome = .ok items) : a.result = .ok items := by
  obtain ⟨last, hlast, hresult⟩ := h.result
  obtain rfl := h.eq_last hlast hr fun e he => by
    rw [hitems] at he
    cases he
  rcases hresult with ⟨items', hout, hres⟩ | ⟨e, hout, -⟩ | ⟨e, ⟨e', hout, -⟩, -⟩ <;> rw [hitems] at hout <;> cases hout
  exact hres

theorem Turns.first (h : Turns outcome c attempt n a) {items : List Json} (hitems : a.result = .ok items) :
    ∃ before key, a.requests = before ++ [⟨key, .ok items⟩] ∧ ∀ r ∈ before, ∃ e, r.outcome = .error e := by
  obtain ⟨last, hlast, hresult⟩ := h.result
  obtain ⟨before, hbefore⟩ := List.getLast?_eq_some_iff.mp hlast
  have hgoesOn := h.goesOn
  rw [hbefore, List.dropLast_concat] at hgoesOn
  rcases hresult with ⟨items', hout, hres⟩ | ⟨e, -, hres, -⟩ | ⟨e, -, hres, -⟩ <;> rw [hitems] at hres <;> cases hres
  refine ⟨before, last.key, ?_, fun r hr => (hgoesOn r hr).imp fun e he => he.1⟩
  rw [hbefore, ← hout]

end

/-! ### The whole call -/

end TravelMaker
