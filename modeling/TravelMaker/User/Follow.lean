import TravelMaker.Lib.Linearize
import TravelMaker.User.Account

/-! Follows: `FollowService`, and what its requests do to each other.

`follow` relies on the unique constraint and `unfollow` on the number of rows its `DELETE` took,
so neither trusts what it has read. `follows_linearize`: any interleaving of the requests of all
users has the outcome of the requests that returned, served one after the other. -/
namespace TravelMaker
open Lib (Txn)
open Lib.ReadCommitted

variable {V : Type}

structure Follow where
  id : Int
  followerId : Int
  followingId : Int
  createdAt : Instant
deriving DecidableEq, Repr

/-- The tables, and who follows whom. -/
structure Network (V : Type) where
  db : Db V := {}
  follows : List Follow := []
deriving DecidableEq, Repr

/-- The entries of the unique index. A pair has one row, so its entry stands for the lock of
the row too. -/
inductive FollowKey where
  | followOf (followerId followingId : Int)
deriving DecidableEq, Repr

def Follow.pair (follow : Follow) : Int × Int := (follow.followerId, follow.followingId)

def Follow.key (follow : Follow) : FollowKey := .followOf follow.followerId follow.followingId

namespace Network

/-- `Follow.objects.filter(follower=…, following=…)`. -/
def followsOf (n : Network V) (pair : Int × Int) : List Follow := n.follows.filter (·.pair = pair)

/-- `User.objects.filter(id=…, is_active=True).exists()`. -/
def isActiveUser (n : Network V) (userId : Int) : Bool := n.db.users.any fun u => u.id == userId && u.isActive

def insertFollow (follow : Follow) (n : Network V) : Network V := {n with follows := n.follows ++ [follow]}

def deleteFollow (follow : Follow) (n : Network V) : Network V := {n with follows := n.follows.filter (· ≠ follow)}

@[simp] theorem followsOf_insertFollow (n : Network V) (follow : Follow) (pair : Int × Int) :
    (n.insertFollow follow).followsOf pair = n.followsOf pair ++ if follow.pair = pair then [follow] else [] := by
  simp [insertFollow, followsOf, List.filter_append, List.filter_cons]

@[simp] theorem followsOf_deleteFollow (n : Network V) (follow : Follow) (pair : Int × Int) :
    (n.deleteFollow follow).followsOf pair = (n.followsOf pair).filter (· ≠ follow) := by
  simp only [deleteFollow, followsOf, List.filter_filter, Bool.and_comm]

theorem mem_followsOf {n : Network V} {pair : Int × Int} {follow : Follow} :
    follow ∈ n.followsOf pair ↔ follow ∈ n.follows ∧ follow.pair = pair := by
  simp [followsOf]

end Network

/-- A service call on the follows. -/
abbrev FollowCall (V : Type) (α : Type) := Txn (Network V) FollowKey Exc α

/-- The `INSERT`: it waits on the unique index, and its foreign keys must hold. -/
def insertFollowRow (follow : Follow) : FollowCall V Unit := do
  let n ← Txn.put follow.key (Network.insertFollow follow)
  -- `except IntegrityError`: whichever constraint it was
  Txn.orRaise (n.followsOf follow.pair = [] ∧ (n.db.user? follow.followerId).isSome = true ∧
    (n.db.user? follow.followingId).isSome = true) (.api 409 "이미 팔로우한 사용자입니다.")

def follow (now : Instant) (followerId targetUserId : Int) : FollowCall V Unit := do
  Txn.orRaise (followerId ≠ targetUserId) (.api 400 "자기 자신을 팔로우할 수 없습니다.")
  let n ← Txn.read
  Txn.orRaise (n.isActiveUser targetUserId) (.api 404 "사용자를 찾을 수 없습니다.")
  let id ← Txn.fresh
  insertFollowRow ⟨id, followerId, targetUserId, now⟩

/-- The `DELETE` of a row it found: it waits for the row, and a row that is gone by then is not
counted. -/
def deleteFollowRow (follow : Follow) : FollowCall V Nat := do
  let n ← Txn.forUpdate follow.key
  if follow ∈ n.follows then
    let _ ← Txn.put follow.key (Network.deleteFollow follow)
    return 1
  else return 0

/-- `Follow.objects.filter(follower=…, following_id=…).delete()`. -/
def deleteFollows (followerId targetUserId : Int) : FollowCall V Nat := do
  let n ← Txn.read
  match (n.followsOf (followerId, targetUserId)).head? with
  | none => return 0
  | some follow => deleteFollowRow follow

def unfollow (followerId targetUserId : Int) : FollowCall V Unit := do
  let deleted ← deleteFollows followerId targetUserId
  Txn.orRaise (deleted ≠ 0) (.api 404 "팔로우 관계가 없습니다.")

/-! ### The requests of all users -/

inductive FollowRequest where
  | follow (now : Instant) (followerId targetUserId : Int)
  | unfollow (followerId targetUserId : Int)
deriving DecidableEq

namespace FollowRequest

def program : FollowRequest → FollowCall V Unit
  | .follow now followerId targetUserId => TravelMaker.follow now followerId targetUserId
  | .unfollow followerId targetUserId => TravelMaker.unfollow followerId targetUserId

/-- Who would follow whom. -/
def pair : FollowRequest → Int × Int
  | .follow _ followerId targetUserId | .unfollow followerId targetUserId => (followerId, targetUserId)

/-- What a request that returned has done about its pair: it began to follow, or it ceased to. -/
def effect : FollowRequest → Bool → Option Bool
  | .follow _ followerId targetUserId, following =>
    if followerId ≠ targetUserId ∧ following = false then some true else none
  | .unfollow _ _, following => if following = true then some false else none

theorem atomic_program (l : FollowRequest) : (l.program (V := V)).Atomic := by
  cases l with
  | follow now u t =>
    refine (Txn.atomic_orRaise _ _).bind fun _ n => (Txn.atomic_orRaise _ _).bind fun _ id n' => ?_
    exact Txn.atomic_orRaise _ _
  | unfollow u t =>
    have hrow : ∀ follow, (deleteFollowRow (V := V) follow).Atomic := by
      intro follow n
      simp only [Txn.bind]
      split
      · exact fun _ => trivial
      · trivial
    refine Txn.Atomic.bind (fun n => ?_) fun _ => Txn.atomic_orRaise _ _
    simp only [Txn.bind]
    split
    · trivial
    · exact hrow _

end FollowRequest

/-! ### What the requests commit -/

/-- `follower` follows `following`. -/
def Network.relation (n : Network V) (pair : Int × Int) : Bool := n.follows.any (·.pair = pair)

theorem relation_eq_true {n : Network V} {pair : Int × Int} :
    n.relation pair = true ↔ ∃ follow ∈ n.follows, follow.pair = pair := by
  simp [Network.relation]

theorem relation_eq_false {n : Network V} {pair : Int × Int} : n.relation pair = false ↔ n.followsOf pair = [] := by
  simp [Network.relation, Network.followsOf, List.filter_eq_nil_iff]

/-- A pair has one row at most, and nobody follows themselves. -/
structure OneRow (pair : Int × Int) (n : Network V) : Prop where
  one : (n.followsOf pair).length ≤ 1
  other : pair.1 = pair.2 → n.followsOf pair = []

/-- The entry in the unique index guards the rows of the pair. -/
def followProtocol (pair : Int × Int) : Protocol (Network V) FollowKey (List Follow) where
  row := .followOf pair.1 pair.2
  part := fun n => n.followsOf pair
  inv := OneRow pair

/-- What a request commits: a row of its pair, with none there yet, or the end of one that was
there. -/
def FollowRule (pair : Int × Int) : FollowRequest → Knowledge (Network V) (List Follow) → Prop
  | .follow _ u t, k => u ≠ t ∧ ∃ row : Follow, row.pair = (u, t) ∧ k.log = [Network.insertFollow row] ∧
      ((u, t) = pair → k.held = some [])
  | .unfollow u t, k => ∃ row : Follow, row.pair = (u, t) ∧ k.log = [Network.deleteFollow row] ∧
      ((u, t) = pair → ∃ rows, k.held = some rows ∧ row ∈ rows)

section
variable {pair : Int × Int}

theorem take_key (row : Follow) {k : Knowledge (Network V) (List Follow)} {n : Network V} (h : row.pair = pair) :
    k.take (followProtocol pair) row.key n = {k with held := some (n.followsOf pair)} := by
  subst h
  exact take_row (followProtocol row.pair)

theorem follows_follow (now : Instant) (u t : Int) {k : Knowledge (Network V) (List Follow)} (hk : k.log = []) :
    Guarded (followProtocol pair) (FollowRule pair (.follow now u t)) k (follow now u t) := by
  unfold follow Txn.orRaise
  split
  · rename_i hother
    simp only [Txn.ret_bind, Txn.read_bind, guarded_query]
    intro n hn
    split
    · simp only [insertFollowRow, Txn.ret_bind, Txn.fresh_bind, Txn.put_bind, guarded_nextval, guarded_write]
      intro id _ n' hn'
      have hlog : ((k.look n).draw id).log = [] := hk
      unfold Txn.orRaise
      split
      · rename_i hfree
        rw [hlog, replay_nil] at hfree
        refine ⟨hother, ⟨id, u, t, now⟩, rfl, ?_, fun hpair => ?_⟩
        · rw [Knowledge.write, Knowledge.take, hlog]
          rfl
        · rw [take_key (⟨id, u, t, now⟩ : Follow) hpair, ← hpair]
          exact congrArg some hfree.1
      · trivial
    · trivial
  · trivial

theorem follows_unfollow (u t : Int) {k : Knowledge (Network V) (List Follow)} (hk : k.log = []) :
    Guarded (followProtocol pair) (FollowRule pair (.unfollow u t)) k (unfollow u t) := by
  simp only [unfollow, deleteFollows, Txn.read_bind, Txn.query_bind, guarded_query, hk, replay_nil]
  intro n hn
  cases hrow : (n.followsOf (u, t)).head? with
  | none => trivial
  | some row =>
    have hpair : row.pair = (u, t) := (Network.mem_followsOf.mp (List.mem_of_mem_head? hrow)).2
    have hlog : (k.look n).log = [] := hk
    simp only [deleteFollowRow, Txn.forUpdate_bind, Txn.lock_bind, guarded_lock, hlog, replay_nil]
    intro n' hn'
    split
    · rename_i hthere
      simp only [Txn.put_bind, Txn.write_bind, guarded_write]
      intro n'' hn''
      refine ⟨row, hpair, ?_, fun hmine => ?_⟩
      · rw [Knowledge.write, Knowledge.take, Knowledge.take, hlog]
        rfl
      · -- the row is still there: the entry has been locked since it was seen
        rw [take_key row (hpair.trans hmine)] at hn''
        have hkept : n''.followsOf pair = n'.followsOf pair := hn''.held _ rfl
        refine ⟨n''.followsOf pair, ?_, ?_⟩
        · rw [take_key row (hpair.trans hmine)]
          rfl
        · rw [hkept]
          exact Network.mem_followsOf.mpr ⟨hthere, hpair.trans hmine⟩
    · trivial

/-- The commit of a row that is there is the end of the only one. -/
theorem followsOf_deleted {n : Network V} (h : OneRow pair n) {row : Follow} (hrow : row ∈ n.followsOf pair) :
    (n.deleteFollow row).followsOf pair = [] := by
  obtain ⟨only, honly⟩ := List.length_eq_one_iff.mp (Nat.le_antisymm h.one (List.length_pos_of_mem hrow))
  rw [honly, List.mem_singleton] at hrow
  rw [Network.followsOf_deleteFollow, honly, hrow]
  simp

/-- The end of a row of another pair. -/
theorem followsOf_deleted_other {n : Network V} {row : Follow} (hrow : row.pair ≠ pair) :
    (n.deleteFollow row).followsOf pair = n.followsOf pair := by
  rw [Network.followsOf_deleteFollow, List.filter_eq_self]
  intro follow hfollow
  rw [decide_eq_true_eq]
  rintro rfl
  exact hrow (Network.mem_followsOf.mp hfollow).2

/-- What a commit makes of the rows of the pair. -/
theorem FollowRule.rows {l : FollowRequest} {k : Knowledge (Network V) (List Follow)} {n : Network V}
    (hr : FollowRule pair l k) (hn : Fits (followProtocol pair) k n) :
    l.pair ≠ pair ∧ (replay k.log n).followsOf pair = n.followsOf pair ∨
      l.pair = pair ∧ k.held.isSome = true ∧
        ((∃ now u t, l = .follow now u t ∧ u ≠ t ∧ n.followsOf pair = [] ∧
            ∃ row, (replay k.log n).followsOf pair = [row]) ∨
          ∃ u t, l = .unfollow u t ∧ n.followsOf pair ≠ [] ∧ (replay k.log n).followsOf pair = []) := by
  by_cases hmine : l.pair = pair
  · refine .inr ⟨hmine, ?_⟩
    cases l with
    | follow now u t =>
      obtain ⟨hother, row, hrow, hlog, hheld⟩ := hr
      have hfree : n.followsOf pair = [] := hn.held [] (hheld hmine)
      refine ⟨by rw [hheld hmine]; rfl, .inl ⟨now, u, t, rfl, hother, hfree, row, ?_⟩⟩
      rw [hlog, replay_cons, replay_nil, Network.followsOf_insertFollow, hfree, if_pos (hrow.trans hmine), List.nil_append]
    | unfollow u t =>
      obtain ⟨row, hrow, hlog, hheld⟩ := hr
      obtain ⟨rows, hrows, hmem⟩ := hheld hmine
      have hheld : n.followsOf pair = rows := hn.held rows hrows
      have hthere : row ∈ n.followsOf pair := by rwa [hheld]
      refine ⟨by rw [hrows]; rfl, .inr ⟨u, t, rfl, List.ne_nil_of_mem hthere, ?_⟩⟩
      rw [hlog]
      exact followsOf_deleted hn.inv hthere
  · refine .inl ⟨hmine, ?_⟩
    cases l with
    | follow now u t =>
      obtain ⟨-, row, hrow, hlog, -⟩ := hr
      rw [hlog, replay_cons, replay_nil, Network.followsOf_insertFollow, if_neg fun h => hmine (hrow.symm.trans h),
        List.append_nil]
    | unfollow u t =>
      obtain ⟨row, hrow, hlog, -⟩ := hr
      rw [hlog]
      exact followsOf_deleted_other fun h => hmine (hrow.symm.trans h)

theorem follow_discipline : Discipline (followProtocol (V := V) pair) FollowRequest.program (fun _ _ => True)
    (FollowRule pair) where
  guarded := by
    intro l n _ _
    cases l with
    | follow now u t => exact follows_follow now u t rfl
    | unfollow u t => exact follows_unfollow u t rfl
  keeps := by
    intro l k n hr hn
    have hone : OneRow pair n := hn.inv
    rcases hr.rows hn with ⟨-, hsame⟩ | ⟨hmine, -, ⟨now, u, t, rfl, hother, -, row, hrow⟩ | ⟨u, t, rfl, -, hnone⟩⟩
    · exact ⟨by rw [hsame]; exact hone.one, by rw [hsame]; exact hone.other⟩
    · refine ⟨by rw [hrow]; rfl, fun hself => ?_⟩
      cases hmine
      exact absurd hself hother
    · exact ⟨by rw [hnone]; exact Nat.zero_le 1, fun _ => hnone⟩
  clean := by
    intro l k n hr hn hfree
    rcases hr.rows hn with ⟨-, hsame⟩ | ⟨-, hheld, -⟩
    · exact hsame
    · rw [hfree] at hheld
      cases hheld
  fresh := fun _ _ _ _ _ _ _ _ => trivial
  grows := fun _ _ _ _ _ => trivial

/-- A commit is the effect of its request on the pair, and no effect on another. -/
theorem effect_of_rule {l : FollowRequest} {k : Knowledge (Network V) (List Follow)} {n : Network V}
    (hr : FollowRule pair l k) (hn : Fits (followProtocol pair) k n) :
    atKey FollowRequest.pair FollowRequest.effect pair l (n.relation pair) = some ((replay k.log n).relation pair) := by
  unfold atKey
  rcases hr.rows hn with ⟨hnot, hsame⟩ | ⟨hmine, -, ⟨now, u, t, rfl, hother, hnone, row, hrow⟩ | ⟨u, t, rfl, hthere, hnone⟩⟩
  · have hrelation : (replay k.log n).relation pair = n.relation pair := by
      rw [Bool.eq_iff_iff, relation_eq_true, relation_eq_true]
      simp only [← Network.mem_followsOf, hsame]
    rw [if_neg hnot, hrelation]
  · have hnow : (replay k.log n).relation pair = true := by
      rw [← Bool.not_eq_false, relation_eq_false, hrow]
      exact List.cons_ne_nil row []
    rw [if_pos hmine, relation_eq_false.mpr hnone, hnow, FollowRequest.effect, if_pos ⟨hother, rfl⟩]
  · have hbefore : n.relation pair = true := by
      rw [← Bool.not_eq_false, relation_eq_false]
      exact hthere
    rw [if_pos hmine, hbefore, relation_eq_false.mpr hnone, FollowRequest.effect, if_pos rfl]

end

theorem oneRow_iff {n : Network V} : (∀ pair, OneRow pair n) ↔
    (n.follows.map (·.pair)).Nodup ∧ ∀ follow ∈ n.follows, follow.followerId ≠ follow.followingId := by
  have hcount : ∀ pair, (n.follows.map (·.pair)).count pair = (n.followsOf pair).length := by
    intro pair
    rw [List.count, List.countP_map, List.countP_eq_length_filter]
    exact congrArg List.length (List.filter_congr fun follow _ => beq_eq_decide _ _)
  constructor
  · intro h
    refine ⟨List.nodup_iff_count_le_one.mpr fun pair => ?_, fun follow hfollow hself => ?_⟩
    · rw [hcount]
      exact (h pair).one
    · have hnone := (h follow.pair).other hself
      exact List.not_mem_nil (hnone ▸ Network.mem_followsOf.mpr ⟨hfollow, rfl⟩)
  · rintro ⟨hpairs, hother⟩ pair
    constructor
    · rw [← hcount]
      exact List.nodup_iff_count_le_one.mp hpairs pair
    · intro hself
      rw [Network.followsOf, List.filter_eq_nil_iff]
      intro follow hfollow hpair
      rw [decide_eq_true_eq] at hpair
      subst hpair
      exact hother follow hfollow hself

/-- **The requests of all users are served one after the other**, whatever the interleaving: those
that returned, in that order, lead from who followed whom before to who follows whom now, each of
them with an effect. A pair never has two rows, and nobody follows themselves. -/
theorem follows_linearize (n : Network V) (seq : Nat) (hpairs : (n.follows.map (·.pair)).Nodup)
    (hother : ∀ follow ∈ n.follows, follow.followerId ≠ follow.followingId) (actions : List (Action FollowRequest))
    {s : State (Network V) FollowKey Exc Unit FollowRequest}
    (hrun : exec FollowRequest.program (.idle n seq) actions = some s) :
    s.returned.foldrM (onKey FollowRequest.pair FollowRequest.effect) n.relation = some s.committed.relation ∧
      (s.committed.follows.map (·.pair)).Nodup ∧
      ∀ follow ∈ s.committed.follows, follow.followerId ≠ follow.followingId := by
  have hstart : ∀ pair, OneRow pair n := oneRow_iff.mpr ⟨hpairs, hother⟩
  have hrows : ∀ pair, OneRow pair s.committed ∧
      s.returned.foldrM (atKey FollowRequest.pair FollowRequest.effect pair) (n.relation pair) =
        some (s.committed.relation pair) := fun pair =>
    exec_linearizes (fun n : Network V => n.relation pair) follow_discipline FollowRequest.atomic_program
      (fun _ _ _ => effect_of_rule) (hstart pair) (fun _ _ => trivial) (along_started (fun _ _ => trivial) _) hrun
  exact ⟨foldrM_onKey fun pair => (hrows pair).2, oneRow_iff.mp fun pair => (hrows pair).1⟩

/-- Two accounts. -/
def twoAccounts : Network Unit where
  db := {users := [{id := 1}, {id := 2}]}

/-- A follow, and two requests that end it and have both found the row. -/
def unfollowedTwice : List (Action FollowRequest) :=
  .start 0 (.follow 0 1 2) :: List.replicate 4 (.advance 0) ++
    [.start 0 (.unfollow 1 2), .start 1 (.unfollow 1 2), .advance 0, .advance 1] ++ List.replicate 3 (.advance 0) ++
      List.replicate 2 (.advance 1)

theorem follows_linearize_unfollowedTwice :
    ∃ s, exec FollowRequest.program (.idle twoAccounts 1) unfollowedTwice = some s ∧
      s.returned = [.unfollow 1 2, .follow 0 1 2] ∧
      s.returned.foldrM (onKey FollowRequest.pair FollowRequest.effect) twoAccounts.relation = some s.committed.relation := by
  have h : (exec FollowRequest.program (.idle twoAccounts 1) unfollowedTwice).map (·.returned) =
      some [.unfollow 1 2, .follow 0 1 2] := by
    decide +kernel
  obtain ⟨s, hs, hreturned⟩ := Option.map_eq_some_iff.mp h
  exact ⟨s, hs, hreturned, (follows_linearize twoAccounts 1 List.nodup_nil (fun _ h => nomatch h) _ hs).1⟩

end TravelMaker
