import TravelMaker.Bookmark.Service
import TravelMaker.Lib.Guarded

/-! The behaviour logs of a bookmark under concurrent requests.

`create_bookmark` is stopped by the unique index, so every BOOKMARK log comes with a row.
`delete_bookmark` reads the row first and records UNBOOKMARK however many rows its `DELETE`
found: `bookmark_history_iff` is the exact condition on an interleaving. -/
namespace TravelMaker
open Lib (Txn)
open Lib.ReadCommitted

variable {V : Type}

/-- A request of the user on the place. -/
inductive BookmarkRequest where
  | create (now : Instant)
  | delete (now : Instant)
deriving DecidableEq

def BookmarkRequest.program (userId placeId : Int) : BookmarkRequest → Service V Unit
  | .create now => do
    let _ ← createBookmark now userId placeId
    return ()
  | .delete now => deleteBookmark now userId placeId

/-- The logs of one kind of action of the user on the place. -/
def Db.logsOf (d : Db V) (userId placeId : Int) (actionType : ActionType) : List UserActionLog :=
  d.actionLogs.filter fun l => l.userId == userId && l.placeId == placeId && l.actionType == actionType

/-- Bookmarked more often than taken back, by the number of rows. -/
def HistoryMatches (userId placeId : Int) (d : Db V) : Prop :=
  ((d.logsOf userId placeId .bookmark).length : Int) - (d.logsOf userId placeId .unbookmark).length =
    (d.bookmarksOf userId placeId).length

instance (userId placeId : Int) (d : Db V) : Decidable (HistoryMatches userId placeId d) :=
  inferInstanceAs (Decidable (_ = _))

/-- A `delete_bookmark` commits only if it takes a bookmark away. -/
def TakesAway (userId placeId : Int) (s : State (Db V) RowKey Exc Unit BookmarkRequest) (a : Action BookmarkRequest) :
    Prop :=
  ∀ i now q, a = .advance i → (s.sessions i).work = some (.delete now, q) → q.Commits →
    ∃ b ∈ s.committed.bookmarksOf userId placeId, b ∉ (s.view i).bookmarksOf userId placeId

/-! ### What the requests commit -/

section
variable (userId placeId : Int)

/-- A log of the user on the place. -/
structure Records (actionType : ActionType) (log : UserActionLog) : Prop where
  user : log.userId = userId
  place : log.placeId = placeId
  action : log.actionType = actionType

/-- The entry in the unique index guards the bookmark of the user on the place. -/
def bookmarkProtocol : Protocol (Db V) RowKey (List Bookmark) where
  row := .bookmarkOf userId placeId
  part := fun d => d.bookmarksOf userId placeId
  inv := fun d => (d.bookmarksOf userId placeId).length ≤ 1

/-- What a request commits: a bookmark where there is none, or the end of one, or of none. -/
def BookmarkRule : BookmarkRequest → Knowledge (Db V) (List Bookmark) → Prop
  | .create _, k => ∃ id log, Records userId placeId .bookmark log ∧ k.held = some [] ∧
      k.log = [Db.insertBookmark ⟨id, userId, placeId⟩, Db.insertActionLog log]
  | .delete _, k => ∃ log, Records userId placeId .unbookmark log ∧ (k.log = [Db.insertActionLog log] ∨
      ∃ id, k.held.isSome = true ∧ k.log = [Db.deleteBookmark id, Db.insertActionLog log])

end

variable {u p : Int}

/-- A recorded action is one more write. -/
theorem follows_recordAction (now : Instant) {place : Place} (hplace : place.id = p) {actionType : ActionType}
    (htype : actionType ≠ .review) {R : Knowledge (Db V) (List Bookmark) → Prop} {k : Knowledge (Db V) (List Bookmark)}
    {q : UserActionLog → Service V Unit}
    (hq : ∀ log k', Records u p actionType log → k'.held = k.held → k'.log = k.log ++ [Db.insertActionLog log] →
      Guarded (bookmarkProtocol u p) R k' (q log)) :
    Guarded (bookmarkProtocol u p) R k (recordAction now u place actionType none >>= q) := by
  simp only [recordAction, Txn.read_bind, Txn.query_bind, guarded_query]
  intro c hc
  obtain ⟨a, ha⟩ := computeFinalWeight_ok actionType (replay k.log c) place none fun h => absurd h htype
  simp only [ha, Txn.fresh_bind, Txn.nextval_bind, Txn.put_bind, Txn.write_bind, Txn.pure_eq, Txn.ret_bind,
    guarded_nextval, guarded_write]
  intro id _ c' hc'
  rw [take_ne (by simp [bookmarkProtocol])]
  exact hq _ _ ⟨rfl, hplace, rfl⟩ rfl rfl

theorem follows_createBookmark (now : Instant) {k : Knowledge (Db V) (List Bookmark)} (hk : k.log = []) :
    Guarded (bookmarkProtocol u p) (BookmarkRule u p (.create now)) k (BookmarkRequest.program u p (.create now)) := by
  simp only [BookmarkRequest.program, createBookmark, Txn.read_bind, Txn.query_bind, guarded_query, hk, replay_nil]
  intro c hc
  cases hplace : c.place? p with
  | none => trivial
  | some place =>
    simp only [insertBookmarkRow, Txn.fresh_bind, Txn.nextval_bind, Txn.put_bind, Txn.write_bind, Txn.orRaise_bind,
      guarded_nextval, guarded_write]
    intro id _ c' hc'
    have hlog : ((k.look c).draw id).log = [] := hk
    split
    · rename_i hnone
      rw [hlog, replay_nil] at hnone
      rw [bind_assoc]
      refine follows_recordAction now (Db.place?_some hplace).2 (by decide) fun log k' hlog' hheld hwrites => ?_
      refine ⟨id, log, hlog', ?_, ?_⟩
      · rw [hheld]
        exact (congrArg Knowledge.held (take_row (bookmarkProtocol u p))).trans (congrArg some hnone.1)
      · rw [hwrites]
        simp only [Knowledge.write, Knowledge.take, hlog]
        rfl
    · trivial

theorem follows_deleteBookmark (now : Instant) {k : Knowledge (Db V) (List Bookmark)} (hk : k.log = []) :
    Guarded (bookmarkProtocol u p) (BookmarkRule u p (.delete now)) k (deleteBookmark now u p) := by
  simp only [deleteBookmark, Txn.read_bind, guarded_query, hk, replay_nil]
  intro c hc
  cases hrow : (c.bookmarksOf u p).head? with
  | none => trivial
  | some bookmark =>
    obtain ⟨-, huser, hplace⟩ : bookmark ∈ c.bookmarks ∧ bookmark.userId = u ∧ bookmark.placeId = p := by
      simpa [Db.bookmarksOf] using List.mem_of_mem_head? hrow
    simp only [guarded_query]
    intro c₁ hc₁
    cases hfound : (replay (k.look c).log c₁).place? bookmark.placeId with
    | none => trivial
    | some place =>
      have hid : place.id = p := (Db.place?_some hfound).2.trans hplace
      simp only [deleteBookmarkRow, Txn.forUpdate_bind, Txn.lock_bind, guarded_lock]
      intro c₂ hc₂
      rw [take_ne (by simp [bookmarkProtocol])]
      split
      · simp only [Txn.put_bind, Txn.write_bind, Txn.pure_eq, Txn.ret_bind, guarded_write]
        intro c₃ hc₃
        refine follows_recordAction now hid (by decide) fun log k' hlog hheld hwrites => ⟨log, hlog, .inr ?_⟩
        refine ⟨bookmark.id, ?_, ?_⟩
        · rw [hheld, huser, hplace]
          exact congrArg Option.isSome (congrArg Knowledge.held (take_row (bookmarkProtocol u p)))
        · rw [hwrites]
          simp only [Knowledge.write, Knowledge.take, Knowledge.look, hk]
          rfl
      · simp only [Txn.pure_eq, Txn.ret_bind]
        refine follows_recordAction now hid (by decide) fun log k' hlog _ hwrites => ⟨log, hlog, .inl ?_⟩
        rw [hwrites]
        simp only [Knowledge.look, hk]
        rfl

theorem bookmark_discipline : Discipline (bookmarkProtocol (V := V) u p) (BookmarkRequest.program u p)
    (fun _ _ => True) (BookmarkRule u p) where
  guarded := by
    intro l c _ _
    cases l with
    | create now => exact follows_createBookmark now rfl
    | delete now => exact follows_deleteBookmark now rfl
  keeps := by
    intro l k c hr hc
    cases l with
    | create now =>
      obtain ⟨id, log, -, hheld, hlog⟩ := hr
      have hnone : c.bookmarksOf u p = [] := hc.held [] hheld
      simp [bookmarkProtocol, hlog, hnone]
    | delete now =>
      have hone : (c.bookmarksOf u p).length ≤ 1 := hc.inv
      obtain ⟨log, -, hlog | ⟨id, -, hlog⟩⟩ := hr
      · simpa [bookmarkProtocol, hlog] using hone
      · simpa [bookmarkProtocol, hlog] using (List.length_filter_le _ _).trans hone
  clean := by
    intro l k c hr hc hnone
    cases l with
    | create now =>
      obtain ⟨id, log, -, hheld, -⟩ := hr
      rw [hnone] at hheld
      cases hheld
    | delete now =>
      obtain ⟨log, -, hlog | ⟨id, hheld, -⟩⟩ := hr
      · simp [bookmarkProtocol, hlog]
      · rw [hnone] at hheld
        cases hheld
  fresh := fun _ _ _ _ _ _ _ _ => trivial
  grows := fun _ _ _ _ _ => trivial

/-! ### The balance -/

/-- `excess` more UNBOOKMARK logs than bookmarks that were taken away. -/
def Balanced (u p : Int) (d : Db V) (excess : Nat) : Prop :=
  (d.logsOf u p .bookmark).length + excess = (d.logsOf u p .unbookmark).length + (d.bookmarksOf u p).length

theorem historyMatches_iff {d : Db V} {excess : Nat} (h : Balanced u p d excess) : HistoryMatches u p d ↔ excess = 0 := by
  unfold HistoryMatches
  unfold Balanced at h
  omega

@[simp] theorem logsOf_insertBookmark (d : Db V) (bookmark : Bookmark) (actionType : ActionType) :
    (d.insertBookmark bookmark).logsOf u p actionType = d.logsOf u p actionType := rfl

theorem Records.logsOf {actionType : ActionType} {log : UserActionLog} (h : Records u p actionType log) (d : Db V)
    (other : ActionType) : ((d.insertActionLog log).logsOf u p other).length =
      (d.logsOf u p other).length + if other = actionType then 1 else 0 := by
  simp only [Db.insertActionLog, Db.addActionLogs, Db.logsOf, List.filter_append, List.length_append, List.filter_cons,
    List.filter_nil, h.user, h.place, h.action, beq_self_eq_true, Bool.and_self, Bool.true_and, beq_iff_eq]
  by_cases hsame : other = actionType
  · simp [hsame]
  · simp [hsame, Ne.symm hsame]

/-- A commit of `create_bookmark` keeps the balance. -/
theorem Balanced.create {now : Instant} {k : Knowledge (Db V) (List Bookmark)} {c : Db V} {excess : Nat}
    (hr : BookmarkRule u p (.create now) k) (hc : Fits (bookmarkProtocol u p) k c) (h : Balanced u p c excess) :
    Balanced u p (replay k.log c) excess := by
  obtain ⟨id, log, hlog, hheld, hwrites⟩ := hr
  have hnone : c.bookmarksOf u p = [] := hc.held [] hheld
  unfold Balanced at h ⊢
  rw [hwrites]
  simp only [replay_cons, replay_nil, hlog.logsOf, logsOf_insertBookmark, Db.bookmarksOf_insertActionLog,
    Db.bookmarksOf_insertBookmark, hnone, List.length_append, List.length_cons, List.length_nil, reduceCtorEq, if_false,
    if_true] at h ⊢
  omega

/-- A commit of `delete_bookmark` keeps the balance exactly if it takes a bookmark away. -/
theorem Balanced.delete {now : Instant} {k : Knowledge (Db V) (List Bookmark)} {c : Db V} {excess : Nat}
    (hr : BookmarkRule u p (.delete now) k) (hc : Fits (bookmarkProtocol u p) k c) (h : Balanced u p c excess) :
    ((∃ b ∈ c.bookmarksOf u p, b ∉ (replay k.log c).bookmarksOf u p) ∧ Balanced u p (replay k.log c) excess) ∨
      ((¬ ∃ b ∈ c.bookmarksOf u p, b ∉ (replay k.log c).bookmarksOf u p) ∧
        Balanced u p (replay k.log c) (excess + 1)) := by
  obtain ⟨log, hlog, hwrites⟩ := hr
  -- without a row to take away, the log alone is added
  have hkept : (replay k.log c).bookmarksOf u p = c.bookmarksOf u p →
      (∀ t, ((replay k.log c).logsOf u p t).length = (c.logsOf u p t).length + if t = .unbookmark then 1 else 0) →
        (¬ ∃ b ∈ c.bookmarksOf u p, b ∉ (replay k.log c).bookmarksOf u p) ∧
          Balanced u p (replay k.log c) (excess + 1) := by
    intro hrows hlogs
    rw [Balanced, hrows, hlogs, hlogs]
    refine ⟨fun h => ?_, ?_⟩
    · obtain ⟨b, hb, hgone⟩ := h
      exact hgone hb
    · unfold Balanced at h
      simp only [reduceCtorEq, if_false, if_true]
      omega
  have hlogs : ∀ t, ((replay k.log c).logsOf u p t).length =
      (c.logsOf u p t).length + if t = .unbookmark then 1 else 0 := by
    intro t
    rcases hwrites with hwrites | ⟨id, -, hwrites⟩ <;> rw [hwrites] <;> exact hlog.logsOf _ t
  rcases hwrites with hwrites | ⟨id, -, hwrites⟩
  · exact .inr (hkept (by rw [hwrites]; rfl) hlogs)
  · have hrows : (replay k.log c).bookmarksOf u p = (c.bookmarksOf u p).filter (·.id != id) := by
      rw [hwrites]
      exact Db.bookmarksOf_deleteBookmark c id u p
    by_cases hthere : ∃ b ∈ c.bookmarksOf u p, b.id = id
    · obtain ⟨b, hb, rfl⟩ := hthere
      have hone : c.bookmarksOf u p = [b] := by
        have hlen : (c.bookmarksOf u p).length ≤ 1 := hc.inv
        obtain ⟨only, honly⟩ := List.length_eq_one_iff.mp (Nat.le_antisymm hlen (List.length_pos_of_mem hb))
        rw [honly] at hb ⊢
        rw [List.mem_singleton.mp hb]
      have hnone : (replay k.log c).bookmarksOf u p = [] := by simp [hrows, hone]
      refine .inl ⟨⟨b, hb, by simp [hnone]⟩, ?_⟩
      rw [Balanced, hnone, hlogs, hlogs]
      rw [Balanced, hone] at h
      simp only [reduceCtorEq, if_false, if_true, List.length_nil, List.length_singleton] at h ⊢
      omega
    · refine .inr (hkept ?_ hlogs)
      rw [hrows, List.filter_eq_self]
      intro b hb
      rw [bne_iff_ne]
      exact fun hid => hthere ⟨b, hb, hid⟩

/-! ### Any interleaving -/

theorem balanced_step {s s' : State (Db V) RowKey Exc Unit BookmarkRequest} {a : Action BookmarkRequest} {excess : Nat}
    (h : Sound (bookmarkProtocol u p) (BookmarkRule u p) s ∧ Balanced u p s.committed excess)
    (hs : step (BookmarkRequest.program u p) s a = some s') :
    ∃ excess', (Sound (bookmarkProtocol u p) (BookmarkRule u p) s' ∧ Balanced u p s'.committed excess') ∧
      (excess' = 0 ↔ excess = 0 ∧ TakesAway u p s a) := by
  obtain ⟨hsound, hsilent | ⟨i, l, v, rfl, hcommit⟩⟩ := step_guarded bookmark_discipline h.1 (fun _ _ _ => trivial) hs
  · refine ⟨excess, ⟨hsound, hsilent.committed ▸ h.2⟩, (and_iff_left fun i now q ha hw hq => ?_).symm⟩
    exact absurd hq (hsilent.step i _ q ha hw)
  · obtain ⟨q, hwork, hq⟩ := hcommit.work
    cases l with
    | create now =>
      refine ⟨excess, ⟨hsound, ?_⟩, (and_iff_left fun j now' q' ha hw _ => ?_).symm⟩
      · rw [hcommit.committed]
        exact h.2.create hcommit.rule hcommit.fits
      · cases ha
        rw [hwork] at hw
        cases hw
    | delete now =>
      have htakes : TakesAway u p s (.advance i) ↔
          ∃ b ∈ s.committed.bookmarksOf u p, b ∉ (s.view i).bookmarksOf u p := by
        refine ⟨fun hall => hall i now q rfl hwork hq, fun htakes j now' q' ha _ _ => ?_⟩
        cases ha
        exact htakes
      rw [htakes]
      rcases h.2.delete hcommit.rule hcommit.fits with ⟨hgone, hbalanced⟩ | ⟨hkept, hbalanced⟩
      · exact ⟨excess, ⟨hsound, hcommit.committed ▸ hbalanced⟩, (and_iff_left hgone).symm⟩
      · exact ⟨excess + 1, ⟨hsound, hcommit.committed ▸ hbalanced⟩,
          iff_of_false (Nat.succ_ne_zero excess) fun hand => hkept hand.2⟩

/-- **When the logs match the bookmark.** From no bookmark and no logs, after any interleaving
of requests of one user on one place, the logs match the rows if and only if every
`delete_bookmark` that committed took a bookmark away. -/
theorem bookmark_history_iff (userId placeId : Int) (d : Db V) (seq : Nat)
    (hbookmarks : d.bookmarksOf userId placeId = [])
    (hlogs : ∀ log ∈ d.actionLogs, log.userId = userId → log.placeId ≠ placeId)
    (actions : List (Action BookmarkRequest)) {s : State (Db V) RowKey Exc Unit BookmarkRequest}
    (hrun : exec (BookmarkRequest.program userId placeId) (.idle d seq) actions = some s) :
    HistoryMatches userId placeId s.committed ↔
      Along (BookmarkRequest.program userId placeId) (TakesAway userId placeId) (.idle d seq) actions := by
  have hnone : ∀ t, d.logsOf userId placeId t = [] := by
    intro t
    rw [Db.logsOf, List.filter_eq_nil_iff]
    intro log hlog
    simp only [Bool.and_eq_true, beq_iff_eq, not_and]
    exact fun hmine => absurd hmine.2 (hlogs log hlog hmine.1)
  have hstart : Balanced userId placeId d 0 := by simp [Balanced, hnone, hbookmarks]
  have hinv : (bookmarkProtocol (V := V) userId placeId).inv d := by simp [bookmarkProtocol, hbookmarks]
  obtain ⟨excess, hend, hiff⟩ := exec_ghost (N := fun excess => excess = 0) (A := fun _ a => ∀ i l, a = Action.start i l → True)
    (I := fun s excess => Sound (bookmarkProtocol userId placeId) (BookmarkRule userId placeId) s ∧
      Balanced userId placeId s.committed excess)
    (fun _ _ _ _ h _ hs => balanced_step h hs) ⟨sound_idle hinv fun _ _ => trivial, hstart⟩
    (along_started (fun _ _ => trivial) _) hrun
  rw [historyMatches_iff hend.2, hiff]
  exact and_iff_right rfl

/-- One user and one place. -/
def Db.noBookmark : Db Unit where
  users := [{id := 1}]
  places := [{id := 1, contentId := 1, contentTypeId := 12}]

/-- A bookmark, and two requests that take it back and have both read it. -/
def deletedTwice : List (Action BookmarkRequest) :=
  .start 0 (.create 0) :: List.replicate 7 (.advance 0) ++
    [.start 0 (.delete 1), .start 1 (.delete 2), .advance 0, .advance 1, .advance 0, .advance 1] ++
      List.replicate 6 (.advance 0) ++ List.replicate 5 (.advance 1)

theorem deleted_twice_recorded_twice :
    ∃ s, exec (BookmarkRequest.program 1 1) (.idle Db.noBookmark 1) deletedTwice = some s ∧
      (∀ l ∈ started deletedTwice, l ∈ s.returned) ∧ ¬ HistoryMatches 1 1 s.committed := by
  have h : (exec (BookmarkRequest.program 1 1) (.idle Db.noBookmark 1) deletedTwice).map
      (fun s => (decide (∀ l ∈ started deletedTwice, l ∈ s.returned), decide (HistoryMatches 1 1 s.committed))) =
        some (true, false) := by
    decide +kernel
  obtain ⟨s, hs, hsnd⟩ := Option.map_eq_some_iff.mp h
  simp only [Prod.mk.injEq, decide_eq_true_eq, decide_eq_false_iff_not] at hsnd
  exact ⟨s, hs, hsnd⟩

theorem bookmark_history_iff_deletedTwice :
    ∃ s, exec (BookmarkRequest.program 1 1) (.idle Db.noBookmark 1) deletedTwice = some s ∧
      (HistoryMatches 1 1 s.committed ↔
        Along (BookmarkRequest.program 1 1) (TakesAway 1 1) (.idle Db.noBookmark 1) deletedTwice) := by
  have h : (exec (BookmarkRequest.program 1 1) (.idle Db.noBookmark 1) deletedTwice).isSome = true := by
    decide +kernel
  have hrun := (Option.some_get h).symm
  exact ⟨_, hrun, bookmark_history_iff 1 1 Db.noBookmark 1 rfl (fun _ hlog => nomatch hlog) deletedTwice hrun⟩

end TravelMaker
