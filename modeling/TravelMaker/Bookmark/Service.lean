import TravelMaker.User.ActionLog

/-! Bookmarks: `BookmarkService`. -/
namespace TravelMaker
open Lib (Txn)

variable {V : Type}

/-- `get_object_or_404`. -/
def http404 : Exc := .other "Http404"

namespace Db

/-- `Bookmark.objects.filter(user=…, place_id=…)`. -/
def bookmarksOf (d : Db V) (userId placeId : Int) : List Bookmark :=
  d.bookmarks.filter fun b => b.userId == userId && b.placeId == placeId

def insertBookmark (bookmark : Bookmark) (d : Db V) : Db V := {d with bookmarks := d.bookmarks ++ [bookmark]}

def deleteBookmark (id : Int) (d : Db V) : Db V := {d with bookmarks := d.bookmarks.filter (·.id != id)}

@[simp] theorem bookmarksOf_insertBookmark (d : Db V) (id userId placeId : Int) :
    (d.insertBookmark ⟨id, userId, placeId⟩).bookmarksOf userId placeId =
      d.bookmarksOf userId placeId ++ [⟨id, userId, placeId⟩] := by
  simp [insertBookmark, bookmarksOf, List.filter_append]

@[simp] theorem bookmarksOf_deleteBookmark (d : Db V) (id userId placeId : Int) :
    (d.deleteBookmark id).bookmarksOf userId placeId = (d.bookmarksOf userId placeId).filter (·.id != id) := by
  simp only [deleteBookmark, bookmarksOf, List.filter_filter, Bool.and_comm]

@[simp] theorem bookmarksOf_insertActionLog (d : Db V) (log : UserActionLog) (userId placeId : Int) :
    (d.insertActionLog log).bookmarksOf userId placeId = d.bookmarksOf userId placeId := rfl

end Db

/-- The `INSERT`: it waits on the unique index, and its foreign keys must hold. -/
def insertBookmarkRow (bookmark : Bookmark) : Service V Unit := do
  let d ← Txn.put (.bookmarkOf bookmark.userId bookmark.placeId) (Db.insertBookmark bookmark)
  Txn.orRaise (d.bookmarksOf bookmark.userId bookmark.placeId = [] ∧ (d.user? bookmark.userId).isSome = true ∧
    (d.place? bookmark.placeId).isSome = true) .integrityError

/-- The `DELETE`: it waits for the row, and a row that is gone by then is no error. While the
row is being deleted, an `INSERT` of the same pair waits on its entry in the unique index. -/
def deleteBookmarkRow (bookmark : Bookmark) : Service V Unit := do
  let d ← Txn.forUpdate (.bookmark bookmark.id)
  if d.bookmarks.any (·.id == bookmark.id) then
    let _ ← Txn.put (.bookmarkOf bookmark.userId bookmark.placeId) (Db.deleteBookmark bookmark.id)
    return ()
  else return ()

def createBookmark (now : Instant) (userId placeId : Int) : Service V Int := do
  let d ← Txn.read
  match d.place? placeId with
  | none => Txn.raise http404
  | some place =>
    let id ← Txn.fresh
    insertBookmarkRow ⟨id, userId, placeId⟩
    let _ ← recordAction now userId place .bookmark none
    return (id : Int)

def deleteBookmark (now : Instant) (userId placeId : Int) : Service V Unit := do
  let d ← Txn.read
  match (d.bookmarksOf userId placeId).head? with
  | none => Txn.raise http404
  | some bookmark =>
    let d ← Txn.read
    match d.place? bookmark.placeId with
    | none => Txn.raise (.other "Place.DoesNotExist")
    | some place =>
      deleteBookmarkRow bookmark
      let _ ← recordAction now userId place .unbookmark none
      return ()

end TravelMaker
