import TravelMaker.Place.Search

/-! The rows of `get_place_list`.

`mem_getPlaceList` says which places the list selects. `listed_once_iff` says for which
places it has one row: those whose tags do not differ in the relevance that they give. -/
namespace TravelMaker

variable {V : Type}

/-! ### Joined rows -/

theorem mem_leftJoin {β : Type} {rows : List β} {b : Option β} :
    b ∈ leftJoin rows ↔ (rows = [] ∧ b = none) ∨ ∃ row ∈ rows, b = some row := by
  unfold leftJoin
  cases rows with
  | nil => simp
  | cons a rest => simp [eq_comm]

theorem exists_mem_leftJoin {β : Type} (rows : List β) : ∃ b, b ∈ leftJoin rows := by
  cases rows with
  | nil => exact ⟨none, List.mem_cons_self⟩
  | cons a rest => exact ⟨some a, List.mem_cons_self⟩

namespace Catalog
variable {c : Catalog V}

def bookmarksOf (c : Catalog V) (placeId : Int) : List Bookmark := c.db.bookmarks.filter (·.placeId == placeId)

/-- Rows with a condition on place and tag, joined with all bookmarks of the place. -/
def Joined (c : Catalog V) (selects : Place → Option Tag → Prop) (rows : List JoinedRow) : Prop :=
  ∀ row, row ∈ rows ↔ selects row.place row.tag ∧ row.bookmark ∈ leftJoin (c.bookmarksOf row.place.id)

theorem mem_joinBookmarks {place : Place} {tag : Option Tag} {row : JoinedRow} : row ∈ c.joinBookmarks place tag ↔
    row.place = place ∧ row.tag = tag ∧ row.bookmark ∈ leftJoin (c.bookmarksOf place.id) := by
  obtain ⟨p, t, b⟩ := row
  unfold joinBookmarks
  rw [List.mem_map]
  constructor
  · intro h
    obtain ⟨bookmark, hb, h⟩ := h
    obtain ⟨rfl, rfl, rfl⟩ := JoinedRow.mk.inj h
    exact ⟨rfl, rfl, hb⟩
  · intro h
    obtain ⟨rfl, rfl, hb⟩ := h
    exact ⟨b, hb, rfl⟩

theorem joined_placeRows : c.Joined (fun place tag => place ∈ c.activePlaces ∧ tag = none) c.placeRows := by
  intro row
  unfold placeRows
  rw [List.mem_flatMap]
  constructor
  · intro h
    obtain ⟨place, hplace, h⟩ := h
    obtain ⟨rfl, htag, hb⟩ := mem_joinBookmarks.mp h
    exact ⟨⟨hplace, htag⟩, hb⟩
  · intro h
    obtain ⟨⟨hplace, htag⟩, hb⟩ := h
    exact ⟨row.place, hplace, mem_joinBookmarks.mpr ⟨rfl, htag, hb⟩⟩

theorem joined_tagRows :
    c.Joined (fun place tag => place ∈ c.activePlaces ∧ tag ∈ leftJoin (c.db.tagsOf place.id)) c.tagRows := by
  intro row
  unfold tagRows
  rw [List.mem_flatMap]
  constructor
  · intro h
    obtain ⟨place, hplace, h⟩ := h
    obtain ⟨tag, htag, h⟩ := List.mem_flatMap.mp h
    obtain ⟨rfl, rfl, hb⟩ := mem_joinBookmarks.mp h
    exact ⟨⟨hplace, htag⟩, hb⟩
  · intro h
    obtain ⟨⟨hplace, htag⟩, hb⟩ := h
    exact ⟨row.place, hplace, List.mem_flatMap.mpr ⟨row.tag, htag, mem_joinBookmarks.mpr ⟨rfl, rfl, hb⟩⟩⟩

section
variable {selects : Place → Option Tag → Prop} {rows : List JoinedRow}

/-- A condition on place and tag. -/
theorem Joined.filter (h : c.Joined selects rows) (p : Place → Option Tag → Bool) :
    c.Joined (fun place tag => selects place tag ∧ p place tag = true) (rows.filter fun row => p row.place row.tag) := by
  intro row
  rw [List.mem_filter, h row, and_right_comm]

/-- A filter on tags joins each row with itself. -/
theorem mem_filterTag {tagId : Int} {row : JoinedRow} :
    row ∈ c.filterTag rows tagId ↔ row ∈ rows ∧ c.carries row.place.id tagId = true := by
  unfold filterTag carries
  simp only [List.mem_flatMap, List.mem_map, List.mem_filter, beq_iff_eq, List.contains_iff_mem]
  constructor
  · intro h
    obtain ⟨row', hrow, pair, ⟨hmem, rfl⟩, rfl⟩ := h
    exact ⟨hrow, hmem⟩
  · intro h
    obtain ⟨hrow, hmem⟩ := h
    exact ⟨row, hrow, _, ⟨hmem, rfl⟩, rfl⟩

theorem Joined.filterTags (h : c.Joined selects rows) (tags : List Int) :
    c.Joined (fun place tag => selects place tag ∧ c.carriesAll tags place.id = true) (tags.foldl c.filterTag rows) := by
  induction tags generalizing rows selects with
  | nil =>
    intro row
    show row ∈ rows ↔ (_ ∧ true = true) ∧ _
    rw [h row, and_iff_left rfl]
  | cons tagId rest ih =>
    have hone : c.Joined (fun place tag => selects place tag ∧ c.carries place.id tagId = true) (c.filterTag rows tagId) := by
      intro row
      rw [mem_filterTag, h row, and_right_comm]
    intro row
    rw [List.foldl_cons, ih hone row]
    simp only [carriesAll, List.all_cons, Bool.and_eq_true, and_assoc]

end
end Catalog

/-! ### Tiers -/

namespace TextSearch
variable (s : TextSearch) (c : Catalog V) (keyword : String)

/-- Among some places, a tier is tried where the ones before it have no result. -/
def selectsFrom (places : List Place) (place : Place) : Bool :=
  if places.any (s.nameOrTag keyword c) then s.nameOrTag keyword c place
  else if places.any (s.inAddress keyword) then s.inAddress keyword place
  else s.isSimilar keyword place

end TextSearch

section
variable {s : TextSearch} {c : Catalog V} {keyword : String} {place : Place}

theorem tier_eq_one {tag : Option Tag} : s.tier keyword place tag = 1 ↔
    (s.inName keyword place || tag.any (s.inTag keyword) || s.coreInName keyword place) = true := by
  unfold TextSearch.tier
  split
  · rename_i h
    exact iff_of_true rfl h
  · rename_i h
    refine iff_of_false ?_ h
    split <;> decide

theorem tier_eq_two {tag : Option Tag} (h : s.tier keyword place tag ≠ 1) :
    s.tier keyword place tag = if s.inAddress keyword place then 2 else 99 := if_neg fun h1 => h (tier_eq_one.mpr h1)

theorem nameOrTag_iff : s.nameOrTag keyword c place = true ↔
    ∃ tag ∈ leftJoin (c.db.tagsOf place.id), s.tier keyword place tag = 1 := by
  constructor
  · intro h
    unfold TextSearch.nameOrTag at h
    by_cases htag : (c.db.tagsOf place.id).any (s.inTag keyword) = true
    · obtain ⟨tag, hmem, hin⟩ := List.any_eq_true.mp htag
      refine ⟨some tag, mem_leftJoin.mpr (.inr ⟨tag, hmem, rfl⟩), tier_eq_one.mpr ?_⟩
      rw [Option.any_some, hin, Bool.or_true, Bool.true_or]
    · obtain ⟨tag, hmem⟩ := exists_mem_leftJoin (c.db.tagsOf place.id)
      refine ⟨tag, hmem, tier_eq_one.mpr ?_⟩
      rw [Bool.not_eq_true _ |>.mp htag, Bool.or_false] at h
      rw [Bool.or_right_comm, h, Bool.true_or]
  · intro h
    obtain ⟨tag, hmem, h⟩ := h
    unfold TextSearch.nameOrTag
    rcases mem_leftJoin.mp hmem with ⟨-, rfl⟩ | ⟨t, ht, rfl⟩
    · have hname := tier_eq_one.mp h
      rw [Option.any_none, Bool.or_false] at hname
      rw [Bool.or_right_comm, hname, Bool.true_or]
    · have hany := tier_eq_one.mp h
      rw [Option.any_some, Bool.or_right_comm, Bool.or_eq_true] at hany
      rw [Bool.or_right_comm, Bool.or_eq_true]
      exact hany.imp_right fun hin => List.any_eq_true.mpr ⟨t, ht, hin⟩

/-- Without a match of the first tier, the tag does not matter. -/
theorem tier_of_none (hnone : ¬ c.activePlaces.any (s.nameOrTag keyword c) = true) (hplace : place ∈ c.activePlaces)
    {tag : Option Tag} (htag : tag ∈ leftJoin (c.db.tagsOf place.id)) :
    s.tier keyword place tag = if s.inAddress keyword place then 2 else 99 :=
  tier_eq_two fun h => hnone (List.any_eq_true.mpr ⟨place, hplace, nameOrTag_iff.mpr ⟨tag, htag, h⟩⟩)

/-- The tiers of the joined rows. -/
theorem mem_tiers {n : Nat} : n ∈ (c.tagRows.filter fun row => s.tier keyword row.place row.tag < 99).map
      (fun row => s.tier keyword row.place row.tag) ↔
    n < 99 ∧ ∃ place ∈ c.activePlaces, ∃ tag ∈ leftJoin (c.db.tagsOf place.id), s.tier keyword place tag = n := by
  rw [List.mem_map]
  constructor
  · intro h
    obtain ⟨row, hrow, rfl⟩ := h
    obtain ⟨hrow, hlt⟩ := List.mem_filter.mp hrow
    obtain ⟨⟨hplace, htag⟩, -⟩ := (Catalog.joined_tagRows row).mp hrow
    exact ⟨of_decide_eq_true hlt, row.place, hplace, row.tag, htag, rfl⟩
  · intro h
    obtain ⟨hlt, place, hplace, tag, htag, rfl⟩ := h
    obtain ⟨b, hb⟩ := exists_mem_leftJoin (c.bookmarksOf place.id)
    exact ⟨⟨place, tag, b⟩, List.mem_filter.mpr ⟨(Catalog.joined_tagRows _).mpr ⟨⟨hplace, htag⟩, hb⟩, decide_eq_true hlt⟩, rfl⟩

/-- The best tier is the first that some active place matches. -/
theorem bestTier_eq : ((c.tagRows.filter fun row => s.tier keyword row.place row.tag < 99).map
      fun row => s.tier keyword row.place row.tag).min? =
    if c.activePlaces.any (s.nameOrTag keyword c) then some 1
    else if c.activePlaces.any (s.inAddress keyword) then some 2 else none := by
  split
  · rename_i hany
    obtain ⟨place, hplace, hname⟩ := List.any_eq_true.mp hany
    obtain ⟨tag, htag, htier⟩ := nameOrTag_iff.mp hname
    refine List.min?_eq_some_iff.mpr ⟨mem_tiers.mpr ⟨by decide, place, hplace, tag, htag, htier⟩, fun n hn => ?_⟩
    obtain ⟨-, p, -, t, -, rfl⟩ := mem_tiers.mp hn
    by_cases h : s.tier keyword p t = 1
    · omega
    · rw [tier_eq_two h]
      split <;> decide
  · rename_i hnone
    split
    · rename_i hany
      obtain ⟨place, hplace, haddress⟩ := List.any_eq_true.mp hany
      obtain ⟨tag, htag⟩ := exists_mem_leftJoin (c.db.tagsOf place.id)
      refine List.min?_eq_some_iff.mpr ⟨mem_tiers.mpr ⟨by decide, place, hplace, tag, htag, ?_⟩, fun n hn => ?_⟩
      · rw [tier_of_none hnone hplace htag, if_pos haddress]
      · obtain ⟨-, p, hp, t, ht, rfl⟩ := mem_tiers.mp hn
        rw [tier_of_none hnone hp ht]
        split <;> decide
    · rename_i hno
      refine List.min?_eq_none_iff.mpr (List.eq_nil_iff_forall_not_mem.mpr fun n hn => ?_)
      obtain ⟨hlt, p, hp, t, ht, rfl⟩ := mem_tiers.mp hn
      rw [tier_of_none hnone hp ht, if_neg fun haddress => hno (List.any_eq_true.mpr ⟨p, hp, haddress⟩)] at hlt
      exact absurd hlt (by decide)

/-- What the keyword selects, by the first tier with a match. -/
theorem keywordRows_eq (hkeyword : keyword ≠ "") : keywordRows s c keyword =
    if c.activePlaces.any (s.nameOrTag keyword c) then
      ((c.tagRows.filter fun row => s.tier keyword row.place row.tag < 99).filter fun row =>
        s.tier keyword row.place row.tag == 1, rankOf s keyword)
    else if c.activePlaces.any (s.inAddress keyword) then
      ((c.tagRows.filter fun row => s.tier keyword row.place row.tag < 99).filter fun row =>
        s.tier keyword row.place row.tag == 2, rankOf s keyword)
    else (c.placeRows.filter fun row => s.isSimilar keyword row.place, fun _ => (0, 0)) := by
  unfold keywordRows
  rw [if_neg hkeyword]
  dsimp only
  rw [bestTier_eq]
  by_cases hname : c.activePlaces.any (s.nameOrTag keyword c) = true
  · rw [if_pos hname, if_pos hname]
  · rw [if_neg hname, if_neg hname]
    by_cases haddress : c.activePlaces.any (s.inAddress keyword) = true
    · rw [if_pos haddress, if_pos haddress]
    · rw [if_neg haddress, if_neg haddress]

/-- The joined rows of a tier. -/
theorem joined_tier {n : Nat} (hn : n < 99) :
    c.Joined (fun place tag => (place ∈ c.activePlaces ∧ tag ∈ leftJoin (c.db.tagsOf place.id)) ∧
        s.tier keyword place tag = n)
      ((c.tagRows.filter fun row => s.tier keyword row.place row.tag < 99).filter fun row =>
        s.tier keyword row.place row.tag == n) := by
  intro row
  rw [List.mem_filter, List.mem_filter, Catalog.joined_tagRows row, beq_iff_eq, decide_eq_true_eq]
  constructor
  · intro h
    obtain ⟨⟨⟨hplace, hb⟩, -⟩, htier⟩ := h
    exact ⟨⟨hplace, htier⟩, hb⟩
  · intro h
    obtain ⟨⟨hplace, htier⟩, hb⟩ := h
    exact ⟨⟨⟨hplace, hb⟩, htier ▸ hn⟩, htier⟩

/-- The places of the selected rows. -/
theorem joined_keywordRows (s : TextSearch) (c : Catalog V) (keyword : String) :
    ∃ sel, c.Joined sel (keywordRows s c keyword).1 ∧ ∀ place, (∃ tag, sel place tag) ↔
      place ∈ c.activePlaces ∧ (keyword = "" ∨ s.selectsFrom c keyword c.activePlaces place = true) := by
  by_cases hkeyword : keyword = ""
  · refine ⟨fun place tag => place ∈ c.activePlaces ∧ tag = none, ?_, fun place => ?_⟩
    · unfold keywordRows
      rw [if_pos hkeyword]
      exact Catalog.joined_placeRows
    · exact ⟨fun ⟨_, hplace, _⟩ => ⟨hplace, .inl hkeyword⟩, fun h => ⟨none, h.1, rfl⟩⟩
  · rw [keywordRows_eq hkeyword]
    unfold TextSearch.selectsFrom
    split
    · rename_i hany
      refine ⟨_, joined_tier (by decide), fun place => ?_⟩
      rw [or_iff_right hkeyword, nameOrTag_iff]
      exact ⟨fun ⟨tag, ⟨hplace, htag⟩, htier⟩ => ⟨hplace, tag, htag, htier⟩,
        fun ⟨hplace, tag, htag, htier⟩ => ⟨tag, ⟨hplace, htag⟩, htier⟩⟩
    · rename_i hnone
      split
      · rename_i hany
        refine ⟨_, joined_tier (by decide), fun place => ?_⟩
        rw [or_iff_right hkeyword]
        constructor
        · intro h
          obtain ⟨tag, ⟨hplace, htag⟩, htier⟩ := h
          refine ⟨hplace, ?_⟩
          by_contra haddress
          rw [tier_of_none hnone hplace htag, if_neg haddress] at htier
          exact absurd htier (by decide)
        · intro h
          obtain ⟨hplace, haddress⟩ := h
          obtain ⟨tag, htag⟩ := exists_mem_leftJoin (c.db.tagsOf place.id)
          exact ⟨tag, ⟨hplace, htag⟩, by rw [tier_of_none hnone hplace htag, if_pos haddress]⟩
      · rename_i hno
        refine ⟨_, Catalog.joined_placeRows.filter fun place _ => s.isSimilar keyword place, fun place => ?_⟩
        rw [or_iff_right hkeyword]
        exact ⟨fun ⟨_, ⟨hplace, _⟩, hsimilar⟩ => ⟨hplace, hsimilar⟩, fun h => ⟨none, ⟨h.1, rfl⟩, h.2⟩⟩

theorem exists_mem_groupRows {userId : Option Int} {rank : JoinedRow → Nat × Nat} {rows : List JoinedRow} {place : Place} :
    (∃ row ∈ c.groupRows userId rank rows, row.place = place) ↔ ∃ row ∈ rows, row.place = place := by
  unfold Catalog.groupRows
  constructor
  · intro h
    obtain ⟨group, hgroup, rfl⟩ := h
    obtain ⟨key, hkey, rfl⟩ := List.mem_map.mp hgroup
    obtain ⟨row, hrow, rfl⟩ := List.mem_map.mp (List.mem_dedup.mp hkey)
    exact ⟨row, hrow, rfl⟩
  · intro h
    obtain ⟨row, hrow, rfl⟩ := h
    have hkey : (row.place, rank row) ∈ (rows.map fun row => (row.place, rank row)).dedup :=
      List.mem_dedup.mpr (List.mem_map_of_mem hrow)
    exact ⟨_, List.mem_map_of_mem hkey, rfl⟩

/-- **What the list selects**: the active places that carry all tags, in the first tier
that some active place matches. -/
theorem mem_getPlaceList {sort order : String} {tags : List Int} {userId : Option Int} :
    (∃ row ∈ getPlaceList s c keyword sort order tags userId, row.place = place) ↔
      place ∈ c.activePlaces ∧ c.carriesAll tags place.id = true ∧ (keyword = "" ∨ s.selectsFrom c keyword c.activePlaces place = true) := by
  obtain ⟨sel, hjoined, hsel⟩ := joined_keywordRows s c keyword
  unfold getPlaceList
  dsimp only
  simp only [mem_orderBy]
  rw [exists_mem_groupRows]
  constructor
  · intro h
    obtain ⟨row, hrow, rfl⟩ := h
    obtain ⟨⟨hselected, htags⟩, -⟩ := (hjoined.filterTags tags row).mp hrow
    obtain ⟨hplace, hkeyword⟩ := (hsel row.place).mp ⟨row.tag, hselected⟩
    exact ⟨hplace, htags, hkeyword⟩
  · intro h
    obtain ⟨hplace, htags, hkeyword⟩ := h
    obtain ⟨tag, hselected⟩ := (hsel place).mpr ⟨hplace, hkeyword⟩
    obtain ⟨b, hb⟩ := exists_mem_leftJoin (c.bookmarksOf place.id)
    exact ⟨⟨place, tag, b⟩, (hjoined.filterTags tags _).mpr ⟨⟨hselected, htags⟩, hb⟩, rfl⟩

end

/-! ### Groups -/

/-- The grouping looks at place and tag only. -/
def ByTag (rank : JoinedRow → Nat × Nat) : Prop := ∀ place tag b b', rank ⟨place, tag, b⟩ = rank ⟨place, tag, b'⟩

section
variable {c : Catalog V} {userId : Option Int} {rank : JoinedRow → Nat × Nat} {rows : List JoinedRow}

/-- A group has all bookmarks of its place. -/
theorem bookmarkCount_groupRow (hc : c.Constraints) {sel : Place → Option Tag → Prop} (hrows : c.Joined sel rows)
    (hrank : ByTag rank) {row : JoinedRow} (hrow : row ∈ rows) :
    (c.groupRow userId rank rows row.place (rank row).1 (rank row).2).bookmarkCount = c.bookmarkCount row.place.id := by
  have hnodup : ((c.bookmarksOf row.place.id).map (·.id)).Nodup := hc.bookmarks.sublist (List.filter_sublist.map _)
  have hcount : c.bookmarkCount row.place.id = ((c.bookmarksOf row.place.id).map (·.id)).length := List.length_map _ |>.symm
  rw [hcount]
  refine List.Perm.length_eq ((List.perm_ext_iff_of_nodup (List.nodup_dedup _) hnodup).mpr fun id => ?_)
  rw [List.mem_dedup, List.mem_filterMap, List.mem_map]
  constructor
  · intro h
    obtain ⟨row', hrow', hid⟩ := h
    obtain ⟨hmem, hkey⟩ := List.mem_filter.mp hrow'
    rw [Bool.and_eq_true, beq_iff_eq] at hkey
    obtain ⟨b, hb, rfl⟩ := Option.map_eq_some_iff.mp hid
    have hjoin := ((hrows row').mp hmem).2
    rw [hb, hkey.1] at hjoin
    rcases mem_leftJoin.mp hjoin with ⟨-, hnone⟩ | ⟨b', hb', hsome⟩
    · cases hnone
    · exact ⟨b', hb', congrArg Bookmark.id (Option.some.inj hsome).symm⟩
  · intro h
    obtain ⟨b, hb, rfl⟩ := h
    refine ⟨⟨row.place, row.tag, some b⟩, List.mem_filter.mpr ⟨(hrows _).mpr ⟨((hrows row).mp hrow).1, ?_⟩, ?_⟩, rfl⟩
    · exact mem_leftJoin.mpr (.inr ⟨b, hb, rfl⟩)
    · rw [Bool.and_eq_true, beq_iff_eq, beq_iff_eq]
      exact ⟨rfl, hrank row.place row.tag (some b) row.bookmark⟩

theorem nodup_groupRows : ((c.groupRows userId rank rows).map (·.place.id)).Nodup ↔
    ∀ row ∈ rows, ∀ row' ∈ rows, row.place.id = row'.place.id → (row.place, rank row) = (row'.place, rank row') := by
  unfold Catalog.groupRows
  rw [List.map_map, List.nodup_map_iff_inj_on (List.nodup_dedup _)]
  constructor
  · intro h row hrow row' hrow' hid
    exact h _ (List.mem_dedup.mpr (List.mem_map_of_mem hrow)) _ (List.mem_dedup.mpr (List.mem_map_of_mem hrow')) hid
  · intro h key hkey key' hkey' hid
    obtain ⟨row, hrow, rfl⟩ := List.mem_map.mp (List.mem_dedup.mp hkey)
    obtain ⟨row', hrow', rfl⟩ := List.mem_map.mp (List.mem_dedup.mp hkey')
    exact h row hrow row' hrow' hid

end

/-! ### Each place once -/

namespace TextSearch

/-- The name has the core word alone, and some tags have the keyword and some not. -/
structure Split (s : TextSearch) (c : Catalog V) (keyword : String) (place : Place) : Prop where
  keyword_ne : keyword ≠ ""
  core : s.coreInName keyword place = true
  name : s.inName keyword place = false
  tag : ∃ tag ∈ c.db.tagsOf place.id, s.inTag keyword tag = true
  other : ∃ tag ∈ c.db.tagsOf place.id, s.inTag keyword tag = false

end TextSearch

/-- No place twice, and each with the number of its bookmarks. -/
structure OncePerPlace (c : Catalog V) (rows : List PlaceRow) : Prop where
  ids : (rows.map (·.place.id)).Nodup
  bookmarkCount : ∀ row ∈ rows, row.bookmarkCount = c.bookmarkCount row.place.id

section
variable {s : TextSearch} {c : Catalog V} {keyword sort order : String} {tags : List Int} {userId : Option Int}

theorem byTag_keywordRows : ByTag (keywordRows s c keyword).2 := by
  intro place tag b b'
  unfold keywordRows
  split
  · rfl
  · dsimp only
    split <;> rfl

/-- The counts are right in every list. -/
theorem bookmarkCount_getPlaceList (hc : c.Constraints) {row : PlaceRow}
    (hrow : row ∈ getPlaceList s c keyword sort order tags userId) : row.bookmarkCount = c.bookmarkCount row.place.id := by
  obtain ⟨sel, hjoined, -⟩ := joined_keywordRows s c keyword
  obtain ⟨key, hkey, rfl⟩ := List.mem_map.mp (mem_orderBy.mp hrow)
  obtain ⟨joined, hmem, rfl⟩ := List.mem_map.mp (List.mem_dedup.mp hkey)
  exact bookmarkCount_groupRow hc (hjoined.filterTags tags) byTag_keywordRows hmem

theorem nodup_getPlaceList : ((getPlaceList s c keyword sort order tags userId).map (·.place.id)).Nodup ↔
    ∀ row ∈ tags.foldl c.filterTag (keywordRows s c keyword).1,
      ∀ row' ∈ tags.foldl c.filterTag (keywordRows s c keyword).1, row.place.id = row'.place.id →
        (row.place, (keywordRows s c keyword).2 row) = (row'.place, (keywordRows s c keyword).2 row') :=
  (orderBy_perm.map _).nodup_iff.trans nodup_groupRows

/-- A tag with the keyword and one without it, both of the first tier, split the place. -/
theorem split_of_tags {place : Place} {tag tag' : Option Tag} (hkeyword : keyword ≠ "")
    (hname : s.inName keyword place = false) (htag : tag ∈ leftJoin (c.db.tagsOf place.id))
    (htag' : tag' ∈ leftJoin (c.db.tagsOf place.id)) (hin : tag.any (s.inTag keyword) = true)
    (hout : tag'.any (s.inTag keyword) = false) (htier : s.tier keyword place tag = s.tier keyword place tag') :
    s.Split c keyword place := by
  have hone : s.tier keyword place tag = 1 := tier_eq_one.mpr (by rw [hin, Bool.or_true, Bool.true_or])
  have hcore : s.coreInName keyword place = true := by
    have h := tier_eq_one.mp (htier.symm.trans hone)
    rwa [hname, hout, Bool.or_false, Bool.false_or] at h
  rcases mem_leftJoin.mp htag with ⟨-, rfl⟩ | ⟨t, ht, rfl⟩
  · cases hin
  · rcases mem_leftJoin.mp htag' with ⟨hnil, -⟩ | ⟨t', ht', rfl⟩
    · rw [hnil] at ht
      cases ht
    · exact ⟨hkeyword, hcore, hname, ⟨t, ht, hin⟩, ⟨t', ht', hout⟩⟩

theorem relevance_eq {place : Place} {tag tag' : Option Tag} (hkeyword : keyword ≠ "")
    (htag : tag ∈ leftJoin (c.db.tagsOf place.id)) (htag' : tag' ∈ leftJoin (c.db.tagsOf place.id))
    (htier : s.tier keyword place tag = s.tier keyword place tag') (hsplit : ¬ s.Split c keyword place) :
    s.relevance keyword place tag = s.relevance keyword place tag' := by
  unfold TextSearch.relevance
  cases hname : s.inName keyword place with
  | true => rfl
  | false =>
    cases hin : tag.any (s.inTag keyword) <;> cases hin' : tag'.any (s.inTag keyword)
    · rfl
    · exact absurd (split_of_tags hkeyword hname htag' htag hin' hin htier.symm) hsplit
    · exact absurd (split_of_tags hkeyword hname htag htag' hin hin' htier) hsplit
    · rfl

/-- Within a tier, the rows of a place that is not split are alike. -/
theorem rankOf_eq {n : Nat} (hn : n < 99) (hkeyword : keyword ≠ "")
    (hsplit : ∀ place ∈ c.activePlaces, c.carriesAll tags place.id = true → ¬ s.Split c keyword place) {row row' : JoinedRow}
    (hrow : row ∈ tags.foldl c.filterTag ((c.tagRows.filter fun row => s.tier keyword row.place row.tag < 99).filter
      fun row => s.tier keyword row.place row.tag == n))
    (hrow' : row' ∈ tags.foldl c.filterTag ((c.tagRows.filter fun row => s.tier keyword row.place row.tag < 99).filter
      fun row => s.tier keyword row.place row.tag == n))
    (hplace : row.place = row'.place) : rankOf s keyword row = rankOf s keyword row' := by
  obtain ⟨⟨⟨⟨hactive, htag⟩, htier⟩, htags⟩, -⟩ := ((joined_tier hn).filterTags tags row).mp hrow
  obtain ⟨⟨⟨⟨-, htag'⟩, htier'⟩, -⟩, -⟩ := ((joined_tier hn).filterTags tags row').mp hrow'
  unfold rankOf
  rw [← hplace] at htag' htier' ⊢
  rw [htier, htier', relevance_eq hkeyword htag htag' (htier.trans htier'.symm) (hsplit row.place hactive htags)]

theorem keywordRank_eq (hsplit : ∀ place ∈ c.activePlaces, c.carriesAll tags place.id = true → ¬ s.Split c keyword place)
    {row row' : JoinedRow} (hplace : row.place = row'.place) :
    row ∈ tags.foldl c.filterTag (keywordRows s c keyword).1 → row' ∈ tags.foldl c.filterTag (keywordRows s c keyword).1 →
      (keywordRows s c keyword).2 row = (keywordRows s c keyword).2 row' := by
  by_cases hkeyword : keyword = ""
  · intro _ _
    unfold keywordRows
    rw [if_pos hkeyword]
  · rw [keywordRows_eq hkeyword]
    split
    · exact fun hrow hrow' => rankOf_eq (by decide) hkeyword hsplit hrow hrow' hplace
    · split
      · exact fun hrow hrow' => rankOf_eq (by decide) hkeyword hsplit hrow hrow' hplace
      · exact fun _ _ => rfl

/-- **Each place once.** The list has two rows of a place exactly where its tags give two
relevances in the first tier. -/
theorem listed_once_iff (hc : c.Constraints) : OncePerPlace c (getPlaceList s c keyword sort order tags userId) ↔
    ∀ place ∈ c.activePlaces, c.carriesAll tags place.id = true → ¬ s.Split c keyword place := by
  constructor
  · intro h place hplace htags hsplit
    obtain ⟨t, ht, hin⟩ := hsplit.tag
    obtain ⟨t', ht', hout⟩ := hsplit.other
    obtain ⟨b, hb⟩ := exists_mem_leftJoin (c.bookmarksOf place.id)
    have hany : c.activePlaces.any (s.nameOrTag keyword c) = true := by
      refine List.any_eq_true.mpr ⟨place, hplace, ?_⟩
      unfold TextSearch.nameOrTag
      rw [hsplit.core, Bool.or_true]
    have hrows := nodup_getPlaceList.mp h.ids
    rw [keywordRows_eq hsplit.keyword_ne, if_pos hany] at hrows
    have hmem : ∀ tag ∈ c.db.tagsOf place.id, (⟨place, some tag, b⟩ : JoinedRow) ∈ tags.foldl c.filterTag
        ((c.tagRows.filter fun row => s.tier keyword row.place row.tag < 99).filter fun row =>
          s.tier keyword row.place row.tag == 1) := by
      intro tag htag
      refine ((joined_tier (by decide)).filterTags tags _).mpr ⟨⟨⟨⟨hplace, ?_⟩, ?_⟩, htags⟩, hb⟩
      · exact mem_leftJoin.mpr (.inr ⟨tag, htag, rfl⟩)
      · exact tier_eq_one.mpr (by rw [hsplit.core, Bool.or_true])
    have hrank := (Prod.mk.inj (hrows _ (hmem t ht) _ (hmem t' ht') rfl)).2
    have hrelevance : s.relevance keyword place (some t) = s.relevance keyword place (some t') := (Prod.mk.inj hrank).2
    unfold TextSearch.relevance at hrelevance
    rw [hsplit.name, hsplit.core, Option.any_some, Option.any_some, hin, hout] at hrelevance
    exact absurd hrelevance (by decide)
  · intro h
    refine ⟨nodup_getPlaceList.mpr ?_, fun row hrow => bookmarkCount_getPlaceList hc hrow⟩
    intro row hrow row' hrow' hid
    obtain ⟨sel, hjoined, hsel⟩ := joined_keywordRows s c keyword
    have hactive : ∀ row ∈ tags.foldl c.filterTag (keywordRows s c keyword).1, row.place ∈ c.activePlaces := by
      intro row hrow
      exact ((hsel row.place).mp ⟨row.tag, ((hjoined.filterTags tags row).mp hrow).1.1⟩).1
    have hplace : row.place = row'.place :=
      List.inj_on_of_nodup_map hc.places (List.mem_filter.mp (hactive row hrow)).1
        (List.mem_filter.mp (hactive row' hrow')).1 hid
    exact Prod.ext hplace (keywordRank_eq h hplace hrow hrow')

end

/-! ### A split place -/

/-- One of the two tags of the place has the whole keyword. -/
def gaya : Catalog Nat where
  db := {
    places := [{id := 1, contentId := 1, contentTypeId := 12, placeName := "가야산"}]
    tags := [⟨1, "테마", "가야의거리"⟩, ⟨2, "테마", "산책"⟩]
    placeTags := [(1, 1), (1, 2)]}

theorem listed_once_iff_gaya : OncePerPlace gaya (getPlaceList plainSearch gaya "산책" "bookmark" "desc" [] none) ↔
    ∀ place ∈ gaya.activePlaces, gaya.carriesAll [] place.id = true → ¬ plainSearch.Split gaya "산책" place :=
  listed_once_iff ⟨by decide, by decide, by decide⟩

theorem gaya_listed_twice : ¬ OncePerPlace gaya (getPlaceList plainSearch gaya "가야의거리" "bookmark" "desc" [] none) :=
  fun h => absurd h.ids (by decide +kernel)

end TravelMaker
