import Mathlib.Data.List.Nodup

/-! Tables with a unique key.

An upsert replaces the row with its key, or adds one. After several upserts the table
holds the last row written under each key (`lasts`) and the old rows with other keys.
`setOrInsert` sets some columns of the row instead. -/
namespace TravelMaker.Lib.Upsert

variable {α κ : Type} [DecidableEq κ] (key : α → κ)

def upsert (a : α) (rows : List α) : List α :=
  if rows.any fun x => decide (key x = key a) then rows.map fun x => if key x = key a then a else x else rows ++ [a]

def upserts (as : List α) (rows : List α) : List α := as.foldl (fun rows a => upsert key a rows) rows

/-- The rows that no later row replaces. -/
def lasts : List α → List α
  | [] => []
  | a :: rest => if key a ∈ rest.map key then lasts rest else a :: lasts rest

/-- Set the row under the key, or add `fresh`. -/
def setOrInsert (k : κ) (f : α → α) (fresh : α) (rows : List α) : List α :=
  if rows.any (key · == k) then rows.map fun x => if key x = k then f x else x else rows ++ [fresh]

omit [DecidableEq κ] in
/-- An update that keeps the keys is seen in what is found by its key. -/
theorem find?_modify [BEq κ] {key : α → κ} {c : α → Prop} [DecidablePred c] {f : α → α} (hf : ∀ x, key (f x) = key x)
    (rows : List α) (k : κ) : (rows.map fun x => if c x then f x else x).find? (key · == k) =
      (rows.find? (key · == k)).map fun x => if c x then f x else x := by
  have hkey : ((key · == k) ∘ fun x => if c x then f x else x) = (key · == k) := by
    funext x
    simp only [Function.comp_apply]
    split
    · rw [hf]
    · rfl
  rw [List.find?_map, hkey]

theorem find?_setOrInsert {k : κ} (f : α → α) (fresh : α) (hf : ∀ x, key (f x) = key x) (hfresh : key fresh = k)
    (rows : List α) (other : κ) : (setOrInsert key k f fresh rows).find? (key · == other) =
      if other = k then some ((rows.find? (key · == k)).elim fresh f) else rows.find? (key · == other) := by
  unfold setOrInsert
  split
  · rename_i hany
    rw [find?_modify hf]
    split
    · rename_i hother
      obtain ⟨x, hx⟩ := Option.isSome_iff_exists.mp (List.find?_isSome.mpr (List.any_eq_true.mp hany))
      rw [hother, hx, Option.map_some, if_pos (by simpa using List.find?_some hx), Option.elim_some]
    · rename_i hother
      cases hx : rows.find? (key · == other) with
      | none => rfl
      | some x =>
        have hid : key x = other := by simpa using List.find?_some hx
        rw [Option.map_some, if_neg (hid ▸ hother)]
  · rename_i hany
    have hnone : rows.find? (key · == k) = none :=
      List.find?_eq_none.mpr fun x hx h => hany (List.any_eq_true.mpr ⟨x, hx, h⟩)
    rw [List.find?_append]
    split
    · rename_i hother
      rw [hother, hnone, Option.none_or, List.find?_cons_of_pos (by simp [hfresh]), Option.elim_none]
    · rename_i hother
      rw [List.find?_cons_of_neg (by simpa [hfresh] using Ne.symm hother), List.find?_nil, Option.or_none]

variable {key} {a b : α} {as rows : List α}

theorem mem_upsert : b ∈ upsert key a rows ↔ b = a ∨ b ∈ rows ∧ key b ≠ key a := by
  unfold upsert
  split
  · rename_i hany
    obtain ⟨x, hx, hkey⟩ := List.any_eq_true.mp hany
    rw [List.mem_map]
    constructor
    · intro h
      obtain ⟨y, hy, rfl⟩ := h
      split
      · exact .inl rfl
      · rename_i hne
        exact .inr ⟨hy, hne⟩
    · intro h
      obtain rfl | ⟨hb, hne⟩ := h
      · exact ⟨x, hx, if_pos (of_decide_eq_true hkey)⟩
      · exact ⟨b, hb, if_neg hne⟩
  · rename_i hany
    rw [List.mem_append, List.mem_singleton, or_comm]
    refine or_congr_right (and_iff_left_of_imp fun hb hkey => hany ?_).symm
    exact List.any_eq_true.mpr ⟨b, hb, decide_eq_true hkey⟩

theorem nodup_upsert (h : (rows.map key).Nodup) : ((upsert key a rows).map key).Nodup := by
  unfold upsert
  split
  · have hkeys : (rows.map fun x => if key x = key a then a else x).map key = rows.map key := by
      rw [List.map_map]
      refine List.map_congr_left fun x _ => ?_
      rw [Function.comp_apply]
      split
      · rename_i hx
        exact hx.symm
      · rfl
    rwa [hkeys]
  · rename_i hany
    rw [List.map_append, List.map_singleton]
    apply h.append (List.nodup_singleton _)
    rw [List.disjoint_singleton]
    intro hmem
    obtain ⟨x, hx, hkey⟩ := List.mem_map.mp hmem
    exact hany (List.any_eq_true.mpr ⟨x, hx, decide_eq_true hkey⟩)

theorem upserts_cons : upserts key (a :: as) rows = upserts key as (upsert key a rows) := rfl

theorem nodup_upserts (h : (rows.map key).Nodup) : ((upserts key as rows).map key).Nodup := by
  induction as generalizing rows with
  | nil => exact h
  | cons a as ih => exact ih (nodup_upsert h)

/-- **What upserts leave.** -/
theorem mem_upserts : b ∈ upserts key as rows ↔ b ∈ lasts key as ∨ b ∈ rows ∧ key b ∉ as.map key := by
  induction as generalizing rows with
  | nil => simp [upserts, lasts]
  | cons a rest ih =>
    rw [upserts_cons, ih, mem_upsert, lasts, List.map_cons, List.mem_cons, not_or]
    by_cases hlater : key a ∈ rest.map key
    · rw [if_pos hlater]
      refine or_congr_right ⟨?_, fun ⟨hb, hne, hnot⟩ => ⟨.inr ⟨hb, hne⟩, hnot⟩⟩
      intro h
      obtain ⟨rfl | ⟨hb, hne⟩, hnot⟩ := h
      · exact absurd hlater hnot
      · exact ⟨hb, hne, hnot⟩
    · rw [if_neg hlater, List.mem_cons]
      constructor
      · intro h
        obtain hlast | ⟨rfl | ⟨hb, hne⟩, hnot⟩ := h
        · exact .inl (.inr hlast)
        · exact .inl (.inl rfl)
        · exact .inr ⟨hb, hne, hnot⟩
      · intro h
        obtain (rfl | hlast) | ⟨hb, hne, hnot⟩ := h
        · exact .inr ⟨.inl rfl, hlater⟩
        · exact .inl hlast
        · exact .inr ⟨.inr ⟨hb, hne⟩, hnot⟩

/-- Rows with keys of their own are all last. -/
theorem lasts_of_nodup (h : (as.map key).Nodup) : lasts key as = as := by
  induction as with
  | nil => rfl
  | cons a rest ih =>
    rw [List.map_cons, List.nodup_cons] at h
    rw [lasts, if_neg h.1, ih h.2]

/-- What is found under a key is the row that has it. -/
theorem find?_eq_some_iff (h : (rows.map key).Nodup) {k : κ} :
    rows.find? (key · == k) = some a ↔ a ∈ rows ∧ key a = k := by
  have hfound : ∀ {b}, rows.find? (key · == k) = some b → b ∈ rows ∧ key b = k := fun hb =>
    ⟨List.mem_of_find?_eq_some hb, by simpa using List.find?_some hb⟩
  refine ⟨hfound, ?_⟩
  intro ha
  have hsome : (rows.find? (key · == k)).isSome = true := List.find?_isSome.mpr ⟨a, ha.1, by simpa using ha.2⟩
  obtain ⟨b, hb⟩ := Option.isSome_iff_exists.mp hsome
  rw [hb, List.inj_on_of_nodup_map h (hfound hb).1 ha.1 ((hfound hb).2.trans ha.2.symm)]

/-- **What is found after upserts**, of one row each. -/
theorem find?_upserts (hrows : (rows.map key).Nodup) (has : (as.map key).Nodup) (k : κ) :
    (upserts key as rows).find? (key · == k) = (as.find? (key · == k)).or (rows.find? (key · == k)) := by
  ext b
  rw [Option.or_eq_some_iff, find?_eq_some_iff (nodup_upserts hrows), find?_eq_some_iff has, find?_eq_some_iff hrows, mem_upserts,
    lasts_of_nodup has, or_and_right]
  apply or_congr_right
  have hnone : as.find? (key · == k) = none ↔ k ∉ as.map key := by simp [List.find?_eq_none]
  rw [hnone, and_right_comm, and_comm]
  refine and_congr_left fun hb => ?_
  rw [hb.2]

end TravelMaker.Lib.Upsert
