import TravelMaker.Lib.Text

/-! E-mail addresses as unique keys.

`BaseUserManager.normalize_email` lowers the domain of an address, and a `varchar`
column may cut it. What such a column holds is stored again as it is
(`stored?_idem`): a row is found under the address it holds, and under no other
spelling of it. -/
namespace TravelMaker.Lib.Email
open Text

/-- `str.lower`, as far as addresses depend on it. -/
structure LowerCase where
  lower : List Char → List Char
  idem : ∀ s, lower (lower s) = lower s
  no_at : ∀ s, '@' ∉ s → '@' ∉ lower s
  no_space : ∀ s, s.rdropWhile isSpace = s → (lower s).rdropWhile isSpace = lower s

/-! ### ASCII -/

theorem toLower_cases (c : Char) :
    c.toLower = c ∨ (65 ≤ c.toNat ∧ c.toNat ≤ 90) ∧ 97 ≤ c.toLower.toNat ∧ c.toLower.toNat ≤ 122 := by
  unfold Char.toLower
  split
  · rename_i h
    refine .inr ⟨h, ?_⟩
    have hle : 65 ≤ c.val.toNat ∧ c.val.toNat ≤ 90 := h
    show 97 ≤ (c.val + 32).toNat ∧ (c.val + 32).toNat ≤ 122
    have hlow : (c.val + 32).toNat = c.val.toNat + 32 := by
      rw [UInt32.toNat_add]
      exact Nat.mod_eq_of_lt (show c.val.toNat + 32 < 2 ^ 32 by omega)
    rw [hlow]
    omega
  · exact .inl rfl

theorem toLower_of_lower {c : Char} (h : 97 ≤ c.toNat) : c.toLower = c := by
  rcases toLower_cases c with h' | ⟨hle, -⟩
  · exact h'
  · omega

theorem isSpace_toLower (c : Char) : isSpace c.toLower = isSpace c := by
  rcases toLower_cases c with h | ⟨h, h'⟩
  · rw [h]
  · have hletter : ∀ d : Char, 65 ≤ d.toNat → d.toNat ≤ 122 → isSpace d = false := by
      intro d hd hd'
      simp only [isSpace, Bool.or_eq_false_iff, Bool.and_eq_false_iff, decide_eq_false_iff_not, beq_eq_false_iff_ne]
      omega
    rw [hletter c h.1 (by omega), hletter c.toLower (by omega) h'.2]

/-- `str.lower` on ASCII text. -/
def asciiLower : LowerCase where
  lower s := s.map Char.toLower
  idem s := by
    rw [List.map_map]
    refine List.map_congr_left fun c _ => ?_
    rcases toLower_cases c with h | ⟨-, h⟩
    · rw [Function.comp_apply, h, h]
    · exact toLower_of_lower h.1
  no_at s h := by
    intro hmem
    obtain ⟨c, hc, heq⟩ := List.mem_map.mp hmem
    rcases toLower_cases c with h' | ⟨-, h'⟩
    · rw [← heq, h'] at h
      exact h hc
    · rw [heq] at h'
      exact absurd h'.1 (by decide)
  no_space s h := by
    rw [List.rdropWhile_eq_self_iff] at h ⊢
    intro hne
    have hs : s ≠ [] := fun hnil => hne (by rw [hnil]; rfl)
    rw [List.getLast_map, isSpace_toLower]
    exact h hs

/-! ### Addresses -/

section
variable (c : LowerCase)

def normalizeEmail (s : List Char) : List Char :=
  let body := stripWith isSpace s
  -- `rsplit("@", 1)`: the name keeps the at sign here
  if '@' ∈ body then body.rdropWhile (· != '@') ++ c.lower (body.rtakeWhile (· != '@')) else s

/-- What a `varchar(n)` column makes of a text; `none` for the `DataError`. -/
def varchar? (n : Nat) (s : List Char) : Option (List Char) :=
  if '\x00' ∈ s then none
  else if (s.drop n).all (· == ' ') then some (s.take n)
  else none

/-- What a unique column of `n` characters holds for an address. -/
def stored? (n : Nat) (s : List Char) : Option (List Char) := varchar? n (normalizeEmail c s)

end

example : normalizeEmail asciiLower " Kim@Example.COM ".toList = "Kim@example.com".toList := by decide +kernel

/-! ### Storing twice -/

section
variable {c : LowerCase} {n : Nat} {s t : List Char}

/-- An address that normalization leaves alone: it has no domain, or one in lower case. -/
def Normal (c : LowerCase) (s : List Char) : Prop :=
  '@' ∉ stripWith isSpace s ∨ stripWith isSpace s = s ∧ ∃ name domain,
    s = name ++ '@' :: domain ∧ '@' ∉ domain ∧ c.lower domain = domain

theorem rdropWhile_at (name : List Char) {domain : List Char} (h : '@' ∉ domain) :
    (name ++ '@' :: domain).rdropWhile (· != '@') = name ++ ['@'] ∧
      (name ++ '@' :: domain).rtakeWhile (· != '@') = domain := by
  induction domain using List.reverseRecOn with
  | nil =>
    exact ⟨List.rdropWhile_concat_neg _ _ _ (by decide), List.rtakeWhile_concat_neg _ _ _ (by decide)⟩
  | append_singleton rest d ih =>
    have hd : (d != '@') = true := bne_iff_ne.mpr fun heq => h (heq ▸ List.mem_append_right _ List.mem_cons_self)
    obtain ⟨hdrop, htake⟩ := ih fun hmem => h (List.mem_append_left _ hmem)
    rw [← List.cons_append, ← List.append_assoc]
    exact ⟨(List.rdropWhile_concat_pos (· != '@') _ d hd).trans hdrop,
      (List.rtakeWhile_concat_pos (· != '@') _ d hd).trans (congrArg (· ++ [d]) htake)⟩

theorem normalizeEmail_of_normal (h : Normal c s) : normalizeEmail c s = s := by
  unfold normalizeEmail
  rcases h with h | ⟨hstrip, name, domain, rfl, hdomain, hlower⟩
  · exact if_neg h
  · obtain ⟨hdrop, htake⟩ := rdropWhile_at name hdomain
    dsimp only
    rw [hstrip, if_pos (List.mem_append_right _ List.mem_cons_self), hdrop, htake, hlower, List.append_assoc]
    rfl

/-- The last at sign of a text. -/
theorem split_at (h : '@' ∈ s) : ∃ name domain, s = name ++ '@' :: domain ∧ '@' ∉ domain := by
  induction s with
  | nil => cases h
  | cons d rest ih =>
    by_cases hrest : '@' ∈ rest
    · obtain ⟨name, domain, rfl, hdomain⟩ := ih hrest
      exact ⟨d :: name, domain, rfl, hdomain⟩
    · rcases List.mem_cons.mp h with rfl | h
      · exact ⟨[], rest, rfl, hrest⟩
      · exact absurd h hrest

/-- A text without white space at its ends. -/
theorem stripWith_eq_self (hhead : s.dropWhile isSpace = s) (hlast : s.rdropWhile isSpace = s) :
    stripWith isSpace s = s := by
  rw [stripWith, hhead, hlast]

theorem dropWhile_stripWith (s : List Char) : (stripWith isSpace s).dropWhile isSpace = stripWith isSpace s := by
  obtain ⟨rest, hrest⟩ : stripWith isSpace s <+: s.dropWhile isSpace := List.rdropWhile_prefix ..
  cases hbody : stripWith isSpace s with
  | nil => rfl
  | cons x body =>
    refine List.dropWhile_cons_of_neg fun hx => ?_
    rw [hbody, List.cons_append] at hrest
    have hne : s.dropWhile isSpace ≠ [] := by
      rw [← hrest]
      exact List.cons_ne_nil _ _
    have hhead := List.head_dropWhile_not isSpace hne
    simp only [← hrest, List.head_cons, hx] at hhead
    cases hhead

theorem dropWhile_at {p : Char → Bool} (hp : p '@' = false) (name : List Char) (d d' : List Char)
    (h : (name ++ '@' :: d).dropWhile p = name ++ '@' :: d) :
    (name ++ '@' :: d').dropWhile p = name ++ '@' :: d' := by
  cases name with
  | nil => exact List.dropWhile_cons_of_neg (Bool.not_eq_true _ ▸ hp)
  | cons x rest =>
    refine List.dropWhile_cons_of_neg fun hx => ?_
    have hlength := congrArg List.length h
    rw [List.cons_append, List.dropWhile_cons_of_pos hx, List.length_cons] at hlength
    have hle := (List.dropWhile_suffix (l := rest ++ '@' :: d) p).length_le
    omega

theorem rdropWhile_at_iff {p : Char → Bool} (hp : p '@' = false) (name d : List Char) :
    (name ++ '@' :: d).rdropWhile p = name ++ '@' :: d ↔ d.rdropWhile p = d := by
  rw [List.rdropWhile_eq_self_iff, List.rdropWhile_eq_self_iff]
  cases d with
  | nil =>
    refine iff_of_true (fun _ => ?_) fun hne => absurd rfl hne
    rw [List.getLast_append_of_ne_nil _ (List.cons_ne_nil _ _)]
    exact Bool.not_eq_true _ ▸ hp
  | cons x rest =>
    rw [forall_prop_of_true (List.cons_ne_nil x rest), forall_prop_of_true (by simp),
      List.getLast_append_of_ne_nil _ (List.cons_ne_nil _ _), List.getLast_cons (List.cons_ne_nil _ _)]

theorem normal_normalizeEmail (c : LowerCase) (s : List Char) : Normal c (normalizeEmail c s) := by
  unfold normalizeEmail
  dsimp only
  split
  · rename_i h
    obtain ⟨name, domain, hbody, hdomain⟩ := split_at h
    obtain ⟨hdrop, htake⟩ := rdropWhile_at name hdomain
    rw [hbody, hdrop, htake, List.append_assoc]
    refine .inr ⟨stripWith_eq_self ?_ ?_, name, c.lower domain, rfl, c.no_at _ hdomain, c.idem domain⟩
    · apply dropWhile_at rfl name domain _
      rw [← hbody]
      exact dropWhile_stripWith s
    · apply (rdropWhile_at_iff (p := isSpace) rfl name _).mpr
      refine c.no_space domain ((rdropWhile_at_iff (p := isSpace) rfl name domain).mp ?_)
      rw [← hbody]
      exact List.rdropWhile_idempotent ..
  · rename_i h
    exact .inl h

theorem mem_stripWith : '@' ∈ stripWith isSpace s ↔ '@' ∈ s := by
  rw [← List.singleton_infix_iff, ← List.singleton_infix_iff]
  exact infix_stripWith (List.forall_mem_singleton.mpr rfl) s

/-- What a column holds is short enough for it. -/
theorem varchar?_eq_some (h : varchar? n s = some t) : t = s.take n ∧ '\x00' ∉ s ∧ ∀ d ∈ s.drop n, d = ' ' := by
  unfold varchar? at h
  split at h
  · cases h
  · rename_i hnul
    split at h
    · rename_i hspace
      cases h
      refine ⟨rfl, hnul, fun d hd => ?_⟩
      simpa using List.all_eq_true.mp hspace d hd
    · cases h

theorem varchar?_of_le (hnul : '\x00' ∉ s) (hlength : s.length ≤ n) : varchar? n s = some s := by
  rw [varchar?, if_neg hnul, List.drop_of_length_le hlength, List.take_of_length_le hlength]
  rfl

/-- A text without white space at its ends does not end in blanks that are cut off. -/
theorem take_of_stripped (hstrip : stripWith isSpace s = s) (hdrop : ∀ d ∈ s.drop n, d = ' ') : s.take n = s := by
  by_cases hlength : s.length ≤ n
  · exact List.take_of_length_le hlength
  · have hne : s.drop n ≠ [] := by
      rw [Ne, List.drop_eq_nil_iff]
      exact hlength
    have hs : s ≠ [] := fun hnil => hne (by rw [hnil, List.drop_nil])
    have hlast : s.rdropWhile isSpace = s := by
      rw [← hstrip]
      exact List.rdropWhile_idempotent ..
    refine absurd ?_ (List.rdropWhile_eq_self_iff.mp hlast hs)
    rw [← List.getLast_drop hne, hdrop _ (List.getLast_mem hne)]
    rfl

theorem normal_take (h : Normal c s) (hdrop : ∀ d ∈ s.drop n, d = ' ') : Normal c (s.take n) := by
  rcases h with h | ⟨hstrip, h⟩
  · refine .inl fun hmem => h ?_
    rw [mem_stripWith] at hmem ⊢
    exact List.mem_of_mem_take hmem
  · rw [take_of_stripped hstrip hdrop]
    exact .inr ⟨hstrip, h⟩

/-- What a column holds is normalised. -/
theorem normalizeEmail_of_stored (h : stored? c n s = some t) : normalizeEmail c t = t := by
  obtain ⟨rfl, -, hdrop⟩ := varchar?_eq_some h
  exact normalizeEmail_of_normal (normal_take (normal_normalizeEmail c s) hdrop)

/-- **A stored address is stored again as it is.** -/
theorem stored?_idem (h : stored? c n s = some t) : stored? c n t = some t := by
  rw [stored?, normalizeEmail_of_stored h]
  obtain ⟨rfl, hnul, -⟩ := varchar?_eq_some h
  exact varchar?_of_le (fun hmem => hnul (List.mem_of_mem_take hmem)) (List.length_take_le ..)

end
end TravelMaker.Lib.Email
