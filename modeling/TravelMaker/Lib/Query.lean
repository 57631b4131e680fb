import Mathlib.Data.List.Basic

/-! The query of a URL, and `application/x-www-form-urlencoded` in it.

What is written into a query without escaping is read back unless it has a separator, a
plus sign or an escape. An escape only ever shortens a text (`length_unquote_lt`), so what
is read back whole had none (`unquote_eq_self_iff`). -/
namespace TravelMaker.Lib

/-! ### UTF-8 -/

namespace Utf8

/-- Where a decoder stands: between characters, or inside one, with the bytes it still
needs, the range of the next one and the code so far. -/
inductive State where
  | start
  | inside (needed : Nat) (lo hi : UInt8) (code : Nat)

def replacement : Char := '\uFFFD'

/-- The first byte of a character. -/
def first (b : UInt8) : List Char × State :=
  if b ≤ 0x7F then ([Char.ofNat b.toNat], .start)
  else if 0xC2 ≤ b ∧ b ≤ 0xDF then ([], .inside 1 0x80 0xBF (b.toNat - 0xC0))
  else if b = 0xE0 then ([], .inside 2 0xA0 0xBF 0)
  else if b = 0xED then ([], .inside 2 0x80 0x9F 0xD)
  else if 0xE1 ≤ b ∧ b ≤ 0xEF then ([], .inside 2 0x80 0xBF (b.toNat - 0xE0))
  else if b = 0xF0 then ([], .inside 3 0x90 0xBF 0)
  else if b = 0xF4 then ([], .inside 3 0x80 0x8F 4)
  else if 0xF1 ≤ b ∧ b ≤ 0xF3 then ([], .inside 3 0x80 0xBF (b.toNat - 0xF0))
  else ([replacement], .start)

/-- A byte that does not belong to the character begins the next one. -/
def next : State → UInt8 → List Char × State
  | .start, b => first b
  | .inside needed lo hi code, b =>
    if lo ≤ b ∧ b ≤ hi then
      let code := code * 64 + (b.toNat - 0x80)
      if needed = 1 then ([Char.ofNat code], .start) else ([], .inside (needed - 1) 0x80 0xBF code)
    else (replacement :: (first b).1, (first b).2)

def decodeFrom : State → List UInt8 → List Char
  | .start, [] => []
  | .inside .., [] => [replacement]
  | state, b :: rest => (next state b).1 ++ decodeFrom (next state b).2 rest

/-- `bytes.decode("utf-8", "replace")`. -/
def decode (bytes : List UInt8) : List Char := decodeFrom .start bytes

/-- The characters that a decoder still owes. -/
def State.owed : State → Nat
  | .start => 0
  | .inside .. => 1

theorem length_first (b : UInt8) : (first b).1.length + (first b).2.owed = 1 := by
  unfold first
  split_ifs <;> rfl

theorem length_next (state : State) (b : UInt8) : (next state b).1.length + (next state b).2.owed ≤ 1 + state.owed := by
  cases state with
  | start => exact Nat.le_of_eq (length_first b)
  | inside needed lo hi code =>
    have hfirst := length_first b
    have howed : (State.inside needed lo hi code).owed = 1 := rfl
    simp only [next, howed]
    split_ifs
    · exact (Nat.le_succ 1 : 1 + 0 ≤ 1 + 1)
    · exact (Nat.le_succ 1 : 0 + 1 ≤ 1 + 1)
    · show ((first b).1.length + 1) + (first b).2.owed ≤ 1 + 1
      omega

/-- No byte makes more than one character. -/
theorem length_decodeFrom_le (bytes : List UInt8) (state : State) :
    (decodeFrom state bytes).length ≤ bytes.length + state.owed := by
  induction bytes generalizing state with
  | nil => cases state <;> simp [decodeFrom, State.owed]
  | cons b rest ih =>
    have hnext := length_next state b
    have hrest := ih (next state b).2
    simp only [decodeFrom, List.length_append, List.length_cons]
    omega

theorem length_decode_le (bytes : List UInt8) : (decode bytes).length ≤ bytes.length :=
  length_decodeFrom_le bytes .start

/-- ASCII is decoded byte by byte. -/
theorem decode_ascii {s : List Char} (hs : ∀ c ∈ s, c.toNat < 128) : decode (s.map fun c => .ofNat c.toNat) = s := by
  induction s with
  | nil => rfl
  | cons c rest ih =>
    have hc := hs c List.mem_cons_self
    have hbyte : (UInt8.ofNat c.toNat).toNat = c.toNat := by
      rw [UInt8.toNat_ofNat']
      exact Nat.mod_eq_of_lt (by omega)
    have hfirst : first (.ofNat c.toNat) = ([c], .start) := by
      have hle : UInt8.ofNat c.toNat ≤ 0x7F := by
        rw [UInt8.le_iff_toNat_le, hbyte]
        show c.toNat ≤ 127
        omega
      rw [first, if_pos hle, hbyte, Char.ofNat_toNat]
    rw [List.map_cons, decode, decodeFrom, next, hfirst, List.singleton_append]
    exact congrArg (c :: ·) (ih fun c hc => hs c (List.mem_cons_of_mem _ hc))

end Utf8

/-! ### Escapes -/

namespace Query

def hexValue (c : Char) : Option Nat :=
  if c.isDigit then some (c.toNat - 48)
  else if 'a' ≤ c ∧ c ≤ 'f' then some (c.toNat - 87)
  else if 'A' ≤ c ∧ c ≤ 'F' then some (c.toNat - 55)
  else none

/-- The byte of an escape. -/
def hexByte? (a b : Char) : Option UInt8 := do
  let x ← hexValue a
  let y ← hexValue b
  return .ofNat (16 * x + y)

/-- `unquote`, with the bytes of the run of ASCII characters and escapes before. -/
def unquoteFrom (pending : List UInt8) : List Char → List Char
  | '%' :: a :: b :: rest =>
    match hexByte? a b with
    | some byte => unquoteFrom (pending ++ [byte]) rest
    | none => unquoteFrom (pending ++ [0x25]) (a :: b :: rest)
  | c :: rest =>
    if c.toNat < 128 then unquoteFrom (pending ++ [.ofNat c.toNat]) rest
    else Utf8.decode pending ++ c :: unquoteFrom [] rest
  | [] => Utf8.decode pending

/-- `unquote(s, "utf-8", "replace")`. -/
def unquote (s : List Char) : List Char := unquoteFrom [] s

/-- There is a percent sign with two hexadecimal digits. -/
def hasEscape : List Char → Bool
  | '%' :: a :: b :: rest => (hexByte? a b).isSome || hasEscape (a :: b :: rest)
  | _ :: rest => hasEscape rest
  | [] => false

theorem length_unquoteFrom_le (s : List Char) (pending : List UInt8) :
    (unquoteFrom pending s).length ≤ pending.length + s.length := by
  fun_induction unquoteFrom pending s with
  | case1 pending a b rest byte _ ih =>
    simp only [List.length_append, List.length_cons, List.length_nil] at ih ⊢
    omega
  | case2 pending a b rest _ ih =>
    simp only [List.length_append, List.length_cons, List.length_nil] at ih ⊢
    omega
  | case3 pending c rest _ hc ih =>
    simp only [List.length_append, List.length_cons, List.length_nil] at ih ⊢
    omega
  | case4 pending c rest _ hc ih =>
    have hdecode := Utf8.length_decode_le pending
    simp only [List.length_append, List.length_cons, List.length_nil] at ih ⊢
    omega
  | case5 pending => exact Utf8.length_decode_le pending

/-- An escape makes a text shorter. -/
theorem length_unquoteFrom_lt {s : List Char} (h : hasEscape s = true) (pending : List UInt8) :
    (unquoteFrom pending s).length < pending.length + s.length := by
  fun_induction unquoteFrom pending s with
  | case1 pending a b rest byte _ ih =>
    have hle := length_unquoteFrom_le rest (pending ++ [byte])
    simp only [List.length_append, List.length_cons, List.length_nil] at hle ⊢
    omega
  | case2 pending a b rest hbyte ih =>
    rw [hasEscape, hbyte, Option.isSome_none, Bool.false_or] at h
    have hlt := ih h
    simp only [List.length_append, List.length_cons, List.length_nil] at hlt ⊢
    omega
  | case3 pending c rest hnot hc ih =>
    rw [hasEscape.eq_2 _ _ hnot] at h
    have hlt := ih h
    simp only [List.length_append, List.length_cons, List.length_nil] at hlt ⊢
    omega
  | case4 pending c rest hnot hc ih =>
    rw [hasEscape.eq_2 _ _ hnot] at h
    have hlt := ih h
    have hdecode := Utf8.length_decode_le pending
    simp only [List.length_append, List.length_cons, List.length_nil] at hlt ⊢
    omega
  | case5 pending => cases h

/-- Without an escape the run before is decoded and the rest is kept. -/
theorem unquoteFrom_eq {s : List Char} (h : hasEscape s = false) {r : List Char} (hrun : ∀ c ∈ r, c.toNat < 128)
    {pending : List UInt8} (hpending : pending = r.map fun c => .ofNat c.toNat) :
    unquoteFrom pending s = r ++ s := by
  have hmore : ∀ {r : List Char} {c : Char}, (∀ c ∈ r, c.toNat < 128) → c.toNat < 128 →
      ∀ d ∈ r ++ [c], d.toNat < 128 := by
    intro r c hrun hc d hd
    rcases List.mem_append.mp hd with hd | hd
    · exact hrun d hd
    · rw [List.mem_singleton.mp hd]
      exact hc
  fun_induction unquoteFrom pending s generalizing r with
  | case1 pending a b rest byte hbyte ih =>
    rw [hasEscape, hbyte] at h
    cases h
  | case2 pending a b rest hbyte ih =>
    rw [hasEscape, hbyte, Option.isSome_none, Bool.false_or] at h
    rw [ih h (hmore (c := '%') hrun (by decide)) (by rw [hpending, List.map_append]; rfl), List.append_assoc]
    rfl
  | case3 pending c rest hnot hc ih =>
    rw [hasEscape.eq_2 _ _ hnot] at h
    rw [ih h (hmore hrun hc) (by rw [hpending, List.map_append]; rfl), List.append_assoc]
    rfl
  | case4 pending c rest hnot hc ih =>
    rw [hasEscape.eq_2 _ _ hnot] at h
    rw [hpending, Utf8.decode_ascii hrun, ih h (fun d hd => absurd hd List.not_mem_nil) rfl]
    rfl
  | case5 pending => rw [hpending, Utf8.decode_ascii hrun, List.append_nil]

theorem unquote_eq_self_iff (s : List Char) : unquote s = s ↔ hasEscape s = false := by
  constructor
  · intro h
    by_contra hescape
    rw [Bool.not_eq_false] at hescape
    have hlt := length_unquoteFrom_lt hescape []
    rw [← unquote, h, List.length_nil, Nat.zero_add] at hlt
    exact Nat.lt_irrefl _ hlt
  · intro h
    exact unquoteFrom_eq (r := []) h (fun c hc => absurd hc List.not_mem_nil) rfl

/-! ### Pairs -/

def plusToSpace (s : List Char) : List Char := s.map fun c => if c = '+' then ' ' else c

/-- A name and a value as they were sent. -/
def decodePart (s : List Char) : List Char := unquote (plusToSpace s)

/-- The name before the first equals sign, and the value after it. -/
def parsePair (piece : List Char) : List Char × List Char :=
  (decodePart (piece.takeWhile (· != '=')), decodePart ((piece.dropWhile (· != '=')).drop 1))

/-- `parse_qsl(query, keep_blank_values=True)`. -/
def parse (query : List Char) : List (List Char × List Char) :=
  ((query.splitOn '&').filter (· != [])).map parsePair

/-- A URL without the characters that `urlsplit` takes out of it. -/
def cleaned (url : List Char) : List Char := url.filter fun c => !(['\t', '\n', '\r'].contains c)

/-- The query of a URL, as `urlsplit` finds it. -/
def ofUrl (url : List Char) : List Char := (((cleaned url).takeWhile (· != '#')).dropWhile (· != '?')).drop 1

theorem cleaned_eq_self_iff (s : List Char) : cleaned s = s ↔ ∀ c ∈ s, c ∉ ['\t', '\n', '\r'] := by
  rw [cleaned, List.filter_eq_self]
  simp only [Bool.not_eq_true', List.contains_eq_mem, decide_eq_false_iff_not]

theorem cleaned_append (s t : List Char) : cleaned (s ++ t) = cleaned s ++ cleaned t :=
  List.filter_append s t

/-- The query is what follows the first question mark. -/
theorem ofUrl_append {path : List Char} (hpath : '?' ∉ path ∧ '#' ∉ path) (query : List Char) :
    ofUrl (path ++ '?' :: query) = (cleaned query).takeWhile (· != '#') := by
  have hmem : ∀ c ∈ cleaned path, c ∈ path := fun c hc => List.mem_of_mem_filter hc
  have hhash : ∀ c ∈ cleaned path, (c != '#') = true := fun c hc =>
    bne_iff_ne.mpr fun h => hpath.2 (h ▸ hmem c hc)
  have hmark : ∀ c ∈ cleaned path, (c != '?') = true := fun c hc =>
    bne_iff_ne.mpr fun h => hpath.1 (h ▸ hmem c hc)
  rw [ofUrl, cleaned_append, show cleaned ('?' :: query) = '?' :: cleaned query from rfl,
    List.takeWhile_append_of_pos hhash, List.takeWhile_cons_of_pos (by decide), List.dropWhile_append_of_pos hmark,
    List.dropWhile_cons_of_neg (by decide)]
  rfl

theorem length_plusToSpace (s : List Char) : (plusToSpace s).length = s.length := List.length_map _

theorem plusToSpace_eq_self_iff (s : List Char) : plusToSpace s = s ↔ '+' ∉ s := by
  unfold plusToSpace
  constructor
  · intro h hplus
    rw [← h] at hplus
    obtain ⟨c, -, hc⟩ := List.mem_map.mp hplus
    split at hc
    · exact absurd hc (by decide)
    · contradiction
  · intro h
    conv_rhs => rw [← List.map_id s]
    refine List.map_congr_left fun c hc => if_neg ?_
    rintro rfl
    exact h hc

theorem length_decodePart_le (s : List Char) : (decodePart s).length ≤ s.length := by
  have hle := length_unquoteFrom_le (plusToSpace s) []
  rw [length_plusToSpace, List.length_nil, Nat.zero_add] at hle
  exact hle

/-- **What is read back as it was written** has no plus sign and no escape. -/
theorem decodePart_eq_self_iff (s : List Char) : decodePart s = s ↔ '+' ∉ s ∧ hasEscape s = false := by
  unfold decodePart
  constructor
  · intro h
    have hescape : hasEscape (plusToSpace s) = false := by
      by_contra hescape
      rw [Bool.not_eq_false] at hescape
      have hlt := length_unquoteFrom_lt hescape []
      rw [← unquote, h, length_plusToSpace, List.length_nil, Nat.zero_add] at hlt
      exact Nat.lt_irrefl _ hlt
    rw [(unquote_eq_self_iff _).mpr hescape] at h
    exact ⟨(plusToSpace_eq_self_iff s).mp h, h ▸ hescape⟩
  · rintro ⟨hplus, hescape⟩
    rw [(plusToSpace_eq_self_iff s).mpr hplus]
    exact (unquote_eq_self_iff s).mpr hescape

/-! ### Pieces -/

/-- No piece is longer than the whole, and with a separator each is shorter. -/
theorem length_of_mem_splitOn {a : Char} {s piece : List Char} (h : piece ∈ s.splitOn a) :
    piece.length ≤ s.length ∧ (a ∈ s → piece.length < s.length) := by
  induction s generalizing piece with
  | nil =>
    obtain rfl := List.mem_singleton.mp h
    exact ⟨Nat.le_refl 0, fun ha => absurd ha List.not_mem_nil⟩
  | cons c rest ih =>
    rw [List.splitOn_cons_eq_if_modifyHead] at h
    split at h
    · rcases List.mem_cons.mp h with rfl | h
      · exact ⟨Nat.zero_le _, fun _ => Nat.succ_pos _⟩
      · have hlt := Nat.lt_succ_of_le (ih h).1
        exact ⟨Nat.le_of_lt hlt, fun _ => hlt⟩
    · rename_i hc
      obtain ⟨first, others, hsplit⟩ := List.exists_cons_of_ne_nil (List.splitOn_ne_nil a rest)
      rw [hsplit] at ih h
      rcases List.mem_cons.mp h with rfl | h
      · obtain ⟨hle, hlt⟩ := ih List.mem_cons_self
        refine ⟨Nat.succ_le_succ hle, fun ha => Nat.succ_lt_succ (hlt ?_)⟩
        rcases List.mem_cons.mp ha with rfl | ha
        · exact absurd (beq_self_eq_true a) hc
        · exact ha
      · have hlt := Nat.lt_succ_of_le (ih (List.mem_cons_of_mem _ h)).1
        exact ⟨Nat.le_of_lt hlt, fun _ => hlt⟩

/-- What stands before the first separator joins the first piece. -/
theorem splitOn_append_of_not_mem {a : Char} {before : List Char} (h : a ∉ before) (s : List Char) :
    (before ++ s).splitOn a = (s.splitOn a).modifyHead (before ++ ·) := by
  induction before with
  | nil =>
    obtain ⟨first, others, hsplit⟩ := List.exists_cons_of_ne_nil (List.splitOn_ne_nil a s)
    rw [List.nil_append, hsplit]
    rfl
  | cons c before ih =>
    obtain ⟨hc, hbefore⟩ := List.ne_and_not_mem_of_not_mem_cons h
    obtain ⟨first, others, hsplit⟩ := List.exists_cons_of_ne_nil (List.splitOn_ne_nil a s)
    rw [List.cons_append, List.splitOn_cons_eq_if_modifyHead, if_neg (by simpa using Ne.symm hc), ih hbefore, hsplit]
    rfl

theorem parse_append_cons (s t : List Char) : parse (s ++ '&' :: t) = parse s ++ parse t := by
  rw [parse, List.splitOn_append_cons_self, List.filter_append, List.map_append]
  rfl

section
variable {name : List Char} (hname : ∀ c ∈ name, c ≠ '=' ∧ c ≠ '&')
include hname

theorem parsePair_eq (s : List Char) : parsePair (name ++ '=' :: s) = (decodePart name, decodePart s) := by
  have hpos : ∀ c ∈ name, (c != '=') = true := fun c hc => bne_iff_ne.mpr (hname c hc).1
  rw [parsePair, List.takeWhile_append_of_pos hpos, List.dropWhile_append_of_pos hpos]
  rw [List.takeWhile_cons_of_neg (by decide), List.dropWhile_cons_of_neg (by decide), List.append_nil]
  rfl

/-- A pair without a separator in its value. -/
theorem parse_pair {s : List Char} (hs : '&' ∉ s) : parse (name ++ '=' :: s) = [(decodePart name, decodePart s)] := by
  have hnot : '&' ∉ name ++ '=' :: s := by
    simp only [List.mem_append, List.mem_cons, not_or]
    exact ⟨fun h => (hname _ h).2 rfl, by decide, hs⟩
  rw [parse, List.splitOn_eq_singleton hnot, List.filter_cons_of_pos (by simp), List.filter_nil, List.map_singleton,
    parsePair_eq hname]

/-- No value of a pair is longer than what was written, and with a separator in it each is shorter. -/
theorem length_parse_le (s : List Char) : ∀ pair ∈ parse (name ++ '=' :: s),
    pair.2.length ≤ s.length ∧ ('&' ∈ s → pair.2.length < s.length) := by
  intro pair hpair
  have hbefore : '&' ∉ name ++ ['='] := by
    rw [List.mem_append, not_or]
    exact ⟨fun h => (hname _ h).2 rfl, by decide⟩
  obtain ⟨first, others, hsplit⟩ := List.exists_cons_of_ne_nil (List.splitOn_ne_nil '&' s)
  have hpieces : (name ++ '=' :: s).splitOn '&' = (name ++ '=' :: first) :: others := by
    rw [List.append_cons, splitOn_append_of_not_mem hbefore, hsplit]
    exact congrArg (· :: others) (List.append_cons _ _ _).symm
  -- The value of a piece is no longer than some piece of what was written.
  have hvalue : ∃ piece ∈ s.splitOn '&', pair.2.length ≤ piece.length := by
    obtain ⟨piece, hpiece, rfl⟩ := List.mem_map.mp hpair
    rw [List.mem_filter, hpieces] at hpiece
    rcases List.mem_cons.mp hpiece.1 with rfl | hmem
    · rw [parsePair_eq hname]
      exact ⟨first, hsplit ▸ List.mem_cons_self, length_decodePart_le first⟩
    · refine ⟨piece, hsplit ▸ List.mem_cons_of_mem _ hmem, Nat.le_trans (length_decodePart_le _) ?_⟩
      rw [List.length_drop]
      have := (List.dropWhile_sublist (p := (· != '=')) (l := piece)).length_le
      omega
  obtain ⟨piece, hpiece, hle⟩ := hvalue
  have hlength := length_of_mem_splitOn hpiece
  exact ⟨Nat.le_trans hle hlength.1, fun h => Nat.lt_of_le_of_lt hle (hlength.2 h)⟩

end

end Query
end TravelMaker.Lib
