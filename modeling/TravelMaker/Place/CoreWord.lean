import Mathlib.Data.List.ProdSigma
import TravelMaker.Lib.Delimited
import TravelMaker.Place.Search

/-! The core word of a keyword.

`extract_core_keyword` gives up a suffix once a particle in front of it leaves too little,
and tries the shorter suffixes then. It misses nothing by that: no particle with a suffix
ends another particle with a suffix, so a keyword has one reading at most. -/
namespace TravelMaker

/-! ### Cutting the end -/

theorem endsWith_iff {text suffix : String} : endsWith text suffix = true ↔ ∃ core, text = core ++ suffix := by
  rw [endsWith, List.isSuffixOf_iff_suffix, Lib.Text.suffix_iff]

theorem cutEnd_append (core suffix : String) : cutEnd (core ++ suffix) suffix = core := by
  have hlen : (core ++ suffix).length - suffix.length = core.toList.length := by
    rw [String.length_append, Nat.add_sub_cancel, String.length_toList]
  rw [cutEnd, hlen, String.toList_append, List.take_left, String.ofList_toList]

/-! ### Readings -/

/-- The keyword is a core word, a particle and a type of place. -/
structure CoreReading (keyword core particle suffix : String) : Prop where
  particle_mem : particle ∈ connectorParticles
  suffix_mem : suffix ∈ placeTypeSuffixes
  keyword_eq : keyword = core ++ particle ++ suffix
  length_core : 2 ≤ core.length

theorem mem_placeTypeSuffixes {suffix : String} : suffix ∈ placeTypeSuffixes ↔ suffix ∈ typeSuffixes := mem_orderBy

def endingText (ending : String × String) : List Char := (ending.1 ++ ending.2).toList

theorem suffixFree_particles : Lib.Delimited.SuffixFree String.toList connectorParticles := by decide

/-- One type of place ends another one, -/
theorem typeSuffix_overlap : ∀ suffix ∈ typeSuffixes, ∀ suffix' ∈ typeSuffixes, suffix.toList <:+ suffix'.toList →
    suffix = suffix' ∨ suffix = "로" ∧ suffix' = "대로" := by decide +kernel

/-- but no particle ends in the rest of it. -/
theorem particle_overlap : ∀ particle ∈ connectorParticles, ∀ particle' ∈ connectorParticles,
    ¬endingText (particle, "로") <:+ endingText (particle', "대로") ∧
      ¬endingText (particle, "대로") <:+ endingText (particle', "로") := by decide

theorem suffixFree_endings : Lib.Delimited.SuffixFree endingText (connectorParticles.product typeSuffixes) := by
  intro i hi j hj h
  obtain ⟨particle, suffix⟩ := i
  obtain ⟨particle', suffix'⟩ := j
  obtain ⟨hparticle, hsuffix⟩ := List.pair_mem_product.mp hi
  obtain ⟨hparticle', hsuffix'⟩ := List.pair_mem_product.mp hj
  have hoverlap := particle_overlap particle hparticle particle' hparticle'
  have hends : suffix.toList <:+ endingText (particle', suffix') := by
    refine List.IsSuffix.trans ?_ h
    rw [endingText, String.toList_append]
    exact List.suffix_append _ _
  have hends' : suffix'.toList <:+ endingText (particle', suffix') := by
    rw [endingText, String.toList_append]
    exact List.suffix_append _ _
  have hsame : suffix = suffix' → (particle, suffix) = (particle', suffix') := by
    rintro rfl
    rw [endingText, endingText, String.toList_append, String.toList_append, List.suffix_append_inj_of_length_eq rfl] at h
    rw [suffixFree_particles particle hparticle particle' hparticle' h.1]
  rcases List.suffix_or_suffix_of_suffix hends hends' with hle | hle
  · rcases typeSuffix_overlap suffix hsuffix suffix' hsuffix' hle with heq | ⟨rfl, rfl⟩
    · exact hsame heq
    · exact absurd h hoverlap.1
  · rcases typeSuffix_overlap suffix' hsuffix' suffix hsuffix hle with heq | ⟨rfl, rfl⟩
    · exact hsame heq.symm
    · exact absurd h hoverlap.2

theorem length_particle_pos : ∀ particle ∈ connectorParticles, 0 < particle.length := by decide

/-- There is one reading. -/
theorem CoreReading.unique {keyword core particle suffix core' particle' suffix' : String}
    (h : CoreReading keyword core particle suffix) (h' : CoreReading keyword core' particle' suffix') :
    core = core' ∧ particle = particle' ∧ suffix = suffix' := by
  have hmem : ∀ {core particle suffix}, CoreReading keyword core particle suffix →
      (particle, suffix) ∈ connectorParticles.product typeSuffixes := fun h =>
    List.pair_mem_product.mpr ⟨h.particle_mem, mem_placeTypeSuffixes.mp h.suffix_mem⟩
  have htext : core.toList ++ endingText (particle, suffix) = core'.toList ++ endingText (particle', suffix') := by
    rw [endingText, endingText, ← String.toList_append, ← String.toList_append, ← String.append_assoc,
      ← String.append_assoc, ← h.keyword_eq, ← h'.keyword_eq]
  obtain ⟨hcore, hending⟩ := suffixFree_endings.unique (hmem h) (hmem h') htext
  exact ⟨String.toList_inj.mp hcore, Prod.mk.inj hending⟩

/-! ### The loops -/

/-- The particle that is tried is the only one that fits. -/
theorem find?_particle {core particle : String} (hmem : particle ∈ connectorParticles) :
    connectorParticles.find? (endsWith (core ++ particle)) = some particle := by
  obtain ⟨found, hfound⟩ : ∃ found, connectorParticles.find? (endsWith (core ++ particle)) = some found := by
    rw [← Option.isSome_iff_exists, List.find?_isSome]
    exact ⟨particle, hmem, endsWith_iff.mpr ⟨core, rfl⟩⟩
  obtain ⟨core', heq⟩ := endsWith_iff.mp (List.find?_some hfound)
  have htext := congrArg String.toList heq
  rw [String.toList_append, String.toList_append] at htext
  obtain ⟨-, rfl⟩ := suffixFree_particles.unique hmem (List.mem_of_find?_eq_some hfound) htext
  exact hfound

/-- What is returned is read so. -/
theorem reading_of_extract {keyword core : String} (h : extractCoreKeyword keyword = some core) :
    ∃ particle suffix, CoreReading keyword core particle suffix := by
  obtain ⟨suffix, hsuffix, htried⟩ := List.exists_of_findSome?_eq_some h
  split at htried
  · rename_i hends
    obtain ⟨rest, rfl⟩ := endsWith_iff.mp ((Bool.and_eq_true _ _).mp hends).1
    dsimp only at htried
    rw [cutEnd_append] at htried
    obtain ⟨particle, hfound, hcut⟩ := Option.bind_eq_some_iff.mp htried
    obtain ⟨core', rfl⟩ := endsWith_iff.mp (List.find?_some hfound)
    rw [cutEnd_append] at hcut
    split at hcut
    · rename_i hlong
      obtain rfl := Option.some.inj hcut
      exact ⟨particle, suffix, List.mem_of_find?_eq_some hfound, hsuffix, rfl, hlong.1⟩
    · cases hcut
  · cases htried

/-- The suffix of a reading is taken when it is tried. -/
theorem CoreReading.tried {keyword core particle suffix : String} (h : CoreReading keyword core particle suffix) :
    (if endsWith keyword suffix && suffix.length < keyword.length then
      let core := cutEnd keyword suffix
      (connectorParticles.find? (endsWith core)).bind fun particle =>
        let core := cutEnd core particle
        if 2 ≤ core.length ∧ core ≠ keyword then some core else none
    else none) = some core := by
  obtain ⟨hparticle, -, rfl, hlong⟩ := h
  have hends : endsWith (core ++ particle ++ suffix) suffix = true := endsWith_iff.mpr ⟨_, rfl⟩
  have hshorter : suffix.length < (core ++ particle ++ suffix).length := by
    simp only [String.length_append]
    omega
  have hne : core ≠ core ++ particle ++ suffix := by
    intro heq
    have hlen := congrArg String.length heq
    have hpos := length_particle_pos particle hparticle
    simp only [String.length_append] at hlen
    omega
  rw [if_pos ((Bool.and_eq_true _ _).mpr ⟨hends, decide_eq_true hshorter⟩)]
  dsimp only
  rw [cutEnd_append, find?_particle hparticle, Option.bind_some, cutEnd_append, if_pos ⟨hlong, hne⟩]

theorem extract_of_reading {keyword core particle suffix : String} (h : CoreReading keyword core particle suffix) :
    extractCoreKeyword keyword = some core := by
  obtain ⟨core', hextract⟩ : ∃ core', extractCoreKeyword keyword = some core' := by
    rw [← Option.isSome_iff_exists]
    exact List.findSome?_isSome_iff.mpr ⟨suffix, h.suffix_mem, Option.isSome_iff_exists.mpr ⟨core, h.tried⟩⟩
  obtain ⟨particle', suffix', h'⟩ := reading_of_extract hextract
  rw [hextract, (h.unique h').1]

/-- The core word is what stands in front of a particle and a type of place, where at least
two characters do; there is none otherwise, and never two. -/
theorem extractCoreKeyword_exact (keyword : String) :
    (∀ core, extractCoreKeyword keyword = some core ↔ ∃ particle suffix, CoreReading keyword core particle suffix) ∧
      (extractCoreKeyword keyword = none ↔ ¬∃ core particle suffix, CoreReading keyword core particle suffix) ∧
      ∀ core particle suffix core' particle' suffix', CoreReading keyword core particle suffix →
        CoreReading keyword core' particle' suffix' → core = core' ∧ particle = particle' ∧ suffix = suffix' := by
  have hsome : ∀ core, extractCoreKeyword keyword = some core ↔ ∃ particle suffix, CoreReading keyword core particle suffix :=
    fun core => ⟨reading_of_extract, fun ⟨_, _, h⟩ => extract_of_reading h⟩
  refine ⟨hsome, ?_, fun _ _ _ _ _ _ h h' => h.unique h'⟩
  rw [Option.eq_none_iff_forall_ne_some]
  simp only [ne_eq, hsome, not_exists]

theorem reading_gaya : CoreReading "가야의거리" "가야" "의" "거리" where
  particle_mem := by decide
  suffix_mem := mem_placeTypeSuffixes.mpr (by decide)
  keyword_eq := by decide
  length_core := by decide

theorem extractCoreKeyword_exact_gaya : extractCoreKeyword "가야의거리" = some "가야" ∧
    ∀ core particle suffix, CoreReading "가야의거리" core particle suffix → core = "가야" ∧ particle = "의" ∧ suffix = "거리" := by
  obtain ⟨hsome, -, hunique⟩ := extractCoreKeyword_exact "가야의거리"
  exact ⟨(hsome "가야").mpr ⟨"의", "거리", reading_gaya⟩, fun _ _ _ h => hunique _ _ _ _ _ _ h reading_gaya⟩

end TravelMaker
