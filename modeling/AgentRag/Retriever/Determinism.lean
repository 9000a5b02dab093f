import AgentRag.Retriever.MergeSpec

/-!
# How far `Merge` is a function of its inputs

Both merges end with `for id, score := range scoreMap` and an unstable
`sort.Slice`. Go randomises the first on every run, and the second may leave
equal scores in either order, so two runs on the same inputs can return the
same records in different orders: `merge_order_depends_on_range` shows two
static records of equal score coming back as `[b, a]` under one visiting
order and `[a, b]` under the other, with the same stable sort.

What does hold is `SameUpToTies`: the two lists are permutations of each
other with the same sequence of scores, so every cut to the first `n`
records (what `SearchHybrid` does with `Query.Limit`) keeps the same scores.
`merge_same_up_to_ties` proves it

- in weighted mode, for any two runs, even on permuted input lists: the maps
  the two loops build hold the same entries (`weightedMaps_entry` is
  rank-free), and the sorted `range` over maps with equal entries is the same
  up to ties (`ScoreMaps.sameUpToTies_of_entry`);
- in RRF mode, when `RRFK > 0` and the decayed conversation scores are
  pairwise distinct: then `sort.Slice` has only one way to order the
  decayed list, so both runs rank the conversation records alike and build
  the same maps. When two decayed scores tie, the run decides which of the
  two records gets the better rank, and so the fused scores themselves.
  With `RRFK ≤ 0` a rank divides by zero, and a zero weight makes its score
  NaN, which `sort.Slice` cannot place.
-/

namespace AgentRag.Retriever

variable {F : Type}

/-- On distinct IDs, the record with a given ID is the one member with it. -/
theorem findById_eq_some {l : List (SearchResult F)} (hl : (ids l).Nodup) {id : String}
    {r : SearchResult F} : findById l id = some r ↔ r ∈ l ∧ r.id = id := by
  unfold findById
  constructor
  · intro h
    exact ⟨List.mem_of_find?_eq_some h, by simpa using List.find?_some h⟩
  · rintro ⟨hr, rfl⟩
    obtain ⟨r', hr'⟩ := Option.isSome_iff_exists.1
      (List.find?_isSome.2 ⟨r, hr, beq_self_eq_true r.id⟩ : (l.find? (·.id == r.id)).isSome)
    have hid : r'.id = r.id := by simpa using List.find?_some hr'
    rw [hr', List.inj_on_of_nodup_map hl (List.mem_of_find?_eq_some hr') hr hid]

theorem findById_perm {l l' : List (SearchResult F)} (hl : (ids l).Nodup) (hp : l'.Perm l)
    (id : String) : findById l' id = findById l id := by
  have hl' : (ids l').Nodup := (hp.map _).nodup_iff.2 hl
  refine Option.ext fun r => ?_
  rw [Option.mem_def, Option.mem_def, findById_eq_some hl', findById_eq_some hl, hp.mem_iff]

/-- Two merged lists that differ at most in where records of equal score sit. -/
structure SameUpToTies (l₁ l₂ : List (SearchResult F)) : Prop where
  perm : l₁.Perm l₂
  scores : l₁.map (·.score) = l₂.map (·.score)

/-- Cutting both lists to their first `n` records keeps the same scores. -/
theorem SameUpToTies.take_scores {l₁ l₂ : List (SearchResult F)} (h : SameUpToTies l₁ l₂)
    (n : Nat) : (l₁.take n).map (·.score) = (l₂.take n).map (·.score) := by
  rw [List.map_take, List.map_take, h.scores]

variable [LinearOrderedField F]

/-- Two permutations of each other, both sorted by score, descending, carry
the same score sequence. -/
theorem scores_eq_of_perm_of_sorted {l₁ l₂ : List (SearchResult F)} (hp : l₁.Perm l₂)
    (h₁ : l₁.Sorted scoreGe) (h₂ : l₂.Sorted scoreGe) :
    l₁.map (·.score) = l₂.map (·.score) :=
  List.eq_of_perm_of_sorted (r := (· ≥ ·)) (hp.map _) (h₁.map _ fun _ _ h => h)
    (h₂.map _ fun _ _ h => h)

/-- Sorted by score with no two scores equal, a list is the only sorted
permutation of itself. -/
theorem eq_of_perm_of_sorted_of_nodup_scores {l₁ l₂ : List (SearchResult F)}
    (hp : l₁.Perm l₂) (h₁ : l₁.Sorted scoreGe) (h₂ : l₂.Sorted scoreGe)
    (hn : (l₁.map (·.score)).Nodup) : l₁ = l₂ := by
  let gt : SearchResult F → SearchResult F → Prop := fun a b => b.score < a.score
  haveI : IsAntisymm (SearchResult F) gt := ⟨fun _ _ hab hba => absurd (hab.trans hba) (lt_irrefl _)⟩
  have strict : ∀ {l : List (SearchResult F)}, l.Sorted scoreGe → (l.map (·.score)).Nodup →
      l.Sorted gt := fun hs hn =>
    (hs.and (List.pairwise_map.1 hn)).imp fun h => lt_of_le_of_ne h.1 (Ne.symm h.2)
  exact List.eq_of_perm_of_sorted hp (strict h₁ hn) (strict h₂ ((hp.map _).nodup_iff.1 hn))

/-! ## Maps with equal entries -/

/-- Under any two lawful platforms, the sorted `range` over two maps that
hold the same entries gives the same list up to ties. -/
theorem ScoreMaps.sameUpToTies_of_entry {P₁ P₂ : Platform F} (h₁ : P₁.Lawful) (h₂ : P₂.Lawful)
    {m₁ m₂ : ScoreMaps F} (h : ∀ id, m₁.entry id = m₂.entry id) :
    SameUpToTies (P₁.sortByScore (m₁.toResults P₁)) (P₂.sortByScore (m₂.toResults P₂)) := by
  have hkeys : m₁.scoreMap.keys.Perm m₂.scoreMap.keys :=
    (List.perm_ext_iff_of_nodup m₁.scoreMap.keys_nodup m₂.scoreMap.keys_nodup).2 fun id => by
      rw [← AList.mem_keys, ← AList.mem_keys, ← AList.lookup_isSome, ← AList.lookup_isSome]
      exact Iff.of_eq (congrArg (fun o => o.isSome = true) (congrArg Prod.fst (h id)))
  have hperm : (P₁.sortByScore (m₁.toResults P₁)).Perm (P₂.sortByScore (m₂.toResults P₂)) := by
    refine (h₁.sort_perm _).trans (((h₁.range_perm _).map _).trans ?_)
    refine (List.map_congr_left fun id _ => get_eq_of_entry h id) ▸ ?_
    exact (hkeys.map _).trans (((h₂.range_perm _).map _).symm.trans (h₂.sort_perm _).symm)
  exact ⟨hperm, scores_eq_of_perm_of_sorted hperm (h₁.sort_sorted _) (h₂.sort_sorted _)⟩

/-! ## Inputs that agree -/

theorem TemporalDecay.apply_congr {P Q : Platform F} (hexp : P.exp = Q.exp) (hln2 : P.ln2 = Q.ln2)
    (td : TemporalDecay F) : td.apply P = td.apply Q := by
  funext score ts now
  simp only [TemporalDecay.apply, hexp, hln2]

theorem TemporalDecay.applyToResults_congr {P Q : Platform F} (hexp : P.exp = Q.exp)
    (hln2 : P.ln2 = Q.ln2) (td : TemporalDecay F) : td.applyToResults P = td.applyToResults Q := by
  have h : td.decayResult P = td.decayResult Q := by
    funext now r
    simp only [TemporalDecay.decayResult, td.apply_congr hexp hln2]
  funext results now
  simp only [TemporalDecay.applyToResults, h]

/-! ## The theorem -/

/-- **`Merge` is deterministic up to ties.** Two runs (two lawful platforms
with the same `math` functions) on lists with distinct IDs return the same
records up to the order of equal scores: in weighted mode always, even when
either input list is permuted; in RRF mode when `RRFK > 0` and the decayed
conversation scores are pairwise distinct. -/
theorem merge_same_up_to_ties {P₁ P₂ : Platform F} (h₁ : P₁.Lawful) (h₂ : P₂.Lawful)
    (hexp : P₁.exp = P₂.exp) (hln2 : P₁.ln2 = P₂.ln2) (rm : ResultMerger F) (now : Time)
    {S C : List (SearchResult F)} (hS : (ids S).Nodup) (hC : (ids C).Nodup) :
    (¬usesRRF rm.config.algorithm → ∀ S' C' : List (SearchResult F), S'.Perm S → C'.Perm C →
      SameUpToTies (rm.merge P₁ S C now) (rm.merge P₂ S' C' now)) ∧
    (usesRRF rm.config.algorithm → 0 < rm.config.rrfK →
      ((rm.temporalDecay.applyToResults P₁ C now).map (·.score)).Nodup →
      SameUpToTies (rm.merge P₁ S C now) (rm.merge P₂ S C now)) := by
  constructor
  · intro halg S' C' hS' hC'
    simp only [ResultMerger.merge, if_neg halg, ResultMerger.mergeWeighted]
    refine ScoreMaps.sameUpToTies_of_entry h₁ h₂ fun id => ?_
    have hconv : rm.convWeightedScore P₁ now = rm.convWeightedScore P₂ now := by
      funext r
      simp only [ResultMerger.convWeightedScore, rm.temporalDecay.apply_congr hexp hln2]
    rw [weightedMaps_entry rm now hS hC, weightedMaps_entry rm now ((hS'.map _).nodup_iff.2 hS)
      ((hC'.map _).nodup_iff.2 hC), findById_perm hS hS', findById_perm hC hC', hconv]
  · intro halg _ hn
    simp only [ResultMerger.merge, if_pos halg, ResultMerger.mergeRRF]
    rw [← rm.temporalDecay.applyToResults_congr hexp hln2]
    have hD : P₁.sortByScore (rm.temporalDecay.applyToResults P₁ C now) =
        P₂.sortByScore (rm.temporalDecay.applyToResults P₁ C now) :=
      eq_of_perm_of_sorted_of_nodup_scores ((h₁.sort_perm _).trans (h₂.sort_perm _).symm)
        (h₁.sort_sorted _) (h₂.sort_sorted _) ((((h₁.sort_perm _).map _).nodup_iff).2 hn)
    rw [hD]
    exact ScoreMaps.sameUpToTies_of_entry h₁ h₂ fun _ => rfl

/-- Both modes, on two runs that differ in their `range` order: the
static lists of `merge_order_depends_on_range` at the default config, and at the RRF config
with `k = 60` two static records and two unstamped conversation turns of
distinct scores, one of them sharing an ID with a static record. -/
theorem merge_same_up_to_ties_default :
    let P₁ := Platform.ofMath (F := ℚ) (fun x => x) (fun x => x) 1
    let P₂ : Platform ℚ := { P₁ with rangeOrder := List.reverse }
    let rm : ResultMerger ℚ := ⟨defaultMergeConfig, .ofConfig defaultMergeConfig⟩
    let c : MergeConfig ℚ := { defaultMergeConfig with algorithm := "rrf" }
    let rrf : ResultMerger ℚ := ⟨c, .ofConfig c⟩
    let S : List (SearchResult ℚ) :=
      [⟨"a", "", 1, "", [], sourceStatic, none⟩, ⟨"b", "", 1, "", [], sourceStatic, none⟩]
    let C : List (SearchResult ℚ) := [⟨"c", "", 0.5, "", [], sourceConversation, none⟩,
      ⟨"a", "", 0.9, "", [], sourceConversation, none⟩]
    P₁.Lawful ∧ P₂.Lawful ∧ P₁.exp = P₂.exp ∧ P₁.ln2 = P₂.ln2 ∧ (ids S).Nodup ∧
      (ids ([] : List (SearchResult ℚ))).Nodup ∧ (ids C).Nodup ∧
    ((¬usesRRF rm.config.algorithm → ∀ S' C' : List (SearchResult ℚ), S'.Perm S → C'.Perm [] →
      SameUpToTies (rm.merge P₁ S [] ⟨0⟩) (rm.merge P₂ S' C' ⟨0⟩)) ∧
    (usesRRF rm.config.algorithm → 0 < rm.config.rrfK →
      ((rm.temporalDecay.applyToResults P₁ [] ⟨0⟩).map (·.score)).Nodup →
      SameUpToTies (rm.merge P₁ S [] ⟨0⟩) (rm.merge P₂ S [] ⟨0⟩))) ∧
    usesRRF rrf.config.algorithm ∧ 0 < rrf.config.rrfK ∧
      ((rrf.temporalDecay.applyToResults P₁ C ⟨0⟩).map (·.score)).Nodup ∧
    ((¬usesRRF rrf.config.algorithm → ∀ S' C' : List (SearchResult ℚ), S'.Perm S → C'.Perm C →
      SameUpToTies (rrf.merge P₁ S C ⟨0⟩) (rrf.merge P₂ S' C' ⟨0⟩)) ∧
    (usesRRF rrf.config.algorithm → 0 < rrf.config.rrfK →
      ((rrf.temporalDecay.applyToResults P₁ C ⟨0⟩).map (·.score)).Nodup →
      SameUpToTies (rrf.merge P₁ S C ⟨0⟩) (rrf.merge P₂ S C ⟨0⟩))) :=
  have h₁ := Platform.ofMath_lawful (F := ℚ) (fun x => x) (fun x => x) 1
  have h₂ : ({ Platform.ofMath (F := ℚ) (fun x => x) (fun x => x) 1 with
      rangeOrder := List.reverse } : Platform ℚ).Lawful :=
    ⟨fun _ => List.reverse_perm _, h₁.sort_perm, h₁.sort_sorted⟩
  ⟨h₁, h₂, rfl, rfl, by decide, by decide, by decide,
    merge_same_up_to_ties h₁ h₂ rfl rfl _ _ (by decide) (by decide), by decide, by decide,
    by norm_num [TemporalDecay.applyToResults, TemporalDecay.decayResult],
    merge_same_up_to_ties h₁ h₂ rfl rfl _ _ (by decide) (by decide)⟩

/-! ## Two runs that disagree -/

/-- **The order depends on the run.** Two static records with equal scores, merged at the
default config by two lawful platforms that differ only in the order `range`
visits `scoreMap`, come back in opposite orders. -/
theorem merge_order_depends_on_range :
    let P₁ := Platform.ofMath (F := ℚ) (fun x => x) (fun x => x) 1
    let P₂ : Platform ℚ := { P₁ with rangeOrder := List.reverse }
    let rm : ResultMerger ℚ := ⟨defaultMergeConfig, .ofConfig defaultMergeConfig⟩
    let S : List (SearchResult ℚ) :=
      [⟨"a", "", 1, "", [], sourceStatic, none⟩, ⟨"b", "", 1, "", [], sourceStatic, none⟩]
    P₁.Lawful ∧ P₂.Lawful ∧ ids (rm.merge P₁ S [] ⟨0⟩) = ["b", "a"] ∧
      ids (rm.merge P₂ S [] ⟨0⟩) = ["a", "b"] := by
  intro P₁ P₂ rm S
  have hkeys : (rm.weightedMaps P₁ S [] ⟨0⟩).scoreMap.keys = ["b", "a"] := by decide
  have htie : ((rm.weightedMaps P₁ S [] ⟨0⟩).get "a").score =
      ((rm.weightedMaps P₁ S [] ⟨0⟩).get "b").score := rfl
  have hsort : ∀ x y : SearchResult ℚ, x.score = y.score →
      List.insertionSort scoreGe [x, y] = [x, y] := fun x y h =>
    List.Sorted.insertionSort_eq (List.sorted_cons.2 ⟨by simp [scoreGe, h], List.sorted_singleton _⟩)
  refine ⟨Platform.ofMath_lawful _ _ _,
    ⟨fun _ => List.reverse_perm _, List.perm_insertionSort _, List.sorted_insertionSort _⟩, ?_, ?_⟩
  · show ids (List.insertionSort scoreGe ((rm.weightedMaps P₁ S [] ⟨0⟩).toResults P₁)) = _
    rw [ScoreMaps.toResults, show P₁.rangeOrder = id from rfl, hkeys]
    show ids (List.insertionSort scoreGe [_, _]) = _
    rw [hsort _ _ htie.symm]
    rfl
  · show ids (List.insertionSort scoreGe ((rm.weightedMaps P₁ S [] ⟨0⟩).toResults P₂)) = _
    rw [ScoreMaps.toResults, show P₂.rangeOrder = List.reverse from rfl, hkeys]
    show ids (List.insertionSort scoreGe [_, _]) = _
    rw [hsort _ _ htie]
    rfl

end AgentRag.Retriever
