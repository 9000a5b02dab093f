import AgentRag.Retriever.DecayCurve
import AgentRag.Retriever.Determinism
import AgentRag.Retriever.Lifecycle

/-!
# The weighted fused score, one ID at a time

In weighted mode the merged record of an ID is its `weightedFusion`
(`findById_merge_weighted`): the static score times `StaticWeight` plus the
conversation record's `convWeightedScore`. Three consequences:

- **Monotonicity.** Raising one record's score, or moving a conversation
  record's timestamp later, raises its ID's fused score, leaves every other
  ID's alone, and so never adds a record ranked above it
  (`merge_weighted_monotone`). Weights and floor are non-negative because
  `Validate` accepted the config, and the multiplier grows with the
  timestamp because `math.Exp` is increasing.
- **Aging.** Merging the same lists later never raises a fused score and
  leaves the static-only ones alone (`merge_weighted_ages`): the age
  `currentTime.Sub(timestamp)` only grows, for past and future stamps alike.
- **The two conversation paths agree.** `SearchConversation` decays with
  the retriever's `temporalDecay`, the hybrid path with the merger's. In
  every reachable state the two are built from the same config
  (`AgentRAGRetriever.Consistent`), and `Apply` is linear in the score, so
  a conversation record's score from `SearchConversation`, times
  `ConversationWeight`, is its fused score in `Merge([], results, now)`
  (`searchConversation_scores_match_merge`).
-/

namespace AgentRag.Retriever

variable {F : Type} [LinearOrderedField F] {P : Platform F}

/-! ## The merged record of an ID -/

/-- `NewResultMerger` succeeds exactly on the valid configs, with the decay
the config asks for. -/
theorem newResultMerger_eq_ok {config : MergeConfig F} {rm : ResultMerger F} :
    newResultMerger config = .ok rm ↔ config.Valid ∧ rm = ⟨config, .ofConfig config⟩ := by
  rw [← MergeConfig.validate_eq_none, newResultMerger]
  cases config.validate <;> simp [TemporalDecay.ofConfig, eq_comm]

theorem weightedFusion_score (rm : ResultMerger F) (S C : List (SearchResult F)) (now : Time)
    (id : String) :
    (weightedFusion P rm S C now id).score =
      (findById S id).elim 0 (·.score * rm.config.staticWeight) +
        (findById C id).elim 0 (rm.convWeightedScore P now) := by
  unfold weightedFusion
  rcases findById S id <;> rcases findById C id <;> rfl

omit [LinearOrderedField F] in
theorem isSome_findById (l : List (SearchResult F)) (id : String) :
    (findById l id).isSome ↔ id ∈ ids l := by
  simp [findById, List.find?_isSome, ids]

section Merged

variable (hP : P.Lawful) (rm : ResultMerger F) (halg : ¬usesRRF rm.config.algorithm)
  {S C : List (SearchResult F)} (now : Time)
include hP halg

theorem ids_merge_weighted_nodup : (ids (rm.merge P S C now)).Nodup := by
  rw [ResultMerger.merge, if_neg halg, ResultMerger.mergeWeighted]
  exact (ScoreMaps.sortByScore_toResults hP _).1

variable (hS : (ids S).Nodup) (hC : (ids C).Nodup)
include hS hC

/-- In weighted mode, an ID of either list has its `weightedFusion` in the
merged list, and no other ID is there. -/
theorem findById_merge_weighted (id : String) :
    findById (rm.merge P S C now) id =
      if id ∈ ids S ∨ id ∈ ids C then some (weightedFusion P rm S C now id) else none := by
  rw [ResultMerger.merge, if_neg halg, ResultMerger.mergeWeighted]
  obtain ⟨hnd, hmem, hget, -⟩ := ScoreMaps.sortByScore_toResults hP (rm.weightedMaps P S C now)
  have hkeys : id ∈ (rm.weightedMaps P S C now).scoreMap ↔ id ∈ ids S ∨ id ∈ ids C :=
    ScoreMaps.mem_addAll_setAll _ _ S C
  split_ifs with h
  · obtain ⟨r, hr, rfl⟩ := List.mem_map.1 ((hmem _).2 (hkeys.2 h))
    rw [(findById_eq_some hnd).2 ⟨hr, rfl⟩]
    exact congrArg some ((hget r hr).trans
      (weightedMaps_get rm now hS hC ((hmem _).1 (List.mem_map_of_mem _ hr))))
  · refine List.find?_eq_none.2 fun r hr hid => h (hkeys.1 ((hmem _).1 ?_))
    rw [← beq_iff_eq.1 hid]
    exact List.mem_map_of_mem _ hr

theorem mem_ids_merge_weighted (id : String) :
    id ∈ ids (rm.merge P S C now) ↔ id ∈ ids S ∨ id ∈ ids C := by
  rw [← isSome_findById, findById_merge_weighted hP rm halg now hS hC]
  split_ifs with h <;> simp [h]

/-- The merged list is its own IDs, each read through `weightedFusion`. -/
theorem merge_weighted_eq_map :
    rm.merge P S C now = (ids (rm.merge P S C now)).map (weightedFusion P rm S C now) := by
  have hnd := ids_merge_weighted_nodup hP rm halg (S := S) (C := C) now
  conv_lhs => rw [← List.map_id (rm.merge P S C now)]
  rw [ids, List.map_map]
  refine List.map_congr_left fun r hr => ?_
  have h := findById_merge_weighted hP rm halg now hS hC r.id
  rw [(findById_eq_some hnd).2 ⟨hr, rfl⟩] at h
  split_ifs at h
  exact Option.some_injective _ h

end Merged

/-! ## One record raised -/

/-- The second timestamp is the first or later; a missing one stays
missing. -/
def laterStamp : Option Time → Option Time → Prop
  | none, none => True
  | some ts, some ts' => ts.unixNano ≤ ts'.unixNano
  | _, _ => False

/-- `x'` is `x` with its score raised, its timestamp moved later, or
both. -/
structure Raised (x x' : SearchResult F) : Prop where
  id_eq : x'.id = x.id
  score_le : x.score ≤ x'.score
  timestamp_le : laterStamp x.timestamp x'.timestamp

/-- The inputs of a second merge: the first's, with the record of ID `id`
raised in the static list or in the conversation list. -/
inductive OneRaised (id : String) : List (SearchResult F) → List (SearchResult F) →
    List (SearchResult F) → List (SearchResult F) → Prop
  | static {A B C : List (SearchResult F)} {x x' : SearchResult F} :
    x.id = id → Raised x x' → OneRaised id (A ++ x :: B) C (A ++ x' :: B) C
  | conv {S A B : List (SearchResult F)} {x x' : SearchResult F} :
    x.id = id → Raised x x' → OneRaised id S (A ++ x :: B) S (A ++ x' :: B)

section Splice

omit [LinearOrderedField F]

variable {A B : List (SearchResult F)} {x x' : SearchResult F}

theorem findById_splice_self (hl : (ids (A ++ x :: B)).Nodup) :
    findById (A ++ x :: B) x.id = some x :=
  (findById_eq_some hl).2 ⟨List.mem_append_right _ (List.mem_cons_self _ _), rfl⟩

variable (h : x'.id = x.id)
include h

theorem ids_splice : ids (A ++ x' :: B) = ids (A ++ x :: B) := by
  simp [ids, h]

theorem findById_splice {id : String} (hne : id ≠ x.id) :
    findById (A ++ x' :: B) id = findById (A ++ x :: B) id := by
  simp [findById, List.find?_append, List.find?_cons, h, Ne.symm hne]

end Splice

/-- A raised conversation record weighs at least as much, for a
non-negative weight and floor. -/
theorem ResultMerger.convWeightedScore_mono (hM : P.MathLaws) (rm : ResultMerger F)
    (hH : 0 < rm.temporalDecay.halfLifeMinutes) (hm : 0 ≤ rm.temporalDecay.minWeight)
    (hw : 0 ≤ rm.config.conversationWeight) (now : Time) {x x' : SearchResult F}
    (hx : 0 ≤ x.score) (h : Raised x x') :
    rm.convWeightedScore P now x ≤ rm.convWeightedScore P now x' := by
  have hsc := mul_le_mul_of_nonneg_right h.score_le hw
  have hts := h.timestamp_le
  unfold ResultMerger.convWeightedScore
  revert hts
  rcases x.timestamp with _ | ts <;> rcases x'.timestamp with _ | ts' <;> intro hts
  · exact hsc
  · exact False.elim hts
  · exact False.elim hts
  · exact rm.temporalDecay.apply_mono hM hH hm (mul_nonneg hx hw) hsc hts

namespace OneRaised

variable {id : String} {S C S' C' : List (SearchResult F)}

/-- Raising a record keeps both lists' IDs, and `id` is one of them. -/
theorem ids_eq (h : OneRaised id S C S' C') :
    ids S' = ids S ∧ ids C' = ids C ∧ (id ∈ ids S ∨ id ∈ ids C) := by
  have hmem {A B : List (SearchResult F)} {x : SearchResult F} (hx : x.id = id) :
      id ∈ ids (A ++ x :: B) :=
    hx ▸ List.mem_map_of_mem _ (List.mem_append_right _ (List.mem_cons_self _ _))
  cases h with
  | static hx h => exact ⟨ids_splice h.id_eq, rfl, .inl (hmem hx)⟩
  | conv hx h => exact ⟨rfl, ids_splice h.id_eq, .inr (hmem hx)⟩

/-- Every other ID fuses as before. -/
theorem weightedFusion_ne (h : OneRaised id S C S' C') (rm : ResultMerger F) (now : Time)
    {id' : String} (hne : id' ≠ id) :
    weightedFusion P rm S' C' now id' = weightedFusion P rm S C now id' := by
  cases h with
  | static hx h => rw [weightedFusion, findById_splice h.id_eq (hx ▸ hne)]; rfl
  | conv hx h => rw [weightedFusion, findById_splice h.id_eq (hx ▸ hne)]; rfl

/-- The raised ID fuses to at least its old score. -/
theorem weightedFusion_le (h : OneRaised id S C S' C') (hM : P.MathLaws) {rm : ResultMerger F}
    (hc : rm.config.Valid) (hd : rm.temporalDecay = .ofConfig rm.config) (now : Time)
    (hS : (ids S).Nodup) (hC : (ids C).Nodup) (hC0 : ∀ r ∈ C, 0 ≤ r.score) :
    (weightedFusion P rm S C now id).score ≤ (weightedFusion P rm S' C' now id).score := by
  obtain ⟨hSS, hCC, -⟩ := h.ids_eq
  rw [weightedFusion_score, weightedFusion_score]
  cases h with
  | static hx h =>
    subst hx
    rw [findById_splice_self hS, ← h.id_eq, findById_splice_self (hSS ▸ hS)]
    exact add_le_add_right (mul_le_mul_of_nonneg_right h.score_le hc.staticWeight_mem.1) _
  | conv hx h =>
    subst hx
    rw [findById_splice_self hC, ← h.id_eq, findById_splice_self (hCC ▸ hC)]
    exact add_le_add_left (rm.convWeightedScore_mono hM (by rw [hd]; exact hc.halfLife_pos)
      (by rw [hd]; exact hc.minTemporalWeight_mem.1) hc.conversationWeight_mem.1 now
      (hC0 _ (List.mem_append_right _ (List.mem_cons_self _ _))) h) _

end OneRaised

/-! ## Monotonicity of the weighted merge -/

/-- **Raising a record never hurts it.** For a config `Validate` accepts
with the weighted algorithm, and lists with distinct IDs and non-negative
scores: raising one record's score or moving its timestamp later raises the
fused score of its ID, leaves every other ID's fused score as it was, and
leaves no more records scored strictly above it. -/
theorem merge_weighted_monotone (hP : P.Lawful) (hM : P.MathLaws) {config : MergeConfig F}
    {rm : ResultMerger F} (hrm : newResultMerger config = .ok rm)
    (halg : ¬usesRRF config.algorithm) (now : Time) {id : String}
    {S C S' C' : List (SearchResult F)} (hvar : OneRaised id S C S' C') (hS : (ids S).Nodup)
    (hC : (ids C).Nodup) (hC0 : ∀ r ∈ C, 0 ≤ r.score) :
    ∃ y y', findById (rm.merge P S C now) id = some y ∧
      findById (rm.merge P S' C' now) id = some y' ∧ y.score ≤ y'.score ∧
      (∀ id', id' ≠ id → (findById (rm.merge P S' C' now) id').map (·.score) =
        (findById (rm.merge P S C now) id').map (·.score)) ∧
      (rm.merge P S' C' now).countP (fun z => y'.score < z.score) ≤
        (rm.merge P S C now).countP (fun z => y.score < z.score) := by
  obtain ⟨hc, hrm⟩ := newResultMerger_eq_ok.1 hrm
  have halg : ¬usesRRF rm.config.algorithm := by rw [hrm]; exact halg
  have hc : rm.config.Valid := by rw [hrm]; exact hc
  have hd : rm.temporalDecay = .ofConfig rm.config := by rw [hrm]
  obtain ⟨hSS, hCC, hid⟩ := hvar.ids_eq
  have hS' : (ids S').Nodup := hSS ▸ hS
  have hC' : (ids C').Nodup := hCC ▸ hC
  have hf := findById_merge_weighted hP _ halg now hS hC
  have hf' := findById_merge_weighted hP _ halg now hS' hC'
  have hperm : (ids (rm.merge P S' C' now)).Perm (ids (rm.merge P S C now)) :=
    (List.perm_ext_iff_of_nodup (ids_merge_weighted_nodup hP _ halg now)
      (ids_merge_weighted_nodup hP _ halg now)).2 fun i => by
      rw [mem_ids_merge_weighted hP _ halg now hS' hC', mem_ids_merge_weighted hP _ halg now hS hC,
        hSS, hCC]
  refine ⟨_, _, (hf id).trans (if_pos hid), (hf' id).trans (if_pos (hSS ▸ hCC ▸ hid)),
    hvar.weightedFusion_le hM hc hd now hS hC hC0, fun id' hne => ?_, ?_⟩
  · rw [hf, hf', hSS, hCC, hvar.weightedFusion_ne _ now hne]
  · rw [merge_weighted_eq_map hP _ halg now hS' hC', merge_weighted_eq_map hP _ halg now hS hC,
      List.countP_map, List.countP_map, hperm.countP_eq]
    refine List.countP_mono_left fun i _ hi => ?_
    simp only [Function.comp_apply, decide_eq_true_eq] at hi ⊢
    by_cases hne : i = id
    · subst hne
      exact absurd hi (lt_irrefl _)
    · rw [hvar.weightedFusion_ne _ now hne] at hi
      exact lt_of_le_of_lt (hvar.weightedFusion_le hM hc hd now hS hC hC0) hi

/-- A conversation turn stamped a minute later, at the default config, next
to a static record. -/
theorem merge_weighted_monotone_later_turn :
    let P := Platform.ofMath Real.exp Real.log (Real.log 2)
    let rm : ResultMerger ℝ := ⟨defaultMergeConfig, .ofConfig defaultMergeConfig⟩
    let S : List (SearchResult ℝ) := [⟨"kb-1", "", 0.9, "", [], sourceStatic, none⟩]
    let x : SearchResult ℝ := ⟨"turn-1", "", 0.8, "", [], sourceConversation, some ⟨0⟩⟩
    let x' : SearchResult ℝ := { x with timestamp := some ⟨60000000000⟩ }
    P.Lawful ∧ P.MathLaws ∧ newResultMerger defaultMergeConfig = .ok rm ∧
      ¬usesRRF (defaultMergeConfig : MergeConfig ℝ).algorithm ∧ OneRaised "turn-1" S [x] S [x'] ∧
      (ids S).Nodup ∧ (ids [x]).Nodup ∧ (∀ r ∈ [x], 0 ≤ r.score) ∧
      ∃ y y', findById (rm.merge P S [x] ⟨1800000000000⟩) "turn-1" = some y ∧
        findById (rm.merge P S [x'] ⟨1800000000000⟩) "turn-1" = some y' ∧ y.score ≤ y'.score ∧
        (∀ id', id' ≠ "turn-1" →
          (findById (rm.merge P S [x'] ⟨1800000000000⟩) id').map (·.score) =
            (findById (rm.merge P S [x] ⟨1800000000000⟩) id').map (·.score)) ∧
        (rm.merge P S [x'] ⟨1800000000000⟩).countP (fun z => y'.score < z.score) ≤
          (rm.merge P S [x] ⟨1800000000000⟩).countP (fun z => y.score < z.score) := by
  intro P rm S x x'
  have hrm : newResultMerger defaultMergeConfig = .ok rm :=
    newResultMerger_eq_ok.2 ⟨defaultMergeConfig_valid, rfl⟩
  have hvar : OneRaised "turn-1" S [x] S [x'] :=
    .conv (A := []) (B := []) rfl ⟨rfl, le_rfl, show (0 : Int) ≤ 60000000000 by decide⟩
  have hx : ∀ r ∈ [x], 0 ≤ r.score := by simp [x]; norm_num
  exact ⟨Platform.ofMath_lawful _ _ _, Platform.ofMath_mathLaws, hrm, by decide, hvar, by decide,
    by decide, hx, merge_weighted_monotone (Platform.ofMath_lawful _ _ _) Platform.ofMath_mathLaws
      hrm (by decide) _ hvar (by decide) (by decide) hx⟩

/-! ## Aging -/

/-- A conversation record weighs no more at a later reference time, for a
non-negative score and weight. -/
theorem ResultMerger.convWeightedScore_anti (hM : P.MathLaws) (rm : ResultMerger F)
    (hH : 0 < rm.temporalDecay.halfLifeMinutes) (hw : 0 ≤ rm.config.conversationWeight)
    {now now' : Time} (h : now.unixNano ≤ now'.unixNano) {x : SearchResult F} (hx : 0 ≤ x.score) :
    rm.convWeightedScore P now' x ≤ rm.convWeightedScore P now x := by
  unfold ResultMerger.convWeightedScore
  rcases x.timestamp with _ | ts
  · exact le_rfl
  · exact rm.temporalDecay.apply_anti hM hH (mul_nonneg hx hw) h

/-- **Scores only age.** For a config `Validate` accepts with the weighted
algorithm, and lists with distinct IDs and non-negative conversation scores,
merging at a later time returns the same IDs, no record with a higher fused
score, and the records of IDs that only the static list holds with the same
score. -/
theorem merge_weighted_ages (hP : P.Lawful) (hM : P.MathLaws) {config : MergeConfig F}
    {rm : ResultMerger F} (hrm : newResultMerger config = .ok rm)
    (halg : ¬usesRRF config.algorithm) {S C : List (SearchResult F)} (hS : (ids S).Nodup)
    (hC : (ids C).Nodup) (hC0 : ∀ r ∈ C, 0 ≤ r.score) {now now' : Time}
    (hnow : now.unixNano ≤ now'.unixNano) :
    (∀ id, id ∈ ids (rm.merge P S C now') ↔ id ∈ ids (rm.merge P S C now)) ∧
      ∀ id y y', findById (rm.merge P S C now) id = some y →
        findById (rm.merge P S C now') id = some y' →
          y'.score ≤ y.score ∧ (id ∉ ids C → y'.score = y.score) := by
  obtain ⟨hc, hrm⟩ := newResultMerger_eq_ok.1 hrm
  have halg : ¬usesRRF rm.config.algorithm := by rw [hrm]; exact halg
  have hc : rm.config.Valid := by rw [hrm]; exact hc
  have hd : rm.temporalDecay = .ofConfig rm.config := by rw [hrm]
  have hH : 0 < rm.temporalDecay.halfLifeMinutes := by rw [hd]; exact hc.halfLife_pos
  refine ⟨fun id => by rw [mem_ids_merge_weighted hP _ halg now' hS hC,
    mem_ids_merge_weighted hP _ halg now hS hC], fun id y y' hy hy' => ?_⟩
  rw [findById_merge_weighted hP _ halg now hS hC] at hy
  rw [findById_merge_weighted hP _ halg now' hS hC] at hy'
  split_ifs at hy hy'
  cases hy
  cases hy'
  rw [weightedFusion_score, weightedFusion_score]
  refine ⟨add_le_add_left ?_ _, fun hnc => ?_⟩
  · rcases hx : findById C id with _ | x
    · exact le_rfl
    · exact rm.convWeightedScore_anti hM hH hc.conversationWeight_mem.1 hnow
        (hC0 x (List.mem_of_find?_eq_some hx))
  · have hnone : findById C id = none :=
      Option.not_isSome_iff_eq_none.1 fun h => hnc ((isSome_findById C id).1 h)
    rw [hnone]
    rfl

/-- An hour later, a half-hour-old turn next to a static record, at the
default config. -/
theorem merge_weighted_ages_hour :
    let P := Platform.ofMath Real.exp Real.log (Real.log 2)
    let rm : ResultMerger ℝ := ⟨defaultMergeConfig, .ofConfig defaultMergeConfig⟩
    let S : List (SearchResult ℝ) := [⟨"kb-1", "", 0.9, "", [], sourceStatic, none⟩]
    let C : List (SearchResult ℝ) := [⟨"turn-1", "", 0.8, "", [], sourceConversation, some ⟨0⟩⟩]
    P.Lawful ∧ P.MathLaws ∧ newResultMerger defaultMergeConfig = .ok rm ∧
      ¬usesRRF (defaultMergeConfig : MergeConfig ℝ).algorithm ∧ (ids S).Nodup ∧ (ids C).Nodup ∧
      (∀ r ∈ C, 0 ≤ r.score) ∧ (Time.mk 1800000000000).unixNano ≤ (Time.mk 5400000000000).unixNano ∧
      (∀ id, id ∈ ids (rm.merge P S C ⟨5400000000000⟩) ↔
        id ∈ ids (rm.merge P S C ⟨1800000000000⟩)) ∧
      ∀ id y y', findById (rm.merge P S C ⟨1800000000000⟩) id = some y →
        findById (rm.merge P S C ⟨5400000000000⟩) id = some y' →
          y'.score ≤ y.score ∧ (id ∉ ids C → y'.score = y.score) := by
  intro P rm S C
  have hrm : newResultMerger defaultMergeConfig = .ok rm :=
    newResultMerger_eq_ok.2 ⟨defaultMergeConfig_valid, rfl⟩
  have hC : ∀ r ∈ C, 0 ≤ r.score := by simp [C]; norm_num
  exact ⟨Platform.ofMath_lawful _ _ _, Platform.ofMath_mathLaws, hrm, by decide, by decide,
    by decide, hC, by decide, merge_weighted_ages (Platform.ofMath_lawful _ _ _)
      Platform.ofMath_mathLaws hrm (by decide) (by decide) (by decide) hC (by decide)⟩

/-! ## `SearchConversation` against the hybrid path -/

/-- On a conversation record, `mergeWeighted`'s weighted score is the score
`ApplyToResults` gives it, times `ConversationWeight`. -/
theorem ResultMerger.convWeightedScore_eq (rm : ResultMerger F) (now : Time) {c : SearchResult F}
    (hc : c.source = sourceConversation) :
    rm.convWeightedScore P now c =
      (rm.temporalDecay.decayResult P now c).score * rm.config.conversationWeight := by
  unfold ResultMerger.convWeightedScore TemporalDecay.decayResult
  cases c.timestamp <;> simp [hc, TemporalDecay.apply_mul_right]

/-- `SearchConversation` on an open retriever answers what the client's
search returned, decayed by the retriever's own `TemporalDecay`. -/
theorem AgentRAGRetriever.searchConversation_of_open (r : AgentRAGRetriever F)
    (hopen : r.closed = false) (query : Query) (ex : Exchange (GraphQLResponse F)) (now : Time) :
    (r.searchConversation P query ex now).1 =
      (r.client.searchConversation ex).map (r.temporalDecay.applyToResults P · now) := by
  simp [AgentRAGRetriever.searchConversation, hopen]

/-- **`SearchConversation` and the hybrid path agree.** In every state
reachable without `Close`, with the weighted algorithm, when the client's
conversation search returns records with distinct IDs, `SearchConversation`
answers them decayed, and each score it answers, times
`ConversationWeight`, is the fused score of the same ID in
`Merge([], results, now)`. -/
theorem searchConversation_scores_match_merge (hP : P.Lawful) {host apiKey : String}
    {mc : Option (MergeConfig F)} {ic : Option IndexConfig} {r : AgentRAGRetriever F}
    (hnew : newAgentRAGRetriever host apiKey mc ic = .ok r) (ops : List (Op F))
    (hopen : ops.any Op.isClose = false) (halg : ¬usesRRF (r.after P ops).config.algorithm)
    (query : Query) (ex : Exchange (GraphQLResponse F)) (now : Time)
    (results : List (SearchResult F)) (hres : r.client.searchConversation ex = .ok results)
    (hids : (ids results).Nodup) (hsrc : ∀ c ∈ results, c.source = sourceConversation) :
    ((r.after P ops).searchConversation P query ex now).1 =
        .ok ((r.after P ops).temporalDecay.applyToResults P results now) ∧
      ∀ x ∈ (r.after P ops).temporalDecay.applyToResults P results now,
        (findById ((r.after P ops).merger.merge P [] results now) x.id).map (·.score) =
          some (x.score * (r.after P ops).config.conversationWeight) := by
  obtain ⟨hcons, hfresh⟩ := newAgentRAGRetriever_consistent hnew
  obtain ⟨-, hmc, hmd, hd⟩ := hcons.after P ops
  have hclosed : (r.after P ops).closed = false := by
    rw [r.after_closed, hfresh, hopen, Bool.false_or]
  refine ⟨by rw [(r.after P ops).searchConversation_of_open hclosed, r.after_client, hres]; rfl,
    fun x hx => ?_⟩
  obtain ⟨c, hc, rfl⟩ := List.mem_map.1 hx
  rw [TemporalDecay.decayResult_id, findById_merge_weighted hP _ (by rw [hmc]; exact halg) now
      (S := []) (by simp) hids, if_pos (.inr (List.mem_map_of_mem _ hc)), Option.map_some',
    weightedFusion_score, (findById_eq_some hids).2 ⟨hc, rfl⟩]
  simp [findById, ResultMerger.convWeightedScore_eq _ now (hsrc c hc), hmc, hmd, hd]

/-- A fresh retriever at the defaults, on one conversation turn as the
server returns it, a minute after its stamp. -/
theorem searchConversation_scores_match_merge_fresh :
    ∃ r : AgentRAGRetriever ℚ, newAgentRAGRetriever "http://localhost:8080" "" none none = .ok r ∧
      let P := Platform.ofMath (id : ℚ → ℚ) id 1
      let ex : Exchange (GraphQLResponse ℚ) := .body ⟨[("Get", .object [("Conversation",
        .array [.object [("_additional", .object [("id", .string "turn-1"), ("score", .number 0.8)]),
          ("message", .string "hi"), ("timestamp", .string "1970-01-01T00:00:00Z")]])])], []⟩
      let results : List (SearchResult ℚ) := [⟨"turn-1", "turn-1", 0.8, "hi",
        [("timestamp", .string "1970-01-01T00:00:00Z")], sourceConversation, some ⟨0⟩⟩]
      P.Lawful ∧ ([] : List (Op ℚ)).any Op.isClose = false ∧
      ¬usesRRF (r.after P []).config.algorithm ∧ r.client.searchConversation ex = .ok results ∧
      (ids results).Nodup ∧ (∀ c ∈ results, c.source = sourceConversation) ∧
      (((r.after P []).searchConversation P ⟨"hello", [], 10, none⟩ ex ⟨60000000000⟩).1 =
          .ok ((r.after P []).temporalDecay.applyToResults P results ⟨60000000000⟩) ∧
        ∀ x ∈ (r.after P []).temporalDecay.applyToResults P results ⟨60000000000⟩,
          (findById ((r.after P []).merger.merge P [] results ⟨60000000000⟩) x.id).map (·.score) =
            some (x.score * (r.after P []).config.conversationWeight)) :=
  ⟨_, newAgentRAGRetriever_defaults _ _, Platform.ofMath_lawful _ _ _, rfl, by decide, rfl,
    by decide, by simp,
    searchConversation_scores_match_merge (Platform.ofMath_lawful _ _ _)
      (newAgentRAGRetriever_defaults _ _) [] rfl (by decide) _ _ _ _ rfl (by decide) (by simp)⟩

end AgentRag.Retriever
