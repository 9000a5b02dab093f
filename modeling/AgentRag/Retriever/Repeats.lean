import AgentRag.Retriever.MergeSpec

/-!
# `Merge` on lists that repeat an ID

Nothing in `Merge` or its callers keeps an ID from occurring twice in one
list: a list is whatever Weaviate returned. The two loops of both merges
treat a repeated ID differently:

- the static loop writes `scoreMap[ID]` and `resultMap[ID]`, so the last
  static record with an ID wins, with its own position;
- the conversation loop adds to a stored score, so every conversation
  record with an ID counts, and the record kept is the one stored first:
  the static one, else the first conversation record.

`lastRank` is the last position and record of an ID in a list, and
`rankSum` sums a per-position score over the records with an ID.
`entry_setAll` and `entry_addAll` are the loop lemmas of `Merger` without
their distinct-IDs hypothesis. The main results read both merges off them
for any two lists (`merge_weighted_repeats`, `merge_rrf_repeats`); on lists
with distinct IDs the per-ID values are those of `MergeSpec`
(`weightedFusionAll_eq_weightedFusion`).
-/

namespace AgentRag.Retriever

variable {F : Type}

/-! ## Positions -/

/-- The last record of `results` whose ID is `id`, with its position. -/
def lastRank : List (SearchResult F) → String → Option (Nat × SearchResult F)
  | [], _ => none
  | r :: rs, id =>
    match lastRank rs id with
    | some (i, x) => some (i + 1, x)
    | none => if r.id = id then some (0, r) else none

theorem lastRank_eq_none {l : List (SearchResult F)} {id : String} :
    lastRank l id = none ↔ id ∉ ids l := by
  induction l with
  | nil => simp [lastRank]
  | cons r rs ih =>
    unfold lastRank
    rcases h : lastRank rs id with _ | ⟨i, x⟩
    · by_cases hr : r.id = id
      · simp [hr, ih.1 h]
      · simp [hr, ih.1 h, Ne.symm hr]
    · have hmem : id ∈ ids rs := by_contra fun hn => by simp [ih.2 hn] at h
      simp [hmem]

/-- On distinct IDs the last record of an ID is its only one. -/
theorem lastRank_eq_rankOf {l : List (SearchResult F)} (hl : (ids l).Nodup) (id : String) :
    lastRank l id = rankOf l id := by
  induction l with
  | nil => rfl
  | cons r rs ih =>
    rw [ids_cons, List.nodup_cons] at hl
    unfold lastRank rankOf
    by_cases hr : r.id = id
    · subst hr
      rw [lastRank_eq_none.2 hl.1, if_pos rfl, if_pos rfl]
    · rw [ih hl.2]
      rcases rankOf rs id with _ | ⟨i, x⟩ <;> simp [hr]

variable [LinearOrderedField F]

/-- `Σ score (n + i) r` over the positions `i` of the records `r` of
`results` whose ID is `id`. -/
def rankSum (score : Nat → SearchResult F → F) : List (SearchResult F) → Nat → String → F
  | [], _, _ => 0
  | r :: rs, n, id => (if r.id = id then score n r else 0) + rankSum score rs (n + 1) id

theorem rankSum_eq_zero (score : Nat → SearchResult F → F) {l : List (SearchResult F)}
    {id : String} (h : id ∉ ids l) (n : Nat) : rankSum score l n id = 0 := by
  induction l generalizing n with
  | nil => rfl
  | cons r rs ih =>
    simp only [ids_cons, List.mem_cons, not_or] at h
    rw [rankSum, if_neg (Ne.symm h.1), ih h.2, zero_add]

/-- A score that ignores the position sums over the records with the ID. -/
theorem rankSum_const (g : SearchResult F → F) (l : List (SearchResult F)) (n : Nat)
    (id : String) : rankSum (fun _ r => g r) l n id = ((l.filter (·.id == id)).map g).sum := by
  induction l generalizing n with
  | nil => rfl
  | cons r rs ih =>
    by_cases hr : r.id = id
    · simp [rankSum, hr, ih]
    · simp [rankSum, hr, ih]

/-! ## The two loops on any list -/

namespace ScoreMaps

omit [LinearOrderedField F] in
theorem entry_empty (id : String) : (empty : ScoreMaps F).entry id = (none, none) := rfl

omit [LinearOrderedField F] in
/-- The static loop on any list: the last record with the ID wins, at its
own rank; a missing ID is untouched. -/
theorem entry_setAll (f : Nat → SearchResult F → F) (l : List (SearchResult F)) (n : Nat)
    (m : ScoreMaps F) (id : String) :
    (setAll f l n m).entry id =
      match lastRank l id with
      | some (i, r) => (some (f (n + i) r), some r)
      | none => m.entry id := by
  induction l generalizing n m with
  | nil => rfl
  | cons x xs ih =>
    rw [setAll, ih, lastRank]
    rcases lastRank xs id with _ | ⟨i, r⟩
    · by_cases hx : x.id = id
      · subst hx
        simp only [if_true, entry_set_self, Nat.add_zero]
      · simp only [hx, if_false, entry_set_ne _ _ _ (Ne.symm hx)]
    · dsimp only
      rw [Nat.add_right_comm, Nat.add_assoc]

/-- The conversation loop on any list: an ID of the list gets the sum of
its records' scores added to what was stored, and keeps the stored record,
else its first record; a missing ID is untouched. -/
theorem entry_addAll (g : Nat → SearchResult F → F) (l : List (SearchResult F)) (n : Nat)
    (m : ScoreMaps F) (id : String) :
    (addAll g l n m).entry id =
      match rankOf l id with
      | some (_, c) =>
        (some ((m.scoreMap.lookup id).getD 0 + rankSum g l n id),
          some ((m.resultMap.lookup id).getD c))
      | none => m.entry id := by
  induction l generalizing n m with
  | nil => rfl
  | cons x xs ih =>
    rw [addAll, ih]
    by_cases hx : x.id = id
    · subst hx
      have hm := m.entry_accumulate_self x (g n x)
      simp only [entry, Prod.mk.injEq] at hm
      rw [rankOf, if_pos rfl, rankSum, if_pos rfl]
      rcases hc : rankOf xs x.id with _ | ⟨j, c⟩
      · rw [rankSum_eq_zero g (rankOf_eq_none.1 hc)]
        simp only [entry, hm, add_zero]
      · simp only [hm, Option.getD_some, add_assoc]
    · have hm := m.entry_accumulate_ne x (g n x) (Ne.symm hx)
      simp only [entry, Prod.mk.injEq] at hm
      rw [rankOf, if_neg hx, rankSum, if_neg hx, zero_add]
      rcases rankOf xs id with _ | ⟨j, c⟩
      · simp only [Option.map_none']
        simp only [entry, hm]
      · simp only [Option.map_some', hm]

/-- Both loops from empty maps, on any lists: what `get` reads for an ID of
either list. -/
theorem get_addAll_setAll (f g : Nat → SearchResult F → F) (S C : List (SearchResult F))
    {id : String} (hid : id ∈ ids S ∨ id ∈ ids C) :
    (addAll g C 0 (setAll f S 0 empty)).get id =
      { (match lastRank S id with
          | some (_, r) => r
          | none => (findById C id).getD default) with
        score := (lastRank S id).elim 0 (fun p => f p.1 p.2) + rankSum g C 0 id } := by
  have hs := entry_setAll f S 0 empty id
  have he := entry_addAll g C 0 (setAll f S 0 empty) id
  rw [findById_eq_rankOf]
  rcases hr : lastRank S id with _ | ⟨i, r⟩ <;> rcases hc : rankOf C id with _ | ⟨j, c⟩ <;>
    simp only [hr, hc] at hs he
  · exact absurd hid (not_or.2 ⟨lastRank_eq_none.1 hr, rankOf_eq_none.1 hc⟩)
  · rw [entry_empty] at hs
    simp only [entry, Prod.mk.injEq] at hs
    rw [hs.1, hs.2] at he
    rw [get_of_entry he]
    simp
  · rw [get_of_entry (he.trans hs), rankSum_eq_zero g (rankOf_eq_none.1 hc)]
    simp
  · simp only [entry, Prod.mk.injEq] at hs
    rw [hs.1, hs.2] at he
    rw [get_of_entry he]
    simp

end ScoreMaps

/-! ## Weighted mode -/

variable {P : Platform F}

/-- The weighted fusion of one ID when the lists may repeat it: the last
static record's `Score·StaticWeight` plus the weighted score of every
conversation record with the ID, on the fields of that static record, or of
the first conversation record when the static list lacks the ID. -/
def weightedFusionAll (P : Platform F) (rm : ResultMerger F)
    (staticResults convResults : List (SearchResult F)) (now : Time) (id : String) :
    SearchResult F :=
  let staticPart : F :=
    (lastRank staticResults id).elim 0 fun p => p.2.score * rm.config.staticWeight
  let convPart : F := ((convResults.filter (·.id == id)).map (rm.convWeightedScore P now)).sum
  let base :=
    match lastRank staticResults id with
    | some (_, r) => r
    | none => (findById convResults id).getD default
  { base with score := staticPart + convPart }

omit [LinearOrderedField F] in
/-- On distinct IDs the records of an ID are the one `findById` finds. -/
theorem filter_id_eq_findById {l : List (SearchResult F)} (hl : (ids l).Nodup) (id : String) :
    l.filter (·.id == id) = (findById l id).toList := by
  induction l with
  | nil => rfl
  | cons x xs ih =>
    rw [ids_cons, List.nodup_cons] at hl
    by_cases hx : x.id = id
    · subst hx
      have hnone : xs.filter (·.id == x.id) = [] :=
        List.filter_eq_nil_iff.2 fun y hy h => hl.1 (beq_iff_eq.1 h ▸ List.mem_map_of_mem _ hy)
      simp [findById, hnone]
    · rw [List.filter_cons_of_neg (by simp [hx]), ih hl.2]
      simp [findById, List.find?_cons, hx]

/-- On distinct IDs the fusion with repeats is the fusion of `MergeSpec`. -/
theorem weightedFusionAll_eq_weightedFusion (rm : ResultMerger F) {S C : List (SearchResult F)}
    (now : Time) (hS : (ids S).Nodup) (hC : (ids C).Nodup) (id : String) :
    weightedFusionAll P rm S C now id = weightedFusion P rm S C now id := by
  simp only [weightedFusionAll, weightedFusion, lastRank_eq_rankOf hS, filter_id_eq_findById hC,
    findById_eq_rankOf]
  rcases rankOf S id with _ | ⟨i, r⟩ <;>
    rcases rankOf C id with _ | ⟨j, ⟨_, _, _, _, _, _, _ | _⟩⟩ <;>
    simp [ResultMerger.convWeightedScore]

theorem weightedMaps_get_repeats (rm : ResultMerger F) (S C : List (SearchResult F)) (now : Time)
    {id : String} (hid : id ∈ ids S ∨ id ∈ ids C) :
    (rm.weightedMaps P S C now).get id = weightedFusionAll P rm S C now id := by
  rw [ResultMerger.weightedMaps, ScoreMaps.get_addAll_setAll _ _ _ _ hid, rankSum_const]
  rfl

/-- **Weighted fusion with repeated IDs.** On any two lists, `Merge` in any
mode other than RRF returns one record per ID of either list and no other,
sorted by score, descending, each its `weightedFusionAll`: a repeated static
ID counts once, with its last record, and a repeated conversation ID counts
every record. -/
theorem merge_weighted_repeats (hP : P.Lawful) (rm : ResultMerger F)
    (halg : ¬usesRRF rm.config.algorithm) (S C : List (SearchResult F)) (now : Time) :
    (ids (rm.merge P S C now)).Nodup ∧
    (∀ id, id ∈ ids (rm.merge P S C now) ↔ id ∈ ids S ∨ id ∈ ids C) ∧
    (∀ r ∈ rm.merge P S C now, r = weightedFusionAll P rm S C now r.id) ∧
    (rm.merge P S C now).Sorted scoreGe := by
  rw [ResultMerger.merge, if_neg halg, ResultMerger.mergeWeighted]
  obtain ⟨hnd, hmem, hget, hsort⟩ :=
    ScoreMaps.sortByScore_toResults hP (rm.weightedMaps P S C now)
  have hkeys : ∀ id, id ∈ (rm.weightedMaps P S C now).scoreMap ↔ id ∈ ids S ∨ id ∈ ids C :=
    fun _ => ScoreMaps.mem_addAll_setAll _ _ S C
  refine ⟨hnd, fun id => (hmem id).trans (hkeys id), fun r hr => ?_, hsort⟩
  exact (hget r hr).trans
    (weightedMaps_get_repeats rm S C now ((hkeys _).1 ((hmem _).1 (List.mem_map_of_mem _ hr))))

/-- A static record and a conversation turn, each returned twice, at the
default config. -/
theorem merge_weighted_repeats_twice :
    let P := Platform.ofMath (F := ℚ) (fun x => x) (fun x => x) 1
    let rm : ResultMerger ℚ := ⟨defaultMergeConfig, .ofConfig defaultMergeConfig⟩
    let S : List (SearchResult ℚ) := [⟨"X", "", 0.9, "", [], sourceStatic, none⟩,
      ⟨"X", "", 0.5, "", [], sourceStatic, none⟩]
    let C : List (SearchResult ℚ) := [⟨"Y", "", 0.8, "", [], sourceConversation, none⟩,
      ⟨"Y", "", 0.8, "", [], sourceConversation, none⟩]
    P.Lawful ∧ ¬usesRRF rm.config.algorithm ∧
    ((ids (rm.merge P S C ⟨0⟩)).Nodup ∧
      (∀ id, id ∈ ids (rm.merge P S C ⟨0⟩) ↔ id ∈ ids S ∨ id ∈ ids C) ∧
      (∀ r ∈ rm.merge P S C ⟨0⟩, r = weightedFusionAll P rm S C ⟨0⟩ r.id) ∧
      (rm.merge P S C ⟨0⟩).Sorted scoreGe) :=
  ⟨Platform.ofMath_lawful _ _ _, by decide,
    merge_weighted_repeats (Platform.ofMath_lawful _ _ _) _ (by decide) _ _ _⟩

/-! ## Reciprocal rank fusion -/

/-- The RRF fusion of one ID when the lists may repeat it:
`StaticWeight/(k + i)` for the last position `i` of the ID in the static
list, plus `ConversationWeight/(k + j)` for every position `j` of the ID in
`decayedConv`, on the fields of that static record, or of the first record
of `decayedConv` when the static list lacks the ID. -/
def rrfFusionAll (rm : ResultMerger F) (staticResults decayedConv : List (SearchResult F))
    (id : String) : SearchResult F :=
  let k : F := rm.config.rrfK
  let staticPart : F :=
    (lastRank staticResults id).elim 0 fun p => rm.config.staticWeight / (k + p.1)
  let convPart : F := rankSum (fun j _ => rm.config.conversationWeight / (k + j)) decayedConv 0 id
  let base :=
    match lastRank staticResults id with
    | some (_, r) => r
    | none => (findById decayedConv id).getD default
  { base with score := staticPart + convPart }

theorem rrfMaps_get_repeats (rm : ResultMerger F) (hk : 0 < rm.config.rrfK)
    (S D : List (SearchResult F)) {id : String} (hid : id ∈ ids S ∨ id ∈ ids D) :
    (rm.rrfMaps S D).readScores.get id = rrfFusionAll rm S D id := by
  rw [ScoreMaps.get_eq_of_entry (rm.rrfMaps_readScores_entry S D hk),
    ScoreMaps.get_addAll_setAll _ _ _ _ hid]
  rfl

/-- **RRF with repeated IDs.** With `RRFK > 0`, on any two lists, `Merge` in
RRF mode returns
one record per ID of either list and no other, sorted by score, descending,
each its `rrfFusionAll` over the decayed and sorted conversation list `D`: a
repeated static ID counts once, at its last position, and a repeated
conversation ID counts at every position it holds in `D`. -/
theorem merge_rrf_repeats (hP : P.Lawful) (rm : ResultMerger F)
    (halg : usesRRF rm.config.algorithm) (hk : 0 < rm.config.rrfK) (S C : List (SearchResult F))
    (now : Time) :
    let D := P.sortByScore (rm.temporalDecay.applyToResults P C now)
    (ids (rm.merge P S C now)).Nodup ∧
    (∀ id, id ∈ ids (rm.merge P S C now) ↔ id ∈ ids S ∨ id ∈ ids C) ∧
    (∀ r ∈ rm.merge P S C now, r = rrfFusionAll rm S D r.id) ∧
    (rm.merge P S C now).Sorted scoreGe := by
  intro D
  have hDC : (ids D).Perm (ids C) := by
    rw [← TemporalDecay.ids_applyToResults P rm.temporalDecay now C]
    exact (hP.sort_perm _).map _
  rw [ResultMerger.merge, if_pos halg, ResultMerger.mergeRRF]
  obtain ⟨hnd, hmem, hget, hsort⟩ :=
    ScoreMaps.sortByScore_toResults hP (rm.rrfMaps S D).readScores
  refine ⟨hnd, fun id => (hmem id).trans ((rm.mem_rrfMaps S D).trans (or_congr_right hDC.mem_iff)),
    fun r hr => ?_, hsort⟩
  exact (hget r hr).trans
    (rrfMaps_get_repeats rm hk S D ((rm.mem_rrfMaps S D).1 ((hmem _).1 (List.mem_map_of_mem _ hr))))

/-- The RRF test's config on a static record returned twice and a
conversation turn returned twice. -/
theorem merge_rrf_repeats_twice :
    let P := Platform.ofMath (F := ℚ) (fun x => x) (fun x => x) 1
    let c : MergeConfig ℚ := { defaultMergeConfig with algorithm := "rrf" }
    let rm : ResultMerger ℚ := ⟨c, .ofConfig c⟩
    let S : List (SearchResult ℚ) := [⟨"X", "", 0.9, "", [], sourceStatic, none⟩,
      ⟨"X", "", 0.5, "", [], sourceStatic, none⟩]
    let C : List (SearchResult ℚ) := [⟨"Y", "", 0.8, "", [], sourceConversation, some ⟨0⟩⟩,
      ⟨"Y", "", 0.8, "", [], sourceConversation, some ⟨0⟩⟩]
    P.Lawful ∧ usesRRF rm.config.algorithm ∧ 0 < rm.config.rrfK ∧
    (let D := P.sortByScore (rm.temporalDecay.applyToResults P C ⟨0⟩)
     (ids (rm.merge P S C ⟨0⟩)).Nodup ∧
     (∀ id, id ∈ ids (rm.merge P S C ⟨0⟩) ↔ id ∈ ids S ∨ id ∈ ids C) ∧
     (∀ r ∈ rm.merge P S C ⟨0⟩, r = rrfFusionAll rm S D r.id) ∧
     (rm.merge P S C ⟨0⟩).Sorted scoreGe) :=
  ⟨Platform.ofMath_lawful _ _ _, by decide, by decide,
    merge_rrf_repeats (Platform.ofMath_lawful _ _ _) _ (by decide) (by decide) _ _ _⟩

end AgentRag.Retriever
