import AgentRag.Retriever.Decay

/-!
# `ResultMerger`: weighted and reciprocal-rank fusion

`mergeWeighted` and `mergeRRF` in `types.go` share one shape: a loop over the
static list that writes `scoreMap[ID]` and `resultMap[ID]`, a loop over the
conversation list that adds to an existing score or writes both maps, a
`range` over `scoreMap` that copies each score into its stored record, and a
`sort.Slice` by score, descending. They differ only in the score each loop
writes. This file models that shape once:

- `ScoreMaps` is the pair of maps. Each write goes to both under the
  record's own ID, so the structure carries the two facts every later proof
  needs: the maps have the same keys (`sameKeys`) and a stored record sits
  under its own ID (`keyed`). Its scores are `F`, except in `mergeRRF`,
  whose scores are `float64` with their infinities and NaN (`Float64 F`).
- `setAll` is the static loop and `addAll` the conversation loop, both with
  the rank counter Go's `for rank, result := range` provides; the weighted
  merge ignores the rank.
- `toResults` is the `range` over `scoreMap`, in the order the `Platform`
  picks, and `Platform.sortByScore` is the `sort.Slice`.

`ScoreMaps.IsImage` relates two runs of the loops whose scores correspond
through an additive map; it is how `mergeRRF`'s `float64` scores are read
as the exact ones when no divisor is zero (`rrfMaps_readScores_entry`).

The loop lemmas say where an ID ends up: `rankOf l id` is the position and
record of `id` in `l`, and on a list with distinct IDs the static loop
leaves exactly that record's score under `id` (`setAll_lookup_of_rankOf`),
the conversation loop adds it to what was there (`addAll_lookup_of_rankOf`),
and an absent ID is untouched (`*_of_rankOf_none`). `sortByScore_toResults`
then reads the merged list back off the maps.
-/

namespace AgentRag.Retriever

variable {F V W : Type}

/-! ## Positions -/

/-- The first record of `results` whose ID is `id`, with its position. -/
def rankOf : List (SearchResult F) → String → Option (Nat × SearchResult F)
  | [], _ => none
  | r :: rs, id => if r.id = id then some (0, r) else (rankOf rs id).map fun p => (p.1 + 1, p.2)

theorem rankOf_eq_none {l : List (SearchResult F)} {id : String} :
    rankOf l id = none ↔ id ∉ ids l := by
  induction l with
  | nil => simp [rankOf]
  | cons r rs ih =>
    by_cases h : r.id = id
    · simp [rankOf, h]
    · simp [rankOf, h, ih, Ne.symm h]

/-- `rankOf` finds what `List.find?` finds. -/
theorem map_snd_rankOf (l : List (SearchResult F)) (id : String) :
    (rankOf l id).map Prod.snd = l.find? (·.id == id) := by
  induction l with
  | nil => rfl
  | cons r rs ih =>
    by_cases h : r.id = id
    · simp [rankOf, h]
    · simp [rankOf, h, List.find?_cons, ← ih, Option.map_map, Function.comp_def]

/-- `scoreMap` and `resultMap`, keyed by `SearchResult.ID`, with scores in
`V`. -/
structure ScoreMaps (F : Type) (V : Type := F) where
  scoreMap : AList (fun _ : String => V)
  resultMap : AList (fun _ : String => SearchResult F)
  sameKeys : ∀ id, id ∈ scoreMap ↔ id ∈ resultMap
  keyed : ∀ id r, resultMap.lookup id = some r → r.id = id

/-- Two fresh `make(map[string]...)`. -/
def ScoreMaps.empty : ScoreMaps F V :=
  ⟨∅, ∅, fun _ => by simp [AList.not_mem_empty], fun _ _ h => by simp at h⟩

/-- `scoreMap[result.ID] = s; resultMap[result.ID] = result`. -/
def ScoreMaps.set (m : ScoreMaps F V) (result : SearchResult F) (s : V) : ScoreMaps F V where
  scoreMap := m.scoreMap.insert result.id s
  resultMap := m.resultMap.insert result.id result
  sameKeys id := by simp only [AList.mem_insert, m.sameKeys id]
  keyed id r h := by
    by_cases hid : id = result.id
    · subst hid
      rw [AList.lookup_insert] at h
      cases h; rfl
    · rw [AList.lookup_insert_ne hid] at h
      exact m.keyed id r h

/-- `for rank, result := range results { scoreMap[result.ID] = score(rank,
result); resultMap[result.ID] = result }`, counting ranks from `rank`. -/
def ScoreMaps.setAll (score : Nat → SearchResult F → V) :
    List (SearchResult F) → Nat → ScoreMaps F V → ScoreMaps F V
  | [], _, m => m
  | result :: rest, rank, m => setAll score rest (rank + 1) (m.set result (score rank result))

namespace ScoreMaps

/-- What the two maps hold under `id`. -/
def entry (m : ScoreMaps F V) (id : String) : Option V × Option (SearchResult F) :=
  (m.scoreMap.lookup id, m.resultMap.lookup id)

section Static

variable (m : ScoreMaps F V) (result : SearchResult F) (s : V) (f : Nat → SearchResult F → V)
  {id : String}

theorem mem_set : id ∈ (m.set result s).scoreMap ↔ id = result.id ∨ id ∈ m.scoreMap :=
  AList.mem_insert _

theorem entry_set_self : (m.set result s).entry result.id = (some s, some result) := by
  simp [entry, set, AList.lookup_insert]

theorem entry_set_ne (h : id ≠ result.id) : (m.set result s).entry id = m.entry id := by
  simp [entry, set, AList.lookup_insert_ne h]

theorem mem_setAll (l : List (SearchResult F)) (n : Nat) (m : ScoreMaps F V) :
    id ∈ (setAll f l n m).scoreMap ↔ id ∈ ids l ∨ id ∈ m.scoreMap := by
  induction l generalizing n m with
  | nil => simp [setAll]
  | cons r rs ih => simp only [setAll, ih, mem_set, ids_cons, List.mem_cons]; tauto

theorem entry_setAll_of_rankOf_none {l : List (SearchResult F)} (h : rankOf l id = none)
    (n : Nat) (m : ScoreMaps F V) : (setAll f l n m).entry id = m.entry id := by
  induction l generalizing n m with
  | nil => rfl
  | cons r rs ih =>
    have hne : r.id ≠ id := fun e => by simp [rankOf, e] at h
    simp only [rankOf, hne, if_false, Option.map_eq_none'] at h
    rw [setAll, ih h, entry_set_ne _ _ _ (Ne.symm hne)]

/-- On distinct IDs, the static loop leaves under `id` the score of `id`'s
own rank and record. -/
theorem entry_setAll_of_rankOf {l : List (SearchResult F)} (hl : (ids l).Nodup) {i : Nat}
    {r : SearchResult F} (h : rankOf l id = some (i, r)) (n : Nat) (m : ScoreMaps F V) :
    (setAll f l n m).entry id = (some (f (n + i) r), some r) := by
  induction l generalizing n m i with
  | nil => simp [rankOf] at h
  | cons x xs ih =>
    rw [ids_cons, List.nodup_cons] at hl
    by_cases hx : x.id = id
    · simp only [rankOf, hx, if_true, Option.some.injEq, Prod.mk.injEq] at h
      obtain ⟨rfl, rfl⟩ := h
      subst hx
      rw [setAll, entry_setAll_of_rankOf_none f (rankOf_eq_none.2 hl.1), entry_set_self]
      rfl
    · simp only [rankOf, hx, if_false, Option.map_eq_some'] at h
      obtain ⟨⟨j, r'⟩, hj, he⟩ := h
      simp only [Prod.mk.injEq] at he
      obtain ⟨rfl, rfl⟩ := he
      rw [setAll, ih hl.2 hj, Nat.add_right_comm, Nat.add_assoc]

end Static

end ScoreMaps

/-! ## The conversation loop -/

/-- The conversation loop's body: `if existingScore, exists := scoreMap[ID];
exists { scoreMap[ID] = existingScore + s } else { scoreMap[ID] = s;
resultMap[ID] = result }`. -/
def ScoreMaps.accumulate [Add V] (m : ScoreMaps F V) (result : SearchResult F) (s : V) :
    ScoreMaps F V :=
  match h : m.scoreMap.lookup result.id with
  | some existing =>
    { scoreMap := m.scoreMap.insert result.id (existing + s)
      resultMap := m.resultMap
      sameKeys := fun id => by
        have hmem : result.id ∈ m.scoreMap := AList.lookup_isSome.1 (by simp [h])
        rw [AList.mem_insert, ← m.sameKeys id]
        exact ⟨fun h' => h'.elim (· ▸ hmem) fun h'' => h'', Or.inr⟩
      keyed := m.keyed }
  | none => m.set result s

/-- The conversation loop: `accumulate` each record with the score of its rank. -/
def ScoreMaps.addAll [Add V] (score : Nat → SearchResult F → V) :
    List (SearchResult F) → Nat → ScoreMaps F V → ScoreMaps F V
  | [], _, m => m
  | result :: rest, rank, m =>
    addAll score rest (rank + 1) (m.accumulate result (score rank result))

namespace ScoreMaps

section Conversation

variable [AddZeroClass V] (m : ScoreMaps F V) (result : SearchResult F) (s : V)
  (f : Nat → SearchResult F → V) {id : String}

theorem mem_accumulate :
    id ∈ (m.accumulate result s).scoreMap ↔ id = result.id ∨ id ∈ m.scoreMap := by
  unfold accumulate
  split
  · exact AList.mem_insert _
  · exact m.mem_set result s

/-- The conversation step adds `s` to whatever score was stored, and keeps
the stored record if there was one. -/
theorem entry_accumulate_self :
    (m.accumulate result s).entry result.id =
      (some ((m.scoreMap.lookup result.id).getD 0 + s),
        some ((m.resultMap.lookup result.id).getD result)) := by
  unfold accumulate
  split
  · next existing h =>
    obtain ⟨r, hr⟩ := Option.isSome_iff_exists.1
      (AList.lookup_isSome.2 ((m.sameKeys result.id).1 (AList.lookup_isSome.1 (by simp [h]))))
    simp [entry, h, hr, AList.lookup_insert]
  · next h =>
    have hr : m.resultMap.lookup result.id = none :=
      AList.lookup_eq_none.2 fun hm => by
        simpa [h] using AList.lookup_isSome.2 ((m.sameKeys result.id).2 hm)
    simp [entry_set_self, h, hr]

theorem entry_accumulate_ne (h : id ≠ result.id) :
    (m.accumulate result s).entry id = m.entry id := by
  unfold accumulate
  split
  · simp [entry, AList.lookup_insert_ne h]
  · exact m.entry_set_ne result s h

theorem mem_addAll (l : List (SearchResult F)) (n : Nat) (m : ScoreMaps F V) :
    id ∈ (addAll f l n m).scoreMap ↔ id ∈ ids l ∨ id ∈ m.scoreMap := by
  induction l generalizing n m with
  | nil => simp [addAll]
  | cons r rs ih => simp only [addAll, ih, mem_accumulate, ids_cons, List.mem_cons]; tauto

theorem entry_addAll_of_rankOf_none {l : List (SearchResult F)} (h : rankOf l id = none)
    (n : Nat) (m : ScoreMaps F V) : (addAll f l n m).entry id = m.entry id := by
  induction l generalizing n m with
  | nil => rfl
  | cons r rs ih =>
    have hne : r.id ≠ id := fun e => by simp [rankOf, e] at h
    simp only [rankOf, hne, if_false, Option.map_eq_none'] at h
    rw [addAll, ih h, entry_accumulate_ne _ _ _ (Ne.symm hne)]

/-- On distinct IDs, the conversation loop adds the score of `id`'s own rank
to what the static loop left, and keeps the static record if any. -/
theorem entry_addAll_of_rankOf {l : List (SearchResult F)} (hl : (ids l).Nodup) {i : Nat}
    {r : SearchResult F} (h : rankOf l id = some (i, r)) (n : Nat) (m : ScoreMaps F V) :
    (addAll f l n m).entry id =
      (some ((m.scoreMap.lookup id).getD 0 + f (n + i) r),
        some ((m.resultMap.lookup id).getD r)) := by
  induction l generalizing n m i with
  | nil => simp [rankOf] at h
  | cons x xs ih =>
    rw [ids_cons, List.nodup_cons] at hl
    by_cases hx : x.id = id
    · simp only [rankOf, hx, if_true, Option.some.injEq, Prod.mk.injEq] at h
      obtain ⟨rfl, rfl⟩ := h
      subst hx
      rw [addAll, entry_addAll_of_rankOf_none f (rankOf_eq_none.2 hl.1), entry_accumulate_self]
      rfl
    · simp only [rankOf, hx, if_false, Option.map_eq_some'] at h
      obtain ⟨⟨j, r'⟩, hj, he⟩ := h
      simp only [Prod.mk.injEq] at he
      obtain ⟨rfl, rfl⟩ := he
      have hm := entry_accumulate_ne m x (f n x) (Ne.symm hx)
      simp only [entry, Prod.mk.injEq] at hm
      rw [addAll, ih hl.2 hj, hm.1, hm.2, Nat.add_right_comm, Nat.add_assoc]

/-- Both loops, on lists with distinct IDs: what the maps hold under `id`
combines `id`'s rank and record in each list. This is the shape both merges
share. -/
theorem entry_addAll_setAll (f g : Nat → SearchResult F → V) {S C : List (SearchResult F)}
    (hS : (ids S).Nodup) (hC : (ids C).Nodup) (id : String) :
    (addAll g C 0 (setAll f S 0 empty)).entry id =
      match rankOf S id, rankOf C id with
      | some (i, r), some (j, c) => (some (f i r + g j c), some r)
      | some (i, r), none => (some (f i r), some r)
      | none, some (j, c) => (some (g j c), some c)
      | none, none => (none, none) := by
  have hempty : (empty : ScoreMaps F V).entry id = (none, none) := rfl
  rcases hs : rankOf S id with _ | ⟨i, r⟩ <;> rcases hc : rankOf C id with _ | ⟨j, c⟩
  · rw [entry_addAll_of_rankOf_none g hc, entry_setAll_of_rankOf_none f hs, hempty]
  · have h0 := entry_setAll_of_rankOf_none f hs 0 empty
    simp only [entry, Prod.mk.injEq] at h0
    rw [entry_addAll_of_rankOf g hC hc, h0.1, h0.2]
    simp [empty, AList.lookup_empty]
  · rw [entry_addAll_of_rankOf_none g hc, entry_setAll_of_rankOf f hS hs]
    simp
  · have h0 := entry_setAll_of_rankOf f hS hs 0 empty
    simp only [entry, Prod.mk.injEq] at h0
    rw [entry_addAll_of_rankOf g hC hc, h0.1, h0.2]
    simp

theorem mem_addAll_setAll (f g : Nat → SearchResult F → V) (S C : List (SearchResult F)) :
    id ∈ (addAll g C 0 (setAll f S 0 empty)).scoreMap ↔ id ∈ ids S ∨ id ∈ ids C := by
  rw [mem_addAll, mem_setAll]
  simp [empty, AList.not_mem_empty, or_comm]

end Conversation

/-! ## Two runs of the loops -/

section Image

variable [AddZeroClass V] [AddZeroClass W] (g : V →+ W)

/-- `m'` holds the records of `m` and, under each key, `g` of its score. -/
def IsImage (m' : ScoreMaps F W) (m : ScoreMaps F V) : Prop :=
  ∀ id, m'.entry id = ((m.entry id).1.map g, (m.entry id).2)

theorem IsImage.empty : IsImage g (empty : ScoreMaps F W) empty := fun _ => rfl

variable {g} {m' : ScoreMaps F W} {m : ScoreMaps F V}

theorem IsImage.set (h : IsImage g m' m) (result : SearchResult F) (s : V) :
    IsImage g (m'.set result (g s)) (m.set result s) := by
  intro id
  by_cases hid : id = result.id
  · subst hid
    rw [entry_set_self, entry_set_self]
    rfl
  · rw [entry_set_ne _ _ _ hid, entry_set_ne _ _ _ hid, h id]

theorem IsImage.accumulate (h : IsImage g m' m) (result : SearchResult F) (s : V) :
    IsImage g (m'.accumulate result (g s)) (m.accumulate result s) := by
  intro id
  by_cases hid : id = result.id
  · subst hid
    have he := h result.id
    simp only [entry, Prod.mk.injEq] at he
    rw [entry_accumulate_self, entry_accumulate_self, he.1, he.2]
    cases m.scoreMap.lookup result.id <;> simp
  · rw [entry_accumulate_ne _ _ _ hid, entry_accumulate_ne _ _ _ hid, h id]

theorem IsImage.setAll (h : IsImage g m' m) (f : Nat → SearchResult F → V)
    (l : List (SearchResult F)) (n : Nat) :
    IsImage g (setAll (fun i r => g (f i r)) l n m') (setAll f l n m) := by
  induction l generalizing n m m' with
  | nil => exact h
  | cons r rs ih => exact ih (h.set r (f n r)) (n + 1)

theorem IsImage.addAll (h : IsImage g m' m) (f : Nat → SearchResult F → V)
    (l : List (SearchResult F)) (n : Nat) :
    IsImage g (addAll (fun i r => g (f i r)) l n m') (addAll f l n m) := by
  induction l generalizing n m m' with
  | nil => exact h
  | cons r rs ih => exact ih (h.accumulate r (f n r)) (n + 1)

end Image

end ScoreMaps

/-! ## Reading the merged list off the maps -/

variable [LinearOrderedField F]

/-- The record the conversion loop emits for key `id`: `result :=
resultMap[id]; result.Score = score`. -/
def ScoreMaps.get (m : ScoreMaps F) (id : String) : SearchResult F :=
  { (m.resultMap.lookup id).getD default with score := (m.scoreMap.lookup id).getD 0 }

/-- `for id, score := range scoreMap { ... results = append(results, result) }`. -/
def ScoreMaps.toResults (P : Platform F) (m : ScoreMaps F) : List (SearchResult F) :=
  (P.rangeOrder m.scoreMap.keys).map m.get

/-- The `float64` scores as `result.Score = score` stores them in a
`SearchResult`, whose `Score` is an `F`: each read by `Float64.value`. -/
def ScoreMaps.readScores (m : ScoreMaps F (Float64 F)) : ScoreMaps F :=
  have hkeys : (m.scoreMap.entries.map fun e => (⟨e.1, e.2.value⟩ : Σ _ : String, F)).keys =
      m.scoreMap.keys := by
    simp only [List.keys, List.map_map]
    rfl
  { scoreMap := ⟨_, (congrArg List.Nodup hkeys).mpr m.scoreMap.nodupKeys⟩
    resultMap := m.resultMap
    sameKeys := fun id => (Iff.of_eq (congrArg (id ∈ ·) hkeys)).trans (m.sameKeys id)
    keyed := m.keyed }

namespace ScoreMaps


/-! ## Reading the merged list off the maps -/

theorem get_of_entry {m : ScoreMaps F} {id : String} {s : F} {r : SearchResult F}
    (h : m.entry id = (some s, some r)) : m.get id = { r with score := s } := by
  simp only [entry, Prod.mk.injEq] at h
  simp [get, h.1, h.2]

theorem get_eq_of_entry {m₁ m₂ : ScoreMaps F} (h : ∀ id, m₁.entry id = m₂.entry id)
    (id : String) : m₁.get id = m₂.get id := by
  have := h id
  simp only [entry, Prod.mk.injEq] at this
  simp [get, this.1, this.2]

theorem entry_readScores (m : ScoreMaps F (Float64 F)) (id : String) :
    m.readScores.entry id = ((m.scoreMap.lookup id).map Float64.value, m.resultMap.lookup id) :=
  Prod.ext (List.dlookup_map₂ (l := m.scoreMap.entries) (f := fun _ => Float64.value) id) rfl

theorem mem_readScores (m : ScoreMaps F (Float64 F)) {id : String} :
    id ∈ m.readScores.scoreMap ↔ id ∈ m.scoreMap := by
  rw [← AList.lookup_isSome, ← AList.lookup_isSome]
  simpa [entry] using congrArg (fun e => e.1.isSome) (entry_readScores m id)

theorem get_id (m : ScoreMaps F) {id : String} (h : id ∈ m.scoreMap) : (m.get id).id = id := by
  obtain ⟨r, hr⟩ := Option.isSome_iff_exists.1 (AList.lookup_isSome.2 ((m.sameKeys id).1 h))
  simp [get, hr, m.keyed id r hr]

variable {P : Platform F}

theorem ids_toResults (hP : P.Lawful) (m : ScoreMaps F) :
    (ids (m.toResults P)).Perm m.scoreMap.keys := by
  have h : ids (m.toResults P) = P.rangeOrder m.scoreMap.keys := by
    simp only [toResults, ids, List.map_map]
    refine (List.map_congr_left fun id hid => ?_).trans (List.map_id _)
    exact m.get_id (AList.mem_keys.2 ((hP.range_perm _).subset hid))
  exact h ▸ hP.range_perm _

/-- The merged list, read off the maps: one record per key, each the record
`get` builds for its own ID, sorted by score, descending. -/
theorem sortByScore_toResults (hP : P.Lawful) (m : ScoreMaps F) :
    (ids (P.sortByScore (m.toResults P))).Nodup ∧
    (∀ id, id ∈ ids (P.sortByScore (m.toResults P)) ↔ id ∈ m.scoreMap) ∧
    (∀ r ∈ P.sortByScore (m.toResults P), r = m.get r.id) ∧
    (P.sortByScore (m.toResults P)).Sorted scoreGe := by
  have hperm : (ids (P.sortByScore (m.toResults P))).Perm m.scoreMap.keys :=
    ((hP.sort_perm _).map _).trans (ids_toResults hP m)
  refine ⟨hperm.nodup_iff.2 m.scoreMap.keys_nodup, fun id => ?_, fun r hr => ?_,
    hP.sort_sorted _⟩
  · rw [hperm.mem_iff, ← AList.mem_keys]
  · obtain ⟨id, hid, rfl⟩ := List.mem_map.1 ((hP.sort_perm _).subset hr)
    rw [m.get_id (AList.mem_keys.2 ((hP.range_perm _).subset hid))]

end ScoreMaps

/-! ## `ResultMerger` -/

/-- `ResultMerger`. -/
structure ResultMerger (F : Type) where
  config : MergeConfig F
  temporalDecay : TemporalDecay F

/-- `NewResultMerger(config)`. -/
def newResultMerger (config : MergeConfig F) : Except GoError (ResultMerger F) :=
  match config.validate with
  | some err => .error err
  | none => .ok
    ⟨config, newTemporalDecay config.halfLifeMinutes config.minTemporalWeight
      config.temporalDecayEnabled⟩

/-- `(*ResultMerger).SetConfig(config)`: the merger afterwards, and the error. -/
def ResultMerger.setConfig (rm : ResultMerger F) (config : MergeConfig F) :
    ResultMerger F × Option GoError :=
  match config.validate with
  | some err => (rm, some err)
  | none =>
    (⟨config, newTemporalDecay config.halfLifeMinutes config.minTemporalWeight
      config.temporalDecayEnabled⟩, none)

/-- The conversation branch of `mergeWeighted`: weight, then decay when the
record has a timestamp. -/
def ResultMerger.convWeightedScore (P : Platform F) (rm : ResultMerger F) (currentTime : Time)
    (result : SearchResult F) : F :=
  match result.timestamp with
  | some ts => rm.temporalDecay.apply P (result.score * rm.config.conversationWeight) ts currentTime
  | none => result.score * rm.config.conversationWeight

/-- The two loops of `mergeWeighted`: static scores times `StaticWeight`,
then conversation scores through `convWeightedScore`. -/
def ResultMerger.weightedMaps (P : Platform F) (rm : ResultMerger F)
    (staticResults convResults : List (SearchResult F)) (currentTime : Time) : ScoreMaps F :=
  ScoreMaps.addAll (fun _ result => rm.convWeightedScore P currentTime result) convResults 0
    (ScoreMaps.setAll (fun _ result => result.score * rm.config.staticWeight) staticResults 0
      .empty)

/-- `(*ResultMerger).mergeWeighted`. -/
def ResultMerger.mergeWeighted (P : Platform F) (rm : ResultMerger F)
    (staticResults convResults : List (SearchResult F)) (currentTime : Time) :
    List (SearchResult F) :=
  P.sortByScore ((rm.weightedMaps P staticResults convResults currentTime).toResults P)

/-- `rankScore * weight` with `rankScore := 1.0 / (k + float64(rank))` and
`k := float64(RRFK)`, in `float64`: at a zero divisor `+Inf` times the
weight, which is NaN for a zero weight. -/
def ResultMerger.rrfScore (rm : ResultMerger F) (weight : F) (rank : Nat) : Float64 F :=
  (Float64.div 1 ((rm.config.rrfK : F) + rank)).mul weight

/-- The two loops of `mergeRRF`, the second over the conversation list as
decayed and sorted, each writing `rrfScore` with its list's weight. -/
def ResultMerger.rrfMaps (rm : ResultMerger F)
    (staticResults decayedConv : List (SearchResult F)) : ScoreMaps F (Float64 F) :=
  ScoreMaps.addAll (fun rank _ => rm.rrfScore rm.config.conversationWeight rank) decayedConv 0
    (ScoreMaps.setAll (fun rank _ => rm.rrfScore rm.config.staticWeight rank) staticResults 0
      .empty)

/-- `(*ResultMerger).mergeRRF`: the conversation list is decayed and sorted
by decayed score before its ranks are read; the merged records carry the
scores as `readScores` reads them. -/
def ResultMerger.mergeRRF (P : Platform F) (rm : ResultMerger F)
    (staticResults convResults : List (SearchResult F)) (currentTime : Time) :
    List (SearchResult F) :=
  let decayedConv := P.sortByScore (rm.temporalDecay.applyToResults P convResults currentTime)
  P.sortByScore ((rm.rrfMaps staticResults decayedConv).readScores.toResults P)

/-- The algorithms `Merge` dispatches to `mergeRRF`. -/
def usesRRF (algorithm : String) : Prop :=
  algorithm = "rrf" ∨ algorithm = "reciprocal_rank_fusion"

instance (algorithm : String) : Decidable (usesRRF algorithm) :=
  inferInstanceAs (Decidable (_ ∨ _))

/-- `(*ResultMerger).Merge`. -/
def ResultMerger.merge (P : Platform F) (rm : ResultMerger F)
    (staticResults convResults : List (SearchResult F)) (currentTime : Time) :
    List (SearchResult F) :=
  if usesRRF rm.config.algorithm then rm.mergeRRF P staticResults convResults currentTime
  else rm.mergeWeighted P staticResults convResults currentTime

/-! ## RRF scores when `RRFK` is positive -/

section RRF

variable (rm : ResultMerger F) (S D : List (SearchResult F))

/-- With `RRFK > 0` every divisor is at least `1`, and a rank's score is the
finite `weight / (k + rank)`. -/
theorem ResultMerger.rrfScore_of_pos (hk : 0 < rm.config.rrfK) (weight : F) (rank : Nat) :
    rm.rrfScore weight rank = .finite (weight / ((rm.config.rrfK : F) + rank)) := by
  have hpos : (0 : F) < (rm.config.rrfK : F) + rank :=
    add_pos_of_pos_of_nonneg (Int.cast_pos.2 hk) (Nat.cast_nonneg rank)
  rw [ResultMerger.rrfScore, Float64.div_of_ne_zero _ hpos.ne']
  exact congrArg Float64.finite (one_div_mul_eq_div _ _)

/-- The loops of `mergeRRF` over `F`: each rank writes `weight / (k + rank)`. -/
theorem ResultMerger.rrfMaps_isImage (hk : 0 < rm.config.rrfK) :
    ScoreMaps.IsImage Float64.finiteHom (rm.rrfMaps S D)
      (ScoreMaps.addAll (fun rank _ => rm.config.conversationWeight / ((rm.config.rrfK : F) + rank))
        D 0 (ScoreMaps.setAll (fun rank _ => rm.config.staticWeight / ((rm.config.rrfK : F) + rank))
          S 0 .empty)) := by
  have h := ((ScoreMaps.IsImage.empty Float64.finiteHom).setAll
    (fun rank (_ : SearchResult F) => rm.config.staticWeight / ((rm.config.rrfK : F) + rank)) S 0).addAll
    (fun rank (_ : SearchResult F) => rm.config.conversationWeight / ((rm.config.rrfK : F) + rank)) D 0
  simpa only [ResultMerger.rrfMaps, rm.rrfScore_of_pos hk] using h

/-- **The `float64` scores are the exact ones.** With `RRFK > 0`, the scores
`mergeRRF`'s records carry are those of its loops run over `F`. -/
theorem ResultMerger.rrfMaps_readScores_entry (hk : 0 < rm.config.rrfK) (id : String) :
    (rm.rrfMaps S D).readScores.entry id =
      (ScoreMaps.addAll (fun rank _ => rm.config.conversationWeight / ((rm.config.rrfK : F) + rank))
        D 0 (ScoreMaps.setAll (fun rank _ => rm.config.staticWeight / ((rm.config.rrfK : F) + rank))
          S 0 .empty)).entry id := by
  rw [ScoreMaps.entry_readScores]
  have h := rm.rrfMaps_isImage S D hk id
  simp only [ScoreMaps.entry, Prod.mk.injEq] at h ⊢
  rw [h.1, h.2, Option.map_map]
  exact ⟨Option.map_id', rfl⟩

theorem ResultMerger.mem_rrfMaps {id : String} :
    id ∈ (rm.rrfMaps S D).readScores.scoreMap ↔ id ∈ ids S ∨ id ∈ ids D := by
  rw [ScoreMaps.mem_readScores, ResultMerger.rrfMaps, ScoreMaps.mem_addAll_setAll]

end RRF

end AgentRag.Retriever
