import AgentRag.Retriever.Client

/-!
# What the client writes, and what it reads back

`AddConversationTurn` and `AddKnowledgeDocument` post an object whose
`properties` start from the three stamped fields and then take every
metadata entry with `m[k] = v`. `parseSearchResults` and
`parseConversationResults` walk a path into the response's `data` and read
each object of the array there with `extractSearchResult`.

- `m[k] = v` is read back by `lookup_setField`, the metadata loop by
  `lookup_foldl_setField`: under every key the posted properties hold the
  metadata's value if it has one, and the stamped value otherwise
  (`postedObject_properties`). A metadata `timestamp` therefore replaces the
  turn's stamp, and a metadata `updatedAt` the document's.
- `extractSearchResult` keeps no reserved key in `Metadata`, whichever
  field became `Text`: a knowledge record with both `content` and `title`
  keeps its content as `Text` and its title nowhere
  (`extractSearchResult_loses_title`).
- Both parsers fail exactly where the walk along the path fails
  (`parseResults_error_iff`): a value at the path that is not an array, an
  element that is not an object, an `id` or `score` that is missing or of
  another type all pass without an error.
-/

namespace AgentRag.Retriever

variable {F : Type}

/-! ## Objects posted -/

theorem lookup_eq_none_of_not_mem {β : Type} {m : List (String × β)} {k : String}
    (h : k ∉ m.map Prod.fst) : m.lookup k = none := by
  induction m with
  | nil => rfl
  | cons f m ih =>
    simp only [List.map_cons, List.mem_cons, not_or] at h
    simp [List.lookup, beq_false_of_ne h.1, ih h.2]

/-- The replacing branch of `setField`: entries under `k` take `v`, the
others stay. -/
theorem lookup_map_setKey (m : List (String × Json F)) (k : String) (v : Json F) (k' : String) :
    (m.map fun field => if field.1 = k then (k, v) else field).lookup k' =
      if k' = k then (m.lookup k).map fun _ => v else m.lookup k' := by
  induction m with
  | nil => split_ifs <;> rfl
  | cons f m ih =>
    obtain ⟨a, b⟩ := f
    rw [List.map_cons]
    by_cases ha : a = k
    · subst ha
      rw [if_pos rfl]
      by_cases hka : k' = a
      · subst hka
        simp [List.lookup]
      · simp [List.lookup, hka, beq_false_of_ne hka, ih]
    · rw [if_neg ha]
      by_cases hka : k' = a
      · subst hka
        simp [List.lookup, ha]
      · simp [List.lookup, beq_false_of_ne hka, ih, beq_false_of_ne (Ne.symm ha)]

/-- `m[k] = v`, read back: `k` holds `v`, every other key what it held. -/
theorem lookup_setField (m : List (String × Json F)) (k : String) (v : Json F) (k' : String) :
    (setField m k v).lookup k' = if k' = k then some v else m.lookup k' := by
  unfold setField
  split_ifs with hk hk' hk'
  · rw [lookup_map_setKey, if_pos hk']
    obtain ⟨b, hb⟩ := Option.isSome_iff_exists.1 hk
    simp [hb]
  · rw [lookup_map_setKey, if_neg hk']
  · rw [List.lookup_append, hk', Option.not_isSome_iff_eq_none.1 hk]
    simp [List.lookup]
  · rw [List.lookup_append]
    simp [List.lookup, beq_false_of_ne hk']

/-- The metadata loop, read back: a key of the metadata (a Go map, so with
distinct keys) holds its metadata value, any other key what `base` held. -/
theorem lookup_foldl_setField (metadata base : List (String × Json F))
    (hkeys : (metadata.map Prod.fst).Nodup) (k : String) :
    (metadata.foldl (fun props field => setField props field.1 field.2) base).lookup k =
      (metadata.lookup k).or (base.lookup k) := by
  induction metadata generalizing base with
  | nil => rfl
  | cons f fs ih =>
    obtain ⟨a, b⟩ := f
    simp only [List.map_cons, List.nodup_cons] at hkeys
    rw [List.foldl_cons, ih _ hkeys.2, lookup_setField]
    by_cases h : k = a
    · subst h
      simp [List.lookup, lookup_eq_none_of_not_mem hkeys.1]
    · simp [List.lookup, beq_false_of_ne h, h]

/-- **The posted properties.** The object `AddConversationTurn` posts is
its class and its properties, and under every key the properties hold the
metadata's value when the metadata has the key, and the stamped `message`,
`speaker` or `timestamp` otherwise; likewise for `AddKnowledgeDocument`
with `title`, `content` and `updatedAt`. -/
theorem postedObject_properties (wc : WeaviateClient) (message speaker title content : String)
    (metadata : List (String × Json F)) (hkeys : (metadata.map Prod.fst).Nodup) (now : Time) :
    (∃ props, wc.conversationTurnObject message speaker metadata now =
        .object [("class", .string wc.config.conversationIndexName),
          ("properties", .object props)] ∧
      ∀ k, props.lookup k = (metadata.lookup k).or
        ([("message", .string message), ("speaker", .string speaker),
          ("timestamp", .string now.formatRFC3339)].lookup k)) ∧
    (∃ props, wc.knowledgeDocumentObject title content metadata now =
        .object [("class", .string wc.config.staticIndexName), ("properties", .object props)] ∧
      ∀ k, props.lookup k = (metadata.lookup k).or
        ([("title", .string title), ("content", .string content),
          ("updatedAt", .string now.formatRFC3339)].lookup k)) :=
  ⟨⟨_, rfl, lookup_foldl_setField _ _ hkeys⟩, ⟨_, rfl, lookup_foldl_setField _ _ hkeys⟩⟩

/-- A turn whose metadata carries a `timestamp` in 2099. -/
theorem postedObject_properties_future_timestamp :
    let wc : WeaviateClient := ⟨"http://localhost:8080", "", defaultIndexConfig⟩
    let metadata : List (String × Json ℚ) := [("timestamp", .string "2099-01-01T00:00:00Z")]
    (metadata.map Prod.fst).Nodup ∧
    (∃ props, wc.conversationTurnObject "hello" "user" metadata ⟨1767225600000000000⟩ =
        .object [("class", .string wc.config.conversationIndexName),
          ("properties", .object props)] ∧
      ∀ k, props.lookup k = (metadata.lookup k).or
        ([("message", .string "hello"), ("speaker", .string "user"),
          ("timestamp", .string (Time.mk 1767225600000000000).formatRFC3339)].lookup k)) ∧
    (∃ props, wc.knowledgeDocumentObject "Go" "Go is statically typed" metadata
          ⟨1767225600000000000⟩ =
        .object [("class", .string wc.config.staticIndexName), ("properties", .object props)] ∧
      ∀ k, props.lookup k = (metadata.lookup k).or
        ([("title", .string "Go"), ("content", .string "Go is statically typed"),
          ("updatedAt", .string (Time.mk 1767225600000000000).formatRFC3339)].lookup k)) :=
  ⟨by decide, postedObject_properties _ _ _ _ _ _ (by decide) _⟩

/-! ## Records read -/

section Results

variable [LinearOrderedField F]

/-- `extractSearchResult` keeps no reserved key in `Metadata`. -/
theorem lookup_metadata_reserved (objMap : List (String × Json F)) {k : String}
    (hk : k ∈ reservedKeys) : (extractSearchResult objMap).metadata.lookup k = none := by
  refine lookup_eq_none_of_not_mem fun hmem => ?_
  obtain ⟨field, hf, rfl⟩ := List.mem_map.1 hmem
  exact (of_decide_eq_true (List.mem_filter.1 hf).2) hk

/-- **A knowledge record loses its title.** When `message` is not a
string and `content` is, `Text` is the content, and `Metadata` has no
`title`: the record's title survives only if it equals its content. -/
theorem extractSearchResult_loses_title (objMap : List (String × Json F)) (c t : String)
    (hm : ∀ s, objMap.lookup "message" ≠ some (.string s))
    (hc : objMap.lookup "content" = some (.string c))
    (ht : objMap.lookup "title" = some (.string t)) :
    (extractSearchResult objMap).text = c ∧
      (extractSearchResult objMap).metadata.lookup "title" = none := by
  refine ⟨?_, lookup_metadata_reserved objMap (by decide)⟩
  rcases hmsg : objMap.lookup "message" with _ | (_ | _ | _ | s | _ | _)
  all_goals first
    | exact absurd hmsg (hm s)
    | rw [extractSearchResult, hmsg, hc, ht]; rfl

/-- A `KnowledgeBase` record as Weaviate returns it. -/
theorem extractSearchResult_loses_title_kb :
    let objMap : List (String × Json ℚ) :=
      [("_additional", .object [("id", .string "kb-1"), ("score", .number 0.9)]),
        ("title", .string "Go"), ("content", .string "Go is statically typed")]
    (∀ s, objMap.lookup "message" ≠ some (.string s)) ∧
      objMap.lookup "content" = some (.string "Go is statically typed") ∧
      objMap.lookup "title" = some (.string "Go") ∧
      ((extractSearchResult objMap).text = "Go is statically typed" ∧
        (extractSearchResult objMap).metadata.lookup "title" = none) := by
  intro objMap
  have hm : ∀ s, objMap.lookup "message" ≠ some (.string s) := fun _ h =>
    Option.noConfusion (h.symm.trans (rfl : objMap.lookup "message" = none))
  exact ⟨hm, rfl, rfl, extractSearchResult_loses_title _ _ _ hm rfl rfl⟩

/-- **The parsers fail only on the path.** Each returns an error exactly
when the walk along the path does: whatever is found at its end gives a
list, possibly empty. -/
theorem parseResults_error_iff (data : List (String × Json F)) (path : List String) :
    ((∃ e, parseSearchResults data path = .error e) ↔
        ∃ e, navigatePath (.object data) path = .error e) ∧
      ((∃ e, parseConversationResults data path = .error e) ↔
        ∃ e, navigatePath (.object data) path = .error e) := by
  unfold parseSearchResults parseConversationResults
  cases navigatePath (.object data) path <;> simp [Except.map]

/-- The divergence at its two inputs: a `null` at the path gives no results,
and an array holding two objects without `_additional` and the number `7`
gives two records sharing the empty ID, each of score `0`, and nothing for
the `7`; neither is an error. -/
theorem parseConversationResults_null_and_mixed :
    parseConversationResults (F := ℚ) [("Get", .object [("Conversation", .null)])]
        ["Get", "Conversation"] = .ok [] ∧
      parseConversationResults (F := ℚ) [("Get", .object [("Conversation", .array
          [.object [("message", .string "a")], .object [("message", .string "b")], .number 7])])]
          ["Get", "Conversation"] =
        .ok [⟨"", "", 0, "a", [], sourceConversation, none⟩,
          ⟨"", "", 0, "b", [], sourceConversation, none⟩] :=
  ⟨rfl, rfl⟩

end Results

end AgentRag.Retriever
