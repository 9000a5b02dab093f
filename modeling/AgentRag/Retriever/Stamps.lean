import AgentRag.Retriever.TimeFilter
import AgentRag.Retriever.ClientData
import AgentRag.Rfc3339

/-!
# Stamps written and compared

Two RFC 3339 texts meet in Weaviate: the `timestamp` that
`AddConversationTurn` stamps on a turn, and the `valueDate` of the `where`
argument `SearchConversation` sends for a time range. Weaviate reads both, and
an RFC 3339 text of a four-digit year reads back as its instant truncated to
the second (`formatRFC3339_readsBack`). So:

- the time filter of a search admits exactly the records dated at or after
  `Since` truncated to its second (`searchConversation_admits_iff`);
- a turn added at `now`, whose metadata leaves the stamp alone, is dated
  `now` truncated to its second, and passes the filter of a search from
  `Since` exactly when `Since` is not in a later second than `now`
  (`addConversationTurn_admitted_iff`).
-/

namespace AgentRag.Retriever

variable {F : Type}

/-- The instants `formatRFC3339` writes with a four-digit year. -/
def FourDigitYear (t : Time) : Prop :=
  -62167219200000000000 ≤ t.unixNano ∧ t.unixNano < 253402300800000000000

instance (t : Time) : Decidable (FourDigitYear t) := instDecidableAnd

/-- A stamp that reads back is not empty. -/
theorem formatRFC3339_ne_empty {t : Time} (ht : FourDigitYear t) : t.formatRFC3339 ≠ "" := by
  intro h
  have := formatRFC3339_readsBack ht.1 ht.2
  rw [h] at this
  cases this

/-- The `where` argument of a search from a `Since` of a four-digit year
admits a date when it is at or after `Since` truncated to the second. -/
theorem admitsStamp_searchConversationFilter {query : Query} {range : TimeRange}
    (hrange : query.timeRange = some range) (hsince : FourDigitYear range.since) (ts : Time) :
    admitsStamp (searchConversationFilter query) ts =
      decide (range.since.unixNano / 1000000000 * 1000000000 ≤ ts.unixNano) := by
  simp only [searchConversationFilter, hrange, conversationFilter,
    if_pos (formatRFC3339_ne_empty hsince), admitsStamp, Option.elim, DateFilter.admits,
    formatRFC3339_readsBack hsince.1 hsince.2]
  rfl

/-- **The time filter compares whole seconds.** For a range whose `Since`
has a four-digit year, the `where` argument of `SearchConversation` admits a
record exactly when its date is at or after `Since` truncated to the
second. -/
theorem searchConversation_admits_iff (query : Query) (range : TimeRange)
    (hrange : query.timeRange = some range) (hsince : FourDigitYear range.since) (ts : Time) :
    admitsStamp (searchConversationFilter query) ts = true ↔
      range.since.unixNano / 1000000000 * 1000000000 ≤ ts.unixNano := by
  rw [admitsStamp_searchConversationFilter hrange hsince, decide_eq_true_iff]

/-- A search from the first second of 2026 admits a turn dated 00:00:00.5
of that day, and not one dated 23:59:59 the day before. -/
theorem searchConversation_admits_iff_midnight :
    let query : Query := ⟨"", [], 10, some ⟨⟨1767225600000000000⟩, ⟨1767229200000000000⟩⟩⟩
    query.timeRange = some ⟨⟨1767225600000000000⟩, ⟨1767229200000000000⟩⟩ ∧
      FourDigitYear ⟨1767225600000000000⟩ ∧
      (admitsStamp (searchConversationFilter query) ⟨1767225600500000000⟩ = true ↔
        (1767225600000000000 : Int) / 1000000000 * 1000000000 ≤ 1767225600500000000) :=
  ⟨rfl, by decide, searchConversation_admits_iff _ _ rfl (by decide) _⟩

/-- **A turn is found by the second of its stamp.** A turn added at `now`,
with metadata of distinct keys and no `timestamp`, is posted with the stamp
`now.formatRFC3339`, which reads back as `now` truncated to the second; the
`where` argument of a search from `Since` admits that date exactly when
`Since` is in the same second as `now` or an earlier one. -/
theorem addConversationTurn_admitted_iff (wc : WeaviateClient) (message speaker : String)
    (metadata : List (String × Json F)) (hkeys : (metadata.map Prod.fst).Nodup)
    (hstamp : metadata.lookup "timestamp" = none) (now : Time) (hnow : FourDigitYear now)
    (query : Query) (range : TimeRange) (hrange : query.timeRange = some range)
    (hsince : FourDigitYear range.since) :
    ∃ props, wc.conversationTurnObject message speaker metadata now =
        .object [("class", .string wc.config.conversationIndexName), ("properties", .object props)] ∧
      props.lookup "timestamp" = some (.string now.formatRFC3339) ∧
      parseRFC3339 now.formatRFC3339 = some ⟨now.unixNano / 1000000000 * 1000000000⟩ ∧
      (admitsStamp (searchConversationFilter query) ⟨now.unixNano / 1000000000 * 1000000000⟩ =
          true ↔ range.since.unixNano / 1000000000 ≤ now.unixNano / 1000000000) := by
  refine ⟨_, rfl, ?_, formatRFC3339_readsBack hnow.1 hnow.2, ?_⟩
  · rw [lookup_foldl_setField _ _ hkeys, hstamp]
    rfl
  · rw [admitsStamp_searchConversationFilter hrange hsince, decide_eq_true_iff]
    dsimp only
    omega

/-- A turn added half a second into 2026 is found by a search from that
day's first second. -/
theorem addConversationTurn_admitted_iff_same_second :
    let wc : WeaviateClient := ⟨"http://localhost:8080", "", defaultIndexConfig⟩
    let metadata : List (String × Json ℚ) := [("source", .string "chat")]
    let now : Time := ⟨1767225600500000000⟩
    let range : TimeRange := ⟨⟨1767225600000000000⟩, ⟨1767229200000000000⟩⟩
    let query : Query := ⟨"", [], 10, some range⟩
    (metadata.map Prod.fst).Nodup ∧ metadata.lookup "timestamp" = none ∧ FourDigitYear now ∧
      query.timeRange = some range ∧ FourDigitYear range.since ∧
      ∃ props, wc.conversationTurnObject "hello" "user" metadata now =
          .object [("class", .string wc.config.conversationIndexName),
            ("properties", .object props)] ∧
        props.lookup "timestamp" = some (.string now.formatRFC3339) ∧
        parseRFC3339 now.formatRFC3339 = some ⟨now.unixNano / 1000000000 * 1000000000⟩ ∧
        (admitsStamp (searchConversationFilter query)
            ⟨now.unixNano / 1000000000 * 1000000000⟩ = true ↔
          range.since.unixNano / 1000000000 ≤ now.unixNano / 1000000000) :=
  ⟨by decide, rfl, by decide, rfl, by decide,
    addConversationTurn_admitted_iff ⟨"http://localhost:8080", "", defaultIndexConfig⟩ "hello" "user"
      [("source", .string "chat")] (by decide) rfl _ (by decide) _ _ rfl (by decide)⟩

end AgentRag.Retriever
