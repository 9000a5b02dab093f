import AgentRag.Retriever.Client

/-!
# The time range of a conversation search

`SearchConversation` hands `ConversationQuery` one string, `sinceTime`:
`Query.TimeRange.Since` formatted with `time.RFC3339`, or `""` when the
query has no range. `ConversationQuery` writes a `where` argument from it
when it is not empty,

  `where:{operator:GreaterThanEqual,path:["timestamp"],valueDate:"<sinceTime>"}`

and none otherwise. `DateFilter` is that argument as a value, and
`conversationQuery_filter` shows the document carries exactly its text.

What Weaviate does with the argument is not the client's code:
`DateFilter.admits` is its reading, `valueDate` parsed as RFC 3339 and
`GreaterThanEqual` compared with the record's date. Over it:

- without a range the request has no `where` argument and every record
  passes;
- `TimeRange.Until` is read nowhere on this path, and the one bound the
  request carries is a lower one, so the stamps it admits are closed upwards
  (`searchConversation_admits_upward`): a request that admits a record at
  `Since` admits every record after `Until` too;
- `time.RFC3339` writes whole seconds, so a `Since` inside a second is moved
  back to the start of that second.
-/

namespace AgentRag.Retriever

open GraphQL

/-- A `where` argument comparing a date property with `valueDate`. -/
structure DateFilter where
  operator : String
  path : List String
  valueDate : String

/-- The argument's text, in the form `ConversationQuery` writes it. -/
def DateFilter.render (f : DateFilter) : String :=
  "\x7boperator:" ++ f.operator ++ ",path:[" ++
    ",".intercalate (f.path.map fun p => "\"" ++ p ++ "\"") ++ "],valueDate:\"" ++
    f.valueDate ++ "\"\x7d"

/-- The `where` argument `ConversationQuery(vector, sinceTime)` writes. -/
def conversationFilter (sinceTime : String) : Option DateFilter :=
  if sinceTime ≠ "" then some ⟨"GreaterThanEqual", ["timestamp"], sinceTime⟩ else none

/-- `ConversationQuery`'s document is the `nearVector` query with the text
of `conversationFilter` in its arguments. -/
theorem conversationQuery_filter (qb : QueryBuilder) (vector : List ℚ) (sinceTime : String) :
    qb.conversationQuery vector sinceTime =
      "\x7b Get \x7b " ++ qb.className ++ "(nearVector:\x7bvector:[" ++ formatVector vector ++
        "]\x7d" ++ (conversationFilter sinceTime).elim "" (",where:" ++ ·.render) ++ ",limit:" ++
        toString qb.limit ++
        ")\x7b_additional\x7bid,score\x7dmessage,speaker,timestamp\x7d\x7d\x7d" := by
  unfold QueryBuilder.conversationQuery conversationFilter
  split_ifs
  · simp [DateFilter.render, String.intercalate, String.intercalate.go, ← String.append_assoc]
  · rfl

/-- The `where` argument of the document `SearchConversation` sends for
`query`. -/
def searchConversationFilter (query : Query) : Option DateFilter :=
  conversationFilter (match query.timeRange with
    | some tr => tr.since.formatRFC3339
    | none => "")

theorem searchConversationQuery_filter (wc : WeaviateClient) (query : Query) :
    wc.searchConversationQuery query =
      "\x7b Get \x7b " ++ wc.config.conversationIndexName ++ "(nearVector:\x7bvector:[" ++
        formatVector query.vector ++ "]\x7d" ++
        (searchConversationFilter query).elim "" (",where:" ++ ·.render) ++ ",limit:" ++
        toString query.limit ++
        ")\x7b_additional\x7bid,score\x7dmessage,speaker,timestamp\x7d\x7d\x7d" :=
  conversationQuery_filter _ _ _

/-- Weaviate's reading of a date filter on a record dated `ts`: `valueDate`
is read as RFC 3339, and `GreaterThanEqual` keeps the record when `ts` is at
or after it. The client sends no other operator with a `valueDate`; a
`valueDate` Weaviate cannot read fails the query, and no record comes back. -/
def DateFilter.admits (f : DateFilter) (ts : Time) : Bool :=
  match parseRFC3339 f.valueDate with
  | some d => f.operator == "GreaterThanEqual" && decide (d.unixNano ≤ ts.unixNano)
  | none => false

/-- A date filter admits every stamp after one it admits. -/
theorem DateFilter.admits_mono (f : DateFilter) {ts ts' : Time} (hle : ts.unixNano ≤ ts'.unixNano) :
    f.admits ts = true → f.admits ts' = true := by
  unfold DateFilter.admits
  rcases parseRFC3339 f.valueDate with _ | d
  · exact id
  · simp only [Bool.and_eq_true, decide_eq_true_eq]
    exact fun h => ⟨h.1, h.2.trans hle⟩

/-- Whether a request with this `where` argument, if any, returns a record
dated `ts`. -/
def admitsStamp (filter : Option DateFilter) (ts : Time) : Bool :=
  filter.elim true (·.admits ts)

/-- **The conversation search has no upper time bound.** Without a range
every record passes; with one, the stamps the request admits are closed
upwards, whatever `TimeRange.Until` is. -/
theorem searchConversation_admits_upward (query : Query) :
    (query.timeRange = none → ∀ ts, admitsStamp (searchConversationFilter query) ts = true) ∧
      ∀ ts ts' : Time, ts.unixNano ≤ ts'.unixNano →
        admitsStamp (searchConversationFilter query) ts = true →
        admitsStamp (searchConversationFilter query) ts' = true := by
  refine ⟨fun h ts => by simp [searchConversationFilter, h, conversationFilter, admitsStamp],
    fun ts ts' hle => ?_⟩
  rcases searchConversationFilter query with _ | f
  · exact fun _ => rfl
  · exact f.admits_mono hle

/-- `Since` 00:00, `Until` 01:00: a turn stamped 02:00 is returned. -/
example : admitsStamp (searchConversationFilter ⟨"", [], 10,
    some ⟨⟨1767225600000000000⟩, ⟨1767229200000000000⟩⟩⟩) ⟨1767232800000000000⟩ = true := by
  decide

/-- `Since` half a second after 00:00: a turn stamped 00:00 is returned. -/
example : admitsStamp (searchConversationFilter ⟨"", [], 10,
    some ⟨⟨1767225600500000000⟩, ⟨1767229200000000000⟩⟩⟩) ⟨1767225600000000000⟩ = true := by
  decide

end AgentRag.Retriever
