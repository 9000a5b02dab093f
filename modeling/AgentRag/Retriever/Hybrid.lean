import AgentRag.Retriever.Retriever

/-!
# `SearchHybrid`: two searches, one join

`SearchHybrid` starts the static and the conversation search in two
goroutines and waits for both. Its answer depends only on what the two
client calls returned:

- both failed: a composite error;
- otherwise: `Merge` of the results, with `[]` for a failed side, cut to
  `query.Limit` records when the limit is positive. Since `Merge` sorts by
  fused score, the cut keeps the highest scores (`searchHybrid_result`).

The caller's context reaches the sub-searches only through the HTTP
requests they make. `scheduledExchange` is what a sub-search's request meets
when the context is cancelled at some point of a schedule of the two
completions and the cancellation: `Do` fails with the context's error if the
cancellation comes first, and the server's answer stands otherwise. Nothing
after `wg.Wait()` looks at the context, so a sub-search that completed
before the cancellation is merged as if nothing had happened
(`searchHybrid_keeps_results_before_cancel`).
-/

namespace AgentRag.Retriever

variable {F : Type}

/-! ## The join -/

variable [LinearOrderedField F] (P : Platform F)

/-- What can happen while `SearchHybrid` waits: a sub-search's request
completes, or the caller cancels the context. -/
inductive HybridEvent where
  | staticDone
  | convDone
  | cancel
  deriving DecidableEq, Repr

/-- The context is cancelled before `done` in the schedule. -/
def cancelledBefore (done : HybridEvent) : List HybridEvent → Bool
  | [] => false
  | e :: rest => if e = .cancel then true else if e = done then false else cancelledBefore done rest

/-- The exchange a sub-search's request meets under a schedule: `Do` fails
with the context's error if the cancellation comes before the request
completes, and the server's answer stands otherwise. -/
def scheduledExchange (wc : WeaviateClient) (schedule : List HybridEvent) (done : HybridEvent)
    (ex : Exchange (GraphQLResponse F)) : Exchange (GraphQLResponse F) :=
  if cancelledBefore done schedule then .doFailed (canceledPost wc.graphQLURL) else ex

/-- `SearchHybrid` under a schedule of the two completions and the
cancellation. -/
def AgentRAGRetriever.searchHybridUnder (r : AgentRAGRetriever F) (query : Query)
    (schedule : List HybridEvent) (staticEx convEx : Exchange (GraphQLResponse F)) (now : Time) :
    Except GoError (List (SearchResult F)) :=
  (r.searchHybrid P query (scheduledExchange r.client schedule .staticDone staticEx)
    (scheduledExchange r.client schedule .convDone convEx) now).1

/-- When the static search completes, then the context is cancelled, then
the conversation search would have completed, `SearchHybrid` succeeds with
the static results merged alone. -/
theorem searchHybrid_keeps_results_before_cancel (r : AgentRAGRetriever F)
    (hopen : r.closed = false) (query : Query) (staticEx convEx : Exchange (GraphQLResponse F))
    (now : Time) (S : List (SearchResult F)) (hS : r.client.searchStatic staticEx = .ok S) :
    r.searchHybridUnder P query [.staticDone, .cancel, .convDone] staticEx convEx now =
      .ok (applyLimit query.limit (r.merger.merge P S [] now)) := by
  simp only [AgentRAGRetriever.searchHybridUnder, scheduledExchange, cancelledBefore,
    AgentRAGRetriever.searchHybrid, hopen]
  simp [hS, searchHybridJoin, WeaviateClient.searchConversation, executeGraphQL, transportResult]

theorem searchHybrid_keeps_static_results_after_cancel :
    ∃ r : AgentRAGRetriever ℚ, newAgentRAGRetriever "http://localhost:8080" "" none none = .ok r ∧
      r.closed = false ∧
      r.client.searchStatic (F := ℚ) (.body ⟨[("Get", .object [("KnowledgeBase", .array [.object
          [("_additional", .object [("id", .string "kb-1"), ("score", .number 1)]),
            ("content", .string "Go is statically typed")]])])], []⟩) =
        .ok [⟨"kb-1", "kb-1", 1, "Go is statically typed", [], sourceStatic, none⟩] ∧
      r.searchHybridUnder (Platform.ofMath (id : ℚ → ℚ) id 1) ⟨"golang", [], 10, none⟩
          [.staticDone, .cancel, .convDone]
          (.body ⟨[("Get", .object [("KnowledgeBase", .array [.object
            [("_additional", .object [("id", .string "kb-1"), ("score", .number 1)]),
              ("content", .string "Go is statically typed")]])])], []⟩)
          (.body ⟨[], []⟩) ⟨0⟩ =
        .ok (applyLimit 10 (r.merger.merge (Platform.ofMath (id : ℚ → ℚ) id 1)
          [⟨"kb-1", "kb-1", 1, "Go is statically typed", [], sourceStatic, none⟩] [] ⟨0⟩)) :=
  ⟨_, newAgentRAGRetriever_defaults _ _, rfl, rfl,
    searchHybrid_keeps_results_before_cancel _ _ rfl _ _ _ _ _ rfl⟩

end AgentRag.Retriever
