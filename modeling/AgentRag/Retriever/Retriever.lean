import AgentRag.Retriever.Merger
import AgentRag.Retriever.Client

/-!
# `AgentRAGRetriever` as a state machine

`retriever.go` is one object behind a `sync.RWMutex`: every method takes the
lock for its whole body, so the methods of one retriever happen one after
another, each seeing the state the previous one left. `step` is one method
call: its reply, the state afterwards, and the calls it made on the
`WeaviateClient`. `run` is a history of calls.

An `Op` carries what the world supplies to the call: the arguments, the
outcome of each HTTP exchange the client makes for it, and `time.Now()`.
The client's methods (`AgentRag.Retriever.Client`) turn the exchanges into
the replies the retriever sees, so a history of `Op`s covers every
behaviour of the server and the network.

Mirroring notes vs the source:
- The pointers `config`, `indexConfig`, `merger` and `temporalDecay` are
  values: no caller can reach the retriever's copies, and `UpdateConfig`
  stores its argument, which the caller keeps, only as a value here.
- `SearchHybrid` runs its two sub-searches in goroutines and waits for both;
  the mutex is held in read mode, so no other method changes the state
  meanwhile, and the join after `wg.Wait()` sees both replies.
- `UpdateConfig(nil)` dereferences nil in `Validate` and panics; an
  `updateConfig` op carries a config.
- `NewAgentRAGRetriever`'s `client.Close()` on a failed `NewResultMerger` is
  on a client nobody else holds, and that branch is unreachable after the
  same `Validate` passed.
-/

namespace AgentRag.Retriever

variable {F : Type}

/-- `AgentRAGRetriever`. -/
structure AgentRAGRetriever (F : Type) where
  client : WeaviateClient
  merger : ResultMerger F
  config : MergeConfig F
  indexConfig : IndexConfig
  temporalDecay : TemporalDecay F
  closed : Bool

/-- A call of the retriever on its `WeaviateClient`. -/
inductive ClientCall (F : Type) where
  | searchStatic (query : Query)
  | searchConversation (query : Query)
  | addConversationTurn (message speaker : String) (metadata : List (String × Json F))
  | addKnowledgeDocument (title content : String) (metadata : List (String × Json F))
  | pruneOldConversations (maxAge : Duration)
  | healthCheck
  | close

/-- The client call is `Close`. -/
def ClientCall.isClose : ClientCall F → Bool
  | .close => true
  | _ => false

/-- A method call on the retriever, with what the world supplies to it. -/
inductive Op (F : Type) where
  | searchStatic (query : Query) (ex : Exchange (GraphQLResponse F))
  | searchConversation (query : Query) (ex : Exchange (GraphQLResponse F)) (now : Time)
  | searchHybrid (query : Query) (staticEx convEx : Exchange (GraphQLResponse F)) (now : Time)
  | addConversationTurn (message speaker : String) (metadata : List (String × Json F))
      (ex : Exchange (List (String × Json F)))
  | addKnowledgeDocument (title content : String) (metadata : List (String × Json F))
      (ex : Exchange (List (String × Json F)))
  | pruneOldConversations (maxAge : Duration) (ex : Exchange (GraphQLResponse F))
  | updateConfig (config : MergeConfig F)
  | getConfig
  | getIndexConfig
  | healthCheck (ex : Exchange (GraphQLResponse F))
  | close
  | isClosed
  | getStats

/-- The seven methods that check `closed` first. -/
def Op.guarded : Op F → Bool
  | .searchStatic .. | .searchConversation .. | .searchHybrid .. | .addConversationTurn ..
  | .addKnowledgeDocument .. | .pruneOldConversations .. | .healthCheck .. => true
  | _ => false

/-- The call is `Close`. -/
def Op.isClose : Op F → Bool
  | .close => true
  | _ => false

/-- What a method returns. -/
inductive Reply (F : Type) where
  | results (r : Except GoError (List (SearchResult F)))
  | id (r : Except GoError String)
  | count (r : Except GoError Int)
  | err (e : Option GoError)
  | config (c : MergeConfig F)
  | indexConfig (c : IndexConfig)
  | closed (b : Bool)
  | stats (s : List (String × Json F))

/-- `ErrClosedRetriever` as the reply of a guarded method. -/
def Op.closedReply : Op F → Reply F
  | .searchStatic .. | .searchConversation .. | .searchHybrid .. =>
    .results (.error errClosedRetriever)
  | .addConversationTurn .. | .addKnowledgeDocument .. => .id (.error errClosedRetriever)
  | .pruneOldConversations .. => .count (.error errClosedRetriever)
  | _ => .err (some errClosedRetriever)

/-- The reply is the error `ErrClosedRetriever`. -/
def Reply.isClosedError : Reply F → Bool
  | .results (.error e) | .id (.error e) | .count (.error e) | .err (some e) =>
    e == errClosedRetriever
  | _ => false

theorem ne_errClosedRetriever {e : GoError} (h : e.isSentinel = false) :
    (e == errClosedRetriever) = false := by
  cases e <;> simp_all [GoError.isSentinel, errClosedRetriever]

theorem Reply.isClosedError_results {x : Except GoError (List (SearchResult F))}
    (hx : NoSentinel x) : (Reply.results x).isClosedError = false := by
  cases x
  · exact ne_errClosedRetriever (hx _ rfl)
  · rfl

theorem Reply.isClosedError_id {x : Except GoError String} (hx : NoSentinel x) :
    (Reply.id x : Reply F).isClosedError = false := by
  cases x
  · exact ne_errClosedRetriever (hx _ rfl)
  · rfl

theorem Reply.isClosedError_count {x : Except GoError Int} (hx : NoSentinel x) :
    (Reply.count x : Reply F).isClosedError = false := by
  cases x
  · exact ne_errClosedRetriever (hx _ rfl)
  · rfl

/-- `mergedResults[:query.Limit]` when `query.Limit > 0` and the list is
longer. -/
def applyLimit (limit : Int) (results : List (SearchResult F)) : List (SearchResult F) :=
  if limit > 0 ∧ results.length > limit then results.take limit.toNat else results

/-- A method's result as a `Reply`, with its client calls, the retriever
left as it was. -/
def AgentRAGRetriever.keep {α : Type} (r : AgentRAGRetriever F) (reply : α → Reply F)
    (result : α × List (ClientCall F)) : Reply F × AgentRAGRetriever F × List (ClientCall F) :=
  (reply result.1, r, result.2)

@[simp] theorem AgentRAGRetriever.keep_reply {α : Type} (r : AgentRAGRetriever F)
    (reply : α → Reply F) (result : α × List (ClientCall F)) :
    (r.keep reply result).1 = reply result.1 := rfl

@[simp] theorem AgentRAGRetriever.keep_state {α : Type} (r : AgentRAGRetriever F)
    (reply : α → Reply F) (result : α × List (ClientCall F)) : (r.keep reply result).2.1 = r := rfl

@[simp] theorem AgentRAGRetriever.keep_calls {α : Type} (r : AgentRAGRetriever F)
    (reply : α → Reply F) (result : α × List (ClientCall F)) :
    (r.keep reply result).2.2 = result.2 := rfl

variable [LinearOrderedField F]

/-- `NewAgentRAGRetriever(weaviateHost, apiKey, mergeConfig, indexConfig)`. -/
def newAgentRAGRetriever (weaviateHost apiKey : String) (mergeConfig : Option (MergeConfig F))
    (indexConfig : Option IndexConfig) : Except GoError (AgentRAGRetriever F) :=
  let mergeConfig := mergeConfig.getD defaultMergeConfig
  let indexConfig := indexConfig.getD defaultIndexConfig
  match mergeConfig.validate with
  | some err => .error (.wrap "invalid config: " err)
  | none =>
    match newWeaviateClient weaviateHost apiKey (some indexConfig) with
    | .error err => .error (.wrap "failed to create client: " err)
    | .ok client =>
      match newResultMerger mergeConfig with
      | .error err => .error (.wrap "failed to create merger: " err)
      | .ok merger => .ok ⟨client, merger, mergeConfig, indexConfig,
          newTemporalDecay mergeConfig.halfLifeMinutes mergeConfig.minTemporalWeight
            mergeConfig.temporalDecayEnabled, false⟩

/-- With nil configs, `NewAgentRAGRetriever` succeeds with the defaults. -/
theorem newAgentRAGRetriever_defaults (host apiKey : String) :
    newAgentRAGRetriever (F := F) host apiKey none none = .ok
      ⟨⟨host, apiKey, defaultIndexConfig⟩,
        ⟨defaultMergeConfig, TemporalDecay.ofConfig defaultMergeConfig⟩, defaultMergeConfig,
        defaultIndexConfig, TemporalDecay.ofConfig defaultMergeConfig, false⟩ := by
  simp only [newAgentRAGRetriever, Option.getD_none,
    MergeConfig.validate_eq_none.2 defaultMergeConfig_valid, newWeaviateClient, Option.getD_some,
    newResultMerger]
  rfl

/-- `SearchHybrid` after `wg.Wait()`: a composite error when both
sub-searches failed, else the merge of what succeeded, cut to the limit. -/
def searchHybridJoin (P : Platform F) (merger : ResultMerger F) (query : Query)
    (staticReply convReply : Except GoError (List (SearchResult F))) (now : Time) :
    Except GoError (List (SearchResult F)) :=
  match staticReply, convReply with
  | .error staticErr, .error convErr =>
    .error (.text ("both searches failed: static=" ++ staticErr.error ++ ", conversation=" ++
      convErr.error))
  | _, _ =>
    let staticResults := match staticReply with
      | .ok results => results
      | .error _ => []
    let convResults := match convReply with
      | .ok results => results
      | .error _ => []
    .ok (applyLimit query.limit (merger.merge P staticResults convResults now))

/-! ## The methods

A method returns what Go returns and the calls it makes on the
`WeaviateClient`. The seven that take `r.closed` first answer
`ErrClosedRetriever` and call nothing once it is set. -/

/-- `SearchStatic(ctx, query)`. -/
def AgentRAGRetriever.searchStatic (r : AgentRAGRetriever F) (query : Query)
    (ex : Exchange (GraphQLResponse F)) :
    Except GoError (List (SearchResult F)) × List (ClientCall F) :=
  if r.closed then (.error errClosedRetriever, [])
  else (r.client.searchStatic ex, [.searchStatic query])

/-- `SearchConversation(ctx, query)`: the client's results, decayed at
`now`. -/
def AgentRAGRetriever.searchConversation (P : Platform F) (r : AgentRAGRetriever F) (query : Query)
    (ex : Exchange (GraphQLResponse F)) (now : Time) :
    Except GoError (List (SearchResult F)) × List (ClientCall F) :=
  if r.closed then (.error errClosedRetriever, [])
  else ((r.client.searchConversation ex).map (r.temporalDecay.applyToResults P · now),
    [.searchConversation query])

/-- `SearchHybrid(ctx, query)`: both client searches, joined. -/
def AgentRAGRetriever.searchHybrid (P : Platform F) (r : AgentRAGRetriever F) (query : Query)
    (staticEx convEx : Exchange (GraphQLResponse F)) (now : Time) :
    Except GoError (List (SearchResult F)) × List (ClientCall F) :=
  if r.closed then (.error errClosedRetriever, [])
  else (searchHybridJoin P r.merger query (r.client.searchStatic staticEx)
    (r.client.searchConversation convEx) now, [.searchStatic query, .searchConversation query])

/-- `AddConversationTurn(ctx, message, speaker, metadata)`. -/
def AgentRAGRetriever.addConversationTurn (r : AgentRAGRetriever F) (message speaker : String)
    (metadata : List (String × Json F)) (ex : Exchange (List (String × Json F))) :
    Except GoError String × List (ClientCall F) :=
  if r.closed then (.error errClosedRetriever, [])
  else (WeaviateClient.addConversationTurn ex, [.addConversationTurn message speaker metadata])

/-- `AddKnowledgeDocument(ctx, title, content, metadata)`. -/
def AgentRAGRetriever.addKnowledgeDocument (r : AgentRAGRetriever F) (title content : String)
    (metadata : List (String × Json F)) (ex : Exchange (List (String × Json F))) :
    Except GoError String × List (ClientCall F) :=
  if r.closed then (.error errClosedRetriever, [])
  else (WeaviateClient.addKnowledgeDocument ex, [.addKnowledgeDocument title content metadata])

/-- `PruneOldConversations(ctx, maxAge)`. -/
def AgentRAGRetriever.pruneOldConversations (r : AgentRAGRetriever F) (maxAge : Duration)
    (ex : Exchange (GraphQLResponse F)) : Except GoError Int × List (ClientCall F) :=
  if r.closed then (.error errClosedRetriever, [])
  else (WeaviateClient.pruneOldConversations ex, [.pruneOldConversations maxAge])

/-- `UpdateConfig(config)`: the retriever afterwards, and the error. After
`Validate` passes it stores the config, calls `SetConfig` (which validates
again; its result is ignored) and builds a new decay. -/
def AgentRAGRetriever.updateConfig (r : AgentRAGRetriever F) (config : MergeConfig F) :
    AgentRAGRetriever F × Option GoError :=
  match config.validate with
  | some err => (r, some err)
  | none =>
    ({ r with
        config := config
        merger := (r.merger.setConfig config).1
        temporalDecay := newTemporalDecay config.halfLifeMinutes config.minTemporalWeight
          config.temporalDecayEnabled }, none)

/-- `HealthCheck(ctx)`. -/
def AgentRAGRetriever.healthCheck (r : AgentRAGRetriever F) (ex : Exchange (GraphQLResponse F)) :
    Option GoError × List (ClientCall F) :=
  if r.closed then (some errClosedRetriever, []) else (WeaviateClient.healthCheck ex, [.healthCheck])

/-- `Close()`: the retriever afterwards, the error, and the client calls. -/
def AgentRAGRetriever.close (r : AgentRAGRetriever F) :
    AgentRAGRetriever F × Option GoError × List (ClientCall F) :=
  if r.closed then (r, none, []) else ({ r with closed := true }, WeaviateClient.close, [.close])

/-- `GetStats()`. -/
def AgentRAGRetriever.getStats (r : AgentRAGRetriever F) : List (String × Json F) :=
  [("closed", .bool r.closed), ("algorithm", .string r.config.algorithm),
    ("staticWeight", .number r.config.staticWeight),
    ("conversationWeight", .number r.config.conversationWeight),
    ("temporalDecayEnabled", .bool r.config.temporalDecayEnabled),
    ("halfLifeMinutes", .number r.config.halfLifeMinutes),
    ("staticIndex", .string r.indexConfig.staticIndexName),
    ("conversationIndex", .string r.indexConfig.conversationIndexName)]

/-! ## Runs -/

/-- One method call: its reply, the retriever afterwards, and its client
calls. `GetConfig`, `GetIndexConfig` and `IsClosed` return the field. -/
def AgentRAGRetriever.step (P : Platform F) (r : AgentRAGRetriever F) :
    Op F → Reply F × AgentRAGRetriever F × List (ClientCall F)
  | .searchStatic query ex => r.keep .results (r.searchStatic query ex)
  | .searchConversation query ex now => r.keep .results (r.searchConversation P query ex now)
  | .searchHybrid query staticEx convEx now =>
    r.keep .results (r.searchHybrid P query staticEx convEx now)
  | .addConversationTurn message speaker metadata ex =>
    r.keep .id (r.addConversationTurn message speaker metadata ex)
  | .addKnowledgeDocument title content metadata ex =>
    r.keep .id (r.addKnowledgeDocument title content metadata ex)
  | .pruneOldConversations maxAge ex => r.keep .count (r.pruneOldConversations maxAge ex)
  | .updateConfig config => (.err (r.updateConfig config).2, (r.updateConfig config).1, [])
  | .getConfig => (.config r.config, r, [])
  | .getIndexConfig => (.indexConfig r.indexConfig, r, [])
  | .healthCheck ex => r.keep .err (r.healthCheck ex)
  | .close => (.err r.close.2.1, r.close.1, r.close.2.2)
  | .isClosed => (.closed r.closed, r, [])
  | .getStats => (.stats r.getStats, r, [])

/-- A history of method calls: the replies, the final state, and every
client call in order. -/
def AgentRAGRetriever.run (P : Platform F) :
    AgentRAGRetriever F → List (Op F) → List (Reply F) × AgentRAGRetriever F × List (ClientCall F)
  | r, [] => ([], r, [])
  | r, op :: ops =>
    let (reply, r', calls) := r.step P op
    let (replies, r'', calls') := r'.run P ops
    (reply :: replies, r'', calls ++ calls')

/-- The state after a history. -/
def AgentRAGRetriever.after (P : Platform F) (r : AgentRAGRetriever F) (ops : List (Op F)) :
    AgentRAGRetriever F :=
  (r.run P ops).2.1

end AgentRag.Retriever
