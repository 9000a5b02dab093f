import AgentRag.Retriever.Types
import AgentRag.GraphQL.Builder

/-!
# `WeaviateClient`: the requests the retriever's client sends

`WeaviateClient` turns each retriever call into one HTTP request to
Weaviate: a GraphQL document posted to `<host>/v1/graphql`, or a JSON object
posted to `<host>/v1/objects`. This file models the documents it builds and
how `executeGraphQL` turns the outcome of the exchange into data or an
error.

What the network does is not the client's to decide: an `Exchange` is the
outcome of one HTTP exchange as `executeGraphQL` observes it, from a failed
`http.NewRequestWithContext` to a decoded response body.

Mirroring notes vs the source:
- `time.Now().UTC()` is an argument `now`.
- A decoded JSON object is a list of fields with distinct keys, and `m[k]`
  is `List.lookup`. Go ranges over `metadata` in a random order, but its
  keys are distinct and each iteration sets its own key, so the object sent
  is the same map in every order; `setField` folds it in list order.
- `json.Marshal` of the request bodies cannot fail on these values: its
  error branches are left out.
- `httpClient`'s thirty-second timeout shows only as an `Exchange` whose
  `Do` failed, like any other transport error.
- `url.Error` prints its URL with `%q`; it is written here between double
  quotes, which is what `%q` prints for a URL of printable characters other
  than a double quote or a backslash.
-/

namespace AgentRag.Retriever

open GraphQL

variable {F : Type}

/-- `WeaviateClient`: the fields its methods read. -/
structure WeaviateClient where
  host : String
  apiKey : String
  config : IndexConfig

/-- `NewWeaviateClient(host, apiKey, config)`: a nil config is
`DefaultIndexConfig()`; it never fails. -/
def newWeaviateClient (host apiKey : String) (config : Option IndexConfig) :
    Except GoError WeaviateClient :=
  .ok ⟨host, apiKey, config.getD defaultIndexConfig⟩

/-! ## The GraphQL documents -/

/-- The document `SearchStatic` sends: a hybrid query on the static index
with `alpha = 0.5`. -/
def WeaviateClient.searchStaticQuery (wc : WeaviateClient) (query : Query) : String :=
  (newQueryBuilder wc.config.staticIndexName query.limit).hybridQuery query.text query.vector
    (1 / 2)

/-- The document `SearchConversation` sends: a `nearVector` query on the
conversation index, filtered from `TimeRange.Since` when there is a range. -/
def WeaviateClient.searchConversationQuery (wc : WeaviateClient) (query : Query) : String :=
  let sinceTime := match query.timeRange with
    | some tr => tr.since.formatRFC3339
    | none => ""
  (newQueryBuilder wc.config.conversationIndexName query.limit).conversationQuery query.vector
    sinceTime

/-- The filter `PruneOldConversations` sends: records whose `timestamp` is
before the cutoff, written in RFC 3339. -/
def pruneFilter (cutoffTime : Time) : WhereFilter :=
  ⟨"LessThan", ["timestamp"], .string cutoffTime.formatRFC3339, []⟩

/-- The document `PruneOldConversations` sends at `now`: a batch delete on
the conversation index of everything older than `now - maxAge`. -/
def WeaviateClient.pruneQuery (wc : WeaviateClient) (now : Time) (maxAge : Duration) : String :=
  (newQueryBuilder wc.config.conversationIndexName 0).batchDeleteQuery
    (pruneFilter (now.add maxAge.neg))

/-- The document `HealthCheck` sends. -/
def healthCheckQuery : String := "\x7bMeta\x7bhostname\x7d\x7d"

/-! ## `executeGraphQL` -/

/-- A decoded `GraphQLResponse`: `data`, and the messages of `errors`. -/
structure GraphQLResponse (F : Type) where
  data : List (String × Json F)
  errors : List String

/-- The outcome of one HTTP exchange as the client observes it, in the order
of the source's checks. -/
inductive Exchange (α : Type) where
  /-- `http.NewRequestWithContext` failed. -/
  | createFailed (err : GoError)
  /-- `httpClient.Do` failed: a transport error, the timeout, or the
  caller's context cancelled before the response arrived. -/
  | doFailed (err : GoError)
  /-- `io.ReadAll` of the body failed. -/
  | readFailed (err : GoError)
  /-- `json.Unmarshal` of the body failed. -/
  | parseFailed (err : GoError)
  /-- The decoded body. -/
  | body (decoded : α)

/-- `url.Error.Error()`: `<op> "<url>": <err>`. -/
def urlError (op url : String) (err : GoError) : GoError :=
  .wrap (op ++ " \"" ++ url ++ "\": ") err

/-- What `httpClient.Do` returns for a request to `url` whose context was
cancelled before the response arrived. -/
def canceledPost (url : String) : GoError := urlError "Post" url contextCanceled

/-- The URL `executeGraphQL` posts to. -/
def WeaviateClient.graphQLURL (wc : WeaviateClient) : String := wc.host ++ "/v1/graphql"

/-- The transport half of `executeGraphQL`: each failed step wrapped with
its context. -/
def transportResult {α : Type} : Exchange α → Except GoError α
  | .createFailed err => .error (.wrap "failed to create request: " err)
  | .doFailed err => .error (.wrap "request failed: " err)
  | .readFailed err => .error (.wrap "failed to read response: " err)
  | .parseFailed err => .error (.wrap "failed to parse response: " err)
  | .body decoded => .ok decoded

/-- `(*WeaviateClient).executeGraphQL(ctx, query)`: the response's `data`,
unless the exchange failed or the response has errors, of which the first
is reported. -/
def executeGraphQL (ex : Exchange (GraphQLResponse F)) : Except GoError (List (String × Json F)) :=
  match transportResult ex with
  | .error err => .error err
  | .ok resp =>
    match resp.errors with
    | msg :: _ => .error (.text ("GraphQL error: " ++ msg))
    | [] => .ok resp.data

/-! ## Reading search results -/

section Results

variable [LinearOrderedField F]

/-- The loop of `parseSearchResults` over `path`: descend through objects. -/
def navigatePath : Json F → List String → Except GoError (Json F)
  | current, [] => .ok current
  | .object m, key :: rest =>
    match m.lookup key with
    | some v => navigatePath v rest
    | none => .error (.text ("key not found: " ++ key))
  | _, key :: _ => .error (.text ("unexpected type at path " ++ key))

/-- The keys `extractSearchResult` does not copy into `Metadata`. -/
def reservedKeys : List String := ["_additional", "message", "content", "title"]

/-- `(*WeaviateClient).extractSearchResult(objMap)`: `ID` and `Score` from
`_additional` when they have the right type, `Text` from the first of
`message`, `content` and `title` that is a string (and then `DocID := ID`),
and every other key in `Metadata`. -/
def extractSearchResult (objMap : List (String × Json F)) : SearchResult F :=
  let (id, score) : String × F := match objMap.lookup "_additional" with
    | some (.object additional) =>
      ((match additional.lookup "id" with
        | some (.string id) => id
        | _ => ""),
       (match additional.lookup "score" with
        | some (.number score) => score
        | _ => 0))
    | _ => ("", 0)
  let text : Option String :=
    match objMap.lookup "message", objMap.lookup "content", objMap.lookup "title" with
    | some (.string message), _, _ => some message
    | _, some (.string content), _ => some content
    | _, _, some (.string title) => some title
    | _, _, _ => none
  { id := id
    docId := if text.isSome then id else ""
    score := score
    text := text.getD ""
    metadata := objMap.filter fun field => field.1 ∉ reservedKeys
    source := ⟨""⟩
    timestamp := none }

/-- The objects of the array at the end of the path, each read by `read`;
anything else there gives no results, and elements that are not objects are
skipped. -/
def collectResults (read : List (String × Json F) → SearchResult F) :
    Json F → List (SearchResult F)
  | .array objects => objects.filterMap fun
    | .object objMap => some (read objMap)
    | _ => none
  | _ => []

/-- `(*WeaviateClient).parseSearchResults(data, path)`. -/
def parseSearchResults (data : List (String × Json F)) (path : List String) :
    Except GoError (List (SearchResult F)) :=
  (navigatePath (.object data) path).map <| collectResults fun objMap =>
    { extractSearchResult objMap with source := sourceStatic }

/-- `(*WeaviateClient).parseConversationResults(data, path)`: as
`parseSearchResults`, with the conversation source and the `timestamp`
field's time when it is an RFC 3339 string. -/
def parseConversationResults (data : List (String × Json F)) (path : List String) :
    Except GoError (List (SearchResult F)) :=
  (navigatePath (.object data) path).map <| collectResults fun objMap =>
    { extractSearchResult objMap with
      source := sourceConversation
      timestamp := match objMap.lookup "timestamp" with
        | some (.string tsStr) => parseRFC3339 tsStr
        | _ => none }

/-! ## The client's methods

Each method takes the exchange its request met; the request itself is the
document or object above. -/

/-- `(*WeaviateClient).SearchStatic(ctx, query)`. -/
def WeaviateClient.searchStatic (wc : WeaviateClient) (ex : Exchange (GraphQLResponse F)) :
    Except GoError (List (SearchResult F)) :=
  match executeGraphQL ex with
  | .error err => .error (.wrap "static search failed: " err)
  | .ok response => parseSearchResults response (getResultPath wc.config.staticIndexName)

/-- `(*WeaviateClient).SearchConversation(ctx, query)`. -/
def WeaviateClient.searchConversation (wc : WeaviateClient)
    (ex : Exchange (GraphQLResponse F)) : Except GoError (List (SearchResult F)) :=
  match executeGraphQL ex with
  | .error err => .error (.wrap "conversation search failed: " err)
  | .ok response =>
    parseConversationResults response (getResultPath wc.config.conversationIndexName)

end Results

/-- `m[k] = v` on a decoded object: the field replaced, or added. -/
def setField (m : List (String × Json F)) (k : String) (v : Json F) : List (String × Json F) :=
  if (m.lookup k).isSome then m.map fun field => if field.1 = k then (k, v) else field
  else m ++ [(k, v)]

/-- The object `AddConversationTurn` posts at `now`: message, speaker and
timestamp, then every metadata entry set over them. -/
def WeaviateClient.conversationTurnObject (wc : WeaviateClient) (message speaker : String)
    (metadata : List (String × Json F)) (now : Time) : Json F :=
  .object [("class", .string wc.config.conversationIndexName),
    ("properties", .object (metadata.foldl (fun props field => setField props field.1 field.2)
      [("message", .string message), ("speaker", .string speaker),
        ("timestamp", .string now.formatRFC3339)]))]

/-- The object `AddKnowledgeDocument` posts at `now`: title, content and
`updatedAt`, then every metadata entry set over them. -/
def WeaviateClient.knowledgeDocumentObject (wc : WeaviateClient) (title content : String)
    (metadata : List (String × Json F)) (now : Time) : Json F :=
  .object [("class", .string wc.config.staticIndexName),
    ("properties", .object (metadata.foldl (fun props field => setField props field.1 field.2)
      [("title", .string title), ("content", .string content),
        ("updatedAt", .string now.formatRFC3339)]))]

/-- `(*WeaviateClient).createObject(ctx, object)`: the `id` of the created
object, which must be a string. -/
def createObject (ex : Exchange (List (String × Json F))) : Except GoError String :=
  match transportResult ex with
  | .error err => .error err
  | .ok result =>
    match result.lookup "id" with
    | some (.string id) => .ok id
    | _ => .error (.text "no ID in response")

/-- `(*WeaviateClient).AddConversationTurn(ctx, message, speaker, metadata)`. -/
def WeaviateClient.addConversationTurn (ex : Exchange (List (String × Json F))) :
    Except GoError String :=
  match createObject ex with
  | .error err => .error (.wrap "failed to add conversation turn: " err)
  | .ok id => .ok id

/-- `(*WeaviateClient).AddKnowledgeDocument(ctx, title, content, metadata)`. -/
def WeaviateClient.addKnowledgeDocument (ex : Exchange (List (String × Json F))) :
    Except GoError String :=
  match createObject ex with
  | .error err => .error (.wrap "failed to add document: " err)
  | .ok id => .ok id

/-- `(*WeaviateClient).executeBatchDelete(ctx, query)`: the count is always
`0`. -/
def executeBatchDelete (ex : Exchange (GraphQLResponse F)) : Except GoError Int :=
  match executeGraphQL ex with
  | .error err => .error err
  | .ok _ => .ok 0

/-- `(*WeaviateClient).PruneOldConversations(ctx, maxAge)`; on an error the
count Go returns with it is `0`. -/
def WeaviateClient.pruneOldConversations (ex : Exchange (GraphQLResponse F)) :
    Except GoError Int :=
  match executeBatchDelete ex with
  | .error err => .error (.wrap "pruning failed: " err)
  | .ok count => .ok count

/-- `(*WeaviateClient).HealthCheck(ctx)`. -/
def WeaviateClient.healthCheck (ex : Exchange (GraphQLResponse F)) : Option GoError :=
  match executeGraphQL ex with
  | .error err => some err
  | .ok _ => none

/-- `(*WeaviateClient).Close()`: closes idle connections and returns nil. -/
def WeaviateClient.close : Option GoError := none

/-! ## The client's errors

Every error the client returns is made by `fmt.Errorf`, never a sentinel:
so no reply of the client is one of the retriever's sentinels. -/

/-- Every error `x` can be is made by `fmt.Errorf`. -/
def NoSentinel {α : Type} (x : Except GoError α) : Prop := ∀ e, x = .error e → e.isSentinel = false

theorem noSentinel_map {α β : Type} {x : Except GoError α} (f : α → β) (hx : NoSentinel x) :
    NoSentinel (x.map f) := by
  intro e he
  cases x <;> simp_all [Except.map, NoSentinel]

theorem noSentinel_transportResult {α : Type} (ex : Exchange α) : NoSentinel (transportResult ex) := by
  cases ex <;> simp [NoSentinel, transportResult, GoError.isSentinel]

theorem noSentinel_executeGraphQL (ex : Exchange (GraphQLResponse F)) :
    NoSentinel (executeGraphQL ex) := by
  intro e he
  unfold executeGraphQL at he
  split at he
  · exact noSentinel_transportResult ex e (by simp_all)
  · split at he
    · cases he; rfl
    · cases he

theorem noSentinel_navigatePath (current : Json F) (path : List String) :
    NoSentinel (navigatePath current path) := by
  induction path generalizing current with
  | nil => simp [NoSentinel, navigatePath]
  | cons key rest ih =>
    intro e he
    cases current
    case object m =>
      simp only [navigatePath] at he
      split at he
      · exact ih _ e he
      · cases he; rfl
    all_goals simp only [navigatePath] at he; cases he; rfl

section Methods

variable [LinearOrderedField F]

theorem noSentinel_searchStatic (wc : WeaviateClient) (ex : Exchange (GraphQLResponse F)) :
    NoSentinel (wc.searchStatic ex) := by
  unfold WeaviateClient.searchStatic
  split
  · simp [NoSentinel, GoError.isSentinel]
  · exact noSentinel_map _ (noSentinel_navigatePath _ _)

theorem noSentinel_searchConversation (wc : WeaviateClient) (ex : Exchange (GraphQLResponse F)) :
    NoSentinel (wc.searchConversation ex) := by
  unfold WeaviateClient.searchConversation
  split
  · simp [NoSentinel, GoError.isSentinel]
  · exact noSentinel_map _ (noSentinel_navigatePath _ _)

end Methods

theorem noSentinel_addConversationTurn (ex : Exchange (List (String × Json F))) :
    NoSentinel (WeaviateClient.addConversationTurn ex) := by
  unfold WeaviateClient.addConversationTurn
  split <;> simp [NoSentinel, GoError.isSentinel]

theorem noSentinel_addKnowledgeDocument (ex : Exchange (List (String × Json F))) :
    NoSentinel (WeaviateClient.addKnowledgeDocument ex) := by
  unfold WeaviateClient.addKnowledgeDocument
  split <;> simp [NoSentinel, GoError.isSentinel]

theorem noSentinel_pruneOldConversations (ex : Exchange (GraphQLResponse F)) :
    NoSentinel (WeaviateClient.pruneOldConversations ex) := by
  unfold WeaviateClient.pruneOldConversations
  split <;> simp [NoSentinel, GoError.isSentinel]

theorem healthCheck_not_sentinel (ex : Exchange (GraphQLResponse F)) (e : GoError)
    (h : WeaviateClient.healthCheck ex = some e) : e.isSentinel = false := by
  unfold WeaviateClient.healthCheck at h
  split at h
  · exact noSentinel_executeGraphQL ex e (by simp_all)
  · simp at h

end AgentRag.Retriever
