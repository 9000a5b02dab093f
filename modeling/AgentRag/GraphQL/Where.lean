import AgentRag.Retriever.Client
import AgentRag.GraphQL.Grammar

/-!
# Where-clauses as a GraphQL server reads them

`buildWhereRecursive` writes a `WhereFilter` as an input-object literal:
`operator:` and `path:[...]` with the names bare, `value:` with `%v`, and the
operands as nested literals. Read back by the grammar of
`AgentRag.GraphQL.Grammar`, an operator or a path segment is an enum value,
which is the reading Weaviate gives them.

A value is printed by `%v`, and `%v` of a Go string is the string itself,
without quotes. So a string value is not a `StringValue` in the emitted
text: `value:user` reads back as the enum value `user`, and the RFC 3339
cutoff of `PruneOldConversations` (`value:2026-01-01T00:00:00Z`) is not a
sequence of GraphQL tokens at all, since `2026` is an `IntValue` and `-01`
one that a digit follows.

`decodeWhere` is the reading a round trip needs: `operator` an enum value,
`path` a list of them, `value` a string, integer or boolean literal,
`operands` a list of filters, an absent field the empty component.
-/

namespace AgentRag.GraphQL

open Retriever

/-- An enum value's name: how a bare `Name` reads back. -/
def enumName : Value → Option String
  | .enumValue n => some n
  | _ => none

/-- The integer an `IntValue`'s text (an optional `-` and digits) denotes. -/
def intValueOf (text : String) : Int :=
  let digits (ds : List Char) : Nat := ds.foldl (fun n d => 10 * n + (d.toNat - '0'.toNat)) 0
  match text.toList with
  | '-' :: ds => -(digits ds : Int)
  | ds => digits ds

/-- A filter value read back from a string, integer or boolean literal. -/
def decodeWhereValue : Value → Option WhereValue
  | .stringValue s => some (.string s)
  | .intValue t => some (.int (intValueOf t))
  | .booleanValue b => some (.bool b)
  | _ => none

/-- The filter an object literal denotes; `fuel` bounds the nesting. -/
def decodeWhere : Nat → Value → Option WhereFilter
  | 0, _ => none
  | fuel + 1, .objectValue fields => do
    let operator ← match fields.lookup "operator" with
      | none => some ""
      | some v => enumName v
    let path ← match fields.lookup "path" with
      | none => some []
      | some (.listValue vs) => vs.mapM enumName
      | some _ => none
    let value ← match fields.lookup "value" with
      | none => some .nil
      | some v => decodeWhereValue v
    let operands ← match fields.lookup "operands" with
      | none => some []
      | some (.listValue vs) => vs.mapM (decodeWhere fuel)
      | some _ => none
    pure ⟨operator, path, value, operands⟩
  | _ + 1, _ => none

/-- A where-clause text read back as a filter. -/
def decodeWhereClause (text : String) : Option WhereFilter :=
  (parseConstValue text).bind (decodeWhere (text.length + 1))

example : (decodeWhereClause "\x7boperator:GreaterThan,path:[count],value:5\x7d").map
    buildWhereRecursive = some "\x7boperator:GreaterThan,path:[count],value:5\x7d" := by decide

set_option maxRecDepth 2000 in
/-- String values do not survive the builder: the speaker filter of the
builder's tests reads back with the enum value `user` and so as no filter,
and the document `PruneOldConversations` sends a day after 2026-01-01 with a
one-day `maxAge` is not GraphQL. -/
theorem buildWhereClause_string_value_unquoted (qb : QueryBuilder) (host apiKey : String) :
    qb.buildWhereClause ⟨"Equal", ["speaker"], .string "user", []⟩ =
        "\x7boperator:Equal,path:[speaker],value:user\x7d" ∧
      decodeWhereClause (qb.buildWhereClause ⟨"Equal", ["speaker"], .string "user", []⟩) = none ∧
      tokenize ((WeaviateClient.mk host apiKey defaultIndexConfig).pruneQuery
        ⟨1767312000000000000⟩ ⟨86400000000000⟩) = none :=
  ⟨show buildWhereRecursive _ = _ by decide, rfl,
    show tokenize ((newQueryBuilder defaultIndexConfig.conversationIndexName 0).batchDeleteQuery
      (pruneFilter (Time.add _ (Duration.neg _)))) = none by decide⟩

end AgentRag.GraphQL
