import Mathlib.Algebra.Order.Field.Rat
import Mathlib.Data.Rat.Defs

/-!
# `QueryBuilder`: the GraphQL text the client sends

`graphql/builder.go` turns a search into one GraphQL document with
`fmt.Sprintf`. Every function here is that function: the same constant text
around the same placeholders, with `%s` as concatenation, `%d` as
`toString` of an `Int`, and `%.Nf` as `formatFixed N`.

Mirroring notes vs the source:
- Go's format strings contain braces, which are written `\x7b` and `\x7d`
  in the string literals below. `"\x7b Get \x7b "` is the source's
  `{ Get { `.
- `float32` and `float64` arguments are exact rationals here; `%.Nf` of a
  binary float rounds its exact decimal expansion to `N` places with ties
  to even, as `formatFixed` does.
- `strings.ReplaceAll(s, old, new)` is only ever called with a one-character
  `old`, so `replaceAll` takes a `Char`.
- `WhereFilter.Value` is an `interface{}` printed with `%v`. `WhereValue`
  computes that text for strings (the only values the package's callers
  pass), integers and booleans; a value of any other dynamic type (a
  `float64`, whose `%v` is `strconv`'s shortest round-trip digits, a slice,
  a map) is carried with the text `%v` prints for it. `nil` is the zero
  value the builder skips.
-/

namespace AgentRag.GraphQL

/-- `QueryBuilder`. -/
structure QueryBuilder where
  className : String
  limit : Int

/-- `NewQueryBuilder(className, limit)`. -/
def newQueryBuilder (className : String) (limit : Int) : QueryBuilder := ⟨className, limit⟩

/-! ## Formatting numbers and vectors -/

/-- A nonnegative rational rounded to a natural number, ties to even. -/
def roundHalfEven (q : ℚ) : Nat :=
  let m := q.num.natAbs / q.den
  let r := q.num.natAbs % q.den
  if 2 * r < q.den then m
  else if 2 * r > q.den then m + 1
  else if m % 2 = 0 then m else m + 1

/-- `fmt.Sprintf("%.<prec>f", x)`: a sign for a negative value, the integer
part, and `prec` fractional digits. -/
def formatFixed (prec : Nat) (x : ℚ) : String :=
  let m := roundHalfEven (|x| * 10 ^ prec)
  let fracDigits := toString (m % 10 ^ prec)
  let fracPart := String.mk (List.replicate (prec - fracDigits.length) '0') ++ fracDigits
  (if x < 0 then "-" else "") ++ toString (m / 10 ^ prec) ++
    (if prec = 0 then "" else "." ++ fracPart)


/-- `formatVector(vector)`: each component with `%.6f`, joined by commas. -/
def formatVector (vector : List ℚ) : String :=
  if vector.length = 0 then "" else ",".intercalate (vector.map (formatFixed 6))

/-! ## Escaping -/

/-- `strings.ReplaceAll(s, old, new)` for a one-character `old`. -/
def replaceAll (s : String) (old : Char) (new : String) : String :=
  ⟨s.toList.flatMap fun c => if c = old then new.toList else [c]⟩

/-- `escapeGraphQL(s)`: five replacements, backslash first. -/
def escapeGraphQL (s : String) : String :=
  let s := replaceAll s '\\' "\\\\"
  let s := replaceAll s '"' "\\\""
  let s := replaceAll s '\n' "\\n"
  let s := replaceAll s '\r' "\\r"
  replaceAll s '\t' "\\t"

/-! ## Queries -/

/-- `(*QueryBuilder).buildFieldList()`. -/
def QueryBuilder.buildFieldList (qb : QueryBuilder) : String :=
  if qb.className = "Conversation" then "message,speaker,timestamp" else "title,content"

/-- `(*QueryBuilder).HybridQuery(queryText, vector, alpha)`. -/
def QueryBuilder.hybridQuery (qb : QueryBuilder) (queryText : String) (vector : List ℚ)
    (alpha : ℚ) : String :=
  "\x7b Get \x7b " ++ qb.className ++ "(hybrid:\x7bquery:\"" ++ escapeGraphQL queryText ++
    "\",vector:[" ++ formatVector vector ++ "],alpha:" ++ formatFixed 2 alpha ++
    "\x7d,limit:" ++ toString qb.limit ++ ")\x7b_additional\x7bid,score,vector\x7d" ++
    qb.buildFieldList ++ "\x7d\x7d\x7d"

/-- `(*QueryBuilder).NearVectorQuery(vector, certainty)`. -/
def QueryBuilder.nearVectorQuery (qb : QueryBuilder) (vector : List ℚ) (certainty : ℚ) :
    String :=
  let certaintyClause := if certainty > 0 then ",certainty:" ++ formatFixed 4 certainty else ""
  "\x7b Get \x7b " ++ qb.className ++ "(nearVector:\x7bvector:[" ++ formatVector vector ++ "]" ++
    certaintyClause ++ "\x7d,limit:" ++ toString qb.limit ++
    ")\x7b_additional\x7bid,score,vector\x7d" ++ qb.buildFieldList ++ "\x7d\x7d\x7d"

/-- The value a `WhereFilter` carries, with `nil` for none. -/
inductive WhereValue where
  | nil
  | string (s : String)
  | int (n : Int)
  | bool (b : Bool)
  /-- A value of another dynamic type, by the text `%v` prints for it. -/
  | other (text : String)
  deriving DecidableEq, Repr

/-- `fmt.Sprintf("%v", v)`. -/
def WhereValue.format : WhereValue → String
  | .nil => "<nil>"
  | .string s => s
  | .int n => toString n
  | .bool b => toString b
  | .other text => text

/-- `WhereFilter`. -/
structure WhereFilter where
  operator : String
  path : List String
  value : WhereValue
  operands : List WhereFilter

mutual
/-- `buildWhereRecursive(filter)`: the present parts in the order operator,
path, value, operands, joined by commas inside braces. -/
def buildWhereRecursive : WhereFilter → String
  | ⟨operator, path, value, operands⟩ =>
    let parts :=
      (if operator ≠ "" then ["operator:" ++ operator] else []) ++
      (if path.length > 0 then ["path:[" ++ ",".intercalate path ++ "]"] else []) ++
      (if value ≠ .nil then ["value:" ++ value.format] else []) ++
      (if operands.length > 0 then ["operands:[" ++ ",".intercalate (buildOperandStrs operands) ++ "]"]
        else [])
    "\x7b" ++ ",".intercalate parts ++ "\x7d"
/-- The loop over `filter.Operands` in `buildWhereRecursive`. -/
def buildOperandStrs : List WhereFilter → List String
  | [] => []
  | operand :: operands => buildWhereRecursive operand :: buildOperandStrs operands
end

/-- `(*QueryBuilder).BuildWhereClause(filter)`. -/
def QueryBuilder.buildWhereClause (_qb : QueryBuilder) (filter : WhereFilter) : String :=
  buildWhereRecursive filter

/-- `(*QueryBuilder).NearVectorWithWhere(vector, where)`. -/
def QueryBuilder.nearVectorWithWhere (qb : QueryBuilder) (vector : List ℚ) (w : WhereFilter) :
    String :=
  "\x7b Get \x7b " ++ qb.className ++ "(nearVector:\x7bvector:[" ++ formatVector vector ++
    "]\x7d,where:" ++ qb.buildWhereClause w ++ ",limit:" ++ toString qb.limit ++
    ")\x7b_additional\x7bid,score\x7d" ++ qb.buildFieldList ++ "\x7d\x7d\x7d"

/-- `(*QueryBuilder).ConversationQuery(vector, sinceTime)`. -/
def QueryBuilder.conversationQuery (qb : QueryBuilder) (vector : List ℚ) (sinceTime : String) :
    String :=
  let timeFilter := if sinceTime ≠ "" then
      ",where:\x7boperator:GreaterThanEqual,path:[\"timestamp\"],valueDate:\"" ++ sinceTime ++
        "\"\x7d"
    else ""
  "\x7b Get \x7b " ++ qb.className ++ "(nearVector:\x7bvector:[" ++ formatVector vector ++ "]\x7d" ++
    timeFilter ++ ",limit:" ++ toString qb.limit ++
    ")\x7b_additional\x7bid,score\x7dmessage,speaker,timestamp\x7d\x7d\x7d"

/-- `(*QueryBuilder).BatchDeleteQuery(where)`. -/
def QueryBuilder.batchDeleteQuery (qb : QueryBuilder) (w : WhereFilter) : String :=
  "mutation\x7bBatchDelete\x7bobjects(class:\"" ++ qb.className ++ "\",where:" ++
    qb.buildWhereClause w ++ ")\x7bid\x7d\x7d\x7d"

/-- `GetResultPath(className)`. -/
def getResultPath (className : String) : List String := ["Get", className]

end AgentRag.GraphQL
