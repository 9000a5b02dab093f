import AgentRag.GraphQL.Builder
import AgentRag.GraphQL.Grammar

/-!
# The query text survives `escapeGraphQL` and the GraphQL lexer

`HybridQuery` writes the caller's query text between two double quotes,
after `escapeGraphQL`. This file proves that for every text the lexer reads
exactly one `StringValue` there, that it denotes the text, and that it ends
at the builder's closing quote, so the text cannot reach the query's syntax.

The proof has three steps:
- `escapeGraphQL_toList`: the five `ReplaceAll` passes are one pass of
  `escapeChar` over the characters;
- `lexStringCharacters_escapeChar`: each `escapeChar c` lexes back to `c`,
  by `EscapedCharacter` or as a plain `StringCharacter`;
- `lexStringCharacters_escape`: induction over the text.

Other control characters than tab, line feed and carriage return are
written raw. They are `SourceCharacter`s, so a `StringCharacter` may be one.
-/

namespace AgentRag.GraphQL

/-- What `escapeGraphQL` writes for one character. -/
def escapeChar (c : Char) : List Char :=
  if c = '\\' then ['\\', '\\']
  else if c = '"' then ['\\', '"']
  else if c = '\n' then ['\\', 'n']
  else if c = '\r' then ['\\', 'r']
  else if c = '\t' then ['\\', 't']
  else [c]

/-- `escapeChar` by cases: one of the five escaped characters, or a
character written as itself. -/
theorem escapeChar_cases (c : Char) :
    c = '\\' ∨ c = '"' ∨ c = '\n' ∨ c = '\r' ∨ c = '\t' ∨
      (c ≠ '\\' ∧ c ≠ '"' ∧ c ≠ '\n' ∧ c ≠ '\r' ∧ c ≠ '\t' ∧ escapeChar c = [c]) := by
  by_cases h1 : c = '\\'; · exact .inl h1
  by_cases h2 : c = '"'; · exact .inr (.inl h2)
  by_cases h3 : c = '\n'; · exact .inr (.inr (.inl h3))
  by_cases h4 : c = '\r'; · exact .inr (.inr (.inr (.inl h4)))
  by_cases h5 : c = '\t'; · exact .inr (.inr (.inr (.inr (.inl h5))))
  exact .inr (.inr (.inr (.inr (.inr ⟨h1, h2, h3, h4, h5, by simp [escapeChar, h1, h2, h3, h4, h5]⟩))))

@[simp] theorem replaceAll_toList (s : String) (old : Char) (new : String) :
    (replaceAll s old new).toList = s.toList.flatMap fun c => if c = old then new.toList else [c] :=
  rfl

/-- No pass of `escapeGraphQL` replaces a character an earlier pass wrote, so
the five passes are one. Backslashes are doubled first, so the backslashes
the later passes write stay single. -/
theorem escapeGraphQL_toList (s : String) :
    (escapeGraphQL s).toList = s.toList.flatMap escapeChar := by
  simp only [escapeGraphQL, replaceAll_toList, List.flatMap_assoc]
  congr 1
  funext c
  rcases escapeChar_cases c with rfl | rfl | rfl | rfl | rfl | ⟨h1, h2, h3, h4, h5, he⟩
  iterate 5 rfl
  simp [he, h1, h2, h3, h4, h5]

/-- `escapeChar c` lexes back to `c`: an escape by `EscapedCharacter`, any
other character as itself, since it is neither a quote, a backslash nor a
line terminator. -/
theorem lexStringCharacters_escapeChar (c : Char) (rest : List Char) :
    lexStringCharacters (escapeChar c ++ rest) = decoded (some c) (lexStringCharacters rest) := by
  rcases escapeChar_cases c with rfl | rfl | rfl | rfl | rfl | ⟨h1, h2, h3, h4, -, he⟩
  iterate 5 rfl
  rw [he, List.singleton_append, lexStringCharacters.eq_5 c rest h2] <;>
    simp_all [isLineTerminator]

/-- The escaped text and a closing quote lex back to the text, ending after
the quote. -/
theorem lexStringCharacters_escape (s post : List Char) :
    lexStringCharacters (s.flatMap escapeChar ++ '"' :: post) = some (s, post) := by
  induction s with
  | nil => rfl
  | cons c s ih =>
    rw [List.flatMap_cons, List.append_assoc, lexStringCharacters_escapeChar, ih]
    rfl

/-- What `escapeChar` writes never starts with a double quote. -/
theorem escapeChar_head (c : Char) : ∃ d l, escapeChar c = d :: l ∧ d ≠ '"' := by
  rcases escapeChar_cases c with rfl | rfl | rfl | rfl | rfl | ⟨-, h2, -, -, -, he⟩
  iterate 5 exact ⟨_, _, rfl, by decide⟩
  exact ⟨c, [], he, h2⟩

/-- A quoted escaped text is a `StringValue`, unless the text is empty and
the next character would open a block string. -/
theorem lexStringValue_escape (s post : List Char) (hpost : post.head? ≠ some '"') :
    lexStringValue ('"' :: (s.flatMap escapeChar ++ '"' :: post)) = some (s, post) := by
  rw [lexStringValue.eq_2 _ ?noBlock, lexStringCharacters_escape]
  case noBlock =>
    intro tail h
    cases s with
    | nil => exact hpost (by simp_all)
    | cons c s =>
      obtain ⟨d, l, he, hd⟩ := escapeChar_head c
      simp only [List.flatMap_cons, he, List.cons_append, List.cons.injEq] at h
      exact hd h.1

/-- The query text's string literal in `HybridQuery`: after the builder's
opening text, the lexer reads one `StringValue` that denotes the query text,
and the rest of the input is the builder's text after the closing quote. -/
theorem hybridQuery_text_literal (qb : QueryBuilder) (queryText : String) (vector : List ℚ)
    (alpha : ℚ) :
    ∃ rest, (qb.hybridQuery queryText vector alpha).toList =
        ("\x7b Get \x7b " ++ qb.className ++ "(hybrid:\x7bquery:").toList ++ rest ∧
      lexStringValue rest = some (queryText.toList,
        (",vector:[" ++ formatVector vector ++ "],alpha:" ++ formatFixed 2 alpha ++
          "\x7d,limit:" ++ toString qb.limit ++ ")\x7b_additional\x7bid,score,vector\x7d" ++
          qb.buildFieldList ++ "\x7d\x7d\x7d").toList) := by
  refine ⟨'"' :: ((escapeGraphQL queryText).toList ++ '"' :: (",vector:[" ++ formatVector vector ++
    "],alpha:" ++ formatFixed 2 alpha ++ "\x7d,limit:" ++ toString qb.limit ++
    ")\x7b_additional\x7bid,score,vector\x7d" ++ qb.buildFieldList ++ "\x7d\x7d\x7d").toList),
    ?_, ?_⟩
  · simp [QueryBuilder.hybridQuery, String.toList]
  · rw [escapeGraphQL_toList]
    exact lexStringValue_escape _ _ (by simp [String.toList])

end AgentRag.GraphQL
