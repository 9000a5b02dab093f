import AgentRag.GraphQL.Numbers
import AgentRag.GraphQL.Escape
import AgentRag.Rfc3339
import AgentRag.Retriever.Client

/-!
# The prune request is not GraphQL

`PruneOldConversations` deletes the conversation turns older than
`now - maxAge` with one `BatchDelete` mutation, whose `where` argument
`BuildWhereClause` writes from `pruneFilter`. The cutoff is a string, and the
builder writes a string value bare (`buildWhereClause_string_value_unquoted`),
so the document carries `value:YYYY-MM-DDThh:mm:ssZ`.

A GraphQL lexer reads that text as numbers: the year, then the month and the
day with the `-` before each as their sign. A number cannot start with `0`
and go on with a digit, and cannot be followed by a letter; so the day's
number, followed by `T`, never lexes, whatever the year and month did before
it (`tokenizeAux_stamp`). What comes before the value, names, punctuators and
the class name in quotes, lexes as it should (`lexes_prunePrefix`). So for
every `now` and `maxAge` the document does not tokenize
(`pruneQuery_not_tokenized`): Weaviate rejects every prune request.
-/

namespace AgentRag.GraphQL

/-! ## Stamps do not lex -/

/-- Digits, with or without a sign, before a character that is not a digit:
the integer part the lexer takes ends at that character, or is a `0` that a
digit follows. -/
theorem lexIntegerPart_signedDigits {sgn ds r : List Char} {x : Char}
    (hsgn : sgn = [] ∨ sgn = ['-']) (hne : ds ≠ []) (hds : ∀ c ∈ ds, c.isDigit = true)
    (hx : x.isDigit = false) :
    ∃ ip c r', lexIntegerPart (sgn ++ ds ++ x :: r) = some (ip, c :: r') ∧
      (c.isDigit = true ∨ (c = x ∧ r' = r)) := by
  have hu : ∃ ip c r', lexUnsignedInteger (ds ++ x :: r) = some (ip, c :: r') ∧
      (c.isDigit = true ∨ (c = x ∧ r' = r)) := by
    obtain ⟨d, ds', rfl⟩ := List.exists_cons_of_ne_nil hne
    have hd := hds d (List.mem_cons_self _ _)
    by_cases h0 : d = '0'
    · subst h0
      cases ds' with
      | nil => exact ⟨_, _, _, rfl, .inr ⟨rfl, rfl⟩⟩
      | cons e es => exact ⟨_, _, _, rfl, .inl (hds e (by simp))⟩
    · exact ⟨_, _, _, lexUnsignedInteger_digits hd h0 (fun c hc => hds c (List.mem_cons_of_mem _ hc))
        (fun c r' h => by cases h; exact hx), .inr ⟨rfl, rfl⟩⟩
  obtain ⟨ip, c, r', hip, hc⟩ := hu
  obtain ⟨d, ds', rfl⟩ := List.exists_cons_of_ne_nil hne
  have hd := digit_facts (hds d (List.mem_cons_self _ _))
  rcases hsgn with rfl | rfl
  · exact ⟨ip, c, r', (lexIntegerPart.eq_2 _ fun _ e => hd.2.2.2.2 (List.cons.inj e).1).trans hip, hc⟩
  · refine ⟨'-' :: ip, c, r', ?_, hc⟩
    show lexIntegerPart ('-' :: (d :: ds' ++ x :: r)) = _
    rw [lexIntegerPart, hip]
    rfl

/-- A number with or without a sign, before a character `x` that is not a
digit, `.`, `e` or `E`, stops the document when what starts at `x` does, or
when `x` may not follow a number. -/
theorem tokenizeAux_signedDigits {sgn ds r : List Char} {x : Char}
    (hsgn : sgn = [] ∨ sgn = ['-']) (hne : ds ≠ []) (hds : ∀ c ∈ ds, c.isDigit = true)
    (hx : x.isDigit = false) (hxd : x ≠ '.') (hxe : x ≠ 'e' ∧ x ≠ 'E')
    (hrest : isNameStart x = true ∨ ∀ fuel, tokenizeAux fuel (x :: r) = none) (fuel : Nat) :
    tokenizeAux fuel (sgn ++ ds ++ x :: r) = none := by
  obtain ⟨ip, c, r', hip, hc⟩ := lexIntegerPart_signedDigits (r := r) hsgn hne hds hx
  obtain ⟨h, t, hht, hh⟩ : ∃ h t, sgn ++ ds ++ x :: r = h :: t ∧ (h = '-' ∨ h.isDigit = true) := by
    obtain ⟨d, ds', rfl⟩ := List.exists_cons_of_ne_nil hne
    rcases hsgn with rfl | rfl
    · exact ⟨d, _, rfl, .inr (hds d (List.mem_cons_self _ _))⟩
    · exact ⟨'-', _, rfl, .inl rfl⟩
  obtain ⟨hlex, hc', hi⟩ := lexToken_numberStart t hh
  rw [hht] at hip ⊢
  rcases hc with hc | ⟨rfl, rfl⟩
  · have hn := lexNumber_integerPart_cons hip (fun e => by subst e; exact absurd hc (by decide))
      ⟨fun e => by subst e; exact absurd hc (by decide), fun e => by subst e; exact absurd hc (by decide)⟩
    rw [hc, Bool.true_or, if_pos rfl] at hn
    exact tokenizeAux_lexToken_none hc' hi (hlex.trans hn) fuel
  · have hn := lexNumber_integerPart_cons hip hxd hxe
    rcases hrest with hs | hrest
    · rw [hs, Bool.or_true, if_pos rfl] at hn
      exact tokenizeAux_lexToken_none hc' hi (hlex.trans hn) fuel
    · rw [hx, Bool.false_or] at hn
      split_ifs at hn
      · exact tokenizeAux_lexToken_none hc' hi (hlex.trans hn) fuel
      · cases fuel with
        | zero => rfl
        | succ fuel =>
          rw [tokenizeAux_lexToken hc' hi (hlex.trans hn), hrest]
          rfl

/-- **An RFC 3339 stamp is not GraphQL.** A year's numeral with its sign,
then `-MM-DDT`, stops the lexer: at the month or the day when one starts with
`0`, and otherwise at the `T` after the day. -/
theorem tokenizeAux_stamp {sgn ds rest : List Char} {m0 m1 d0 d1 : Char}
    (hsgn : sgn = [] ∨ sgn = ['-']) (hne : ds ≠ []) (hds : ∀ c ∈ ds, c.isDigit = true)
    (hmd : ∀ c ∈ [m0, m1, d0, d1], c.isDigit = true) (fuel : Nat) :
    tokenizeAux fuel (sgn ++ ds ++ '-' :: m0 :: m1 :: '-' :: d0 :: d1 :: 'T' :: rest) = none := by
  have hday : ∀ fuel, tokenizeAux fuel ('-' :: d0 :: d1 :: 'T' :: rest) = none :=
    @tokenizeAux_signedDigits ['-'] [d0, d1] _ _ (.inr rfl) (by simp)
      (fun c hc => hmd c (by simp at hc ⊢; tauto)) (by decide) (by decide) (by decide)
      (.inl (by decide))
  have hmonth : ∀ fuel, tokenizeAux fuel ('-' :: m0 :: m1 :: '-' :: d0 :: d1 :: 'T' :: rest) = none :=
    @tokenizeAux_signedDigits ['-'] [m0, m1] _ _ (.inr rfl) (by simp)
      (fun c hc => hmd c (by simp at hc ⊢; tauto)) (by decide) (by decide) (by decide) (.inr hday)
  exact tokenizeAux_signedDigits hsgn hne hds (by decide) (by decide) (by decide) (.inr hmonth) fuel

/-! ## The text before the cutoff -/

theorem escapeChar_of_isNameContinue {c : Char} (h : isNameContinue c = true) :
    escapeChar c = [c] := by
  rcases escapeChar_cases c with rfl | rfl | rfl | rfl | rfl | ⟨-, -, -, -, -, he⟩
  iterate 5 exact absurd h (by decide)
  exact he

/-- A name needs no escape. -/
theorem flatMap_escapeChar_of_isName {n : String} (h : isName n = true) :
    n.toList.flatMap escapeChar = n.toList := by
  have hc : ∀ c ∈ n.toList, isNameContinue c = true := by
    obtain ⟨_ | ⟨c, cs⟩⟩ := n
    · simp [isName] at h
    simp only [isName, String.toList, Bool.and_eq_true, List.all_eq_true] at h
    intro d hd
    rcases List.mem_cons.1 hd with rfl | hd
    · simp only [isNameStart, Bool.or_eq_true] at h
      simp only [isNameContinue, Char.isAlphanum, Bool.or_eq_true]
      tauto
    · exact h.2 d hd
  generalize n.toList = l at hc ⊢
  induction l with
  | nil => rfl
  | cons c cs ih =>
    rw [List.flatMap_cons, escapeChar_of_isNameContinue (hc c (List.mem_cons_self _ _)),
      ih fun d hd => hc d (List.mem_cons_of_mem _ hd)]
    rfl

/-- A quoted text that needs no escape, before anything `Delimited`, is one
`StringValue`. -/
theorem Lexes.stringValue_cons {s : List Char} (hs : s.flatMap escapeChar = s) {b : List Char}
    {tb : List Token} (hb : Lexes b tb) (hd : Delimited b) :
    Lexes ('"' :: (s ++ '"' :: b)) (.stringValue (String.mk s) :: tb) where
  length_le := by
    simp only [List.length_cons, List.length_append]
    have := hb.length_le
    omega
  tokenize fuel rest hr := by
    have hq : (b ++ rest).head? ≠ some '"' := by
      have hbr := hd.append hr
      revert hbr
      cases b ++ rest with
      | nil => simp
      | cons c l =>
        rintro (h | h) ⟨⟩
        iterate 2 exact absurd h (by decide)
    have hl : lexToken ('"' :: (s ++ '"' :: (b ++ rest))) =
        some (.stringValue (String.mk s), b ++ rest) := by
      have := lexStringValue_escape s (b ++ rest) hq
      rw [hs] at this
      simp [lexToken, this, show isPunctuator '"' = false by decide,
        show isNameStart '"' = false by decide]
    rw [List.length_cons, ← Nat.add_assoc, List.cons_append, List.append_assoc, List.cons_append,
      tokenizeAux_lexToken (by decide) (by decide) hl, hb.tokenize _ _ hr, Option.map_map]
    rfl

end AgentRag.GraphQL

namespace AgentRag.Retriever

open GraphQL

/-- The prune document up to the `:` before its cutoff: names and
punctuators around the class name in quotes. -/
theorem lexes_prunePrefix {cls : String} (hcls : isName cls = true) :
    ∃ ts, Lexes ("mutation\x7bBatchDelete\x7bobjects(class:\"" ++ cls ++
      "\",where:\x7boperator:LessThan,path:[timestamp],value").toList ts := by
  have name : ∀ n, isName n = true → ∀ {b tb}, Lexes b tb → Delimited b →
      Lexes (n.toList ++ b) (.name n :: tb) := fun n hn _ _ hb hd => (lexes_name hn).append hb hd
  have punct : ∀ c, isPunctuator c = true → ∀ {b tb}, Lexes b tb →
      Lexes (c :: b) (.punctuator c :: tb) := fun c hc _ _ hb => hb.punctuator_cons hc
  have path := name "path" (by decide) (punct ':' (by decide) (punct '[' (by decide)
    (name "timestamp" (by decide) (punct ']' (by decide)
      (Lexes.comma_cons (lexes_name (n := "value") (by decide)))) (Or.inr (by decide)))))
    (Or.inr (by decide))
  have operator := name "operator" (by decide) (punct ':' (by decide) (name "LessThan" (by decide)
    (Lexes.comma_cons path) (Or.inl rfl))) (Or.inr (by decide))
  have cls := Lexes.stringValue_cons (flatMap_escapeChar_of_isName hcls)
    (Lexes.comma_cons (name "where" (by decide) (punct ':' (by decide) (punct '{' (by decide)
      operator)) (Or.inr (by decide)))) (Or.inl rfl)
  have head := name "mutation" (by decide) (punct '{' (by decide) (name "BatchDelete" (by decide)
    (punct '{' (by decide) (name "objects" (by decide) (punct '(' (by decide) (name "class"
      (by decide) (punct ':' (by decide) cls) (Or.inr (by decide)))) (Or.inr (by decide))))
      (Or.inr (by decide)))) (Or.inr (by decide))
  exact ⟨_, by simp only [toList_append, List.append_assoc]; exact head⟩

/-- The prune document is its prefix, a `:`, the cutoff's stamp, and the
closing text. -/
theorem pruneQuery_toList (wc : WeaviateClient) (now : Time) (maxAge : Duration) :
    (wc.pruneQuery now maxAge).toList =
      ("mutation\x7bBatchDelete\x7bobjects(class:\"" ++ wc.config.conversationIndexName ++
        "\",where:\x7boperator:LessThan,path:[timestamp],value").toList ++
      ':' :: ((now.add maxAge.neg).formatRFC3339.toList ++ "\x7d)\x7bid\x7d\x7d\x7d".toList) := by
  simp only [WeaviateClient.pruneQuery, QueryBuilder.batchDeleteQuery, QueryBuilder.buildWhereClause,
    pruneFilter, buildWhereRecursive, newQueryBuilder, WhereValue.format, String.intercalate,
    String.intercalate.go, toList_append, List.append_assoc]
  rfl

/-- **Prune requests are never GraphQL.** For a conversation index whose
name is a GraphQL name, and every `now` and `maxAge`, the document
`PruneOldConversations` sends does not tokenize: the cutoff stamp stands bare
after `value:`, and no RFC 3339 stamp lexes. -/
theorem pruneQuery_not_tokenized (wc : WeaviateClient)
    (hname : isName wc.config.conversationIndexName = true) (now : Time) (maxAge : Duration) :
    tokenize (wc.pruneQuery now maxAge) = none := by
  obtain ⟨sgn, ds, m0, m1, d0, d1, rest, hsgn, hne, hds, hmd, hstamp⟩ :=
    formatRFC3339_toList (now.add maxAge.neg)
  obtain ⟨ts, hts⟩ := lexes_prunePrefix hname
  have htext := pruneQuery_toList wc now maxAge
  have hlen : (wc.pruneQuery now maxAge).length = (wc.pruneQuery now maxAge).toList.length := rfl
  have hk : (wc.pruneQuery now maxAge).length + 1 =
      ((wc.pruneQuery now maxAge).length - ts.length + 1) + ts.length := by
    have := hts.length_le
    rw [hlen, htext, List.length_append, List.length_cons] at *
    omega
  have hcolon : ∀ cs, lexToken (':' :: cs) = some (.punctuator ':', cs) := fun _ => rfl
  rw [tokenize, hk, htext, hts.tokenize _ (':' :: ((now.add maxAge.neg).formatRFC3339.toList ++
      "\x7d)\x7bid\x7d\x7d\x7d".toList)) (Or.inr (by decide)),
    tokenizeAux_lexToken (by decide) (by decide) (hcolon _), hstamp]
  have hnone := @tokenizeAux_stamp sgn ds (rest ++ "\x7d)\x7bid\x7d\x7d\x7d".toList) m0 m1 d0 d1
    hsgn hne hds hmd ((wc.pruneQuery now maxAge).length - ts.length)
  simp only [List.append_assoc, List.cons_append] at hnone ⊢
  rw [hnone]
  rfl

/-- The default conversation index is a GraphQL name, so a day's pruning on
2026-01-02 sends no GraphQL document. -/
theorem pruneQuery_not_tokenized_default :
    isName defaultIndexConfig.conversationIndexName = true ∧
      tokenize ((WeaviateClient.mk "http://localhost:8080" "" defaultIndexConfig).pruneQuery
        ⟨1767312000000000000⟩ ⟨86400000000000⟩) = none :=
  ⟨by decide, pruneQuery_not_tokenized ⟨"http://localhost:8080", "", defaultIndexConfig⟩ (by decide) _ _⟩

end AgentRag.Retriever
