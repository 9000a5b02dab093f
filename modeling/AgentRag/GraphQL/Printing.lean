import AgentRag.GraphQL.Grammar
import AgentRag.Decimal

/-!
# Printing constant values, and reading them back

`printChars` writes a constant `Value` the way `QueryBuilder` writes its
literals: names bare, integers in decimal, lists in brackets and objects in
braces, items joined by commas, no white space. `valueTokens` is the token
list of that text.

For the values `Printable` admits (enum values that are names other than
`true`, `false` and `null`, integers as `toString` prints them, floats whose
text lexes as one `FloatValue`, booleans, `null`, and lists and objects of
such) the reader of `Grammar` gets the
value back: the text lexes to its tokens (`lexes_printChars`), the tokens
parse to the value (`parseValue_valueTokens`), and `parseConstValue` inverts
`printChars` (`parseConstValue_printChars`).

`Lexes cs ts` says that `cs`, followed by anything that starts with a comma
or a punctuator, lexes to `ts` and then to what follows. It composes over
concatenation (`Lexes.append`), one chunk of printed text at a time.
-/

namespace AgentRag.GraphQL

/-! ## Names -/

/-- A GraphQL `Name`: a `NameStart` and then `NameContinue`s. -/
def isName (s : String) : Bool :=
  match s.toList with
  | c :: cs => isNameStart c && cs.all isNameContinue
  | [] => false

/-- A name that reads back as an enum value: not `true`, `false` or
`null`. -/
def isEnumName (s : String) : Bool :=
  isName s && !(s == "true" || s == "false" || s == "null")

/-! ## The printer -/

mutual
/-- A constant value, written as the builder writes literals. -/
def printChars : Value → List Char
  | .intValue t => t.toList
  | .floatValue t => t.toList
  | .stringValue s => s.toList
  | .booleanValue b => (toString b).toList
  | .nullValue => "null".toList
  | .enumValue n => n.toList
  | .listValue [] => ['[', ']']
  | .listValue (v :: vs) => '[' :: printChars v ++ printMoreValues vs ++ [']']
  | .objectValue [] => ['{', '}']
  | .objectValue ((n, v) :: fs) => '{' :: n.toList ++ ':' :: printChars v ++ printMoreFields fs ++ ['}']
/-- The list items after the first, each after a comma. -/
def printMoreValues : List Value → List Char
  | [] => []
  | v :: vs => ',' :: printChars v ++ printMoreValues vs
/-- The object fields after the first, each after a comma. -/
def printMoreFields : List (String × Value) → List Char
  | [] => []
  | (n, v) :: fs => ',' :: n.toList ++ ':' :: printChars v ++ printMoreFields fs
end

mutual
/-- The tokens of `printChars v`. -/
def valueTokens : Value → List Token
  | .intValue t => [.intValue t]
  | .floatValue t => [.floatValue t]
  | .stringValue s => [.stringValue s]
  | .booleanValue b => [.name (toString b)]
  | .nullValue => [.name "null"]
  | .enumValue n => [.name n]
  | .listValue vs => .punctuator '[' :: valuesTokens vs ++ [.punctuator ']']
  | .objectValue fs => .punctuator '{' :: fieldsTokens fs ++ [.punctuator '}']
/-- The tokens of list items. -/
def valuesTokens : List Value → List Token
  | [] => []
  | v :: vs => valueTokens v ++ valuesTokens vs
/-- The tokens of object fields. -/
def fieldsTokens : List (String × Value) → List Token
  | [] => []
  | (n, v) :: fs => .name n :: .punctuator ':' :: valueTokens v ++ fieldsTokens fs
end



/-! ## Characters -/

theorem punctuator_facts {c : Char} (h : isPunctuator c = true) :
    isNameStart c = false ∧ isNameContinue c = false ∧ c.isDigit = false ∧ c ≠ '.' ∧
      c ≠ '#' ∧ isIgnoredChar c = false ∧ c ≠ '-' := by
  have hc : c ∈ ['!', '$', '&', '(', ')', ':', '=', '@', '[', ']', '{', '|', '}'] := by
    simpa [isPunctuator] using h
  simp only [List.mem_cons, List.mem_nil_iff, or_false] at hc
  rcases hc with rfl | rfl | rfl | rfl | rfl | rfl | rfl | rfl | rfl | rfl | rfl | rfl | rfl <;>
    decide

theorem isIgnoredChar_facts {c : Char} (h : isIgnoredChar c = true) :
    isNameStart c = false ∧ isPunctuator c = false ∧ c.isDigit = false := by
  have hc : c = ' ' ∨ c = '\t' ∨ c = ',' ∨ c = '\uFEFF' ∨ c = '\n' ∨ c = '\r' := by
    simpa [isIgnoredChar, isLineTerminator, or_assoc] using h
  rcases hc with rfl | rfl | rfl | rfl | rfl | rfl <;> decide

theorem isDigit_nameStart {c : Char} (h : c.isDigit = true) : isNameStart c = false := by
  have h' := isDigit_iff_toNat.1 h
  simp only [isNameStart, Char.isAlpha, Char.isUpper, Char.isLower, Bool.or_eq_false_iff,
    Bool.and_eq_false_iff, decide_eq_false_iff_not, beq_eq_false_iff_ne]
  refine ⟨⟨Or.inl fun h3 => ?_, Or.inl fun h3 => ?_⟩, fun h3 => ?_⟩
  · have : 65 ≤ c.toNat := h3
    omega
  · have : 97 ≤ c.toNat := h3
    omega
  · subst h3
    exact absurd h' (by decide)

/-- What may follow a name or a number for the token to end there: nothing,
a comma or a punctuator. -/
def Delimited : List Char → Prop
  | [] => True
  | c :: _ => c = ',' ∨ isPunctuator c = true

theorem Delimited.append {b rest : List Char} (hb : Delimited b) (hr : Delimited rest) :
    Delimited (b ++ rest) := by
  cases b with
  | nil => exact hr
  | cons c b => exact hb

theorem Delimited.not_nameContinue {c : Char} {rest : List Char} (h : Delimited (c :: rest)) :
    isNameContinue c = false ∧ isNameStart c = false ∧ c.isDigit = false ∧ c ≠ '.' := by
  rcases h with rfl | h
  · decide
  · exact ⟨(punctuator_facts h).2.1, (punctuator_facts h).1, (punctuator_facts h).2.2.1,
      (punctuator_facts h).2.2.2.1⟩

/-! ## Lexing printed text -/

/-- `cs`, followed by anything `Delimited`, lexes to `ts` and then to what
follows, with one unit of fuel per token; every token takes a character. -/
structure Lexes (cs : List Char) (ts : List Token) : Prop where
  length_le : ts.length ≤ cs.length
  tokenize : ∀ fuel rest, Delimited rest →
    tokenizeAux (fuel + ts.length) (cs ++ rest) = (tokenizeAux fuel rest).map (ts ++ ·)

theorem tokenizeAux_comma (fuel : Nat) (rest : List Char) :
    tokenizeAux fuel (',' :: rest) = tokenizeAux fuel rest := by
  have hs : skipIgnored (',' :: rest) = skipIgnored rest := by
    simp [skipIgnored, isIgnoredChar]
  cases fuel with
  | zero => rfl
  | succ fuel => simp only [tokenizeAux, hs]

/-- A token that starts right here is lexed, then what follows it. -/
theorem tokenizeAux_lexToken {c : Char} {cs rest : List Char} {t : Token} (hc : c ≠ '#')
    (hi : isIgnoredChar c = false) (h : lexToken (c :: cs) = some (t, rest)) (fuel : Nat) :
    tokenizeAux (fuel + 1) (c :: cs) = (tokenizeAux fuel rest).map (t :: ·) := by
  have hs : skipIgnored (c :: cs) = c :: cs := by simp [skipIgnored, hc, hi]
  rw [tokenizeAux, hs]
  simp only [h, Option.bind_eq_bind, Option.some_bind]
  cases tokenizeAux fuel rest <;> rfl

theorem Lexes.append {a b : List Char} {ta tb : List Token} (ha : Lexes a ta) (hb : Lexes b tb)
    (hd : Delimited b) : Lexes (a ++ b) (ta ++ tb) where
  length_le := by simp only [List.length_append]; exact Nat.add_le_add ha.length_le hb.length_le
  tokenize fuel rest hr := by
    have hf : fuel + (ta ++ tb).length = fuel + tb.length + ta.length := by
      simp only [List.length_append]; omega
    rw [hf, List.append_assoc, ha.tokenize _ _ (hd.append hr), hb.tokenize _ _ hr, Option.map_map]
    simp only [Function.comp_def, List.append_assoc]

theorem Lexes.comma_cons {b : List Char} {tb : List Token} (hb : Lexes b tb) :
    Lexes (',' :: b) tb where
  length_le := hb.length_le.trans (Nat.le_succ _)
  tokenize fuel rest hr := by
    rw [List.cons_append, tokenizeAux_comma]
    exact hb.tokenize fuel rest hr

theorem Lexes.punctuator_cons {c : Char} (hc : isPunctuator c = true) {b : List Char}
    {tb : List Token} (hb : Lexes b tb) : Lexes (c :: b) (.punctuator c :: tb) where
  length_le := Nat.succ_le_succ hb.length_le
  tokenize fuel rest hr := by
    have hp := punctuator_facts hc
    have hl : lexToken (c :: (b ++ rest)) = some (.punctuator c, b ++ rest) := by
      simp [lexToken, hc]
    rw [List.length_cons, ← Nat.add_assoc, List.cons_append,
      tokenizeAux_lexToken hp.2.2.2.2.1 hp.2.2.2.2.2.1 hl, hb.tokenize _ _ hr, Option.map_map]
    rfl

theorem lexes_nil : Lexes [] [] := ⟨le_rfl, fun _ _ _ => by simp⟩

theorem lexes_punctuator {c : Char} (hc : isPunctuator c = true) :
    Lexes [c] [.punctuator c] :=
  Lexes.punctuator_cons hc lexes_nil

theorem nameStart_facts {c : Char} (h : isNameStart c = true) :
    isPunctuator c = false ∧ c ≠ '#' ∧ isIgnoredChar c = false := by
  refine ⟨?_, by rintro rfl; exact absurd h (by decide), ?_⟩
  · cases hp : isPunctuator c
    · rfl
    · rw [(punctuator_facts hp).1] at h
      exact absurd h (by decide)
  · cases hi : isIgnoredChar c
    · rfl
    · rw [(isIgnoredChar_facts hi).1] at h
      exact absurd h (by decide)

/-- The characters of `cs`, all satisfying `p`, are what `takeWhile p`
takes when the next character fails `p`. -/
theorem takeWhile_dropWhile_append {p : Char → Bool} {cs rest : List Char}
    (hcs : ∀ c ∈ cs, p c = true) (hr : ∀ c r, rest = c :: r → p c = false) :
    List.takeWhile p (cs ++ rest) = cs ∧ List.dropWhile p (cs ++ rest) = rest := by
  rw [List.takeWhile_append_of_pos hcs, List.dropWhile_append_of_pos hcs]
  cases rest with
  | nil => simp
  | cons c r =>
    have := hr c r rfl
    rw [List.takeWhile_cons_of_neg (by simp [this]), List.dropWhile_cons_of_neg (by simp [this]),
      List.append_nil]
    exact ⟨rfl, rfl⟩

theorem lexes_name {n : String} (h : isName n = true) : Lexes n.toList [.name n] := by
  obtain ⟨_ | ⟨c, cs⟩⟩ := n
  · simp [isName] at h
  simp only [isName, String.toList, Bool.and_eq_true, List.all_eq_true] at h
  obtain ⟨hc, hcs⟩ := h
  refine ⟨by simp, fun fuel rest hr => ?_⟩
  have hsp := takeWhile_dropWhile_append hcs fun d r (e : rest = d :: r) => by subst e; exact hr.not_nameContinue.1
  have hf := nameStart_facts hc
  have hl : lexToken (c :: (cs ++ rest)) = some (.name ⟨c :: cs⟩, rest) := by
    simp [lexToken, hf.1, hc, hsp]
  exact tokenizeAux_lexToken hf.2.1 hf.2.2 hl fuel

/-! ## Integers -/

theorem digit_facts {c : Char} (h : c.isDigit = true) :
    isPunctuator c = false ∧ isNameStart c = false ∧ c ≠ '#' ∧ isIgnoredChar c = false ∧
      c ≠ '-' := by
  refine ⟨?_, isDigit_nameStart h, by rintro rfl; exact absurd h (by decide), ?_,
    by rintro rfl; exact absurd h (by decide)⟩
  · cases hp : isPunctuator c
    · rfl
    · rw [(punctuator_facts hp).2.2.1] at h
      exact absurd h (by decide)
  · cases hi : isIgnoredChar c
    · rfl
    · rw [(isIgnoredChar_facts hi).2.2] at h
      exact absurd h (by decide)

theorem lexFractionalPart_delimited {rest : List Char} (hr : Delimited rest) :
    lexFractionalPart rest = some ([], rest) := by
  unfold lexFractionalPart
  split
  · exact absurd rfl hr.not_nameContinue.2.2.2
  · rfl

theorem lexExponentPart_delimited {rest : List Char} (hr : Delimited rest) :
    lexExponentPart rest = some ([], rest) := by
  cases rest with
  | nil => rfl
  | cons c r =>
    have hn := hr.not_nameContinue.2.1
    have he : (c == 'e' || c == 'E') = false := by
      cases hce : c == 'e' <;> cases hcE : c == 'E' <;> simp_all [beq_iff_eq] <;>
        exact absurd hn (by decide)
    simp [lexExponentPart, he]

/-- A numeral, before anything `Delimited`, is one unsigned integer part. -/
theorem lexUnsignedInteger_numeral {ds : List Char} {n : Nat} (hn : IsNumeral ds n)
    {rest : List Char} (hr : Delimited rest) : lexUnsignedInteger (ds ++ rest) = some (ds, rest) := by
  obtain ⟨d, ds', rfl⟩ := List.exists_cons_of_ne_nil hn.ne_nil
  by_cases hd0 : d = '0'
  · subst hd0
    rw [hn.noLeadingZero rfl]
    rfl
  · have hsp := takeWhile_dropWhile_append
      (fun c hc => hn.isDigit c (List.mem_cons_of_mem _ hc))
      fun c r (e : rest = c :: r) => by subst e; exact hr.not_nameContinue.2.2.1
    simp [lexUnsignedInteger, hd0, hn.isDigit d (List.mem_cons_self _ _), hsp]

/-- `lexNumber` after an integer part that a delimiter follows. -/
theorem lexNumber_of_integerPart {cs ip rest : List Char} (hr : Delimited rest)
    (h : lexIntegerPart cs = some (ip, rest)) :
    lexNumber cs = some (.intValue (String.mk ip), rest) := by
  have hf := lexFractionalPart_delimited hr
  have he := lexExponentPart_delimited hr
  cases rest with
  | nil => simp [lexNumber, h, hf, he]
  | cons c r =>
    have hc := hr.not_nameContinue
    simp [lexNumber, h, hf, he, hc.2.1, hc.2.2.1, hc.2.2.2]

/-- A text that `lexIntegerPart` reads whole, before any delimiter, lexes to
one `IntValue`. -/
theorem lexes_integerPart {c : Char} {cs : List Char} (hp : isPunctuator c = false)
    (hn : isNameStart c = false) (hnum : (c == '-' || c.isDigit) = true) (hc : c ≠ '#')
    (hi : isIgnoredChar c = false)
    (hip : ∀ rest, Delimited rest → lexIntegerPart (c :: cs ++ rest) = some (c :: cs, rest)) :
    Lexes (c :: cs) [.intValue (String.mk (c :: cs))] := by
  refine ⟨by simp, fun fuel rest hr => ?_⟩
  have hl : lexToken (c :: (cs ++ rest)) = some (.intValue (String.mk (c :: cs)), rest) := by
    simp only [lexToken, hp, hn, hnum, if_false, if_true, Bool.false_eq_true]
    exact lexNumber_of_integerPart hr (hip rest hr)
  exact tokenizeAux_lexToken hc hi hl fuel

/-- `toString i` lexes to one `IntValue` with that text. -/
theorem lexes_int (i : Int) : Lexes (toString i).toList [.intValue (toString i)] := by
  cases i with
  | ofNat m =>
    have hn := isNumeral_toDigits m
    obtain ⟨d, ds, hds⟩ := List.exists_cons_of_ne_nil hn.ne_nil
    have hd := digit_facts (hn.isDigit d (hds ▸ List.mem_cons_self _ _))
    have htext : (toString (Int.ofNat m)).toList = d :: ds := hds
    have hstr : toString (Int.ofNat m) = String.mk (d :: ds) := congrArg String.mk hds
    rw [htext, hstr]
    refine lexes_integerPart hd.1 hd.2.1 ?_ hd.2.2.1 hd.2.2.2.1 fun rest hr => ?_
    · simp [hn.isDigit d (hds ▸ List.mem_cons_self _ _)]
    · rw [← hds]
      have := lexUnsignedInteger_numeral hn hr
      rw [hds] at this ⊢
      simpa [lexIntegerPart, hd.2.2.2.2] using this
  | negSucc m =>
    have hn := isNumeral_toDigits (m + 1)
    have htext : (toString (Int.negSucc m)).toList = '-' :: Nat.toDigits 10 (m + 1) := rfl
    have hstr : toString (Int.negSucc m) = String.mk ('-' :: Nat.toDigits 10 (m + 1)) := rfl
    rw [htext, hstr]
    refine lexes_integerPart (by decide) (by decide) (by decide) (by decide) (by decide)
      fun rest hr => ?_
    simp [lexIntegerPart, lexUnsignedInteger_numeral hn hr]

/-! ## Printed values lex to their tokens -/

theorem isName_of_isEnumName {n : String} (h : isEnumName n = true) : isName n = true := by
  simp only [isEnumName, Bool.and_eq_true] at h
  exact h.1

theorem delimited_printMoreValues (vs : List Value) : Delimited (printMoreValues vs) := by
  cases vs <;> simp [printMoreValues, Delimited]

theorem delimited_printMoreFields (fs : List (String × Value)) : Delimited (printMoreFields fs) := by
  cases fs <;> simp [printMoreFields, Delimited]

/-- One object field `name:value`, before more text that lexes. -/
theorem lexes_field {n : String} {v : Value} {more : List Char} {moreTokens : List Token}
    (hn : isName n = true) (hv : Lexes (printChars v) (valueTokens v))
    (hmore : Lexes more moreTokens) (hd : Delimited more) :
    Lexes (n.toList ++ ':' :: (printChars v ++ more))
      (.name n :: .punctuator ':' :: (valueTokens v ++ moreTokens)) :=
  (lexes_name hn).append (.punctuator_cons (by decide) (hv.append hmore hd)) (Or.inr (by decide))

theorem lexes_printMoreValues {vs : List Value} (h : ∀ v ∈ vs, Lexes (printChars v) (valueTokens v)) :
    Lexes (printMoreValues vs) (valuesTokens vs) := by
  induction vs with
  | nil => exact lexes_nil
  | cons v vs ih =>
    simp only [printMoreValues, valuesTokens, List.cons_append]
    exact Lexes.comma_cons ((h v (List.mem_cons_self _ _)).append
      (ih fun w hw => h w (List.mem_cons_of_mem _ hw)) (delimited_printMoreValues vs))

theorem lexes_printMoreFields {fs : List (String × Value)} (hn : ∀ f ∈ fs, isName f.1 = true)
    (h : ∀ f ∈ fs, Lexes (printChars f.2) (valueTokens f.2)) :
    Lexes (printMoreFields fs) (fieldsTokens fs) := by
  induction fs with
  | nil => exact lexes_nil
  | cons f fs ih =>
    obtain ⟨n, v⟩ := f
    simp only [printMoreFields, fieldsTokens, List.cons_append, List.append_assoc]
    exact Lexes.comma_cons (lexes_field (hn _ (List.mem_cons_self _ _)) (h _ (List.mem_cons_self _ _))
      (ih (fun g hg => hn g (List.mem_cons_of_mem _ hg)) fun g hg => h g (List.mem_cons_of_mem _ hg))
      (delimited_printMoreFields fs))

/-- The values `printChars` writes so that they read back: a float is one
whose text lexes as one `FloatValue`. -/
inductive Printable : Value → Prop
  | int (i : Int) : Printable (.intValue (toString i))
  | float {t : String} : Lexes t.toList [.floatValue t] → Printable (.floatValue t)
  | bool (b : Bool) : Printable (.booleanValue b)
  | null : Printable .nullValue
  | enum {n : String} : isEnumName n = true → Printable (.enumValue n)
  | list {vs : List Value} : (∀ v ∈ vs, Printable v) → Printable (.listValue vs)
  | object {fs : List (String × Value)} : (∀ f ∈ fs, isName f.1 = true) →
      (∀ f ∈ fs, Printable f.2) → Printable (.objectValue fs)

/-- A printable value's text lexes to its tokens. -/
theorem lexes_printChars {v : Value} (hv : Printable v) : Lexes (printChars v) (valueTokens v) := by
  induction hv with
  | int i => exact lexes_int i
  | float h => exact h
  | bool b => cases b <;> exact lexes_name (by decide)
  | null => exact lexes_name (by decide)
  | enum h => exact lexes_name (isName_of_isEnumName h)
  | @list vs _ ih =>
    cases vs with
    | nil => exact .punctuator_cons (by decide) (lexes_punctuator (by decide))
    | cons v vs =>
      have hmore := (lexes_printMoreValues fun w hw => ih w (List.mem_cons_of_mem _ hw)).append
        (lexes_punctuator (c := ']') (by decide)) (Or.inr (by decide))
      have := Lexes.punctuator_cons (c := '[') (by decide)
        ((ih v (List.mem_cons_self _ _)).append hmore
          ((delimited_printMoreValues vs).append (Or.inr (by decide))))
      simpa only [printChars, valueTokens, valuesTokens, List.cons_append, List.append_assoc]
        using this
  | @object fs hn _ ih =>
    cases fs with
    | nil => exact .punctuator_cons (by decide) (lexes_punctuator (by decide))
    | cons f fs =>
      obtain ⟨n, v⟩ := f
      have hmore := (lexes_printMoreFields (fun g hg => hn g (List.mem_cons_of_mem _ hg))
        fun g hg => ih g (List.mem_cons_of_mem _ hg)).append
        (lexes_punctuator (c := '}') (by decide)) (Or.inr (by decide))
      have := Lexes.punctuator_cons (c := '{') (by decide)
        (lexes_field (hn _ (List.mem_cons_self _ _)) (ih _ (List.mem_cons_self _ _)) hmore
          ((delimited_printMoreFields fs).append (Or.inr (by decide))))
      simpa only [printChars, valueTokens, fieldsTokens, List.cons_append, List.append_assoc]
        using this

/-! ## Tokens parse back -/

theorem valueTokens_cons {v : Value} (hv : Printable v) :
    ∃ t ts, valueTokens v = t :: ts ∧ t ≠ .punctuator ']' := by
  cases hv with
  | int i => exact ⟨_, _, rfl, by simp⟩
  | float h => exact ⟨_, _, rfl, by simp⟩
  | bool b => exact ⟨_, _, rfl, by simp⟩
  | null => exact ⟨_, _, rfl, by simp⟩
  | enum h => exact ⟨_, _, rfl, by simp⟩
  | list h => exact ⟨_, _, rfl, by decide⟩
  | object hn h => exact ⟨_, _, rfl, by decide⟩

theorem parseListValues_valuesTokens {vs : List Value} (hp : ∀ v ∈ vs, Printable v)
    (h : ∀ v ∈ vs, ∀ fuel rest, (valueTokens v).length ≤ fuel →
      parseValue fuel (valueTokens v ++ rest) = some (v, rest)) :
    ∀ fuel rest, (valuesTokens vs).length + 1 ≤ fuel →
      parseListValues fuel (valuesTokens vs ++ .punctuator ']' :: rest) = some (vs, rest) := by
  induction vs with
  | nil =>
    intro fuel rest hf
    obtain ⟨f, rfl⟩ := Nat.exists_eq_add_of_le' hf
    rfl
  | cons v vs ih =>
    intro fuel rest hf
    obtain ⟨t, ts, ht, hne⟩ := valueTokens_cons (hp v (List.mem_cons_self _ _))
    have hlen : (valuesTokens (v :: vs)).length = (valueTokens v).length + (valuesTokens vs).length := by
      simp [valuesTokens]
    obtain ⟨f, rfl⟩ := Nat.exists_eq_add_of_le' (show 1 ≤ fuel by omega)
    have hv := h v (List.mem_cons_self _ _) f (valuesTokens vs ++ .punctuator ']' :: rest)
      (by rw [ht] at hlen ⊢; simp at hlen ⊢; omega)
    have hvs := ih (fun w hw => hp w (List.mem_cons_of_mem _ hw))
      (fun w hw => h w (List.mem_cons_of_mem _ hw)) f rest (by rw [ht] at hlen; simp at hlen; omega)
    rw [valuesTokens, List.append_assoc, ht, List.cons_append, parseListValues.eq_3 _ _
      (by simpa using hne), ← List.cons_append, ← ht, hv]
    simp only [Option.bind_eq_bind, Option.some_bind, hvs]
    rfl

theorem parseObjectFields_fieldsTokens {fs : List (String × Value)}
    (h : ∀ f ∈ fs, ∀ fuel rest, (valueTokens f.2).length ≤ fuel →
      parseValue fuel (valueTokens f.2 ++ rest) = some (f.2, rest)) :
    ∀ fuel rest, (fieldsTokens fs).length + 1 ≤ fuel →
      parseObjectFields fuel (fieldsTokens fs ++ .punctuator '}' :: rest) = some (fs, rest) := by
  induction fs with
  | nil =>
    intro fuel rest hf
    obtain ⟨f, rfl⟩ := Nat.exists_eq_add_of_le' hf
    rfl
  | cons f fs ih =>
    intro fuel rest hf
    obtain ⟨n, v⟩ := f
    have hlen : (fieldsTokens ((n, v) :: fs)).length =
        (valueTokens v).length + (fieldsTokens fs).length + 2 := by
      simp [fieldsTokens]
    obtain ⟨k, rfl⟩ := Nat.exists_eq_add_of_le' (show 1 ≤ fuel by omega)
    have hv : parseValue k (valueTokens v ++ (fieldsTokens fs ++ .punctuator '}' :: rest)) =
        some (v, fieldsTokens fs ++ .punctuator '}' :: rest) :=
      h (n, v) (List.mem_cons_self _ _) k _ (show (valueTokens v).length ≤ k by omega)
    have hfs := ih (fun g hg => h g (List.mem_cons_of_mem _ hg)) k rest (by omega)
    simp only [fieldsTokens, List.cons_append, List.append_assoc]
    rw [parseObjectFields.eq_3, hv]
    simp only [Option.bind_eq_bind, Option.some_bind, hfs]
    rfl

/-- The tokens of a printable value parse back to it, with enough fuel. -/
theorem parseValue_valueTokens {v : Value} (hv : Printable v) :
    ∀ fuel rest, (valueTokens v).length ≤ fuel →
      parseValue fuel (valueTokens v ++ rest) = some (v, rest) := by
  induction hv with
  | int i =>
    intro fuel rest hf
    obtain ⟨f, rfl⟩ := Nat.exists_eq_add_of_le' hf
    rfl
  | float h =>
    intro fuel rest hf
    obtain ⟨f, rfl⟩ := Nat.exists_eq_add_of_le' hf
    rfl
  | bool b =>
    intro fuel rest hf
    obtain ⟨f, rfl⟩ := Nat.exists_eq_add_of_le' hf
    cases b <;> rfl
  | null =>
    intro fuel rest hf
    obtain ⟨f, rfl⟩ := Nat.exists_eq_add_of_le' hf
    rfl
  | @enum n h =>
    intro fuel rest hf
    obtain ⟨f, rfl⟩ := Nat.exists_eq_add_of_le' hf
    simp only [isEnumName, Bool.and_eq_true, Bool.not_eq_true', Bool.or_eq_false_iff,
      beq_eq_false_iff_ne] at h
    simp [valueTokens, parseValue, h.2.1.1, h.2.1.2, h.2.2]
  | @list vs hp ih =>
    intro fuel rest hf
    have hlen : (valueTokens (.listValue vs)).length = (valuesTokens vs).length + 2 := by
      simp [valueTokens]
    obtain ⟨f, rfl⟩ := Nat.exists_eq_add_of_le' (show 1 ≤ fuel by omega)
    simp only [valueTokens, List.cons_append, List.append_assoc, List.singleton_append,
      List.nil_append]
    rw [parseValue.eq_6, parseListValues_valuesTokens hp ih f rest (by omega), Option.map_some']
  | @object fs _ _ ih =>
    intro fuel rest hf
    have hlen : (valueTokens (.objectValue fs)).length = (fieldsTokens fs).length + 2 := by
      simp [valueTokens]
    obtain ⟨f, rfl⟩ := Nat.exists_eq_add_of_le' (show 1 ≤ fuel by omega)
    simp only [valueTokens, List.cons_append, List.append_assoc, List.singleton_append,
      List.nil_append]
    rw [parseValue.eq_7, parseObjectFields_fieldsTokens ih f rest (by omega), Option.map_some']

/-- **The printer and the reader agree.** `parseConstValue` reads back every
printable value from its text. -/
theorem parseConstValue_printChars {v : Value} (hv : Printable v) :
    parseConstValue (String.mk (printChars v)) = some v := by
  have hl := lexes_printChars hv
  obtain ⟨k, hk⟩ := Nat.exists_eq_add_of_le'
    (show 1 ≤ (printChars v).length + 1 - (valueTokens v).length by have := hl.length_le; omega)
  have htok : tokenize (String.mk (printChars v)) = some (valueTokens v) := by
    have h := hl.tokenize ((printChars v).length + 1 - (valueTokens v).length) [] trivial
    rw [Nat.sub_add_cancel (by have := hl.length_le; omega), List.append_nil, hk] at h
    simpa [tokenizeAux, skipIgnored] using h
  have hp := parseValue_valueTokens hv ((valueTokens v).length + 1) [] (Nat.le_succ _)
  rw [List.append_nil] at hp
  simp [parseConstValue, htok, hp]

end AgentRag.GraphQL
