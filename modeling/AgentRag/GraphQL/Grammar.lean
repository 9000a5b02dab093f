import Mathlib.Data.List.Basic

/-!
# GraphQL's lexical grammar and constant values

`QueryBuilder` emits GraphQL text, and two properties of the builder are
about how a GraphQL server reads that text back. This file is that reader,
after the GraphQL specification (October 2021 edition): §2.1 for source
text and tokens, §2.9 for input values.

- A `SourceCharacter` is any Unicode scalar value, which is exactly a Lean
  `Char`.
- `lexStringValue` reads a quoted `StringValue` at the start of the input
  and returns the text it denotes and the input after its closing quote.
- `tokenize` splits a document into `Token`s, dropping the ignored tokens
  (white space, line terminators, commas, comments, the byte order mark).
- `parseValue` reads a constant `Value` from tokens.

Not read: block strings (`"""`), `\u{…}` escapes, variables and the `...`
punctuator. The builder emits none of them; the reader rejects them, so it
accepts no text the grammar rejects, and decodes what it accepts as the
grammar does.
-/

namespace AgentRag.GraphQL

/-! ## String values -/

/-- `LineTerminator`: LF, or CR (alone or before LF). -/
def isLineTerminator (c : Char) : Bool := c == '\n' || c == '\r'

/-- `EscapedCharacter`: the character `\c` stands for. -/
def escapedCharacter : Char → Option Char
  | '"' => some '"'
  | '\\' => some '\\'
  | '/' => some '/'
  | 'b' => some '\x08'
  | 'f' => some '\x0c'
  | 'n' => some '\n'
  | 'r' => some '\r'
  | 't' => some '\t'
  | _ => none

/-- The value of a `HexDigit`. -/
def hexDigitValue (c : Char) : Option Nat :=
  if c.isDigit then some (c.toNat - '0'.toNat)
  else if 'a' ≤ c ∧ c ≤ 'f' then some (c.toNat - 'a'.toNat + 10)
  else if 'A' ≤ c ∧ c ≤ 'F' then some (c.toNat - 'A'.toNat + 10)
  else none

/-- The value of four `HexDigit`s. -/
def hex4 (a b c d : Char) : Option Nat := do
  let a ← hexDigitValue a
  let b ← hexDigitValue b
  let c ← hexDigitValue c
  let d ← hexDigitValue d
  pure (((a * 16 + b) * 16 + c) * 16 + d)

/-- The character with scalar value `n`, when `n` is one. -/
def scalarOf (n : Nat) : Option Char := if n.isValidChar then some (Char.ofNat n) else none

/-- Prepend one decoded character to the decoding of the rest. -/
def decoded (c : Option Char) (rest : Option (List Char × List Char)) :
    Option (List Char × List Char) := do
  let c ← c
  let (s, after) ← rest
  pure (c :: s, after)

/-- The `StringCharacter`s of a quoted `StringValue` and its closing quote:
the text they denote and the input after the quote. A `\uXXXX` escape of a
leading surrogate must be followed by one of a trailing surrogate. -/
def lexStringCharacters : List Char → Option (List Char × List Char)
  | [] => none
  | '"' :: rest => some ([], rest)
  | '\\' :: 'u' :: a :: b :: c :: d :: rest =>
    match hex4 a b c d with
    | none => none
    | some v =>
      if 0xD800 ≤ v ∧ v ≤ 0xDBFF then
        match rest with
        | '\\' :: 'u' :: e :: f :: g :: h :: rest' =>
          match hex4 e f g h with
          | some w =>
            if 0xDC00 ≤ w ∧ w ≤ 0xDFFF then
              decoded (scalarOf (0x10000 + (v - 0xD800) * 0x400 + (w - 0xDC00)))
                (lexStringCharacters rest')
            else none
          | none => none
        | _ => none
      else decoded (scalarOf v) (lexStringCharacters rest)
  | '\\' :: c :: rest => decoded (escapedCharacter c) (lexStringCharacters rest)
  | c :: rest =>
    if isLineTerminator c || c == '\\' then none else decoded (some c) (lexStringCharacters rest)

/-- A quoted `StringValue` at the start of the input: its text and the input
after its closing quote. Three quotes open a `BlockString`, not read here. -/
def lexStringValue : List Char → Option (List Char × List Char)
  | '"' :: '"' :: '"' :: _ => none
  | '"' :: rest => lexStringCharacters rest
  | _ => none

/-! ## Tokens -/

/-- A lexical token; numbers keep their source text. -/
inductive Token where
  | punctuator (c : Char)
  | name (n : String)
  | intValue (text : String)
  | floatValue (text : String)
  | stringValue (s : String)
  deriving DecidableEq, Repr

/-- The one-character `Punctuator`s. -/
def isPunctuator (c : Char) : Bool :=
  ['!', '$', '&', '(', ')', ':', '=', '@', '[', ']', '{', '|', '}'].contains c

/-- `NameStart`: a letter or `_`. -/
def isNameStart (c : Char) : Bool := c.isAlpha || c == '_'

/-- `NameContinue`: a letter, a digit or `_`. -/
def isNameContinue (c : Char) : Bool := c.isAlphanum || c == '_'

/-- White space, line terminators, commas and the byte order mark. -/
def isIgnoredChar (c : Char) : Bool :=
  c == ' ' || c == '\t' || c == ',' || c == '\uFEFF' || isLineTerminator c

mutual
/-- Drop the ignored tokens at the start of the input. -/
def skipIgnored : List Char → List Char
  | [] => []
  | c :: rest =>
    if c == '#' then skipComment rest else if isIgnoredChar c then skipIgnored rest else c :: rest
/-- Drop a `Comment`'s characters, up to its line terminator. -/
def skipComment : List Char → List Char
  | [] => []
  | c :: rest => if isLineTerminator c then skipIgnored rest else skipComment rest
end

/-- `IntegerPart` without its sign: `0`, or a nonzero digit and more digits. -/
def lexUnsignedInteger : List Char → Option (List Char × List Char)
  | '0' :: rest => some (['0'], rest)
  | c :: rest =>
    if c.isDigit then some (c :: (rest.span Char.isDigit).1, (rest.span Char.isDigit).2) else none
  | [] => none

/-- `IntegerPart`. -/
def lexIntegerPart : List Char → Option (List Char × List Char)
  | '-' :: rest => (lexUnsignedInteger rest).map fun p => ('-' :: p.1, p.2)
  | cs => lexUnsignedInteger cs

/-- One or more digits. -/
def lexDigits (cs : List Char) : Option (List Char × List Char) :=
  match cs.span Char.isDigit with
  | ([], _) => none
  | p => some p

/-- `FractionalPart`, or nothing when none starts here. -/
def lexFractionalPart : List Char → Option (List Char × List Char)
  | '.' :: rest => (lexDigits rest).map fun p => ('.' :: p.1, p.2)
  | cs => some ([], cs)

/-- `ExponentPart`, or nothing when none starts here. -/
def lexExponentPart : List Char → Option (List Char × List Char)
  | e :: rest =>
    if e == 'e' || e == 'E' then
      match rest with
      | s :: rest' =>
        if s == '+' || s == '-' then (lexDigits rest').map fun p => (e :: s :: p.1, p.2)
        else (lexDigits rest).map fun p => (e :: p.1, p.2)
      | [] => none
    else some ([], e :: rest)
  | [] => some ([], [])

/-- `IntValue` or `FloatValue`, which may not be followed by a digit, a `.`
or a `NameStart`. -/
def lexNumber (cs : List Char) : Option (Token × List Char) := do
  let (intPart, rest) ← lexIntegerPart cs
  let (frac, rest) ← lexFractionalPart rest
  let (expo, rest) ← lexExponentPart rest
  match rest with
  | c :: _ => if c.isDigit || c == '.' || isNameStart c then none else some ()
  | [] => some ()
  let text := String.mk (intPart ++ frac ++ expo)
  pure (if frac.isEmpty && expo.isEmpty then .intValue text else .floatValue text, rest)

/-- The token at the start of the input, which starts with no ignored token. -/
def lexToken : List Char → Option (Token × List Char)
  | [] => none
  | c :: rest =>
    if isPunctuator c then some (.punctuator c, rest)
    else if isNameStart c then
      some (.name (String.mk (c :: (rest.span isNameContinue).1)), (rest.span isNameContinue).2)
    else if c == '-' || c.isDigit then lexNumber (c :: rest)
    else (lexStringValue (c :: rest)).map fun p => (.stringValue (String.mk p.1), p.2)

/-- Split the input into tokens, dropping ignored ones; `fuel` bounds the
number of tokens. -/
def tokenizeAux : Nat → List Char → Option (List Token)
  | 0, _ => none
  | fuel + 1, cs =>
    match skipIgnored cs with
    | [] => some []
    | cs' => do
      let (t, rest) ← lexToken cs'
      let ts ← tokenizeAux fuel rest
      pure (t :: ts)

/-- A document's tokens. Every token takes at least one character. -/
def tokenize (text : String) : Option (List Token) := tokenizeAux (text.length + 1) text.toList

/-! ## Constant values -/

/-- `Value[Const]`: numbers keep their source text. -/
inductive Value where
  | intValue (text : String)
  | floatValue (text : String)
  | stringValue (s : String)
  | booleanValue (b : Bool)
  | nullValue
  | enumValue (name : String)
  | listValue (values : List Value)
  | objectValue (fields : List (String × Value))

mutual
/-- A constant value at the start of the tokens; `fuel` bounds the nesting. -/
def parseValue : Nat → List Token → Option (Value × List Token)
  | 0, _ => none
  | _ + 1, .intValue t :: rest => some (.intValue t, rest)
  | _ + 1, .floatValue t :: rest => some (.floatValue t, rest)
  | _ + 1, .stringValue s :: rest => some (.stringValue s, rest)
  | _ + 1, .name n :: rest =>
    some (if n = "true" then .booleanValue true else if n = "false" then .booleanValue false
      else if n = "null" then .nullValue else .enumValue n, rest)
  | fuel + 1, .punctuator '[' :: rest =>
    (parseListValues fuel rest).map fun p => (.listValue p.1, p.2)
  | fuel + 1, .punctuator '{' :: rest =>
    (parseObjectFields fuel rest).map fun p => (.objectValue p.1, p.2)
  | _ + 1, _ => none
/-- The values of a `ListValue` up to its `]`. -/
def parseListValues : Nat → List Token → Option (List Value × List Token)
  | 0, _ => none
  | _ + 1, .punctuator ']' :: rest => some ([], rest)
  | fuel + 1, ts => do
    let (v, rest) ← parseValue fuel ts
    let (vs, rest) ← parseListValues fuel rest
    pure (v :: vs, rest)
/-- The `ObjectField`s of an `ObjectValue` up to its `}`. -/
def parseObjectFields : Nat → List Token → Option (List (String × Value) × List Token)
  | 0, _ => none
  | _ + 1, .punctuator '}' :: rest => some ([], rest)
  | fuel + 1, .name n :: .punctuator ':' :: ts => do
    let (v, rest) ← parseValue fuel ts
    let (fs, rest) ← parseObjectFields fuel rest
    pure ((n, v) :: fs, rest)
  | _ + 1, _ => none
end

/-- A whole text read as one constant value. -/
def parseConstValue (text : String) : Option Value := do
  let ts ← tokenize text
  let (v, rest) ← parseValue (ts.length + 1) ts
  if rest.isEmpty then some v else none

end AgentRag.GraphQL
