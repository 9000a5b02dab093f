import AgentRag.GraphQL.WhereRoundTrip

/-!
# Numbers in the builder's text

`QueryBuilder` writes its numbers with `fmt`: the limit with `%d`, `alpha`
with `%.2f`, `certainty` with `%.4f`, and each vector component with `%.6f`
(`formatFixed`). A GraphQL reader lexes them by the grammar's `IntValue` and
`FloatValue` rules, which are strict: no digit after a leading `0`, and no
digit, `.` or letter right after a number.

`%.Nf` text is a `-` for a negative value, the numeral of the integer part,
a `.` and `N` digits. It lexes as one `FloatValue` (`lexes_formatFixed`),
which denotes `x` rounded to `N` places with ties to even
(`decimalValue_formatFixed`), and so is within half a unit of the last place
of `x` (`formatFixed_error`). The vector literal of every search the builder
writes therefore reads back as one `FloatValue` per component, each within
`5·10⁻⁷` of it (`formatVector_readsBack`).

The lemmas on where the lexer ends a number also show that an RFC 3339 stamp
written bare is not GraphQL (`Retriever.Prune`).
-/

namespace AgentRag.GraphQL

/-! ## Where the lexer ends a number -/

/-- A token the lexer cannot read stops the whole document. -/
theorem tokenizeAux_lexToken_none {c : Char} {cs : List Char} (hc : c ≠ '#')
    (hi : isIgnoredChar c = false) (h : lexToken (c :: cs) = none) (fuel : Nat) :
    tokenizeAux fuel (c :: cs) = none := by
  cases fuel with
  | zero => rfl
  | succ fuel =>
    have hs : skipIgnored (c :: cs) = c :: cs := by simp [skipIgnored, hc, hi]
    rw [tokenizeAux, hs]
    simp only [h, Option.bind_eq_bind, Option.none_bind]

/-- After an integer part, a character other than `.`, `e` and `E` ends the
number: the lexer fails when it is a digit or a `NameStart`, and reads an
`IntValue` otherwise. -/
theorem lexNumber_integerPart_cons {cs ip r : List Char} {c : Char}
    (h : lexIntegerPart cs = some (ip, c :: r)) (hdot : c ≠ '.') (he : c ≠ 'e' ∧ c ≠ 'E') :
    lexNumber cs = if c.isDigit || isNameStart c then none
      else some (.intValue (String.mk ip), c :: r) := by
  have hf : lexFractionalPart (c :: r) = some ([], c :: r) :=
    lexFractionalPart.eq_2 _ fun _ e => hdot (List.cons.inj e).1
  have hx : lexExponentPart (c :: r) = some ([], c :: r) := by
    simp [lexExponentPart, he.1, he.2]
  have hdb : (c == '.') = false := by simpa using hdot
  simp only [lexNumber, h, hf, hx, Option.bind_eq_bind, Option.some_bind, hdb, Bool.or_false,
    List.append_nil, List.isEmpty_nil, Bool.and_self, ↓reduceIte]
  cases c.isDigit || isNameStart c <;> rfl

/-- An unsigned integer part of digits that does not start with `0` takes
every digit up to the first other character. -/
theorem lexUnsignedInteger_digits {d : Char} {ds r : List Char} (hd : d.isDigit = true)
    (h0 : d ≠ '0') (hds : ∀ x ∈ ds, x.isDigit = true)
    (hr : ∀ c r', r = c :: r' → c.isDigit = false) :
    lexUnsignedInteger (d :: ds ++ r) = some (d :: ds, r) := by
  have hsp := takeWhile_dropWhile_append hds hr
  simp [lexUnsignedInteger, h0, hd, hsp]

/-- A number starts here: the lexer reads it with `lexNumber`. -/
theorem lexToken_numberStart {h : Char} (t : List Char) (hh : h = '-' ∨ h.isDigit = true) :
    lexToken (h :: t) = lexNumber (h :: t) ∧ h ≠ '#' ∧ isIgnoredChar h = false := by
  have hf : isPunctuator h = false ∧ isNameStart h = false ∧ h ≠ '#' ∧ isIgnoredChar h = false ∧
      (h == '-' || h.isDigit) = true := by
    rcases hh with rfl | hh
    · decide
    · have := digit_facts hh
      exact ⟨this.1, this.2.1, this.2.2.1, this.2.2.2.1, by simp [hh]⟩
  refine ⟨?_, hf.2.2.1, hf.2.2.2.1⟩
  simp only [lexToken, hf.1, hf.2.1, hf.2.2.2.2, Bool.false_eq_true, ↓reduceIte]

/-- A numeral before a `.` is the integer part of a number, with its sign. -/
theorem lexIntegerPart_numeral_dot {sgn ip rest : List Char} {n : Nat}
    (hsgn : sgn = [] ∨ sgn = ['-']) (hip : IsNumeral ip n) :
    lexIntegerPart (sgn ++ ip ++ '.' :: rest) = some (sgn ++ ip, '.' :: rest) := by
  obtain ⟨d, ds, rfl⟩ := List.exists_cons_of_ne_nil hip.ne_nil
  have hd := hip.isDigit d (List.mem_cons_self _ _)
  have hu : lexUnsignedInteger (d :: ds ++ '.' :: rest) = some (d :: ds, '.' :: rest) := by
    by_cases h0 : d = '0'
    · subst h0
      rw [hip.noLeadingZero rfl]
      rfl
    · exact lexUnsignedInteger_digits hd h0 (fun c hc => hip.isDigit c (List.mem_cons_of_mem _ hc))
        fun c r h => by cases h; rfl
  rcases hsgn with rfl | rfl
  · exact (lexIntegerPart.eq_2 _ fun _ e => (digit_facts hd).2.2.2.2 (List.cons.inj e).1).trans hu
  · show lexIntegerPart ('-' :: (d :: ds ++ '.' :: rest)) = _
    rw [lexIntegerPart, hu]
    rfl

/-- A numeral, a `.` and digits, with or without a sign, lex as one
`FloatValue` with that text. -/
theorem lexes_fixed {text : String} {sgn ip fp : List Char} {n : Nat}
    (htext : text.toList = sgn ++ ip ++ '.' :: fp) (hsgn : sgn = [] ∨ sgn = ['-'])
    (hip : IsNumeral ip n) (hfp : fp ≠ []) (hfd : ∀ c ∈ fp, c.isDigit = true) :
    Lexes text.toList [.floatValue text] where
  length_le := by
    show 1 ≤ text.toList.length
    rw [htext]
    simp only [List.length_append, List.length_cons]
    omega
  tokenize fuel rest hr := by
    have hi := @lexIntegerPart_numeral_dot sgn ip (fp ++ rest) n hsgn hip
    have hf : lexFractionalPart ('.' :: (fp ++ rest)) = some ('.' :: fp, rest) := by
      have hsp := takeWhile_dropWhile_append hfd
        fun c r (e : rest = c :: r) => by subst e; exact hr.not_nameContinue.2.2.1
      obtain ⟨d, ds, rfl⟩ := List.exists_cons_of_ne_nil hfp
      simp only [lexFractionalPart, lexDigits, List.span_eq_take_drop, hsp.1, hsp.2]
      rfl
    have hx := lexExponentPart_delimited hr
    have hstr : String.mk (sgn ++ ip ++ '.' :: fp) = text := by
      rw [← htext]
      rfl
    subst hstr
    have hn : lexNumber (sgn ++ ip ++ '.' :: (fp ++ rest)) =
        some (.floatValue (String.mk (sgn ++ ip ++ '.' :: fp)), rest) := by
      have hend : ∀ c r, rest = c :: r → (c.isDigit || c == '.' || isNameStart c) = false := by
        rintro c r rfl
        have hc := hr.not_nameContinue
        simp [hc.2.1, hc.2.2.1, hc.2.2.2]
      simp only [lexNumber, hi, hf, hx, Option.bind_eq_bind, Option.some_bind, List.isEmpty_cons,
        Bool.false_and, Bool.false_eq_true, ↓reduceIte, List.append_nil]
      cases rest with
      | nil => rfl
      | cons c r => simp only [hend c r rfl, Bool.false_eq_true, ↓reduceIte]; rfl
    obtain ⟨h, t, hht, hh⟩ : ∃ h t, sgn ++ ip ++ '.' :: (fp ++ rest) = h :: t ∧
        (h = '-' ∨ h.isDigit = true) := by
      obtain ⟨d, ds, rfl⟩ := List.exists_cons_of_ne_nil hip.ne_nil
      rcases hsgn with rfl | rfl
      · exact ⟨d, _, rfl, .inr (hip.isDigit d (List.mem_cons_self _ _))⟩
      · exact ⟨'-', _, rfl, .inl rfl⟩
    obtain ⟨hlex, hc, hi'⟩ := lexToken_numberStart t hh
    rw [hht] at hn
    have hassoc : (sgn ++ ip ++ '.' :: fp) ++ rest = h :: t := by
      rw [← hht]
      simp
    show tokenizeAux (fuel + 1) ((sgn ++ ip ++ '.' :: fp) ++ rest) = _
    rw [hassoc, tokenizeAux_lexToken hc hi' (hlex.trans hn)]
    rfl

/-! ## `%.Nf` -/

/-- `%.Nf` text, `N > 0`: the sign of a negative value, the numeral of the
integer part, `.`, and `N` digits denoting the fraction. -/
theorem formatFixed_toList {prec : Nat} (hp : 0 < prec) (x : ℚ) :
    ∃ fp, (formatFixed prec x).toList = (if x < 0 then ['-'] else []) ++
        Nat.toDigits 10 (roundHalfEven (|x| * 10 ^ prec) / 10 ^ prec) ++ '.' :: fp ∧
      fp.length = prec ∧ (∀ c ∈ fp, c.isDigit = true) ∧
      digitsValue fp = roundHalfEven (|x| * 10 ^ prec) % 10 ^ prec := by
  obtain ⟨hlen, hdig, hval⟩ := padded_toDigits (n := roundHalfEven (|x| * 10 ^ prec) % 10 ^ prec)
    (Nat.mod_lt _ (by positivity)) hp
  refine ⟨_, ?_, hlen, hdig, hval⟩
  unfold formatFixed
  split_ifs <;> first | omega | rfl

/-- `%.Nf` text, `N > 0`, lexes as one `FloatValue`. -/
theorem lexes_formatFixed {prec : Nat} (hp : 0 < prec) (x : ℚ) :
    Lexes (formatFixed prec x).toList [.floatValue (formatFixed prec x)] := by
  obtain ⟨fp, htext, hlen, hdig, -⟩ := formatFixed_toList hp x
  exact lexes_fixed htext (by split_ifs <;> simp) (isNumeral_toDigits _)
    (List.ne_nil_of_length_pos (by omega)) hdig

/-! ## What the text denotes -/

/-- The value of an unsigned number text without an exponent: the integer
digits, and the fraction digits after a `.`. -/
def unsignedDecimalValue (cs : List Char) : Option ℚ :=
  match cs.span Char.isDigit with
  | ([], _) => none
  | (ip, []) => some (digitsValue ip)
  | (ip, '.' :: fp) =>
    if fp ≠ [] ∧ fp.all Char.isDigit then
      some ((digitsValue ip : ℚ) + (digitsValue fp : ℚ) / 10 ^ fp.length)
    else none
  | _ => none

/-- The number an `IntValue`, or a `FloatValue` without an exponent,
denotes, as a GraphQL server reads it. -/
def decimalValue (text : String) : Option ℚ :=
  match text.toList with
  | '-' :: cs => (unsignedDecimalValue cs).map Neg.neg
  | cs => unsignedDecimalValue cs

theorem unsignedDecimalValue_fixed {ip fp : List Char} (hip : ip ≠ [])
    (hid : ∀ c ∈ ip, c.isDigit = true) (hfp : fp ≠ []) (hfd : ∀ c ∈ fp, c.isDigit = true) :
    unsignedDecimalValue (ip ++ '.' :: fp) =
      some ((digitsValue ip : ℚ) + (digitsValue fp : ℚ) / 10 ^ fp.length) := by
  have hsp := @takeWhile_dropWhile_append Char.isDigit ip ('.' :: fp) hid fun c r h => by cases h; rfl
  obtain ⟨d, ds, rfl⟩ := List.exists_cons_of_ne_nil hip
  have hall : fp.all Char.isDigit = true := List.all_eq_true.2 hfd
  simp only [unsignedDecimalValue, List.span_eq_take_drop, hsp.1, hsp.2, ne_eq, hfp, not_false_eq_true,
    hall, and_self, ↓reduceIte]

/-- Rounding `q` down to `m` is within half a unit when `q - m ≤ 1/2`. -/
theorem round_down_error {q : ℚ} {m : ℕ} (h0 : 0 ≤ 2 * (q - m)) (h1 : 2 * (q - m) ≤ 1) :
    2 * |(m : ℚ) - q| ≤ 1 := by
  rw [abs_sub_comm, abs_of_nonneg (by linarith)]
  exact h1

/-- Rounding `q` up to `m + 1` is within half a unit when `q - m ≥ 1/2`. -/
theorem round_up_error {q : ℚ} {m : ℕ} (h1 : 1 ≤ 2 * (q - m)) (h2 : 2 * (q - m) ≤ 2) :
    2 * |((m + 1 : ℕ) : ℚ) - q| ≤ 1 := by
  push_cast
  rw [abs_of_nonneg (by linarith)]
  linarith

/-- Rounding half to even is within half a unit. -/
theorem roundHalfEven_error {q : ℚ} (hq : 0 ≤ q) : 2 * |(roundHalfEven q : ℚ) - q| ≤ 1 := by
  have hd : (0 : ℚ) < q.den := by exact_mod_cast q.den_pos
  have hnum : (q.num.natAbs : ℚ) = q * q.den := by
    rw [Nat.cast_natAbs, Int.cast_abs, abs_of_nonneg (by exact_mod_cast Rat.num_nonneg.2 hq),
      Rat.mul_den_eq_num]
  have hsplit := Nat.div_add_mod q.num.natAbs q.den
  have hlt := Nat.mod_lt q.num.natAbs q.den_pos
  unfold roundHalfEven
  dsimp only
  generalize q.num.natAbs / q.den = m at *
  generalize q.num.natAbs % q.den = r at *
  have hu : 2 * (q - m) = (2 * r : ℕ) / q.den := by
    have h := congrArg (fun n : ℕ => (n : ℚ)) hsplit
    push_cast at h ⊢
    rw [eq_div_iff hd.ne']
    linear_combination -2 * h - 2 * hnum
  have hu0 : 0 ≤ 2 * (q - m) := by rw [hu]; positivity
  have hu1 : 2 * (q - m) < 2 := by
    rw [hu, div_lt_iff₀ hd]
    exact_mod_cast (by omega : 2 * r < 2 * q.den)
  split_ifs with h1 h2 h3
  · exact round_down_error hu0 (by rw [hu, div_le_one hd]; exact_mod_cast h1.le)
  · exact round_up_error (by rw [hu, one_le_div hd]; exact_mod_cast h2.le) hu1.le
  all_goals
    have hhalf : 2 * (q - m) = 1 := by
      rw [hu, div_eq_one_iff_eq hd.ne']
      exact_mod_cast (by omega : 2 * r = q.den)
  · exact round_down_error hu0 hhalf.le
  · exact round_up_error hhalf.ge hu1.le

/-- `%.Nf` text, `N > 0`, denotes `x` rounded to `N` places, ties to even. -/
theorem decimalValue_formatFixed {prec : Nat} (hp : 0 < prec) (x : ℚ) :
    decimalValue (formatFixed prec x) =
      some ((if x < 0 then -1 else 1) * (roundHalfEven (|x| * 10 ^ prec) : ℚ) / 10 ^ prec) := by
  obtain ⟨fp, htext, hlen, hdig, hval⟩ := formatFixed_toList hp x
  generalize roundHalfEven (|x| * 10 ^ prec) = m at *
  have hnum := isNumeral_toDigits (m / 10 ^ prec)
  have hu := unsignedDecimalValue_fixed hnum.ne_nil hnum.isDigit
    (List.ne_nil_of_length_pos (by omega)) hdig
  have hv : (digitsValue (Nat.toDigits 10 (m / 10 ^ prec)) : ℚ) +
      (digitsValue fp : ℚ) / 10 ^ fp.length = m / 10 ^ prec := by
    rw [hnum.value, hval, hlen, eq_div_iff (by positivity), add_mul, div_mul_cancel₀ _ (by positivity)]
    exact_mod_cast Nat.div_add_mod' m (10 ^ prec)
  rw [hv] at hu
  unfold decimalValue
  rw [htext]
  obtain ⟨d, ds, hds⟩ := List.exists_cons_of_ne_nil hnum.ne_nil
  have hd := digit_facts (hnum.isDigit d (by rw [hds]; exact List.mem_cons_self _ _))
  split_ifs with hx
  · show Option.map Neg.neg (unsignedDecimalValue (Nat.toDigits 10 (m / 10 ^ prec) ++ '.' :: fp)) = _
    rw [hu]
    simp only [Option.map_some', neg_mul, one_mul, neg_div]
  · rw [List.nil_append, hds, List.cons_append]
    split
    · rename_i h
      exact absurd (List.cons.inj h).1 hd.2.2.2.2
    · rw [← List.cons_append, ← hds, hu, one_mul]

/-- `%.Nf` text, `N > 0`, denotes a number within half a unit of the last
place of `x`. -/
theorem formatFixed_error {prec : Nat} (hp : 0 < prec) (x : ℚ) :
    ∃ q, decimalValue (formatFixed prec x) = some q ∧ 2 * 10 ^ prec * |q - x| ≤ 1 := by
  refine ⟨_, decimalValue_formatFixed hp x, ?_⟩
  have hpow : (0 : ℚ) < 10 ^ prec := by positivity
  have he := roundHalfEven_error (mul_nonneg (abs_nonneg x) hpow.le)
  generalize roundHalfEven (|x| * 10 ^ prec) = m at he ⊢
  have hscale : 10 ^ prec * ((if x < 0 then -1 else 1) * (m : ℚ) / 10 ^ prec - x) =
      (if x < 0 then -1 else 1) * ((m : ℚ) - |x| * 10 ^ prec) := by
    split_ifs with hx
    · rw [abs_of_neg hx]
      field_simp
      ring
    · rw [abs_of_nonneg (not_lt.1 hx)]
      field_simp
      ring
  calc 2 * 10 ^ prec * |(if x < 0 then -1 else 1) * (m : ℚ) / 10 ^ prec - x|
      = 2 * |10 ^ prec * ((if x < 0 then -1 else 1) * (m : ℚ) / 10 ^ prec - x)| := by
        rw [abs_mul, abs_of_pos hpow, mul_assoc]
    _ = 2 * |(m : ℚ) - |x| * 10 ^ prec| := by
        rw [hscale, abs_mul]
        split_ifs <;> simp
    _ ≤ 1 := he

/-! ## The vector literal -/

theorem formatVector_toList (vector : List ℚ) :
    (formatVector vector).toList = commaSep (vector.map fun x => (formatFixed 6 x).toList) := by
  unfold formatVector
  split_ifs with h
  · rw [List.length_eq_zero.1 h]
    rfl
  · rw [intercalate_toList, List.map_map]
    rfl

/-- **The vector a search sends reads back.** The literal
`[formatVector vector]` of every hybrid, `nearVector` and conversation query
reads, with a GraphQL reader, as a list of one `FloatValue` per component, in
order, each denoting its component to within `5·10⁻⁷`. -/
theorem formatVector_readsBack (vector : List ℚ) :
    ∃ texts, parseConstValue ("[" ++ formatVector vector ++ "]") =
        some (.listValue (texts.map .floatValue)) ∧
      List.Forall₂ (fun text x => ∃ q, decimalValue text = some q ∧ 2000000 * |q - x| ≤ 1)
        texts vector := by
  refine ⟨vector.map (formatFixed 6), ?_, ?_⟩
  · have hprint : Printable (.listValue ((vector.map (formatFixed 6)).map .floatValue)) :=
      .list fun v hv => by
        obtain ⟨t, ht, rfl⟩ := List.mem_map.1 hv
        obtain ⟨x, -, rfl⟩ := List.mem_map.1 ht
        exact .float (lexes_formatFixed (by norm_num) x)
    have htext : ("[" ++ formatVector vector ++ "]").toList =
        printChars (.listValue ((vector.map (formatFixed 6)).map .floatValue)) := by
      rw [printChars_listValue, toList_append, toList_append, formatVector_toList, List.map_map,
        List.map_map]
      rfl
    rw [show "[" ++ formatVector vector ++ "]" = String.mk (printChars _) from congrArg String.mk htext,
      parseConstValue_printChars hprint]
  · rw [List.forall₂_map_left_iff]
    refine List.forall₂_same.2 fun x _ => ?_
    obtain ⟨q, hq, he⟩ := formatFixed_error (by norm_num : 0 < 6) x
    exact ⟨q, hq, by norm_num at he; linarith⟩

end AgentRag.GraphQL
