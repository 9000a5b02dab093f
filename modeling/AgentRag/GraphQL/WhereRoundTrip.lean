import AgentRag.GraphQL.Where
import AgentRag.GraphQL.Printing

/-!
# Where-clauses read back

`buildWhereRecursive` prints a filter as an object literal and `decodeWhere`
reads one. The two are inverse on every filter whose bare words read back
(`WhereFilter.readsBack`): an operator that is empty or an enum name, path
segments that are enum names, a value that is `nil`, an integer or a
boolean, and operands of the same kind. A string value is printed without
quotes and does not read back (`buildWhereClause_string_value_unquoted`),
and the model does not compute the `%v` text of the other dynamic types.

The argument goes through the value the text denotes, `whereValue f`:
the builder prints exactly `printChars (whereValue f)`
(`buildWhereRecursive_toList`), `whereValue f` is `Printable`, so
`parseConstValue` reads it back (`parseConstValue_printChars`), and
`decodeWhere` maps it back to `f` (`decodeWhere_whereValue`).

Mirroring notes vs the source:
- `%v` of an integer is its decimal text and of a boolean `true` or
  `false`, which read as an `IntValue` and a `BooleanValue`; `%v` of a
  string, and the text of another dynamic type, is written bare, an enum
  value when it is a name. `nil` is never printed: the builder skips it.
-/

namespace AgentRag.GraphQL

/-! ## Filters as trees -/

/-- Induction on a filter, with the hypothesis for each of its operands. -/
theorem WhereFilter.induction {motive : WhereFilter → Prop}
    (h : ∀ operator path value operands, (∀ g ∈ operands, motive g) →
      motive ⟨operator, path, value, operands⟩) : ∀ f, motive f
  | ⟨operator, path, value, operands⟩ =>
    h operator path value operands fun g _ => WhereFilter.induction h g
termination_by f => sizeOf f
decreasing_by
  simp_wf
  have := List.sizeOf_lt_of_mem ‹_›
  omega

theorem buildOperandStrs_eq_map (fs : List WhereFilter) :
    buildOperandStrs fs = fs.map buildWhereRecursive := by
  induction fs with
  | nil => rfl
  | cons f fs ih => rw [buildOperandStrs, ih, List.map_cons]

/-- A value `%v` writes as bare text: a string, or a value of another
dynamic type. -/
def WhereValue.isBare : WhereValue → Bool
  | .string _ | .other _ => true
  | _ => false

mutual
/-- The filters whose where-clause text reads back: the bare words are enum
names and the value is not bare text. -/
def WhereFilter.readsBack : WhereFilter → Bool
  | ⟨operator, path, value, operands⟩ =>
    (operator == "" || isEnumName operator) && path.all isEnumName && !value.isBare &&
      operandsReadBack operands
/-- Every operand reads back. -/
def operandsReadBack : List WhereFilter → Bool
  | [] => true
  | f :: fs => f.readsBack && operandsReadBack fs
end

theorem operandsReadBack_iff (fs : List WhereFilter) :
    operandsReadBack fs = true ↔ ∀ g ∈ fs, g.readsBack = true := by
  induction fs with
  | nil => simp [operandsReadBack]
  | cons f fs ih => simp [operandsReadBack, ih]

theorem readsBack_mk {operator : String} {path : List String} {value : WhereValue}
    {operands : List WhereFilter} :
    (WhereFilter.mk operator path value operands).readsBack = true ↔
      (operator = "" ∨ isEnumName operator = true) ∧ (∀ p ∈ path, isEnumName p = true) ∧
        value.isBare = false ∧ ∀ g ∈ operands, g.readsBack = true := by
  simp [WhereFilter.readsBack, operandsReadBack_iff, and_assoc]

/-! ## The value a filter prints -/

/-- The GraphQL value `%v` of a filter value reads as, when it reads as one;
bare text is taken as a name. -/
def WhereValue.literal : WhereValue → Value
  | .nil => .nullValue
  | .string s => .enumValue s
  | .int n => .intValue (toString n)
  | .bool b => .booleanValue b
  | .other text => .enumValue text

/-- The fields of a filter's literal, given its operands' literals: one for
each part `buildWhereRecursive` writes, in its order. -/
def whereFields (operator : String) (path : List String) (value : WhereValue)
    (operands : List Value) : List (String × Value) :=
  (if operator ≠ "" then [("operator", .enumValue operator)] else []) ++
  (if path.length > 0 then [("path", .listValue (path.map .enumValue))] else []) ++
  (if value ≠ .nil then [("value", value.literal)] else []) ++
  (if operands.length > 0 then [("operands", .listValue operands)] else [])

mutual
/-- The object literal `buildWhereRecursive` prints. -/
def whereValue : WhereFilter → Value
  | ⟨operator, path, value, operands⟩ =>
    .objectValue (whereFields operator path value (operandValues operands))
/-- The operands' literals. -/
def operandValues : List WhereFilter → List Value
  | [] => []
  | f :: fs => whereValue f :: operandValues fs
end

theorem operandValues_eq_map (fs : List WhereFilter) : operandValues fs = fs.map whereValue := by
  induction fs with
  | nil => rfl
  | cons f fs ih => rw [operandValues, ih, List.map_cons]

theorem mem_part {α : Type} {c : Prop} [Decidable c] {a x : α}
    (h : a ∈ (if c then [x] else [])) : c ∧ a = x := by
  split_ifs at h with hc
  · exact ⟨hc, List.mem_singleton.1 h⟩
  · cases h

theorem lookup_part {c : Prop} [Decidable c] (k k' : String) (v : Value)
    (l : List (String × Value)) :
    ((if c then [(k, v)] else []) ++ l).lookup k' = if c ∧ k' = k then some v else l.lookup k' := by
  by_cases hc : c
  · by_cases hk : k' = k
    · simp [hc, hk]
    · simp [hc, hk, List.lookup, beq_eq_false_iff_ne.2 hk]
  · simp [hc]

theorem lookup_part_nil {c : Prop} [Decidable c] (k k' : String) (v : Value) :
    (if c then [(k, v)] else []).lookup k' = if c ∧ k' = k then some v else none := by
  simpa using lookup_part (c := c) k k' v []

/-- Each field of a filter's literal is found under its name exactly when the
builder writes that part. -/
theorem lookup_whereFields (operator : String) (path : List String) (value : WhereValue)
    (operands : List Value) :
    let fields := whereFields operator path value operands
    fields.lookup "operator" = (if operator ≠ "" then some (.enumValue operator) else none) ∧
    fields.lookup "path" =
      (if path.length > 0 then some (.listValue (path.map .enumValue)) else none) ∧
    fields.lookup "value" = (if value ≠ .nil then some value.literal else none) ∧
    fields.lookup "operands" = (if operands.length > 0 then some (.listValue operands) else none) := by
  simp only [whereFields, List.append_assoc, lookup_part, lookup_part_nil, String.reduceEq,
    and_true, and_false, ↓reduceIte]

/-! ## Printing: the builder writes `printChars (whereValue f)` -/

/-- Items joined by commas. -/
def commaSep : List (List Char) → List Char
  | [] => []
  | a :: as => a ++ as.flatMap (',' :: ·)

theorem intercalate_go_toList (acc : String) (ss : List String) :
    (String.intercalate.go acc "," ss).toList = acc.toList ++ ss.flatMap (',' :: ·.toList) := by
  induction ss generalizing acc with
  | nil => simp [String.intercalate.go]
  | cons s ss ih =>
    rw [String.intercalate.go, ih]
    simp

theorem intercalate_toList (ss : List String) :
    (",".intercalate ss).toList = commaSep (ss.map String.toList) := by
  cases ss with
  | nil => rfl
  | cons s ss =>
    rw [String.intercalate, intercalate_go_toList, List.map_cons, commaSep, List.flatMap_map]

theorem printMoreValues_eq_flatMap (vs : List Value) :
    printMoreValues vs = vs.flatMap (',' :: printChars ·) := by
  induction vs with
  | nil => rfl
  | cons v vs ih => simp [printMoreValues, ih]

theorem printChars_listValue (vs : List Value) :
    printChars (.listValue vs) = '[' :: commaSep (vs.map printChars) ++ [']'] := by
  cases vs with
  | nil => rfl
  | cons v vs => simp [printChars, commaSep, printMoreValues_eq_flatMap, List.flatMap_map]

/-- An object field as printed. -/
def fieldChars (f : String × Value) : List Char := f.1.toList ++ ':' :: printChars f.2

theorem printMoreFields_eq_flatMap (fs : List (String × Value)) :
    printMoreFields fs = fs.flatMap (',' :: fieldChars ·) := by
  induction fs with
  | nil => rfl
  | cons f fs ih => simp [printMoreFields, ih, fieldChars]

theorem printChars_objectValue (fs : List (String × Value)) :
    printChars (.objectValue fs) = '{' :: commaSep (fs.map fieldChars) ++ ['}'] := by
  cases fs with
  | nil => rfl
  | cons f fs =>
    obtain ⟨n, v⟩ := f
    simp [printChars, commaSep, printMoreFields_eq_flatMap, List.flatMap_map, fieldChars]

theorem literal_toList {v : WhereValue} (h : v ≠ .nil) : printChars v.literal = v.format.toList := by
  cases v
  case nil => exact absurd rfl h
  all_goals rfl

/-- A part the builder may write, and the field it stands for. -/
theorem part_toList {c c' : Prop} [Decidable c] [Decidable c'] (hc : c ↔ c') {s : String}
    {f : String × Value} (h : c → s.toList = fieldChars f) :
    (if c then [s] else []).map String.toList = (if c' then [f] else []).map fieldChars := by
  by_cases h' : c
  · rw [if_pos h', if_pos (hc.1 h'), List.map_singleton, List.map_singleton, h h']
  · rw [if_neg h', if_neg (mt hc.2 h')]
    rfl

/-- **The builder prints the literal.** The text of `buildWhereRecursive f`
is `printChars (whereValue f)`, for every filter. -/
theorem buildWhereRecursive_toList (f : WhereFilter) :
    (buildWhereRecursive f).toList = printChars (whereValue f) := by
  induction f using WhereFilter.induction with
  | h operator path value operands ih =>
    have hoperator : ("operator:" ++ operator).toList =
        fieldChars ("operator", .enumValue operator) := rfl
    have hpath : ("path:[" ++ ",".intercalate path ++ "]").toList =
        fieldChars ("path", .listValue (path.map .enumValue)) := by
      rw [fieldChars, printChars_listValue, List.map_map, toList_append, toList_append,
        intercalate_toList]
      rfl
    have hvalue (h : value ≠ .nil) :
        ("value:" ++ value.format).toList = fieldChars ("value", value.literal) := by
      rw [fieldChars, literal_toList h]
      rfl
    have hoperands : ("operands:[" ++ ",".intercalate (buildOperandStrs operands) ++ "]").toList =
        fieldChars ("operands", .listValue (operandValues operands)) := by
      rw [fieldChars, printChars_listValue, toList_append, toList_append, intercalate_toList,
        buildOperandStrs_eq_map, operandValues_eq_map, List.map_map, List.map_map,
        List.map_congr_left (show ∀ g ∈ operands,
          (String.toList ∘ buildWhereRecursive) g = (printChars ∘ whereValue) g from ih)]
      rfl
    have hlen : operands.length > 0 ↔ (operandValues operands).length > 0 := by
      rw [operandValues_eq_map, List.length_map]
    rw [buildWhereRecursive, whereValue, whereFields, printChars_objectValue]
    simp only [toList_append, intercalate_toList, List.map_append,
      part_toList Iff.rfl fun _ => hoperator, part_toList Iff.rfl fun _ => hpath,
      part_toList Iff.rfl hvalue, part_toList hlen fun _ => hoperands]
    rfl

/-! ## The literal is printable -/

theorem printable_whereValue (f : WhereFilter) (hf : f.readsBack = true) :
    Printable (whereValue f) := by
  induction f using WhereFilter.induction with
  | h operator path value operands ih =>
    obtain ⟨hop, hpath, hval, hops⟩ := readsBack_mk.1 hf
    have hfields : ∀ fld ∈ whereFields operator path value (operandValues operands),
        isName fld.1 = true ∧ Printable fld.2 := by
      intro fld hfld
      simp only [whereFields, List.mem_append] at hfld
      rcases hfld with ((h | h) | h) | h <;> obtain ⟨hc, rfl⟩ := mem_part h
      · exact ⟨rfl, .enum (hop.resolve_left hc)⟩
      · refine ⟨rfl, .list fun v hv => ?_⟩
        obtain ⟨p, hp, rfl⟩ := List.mem_map.1 hv
        exact .enum (hpath p hp)
      · refine ⟨rfl, ?_⟩
        cases value
        case nil => exact absurd rfl hc
        case string => cases hval
        case other => cases hval
        case int n => exact .int n
        case bool b => exact .bool b
      · refine ⟨rfl, .list fun v hv => ?_⟩
        rw [operandValues_eq_map] at hv
        obtain ⟨g, hg, rfl⟩ := List.mem_map.1 hv
        exact ih g hg (hops g hg)
    rw [whereValue]
    exact .object (fun fld h => (hfields fld h).1) (fun fld h => (hfields fld h).2)

/-! ## Reading the literal back -/

theorem infix_commaSep {a : List Char} {as : List (List Char)} (h : a ∈ as) :
    a <:+: commaSep as := by
  cases as with
  | nil => cases h
  | cons b bs =>
    rcases List.mem_cons.1 h with rfl | h
    · exact (List.prefix_append a _).isInfix
    · have hmem : (',' :: a) <:+: bs.flatMap (',' :: ·) :=
        List.infix_of_mem_flatten (List.mem_map_of_mem _ h)
      exact (List.suffix_cons ',' a).isInfix.trans (hmem.trans (List.suffix_append b _).isInfix)

/-- An operand's literal is shorter than its filter's. -/
theorem length_whereValue_operand_lt {operator : String} {path : List String}
    {value : WhereValue} {operands : List WhereFilter} {g : WhereFilter} (hg : g ∈ operands) :
    (printChars (whereValue g)).length <
      (printChars (whereValue ⟨operator, path, value, operands⟩)).length := by
  have hlist : printChars (whereValue g) <:+: printChars (.listValue (operandValues operands)) := by
    rw [printChars_listValue, operandValues_eq_map, List.map_map]
    exact (infix_commaSep (List.mem_map_of_mem (printChars ∘ whereValue) hg)).trans
      (List.infix_append ['['] _ [']'])
  have hfield : printChars (.listValue (operandValues operands)) <:+:
      fieldChars ("operands", .listValue (operandValues operands)) :=
    ((List.suffix_cons ':' _).trans (List.suffix_append _ _)).isInfix
  have hmem : ("operands", Value.listValue (operandValues operands)) ∈
      whereFields operator path value (operandValues operands) := by
    have : (operandValues operands).length > 0 := by
      rw [operandValues_eq_map, List.length_map]
      exact List.length_pos_of_mem hg
    simp only [whereFields, List.mem_append, if_pos this, List.mem_singleton, or_true]
  have := ((hlist.trans hfield).trans (infix_commaSep (List.mem_map_of_mem fieldChars hmem))).length_le
  rw [whereValue, printChars_objectValue, List.length_append, List.length_cons]
  omega

theorem mapM_map_of_inverse {α β : Type} {dec : β → Option α} {enc : α → β} {xs : List α}
    (h : ∀ x ∈ xs, dec (enc x) = some x) : (xs.map enc).mapM dec = some xs := by
  induction xs with
  | nil => rfl
  | cons x xs ih =>
    rw [List.map_cons, List.mapM_cons, h x (List.mem_cons_self _ _),
      ih fun y hy => h y (List.mem_cons_of_mem _ hy)]
    rfl

/-- `intValueOf` reads back the text `toString` gives an integer. -/
theorem intValueOf_toString (i : Int) : intValueOf (toString i) = i := by
  cases i with
  | ofNat m =>
    have hnum := isNumeral_toDigits m
    obtain ⟨c, cs, hc⟩ := List.exists_cons_of_ne_nil hnum.ne_nil
    have hminus : c ≠ '-' := by
      rintro rfl
      exact absurd (hnum.isDigit '-' (hc ▸ List.mem_cons_self _ _)) (by decide)
    have hval := hnum.value
    rw [hc] at hval
    rw [intValueOf, show (toString (Int.ofNat m)).toList = Nat.toDigits 10 m from rfl, hc]
    split
    next _ _ heq => exact absurd (List.cons.inj heq).1 hminus
    next => exact congrArg Int.ofNat hval
  | negSucc m =>
    rw [intValueOf, show (toString (Int.negSucc m)).toList = '-' :: Nat.toDigits 10 (m + 1) from rfl]
    exact congrArg (fun n : Nat => -(n : Int)) (isNumeral_toDigits (m + 1)).value

theorem decodeWhereValue_literal {v : WhereValue} (h : v ≠ .nil) (hs : v.isBare = false) :
    decodeWhereValue v.literal = some v := by
  cases v
  case nil => exact absurd rfl h
  case string => cases hs
  case other => cases hs
  case int n => exact congrArg (some ∘ WhereValue.int) (intValueOf_toString n)
  case bool b => rfl

/-- `decodeWhere` reads each of the four fields on its own: absent, or present
and read by that field's reader. -/
theorem decodeWhere_objectValue {fuel : Nat} {fields : List (String × Value)} {operator : String}
    {path : List String} {value : WhereValue} {operands : List WhereFilter}
    (h1 : fields.lookup "operator" = none ∧ operator = "" ∨
      fields.lookup "operator" = some (.enumValue operator))
    (h2 : fields.lookup "path" = none ∧ path = [] ∨
      ∃ vs, fields.lookup "path" = some (.listValue vs) ∧ vs.mapM enumName = some path)
    (h3 : fields.lookup "value" = none ∧ value = .nil ∨
      ∃ v, fields.lookup "value" = some v ∧ decodeWhereValue v = some value)
    (h4 : fields.lookup "operands" = none ∧ operands = [] ∨
      ∃ vs, fields.lookup "operands" = some (.listValue vs) ∧
        vs.mapM (decodeWhere fuel) = some operands) :
    decodeWhere (fuel + 1) (.objectValue fields) = some ⟨operator, path, value, operands⟩ := by
  rw [decodeWhere]
  rcases h1 with ⟨h1, rfl⟩ | h1 <;> rcases h2 with ⟨h2, rfl⟩ | ⟨vs, h2, h2'⟩ <;>
    rcases h3 with ⟨h3, rfl⟩ | ⟨v, h3, h3'⟩ <;> rcases h4 with ⟨h4, rfl⟩ | ⟨ws, h4, h4'⟩ <;>
    simp only [*, enumName, Option.some_bind] <;> rfl

/-- `decodeWhere` reads a filter back from its literal, given fuel for the
literal's length. -/
theorem decodeWhere_whereValue (f : WhereFilter) (hf : f.readsBack = true) :
    ∀ fuel, (printChars (whereValue f)).length < fuel → decodeWhere fuel (whereValue f) = some f := by
  induction f using WhereFilter.induction with
  | h operator path value operands ih =>
    intro fuel hfuel
    obtain ⟨hop, hpath, hval, hops⟩ := readsBack_mk.1 hf
    obtain ⟨k, rfl⟩ := Nat.exists_eq_add_of_le' (show 1 ≤ fuel by omega)
    obtain ⟨l1, l2, l3, l4⟩ :=
      lookup_whereFields operator path value (operandValues operands)
    have hlen : (operandValues operands).length = operands.length := by
      rw [operandValues_eq_map, List.length_map]
    rw [whereValue]
    apply decodeWhere_objectValue
    · rcases eq_or_ne operator "" with h | h
      · exact .inl ⟨by rw [l1, if_neg (not_not.2 h)], h⟩
      · exact .inr (by rw [l1, if_pos h])
    · rcases Nat.eq_zero_or_pos path.length with h | h
      · exact .inl ⟨by rw [l2, if_neg (by omega)], List.length_eq_zero.1 h⟩
      · exact .inr ⟨_, by rw [l2, if_pos h],
          mapM_map_of_inverse fun p _ => (rfl : enumName (.enumValue p) = some p)⟩
    · rcases eq_or_ne value .nil with h | h
      · exact .inl ⟨by rw [l3, if_neg (not_not.2 h)], h⟩
      · exact .inr ⟨_, by rw [l3, if_pos h], decodeWhereValue_literal h hval⟩
    · rcases Nat.eq_zero_or_pos operands.length with h | h
      · exact .inl ⟨by rw [l4, if_neg (by omega)], List.length_eq_zero.1 h⟩
      · refine .inr ⟨_, by rw [l4, if_pos (by omega)], ?_⟩
        rw [operandValues_eq_map]
        exact mapM_map_of_inverse fun g hg => ih g hg (hops g hg) k
          (by have := @length_whereValue_operand_lt operator path value operands g hg
              omega)

/-! ## The round trip -/

/-- **Where-clauses read back.** A GraphQL server reads the text
`BuildWhereClause` makes of a filter as that filter, for every filter whose
bare words are enum names and whose values are `nil`, integers or booleans. -/
theorem decodeWhereClause_buildWhereClause (qb : QueryBuilder) {f : WhereFilter}
    (hf : f.readsBack = true) : decodeWhereClause (qb.buildWhereClause f) = some f := by
  have htext : qb.buildWhereClause f = String.mk (printChars (whereValue f)) := by
    rw [QueryBuilder.buildWhereClause, ← buildWhereRecursive_toList]
    rfl
  rw [decodeWhereClause, htext, parseConstValue_printChars (printable_whereValue f hf),
    Option.some_bind]
  exact decodeWhere_whereValue f hf _ (Nat.lt_succ_self _)

theorem decodeWhereClause_buildWhereClause_nested :
    let f : WhereFilter := ⟨"And", [], .nil,
      [⟨"GreaterThan", ["count"], .int (-5), []⟩, ⟨"Equal", ["archived"], .bool false, []⟩]⟩
    f.readsBack = true ∧
      decodeWhereClause ((newQueryBuilder "Conversation" 10).buildWhereClause f) = some f :=
  ⟨by decide, decodeWhereClause_buildWhereClause _ (by decide)⟩

end AgentRag.GraphQL
