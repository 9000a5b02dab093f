import AgentRag.Go

/-!
# The retriever's records: `types.go` and the sentinel errors of `errors.go`

`SearchResult`, `MergeConfig` with `DefaultMergeConfig` and `Validate`,
`Query`/`TimeRange` and `IndexConfig` with `DefaultIndexConfig`, as the
`retriever` package declares them, over the scalar type `F` that stands for
`float64` (see `AgentRag.Go`).

The one addition is `Platform`: what the Go platform decides that the source
does not. `math.Exp`, `math.Log` and `math.Ln2` are left as parameters (the
model never evaluates them); so are the order in which `range` visits a map's
keys, which Go randomises on every run, and the order in which `sort.Slice`
leaves elements whose scores tie, which it does not keep stable.
`Platform.Lawful` is Go's documented contract for the last two: `range`
visits every key once, and `sort.Slice` returns a permutation of its input,
sorted by its `less`.

Fields no modelled function reads are left out: `Query.Filters`,
`Query.IncludeMeta`, `IndexConfig.Vectorizer` and
`IndexConfig.DistanceMetric`.
-/

namespace AgentRag.Retriever

variable {F : Type}

/-- `SourceType`: a Go `string` type whose two named values are
`sourceStatic` and `sourceConversation`; its zero value is `""`. -/
structure SourceType where
  name : String
  deriving DecidableEq, Repr

/-- `SourceStatic`. -/
def sourceStatic : SourceType := ⟨"static"⟩

/-- `SourceConversation`. -/
def sourceConversation : SourceType := ⟨"conversation"⟩

/-- `SearchResult`: one retrieved chunk. `Timestamp` is a `*time.Time`, here
an `Option`. -/
structure SearchResult (F : Type) where
  id : String
  docId : String
  score : F
  text : String
  metadata : List (String × Json F)
  source : SourceType
  timestamp : Option Time

/-- The IDs of a result list, in order. -/
def ids (results : List (SearchResult F)) : List String := results.map (·.id)

@[simp] theorem ids_nil : ids ([] : List (SearchResult F)) = [] := rfl

@[simp] theorem ids_cons (r : SearchResult F) (rs : List (SearchResult F)) :
    ids (r :: rs) = r.id :: ids rs := rfl

variable [LinearOrderedField F]

/-- Go's zero `SearchResult`, which `resultMap[id]` yields for a missing key. -/
instance : Inhabited (SearchResult F) := ⟨⟨"", "", 0, "", [], ⟨""⟩, none⟩⟩

/-- `a` ranks at or above `b`: the order `sort.Slice(..., Score >)` leaves. -/
def scoreGe (a b : SearchResult F) : Prop := b.score ≤ a.score

instance : DecidableRel (scoreGe (F := F)) := fun a b =>
  inferInstanceAs (Decidable (b.score ≤ a.score))

instance : IsTotal (SearchResult F) scoreGe := ⟨fun a b => le_total b.score a.score⟩

instance : IsTrans (SearchResult F) scoreGe := ⟨fun _ _ _ hab hbc => le_trans hbc hab⟩

/-! ## `MergeConfig` -/

/-- `MergeConfig`: the fusion parameters. `RRFK` is a Go `int`. -/
structure MergeConfig (F : Type) where
  staticWeight : F
  conversationWeight : F
  temporalDecayEnabled : Bool
  halfLifeMinutes : F
  minTemporalWeight : F
  algorithm : String
  rrfK : Int

/-- `DefaultMergeConfig()`. -/
def defaultMergeConfig : MergeConfig F where
  staticWeight := 0.6
  conversationWeight := 0.4
  temporalDecayEnabled := true
  halfLifeMinutes := 30.0
  minTemporalWeight := 0.01
  algorithm := "weighted"
  rrfK := 60

/-- `ErrInvalidWeight`. -/
def errInvalidWeight : GoError := .sentinel "weight must be between 0 and 1"

/-- `ErrInvalidHalfLife`. -/
def errInvalidHalfLife : GoError := .sentinel "half-life must be positive"

/-- `ErrInvalidMinWeight`. -/
def errInvalidMinWeight : GoError := .sentinel "minimum weight must be between 0 and 1"

/-- `ErrNoResults`. -/
def errNoResults : GoError := .sentinel "no results found"

/-- `ErrIndexNotFound`. -/
def errIndexNotFound : GoError := .sentinel "index not found"

/-- `ErrVectorMismatch`. -/
def errVectorMismatch : GoError := .sentinel "vector dimension mismatch"

/-- `ErrClosedRetriever`. -/
def errClosedRetriever : GoError := .sentinel "retriever is closed"

/-- The range check `Validate` makes three times: `x < 0 || x > 1`. -/
def outsideUnit (x : F) : Prop := x < 0 ∨ x > 1

instance (x : F) : Decidable (outsideUnit x) := inferInstanceAs (Decidable (_ ∨ _))

/-- `(*MergeConfig).Validate`: `none` is Go's `nil`. `RRFK` and `Algorithm`
are not checked. -/
def MergeConfig.validate (c : MergeConfig F) : Option GoError :=
  if outsideUnit c.staticWeight then some errInvalidWeight
  else if outsideUnit c.conversationWeight then some errInvalidWeight
  else if c.halfLifeMinutes ≤ 0 then some errInvalidHalfLife
  else if outsideUnit c.minTemporalWeight then some errInvalidMinWeight
  else none

/-- What `Validate` accepts, field by field. -/
structure MergeConfig.Valid (c : MergeConfig F) : Prop where
  staticWeight_mem : 0 ≤ c.staticWeight ∧ c.staticWeight ≤ 1
  conversationWeight_mem : 0 ≤ c.conversationWeight ∧ c.conversationWeight ≤ 1
  halfLife_pos : 0 < c.halfLifeMinutes
  minTemporalWeight_mem : 0 ≤ c.minTemporalWeight ∧ c.minTemporalWeight ≤ 1

theorem not_outsideUnit {x : F} : ¬outsideUnit x ↔ 0 ≤ x ∧ x ≤ 1 := by
  simp [outsideUnit, not_or]

/-- `Validate` returns `nil` exactly on the valid configs. -/
theorem MergeConfig.validate_eq_none {c : MergeConfig F} : c.validate = none ↔ c.Valid := by
  unfold MergeConfig.validate
  constructor
  · intro h
    split_ifs at h with h₁ h₂ h₃ h₄
    exact ⟨not_outsideUnit.1 h₁, not_outsideUnit.1 h₂, lt_of_not_le h₃, not_outsideUnit.1 h₄⟩
  · rintro ⟨h₁, h₂, h₃, h₄⟩
    rw [if_neg (not_outsideUnit.2 h₁), if_neg (not_outsideUnit.2 h₂), if_neg (not_le.2 h₃),
      if_neg (not_outsideUnit.2 h₄)]

/-- The defaults pass their own check. -/
theorem defaultMergeConfig_valid : (defaultMergeConfig : MergeConfig F).Valid := by
  simp only [defaultMergeConfig]
  refine ⟨⟨?_, ?_⟩, ⟨?_, ?_⟩, ?_, ⟨?_, ?_⟩⟩ <;> norm_num

/-! ## Queries and index names -/

/-- `TimeRange`. -/
structure TimeRange where
  since : Time
  «until» : Time

/-- `Query`. `Vector` is a `[]float32`; each element is its exact value. -/
structure Query where
  text : String
  vector : List ℚ
  limit : Int
  timeRange : Option TimeRange

/-- `IndexConfig`: the two collection names. -/
structure IndexConfig where
  staticIndexName : String
  conversationIndexName : String
  deriving DecidableEq, Repr

/-- `DefaultIndexConfig()`. -/
def defaultIndexConfig : IndexConfig := ⟨"KnowledgeBase", "Conversation"⟩

/-! ## The platform -/

/-- What the Go platform decides for the retriever and the source leaves
open: three members of package `math`, the visiting order of `range` over a
map (given its keys), and where `sort.Slice` with `less = Score >` puts
elements of equal score. -/
structure Platform (F : Type) where
  exp : F → F
  log : F → F
  ln2 : F
  rangeOrder : List String → List String
  sortByScore : List (SearchResult F) → List (SearchResult F)

/-- Go's contract for `range` and `sort.Slice`. -/
structure Platform.Lawful (P : Platform F) : Prop where
  range_perm : ∀ keys, (P.rangeOrder keys).Perm keys
  sort_perm : ∀ l, (P.sortByScore l).Perm l
  sort_sorted : ∀ l, (P.sortByScore l).Sorted scoreGe

/-- A platform that visits keys in insertion order and sorts stably by
insertion, around any `math` functions. -/
def Platform.ofMath (exp log : F → F) (ln2 : F) : Platform F :=
  ⟨exp, log, ln2, id, List.insertionSort scoreGe⟩

theorem Platform.ofMath_lawful (exp log : F → F) (ln2 : F) :
    (Platform.ofMath exp log ln2).Lawful :=
  ⟨fun _ => List.Perm.refl _, List.perm_insertionSort scoreGe,
    List.sorted_insertionSort scoreGe⟩

end AgentRag.Retriever
