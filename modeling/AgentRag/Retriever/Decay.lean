import AgentRag.Retriever.Types

/-!
# `TemporalDecay`: the age multiplier on conversation scores

`TemporalDecay.Apply` multiplies a score by `exp(-ln 2 · Δt / H)`, floored
at `minWeight`, where `Δt` is `currentTime.Sub(timestamp).Minutes()`; it is
the identity when the decay is disabled. `ApplyToResults` maps it over the
conversation records that carry a timestamp and passes every other record
through. `CalculateHalfLifeFromRetention` inverts the curve.

Mirroring notes vs `errors.go`:
- `Apply` takes the exponential and `ln 2` from the `Platform`; nothing here
  assumes anything about them. No clamp of the multiplier at `1` exists in
  the source, so none exists here: a timestamp after `currentTime` gives a
  positive exponent.
- `ApplyToResults` allocates a fresh slice and assigns `decayed[i]` per
  index; that is `List.map` of one per-record step, `decayResult`.

The lemmas below are the frame facts every caller uses: decay touches only
`Score`, and keeps IDs, order and length.
-/

namespace AgentRag.Retriever

variable {F : Type} [LinearOrderedField F]

/-- `TemporalDecay`. -/
structure TemporalDecay (F : Type) where
  halfLifeMinutes : F
  minWeight : F
  enabled : Bool

/-- `NewTemporalDecay(halfLifeMinutes, minWeight, enabled)`. -/
def newTemporalDecay (halfLifeMinutes minWeight : F) (enabled : Bool) : TemporalDecay F :=
  ⟨halfLifeMinutes, minWeight, enabled⟩

/-- The decay a `MergeConfig` asks for, built as every constructor and
update in the source builds it. -/
def TemporalDecay.ofConfig (c : MergeConfig F) : TemporalDecay F :=
  newTemporalDecay c.halfLifeMinutes c.minTemporalWeight c.temporalDecayEnabled

/-- `(*TemporalDecay).Apply(score, timestamp, currentTime)`. -/
def TemporalDecay.apply (P : Platform F) (td : TemporalDecay F) (score : F)
    (timestamp currentTime : Time) : F :=
  if !td.enabled then score
  else
    let timeDiff : F := (currentTime.sub timestamp).minutes
    let decayFactor := P.exp (-P.ln2 * timeDiff / td.halfLifeMinutes)
    let decayFactor := if decayFactor < td.minWeight then td.minWeight else decayFactor
    score * decayFactor

/-- One iteration of `ApplyToResults`' loop: a conversation record with a
timestamp gets its decayed score, every other record is copied. -/
def TemporalDecay.decayResult (P : Platform F) (td : TemporalDecay F) (currentTime : Time)
    (result : SearchResult F) : SearchResult F :=
  match result.timestamp with
  | some ts =>
    if result.source = sourceConversation then
      { result with score := td.apply P result.score ts currentTime }
    else result
  | none => result

/-- `(*TemporalDecay).ApplyToResults(results, currentTime)`. -/
def TemporalDecay.applyToResults (P : Platform F) (td : TemporalDecay F)
    (results : List (SearchResult F)) (currentTime : Time) : List (SearchResult F) :=
  results.map (td.decayResult P currentTime)

/-- `CalculateHalfLifeFromRetention(retentionMinutes, targetRetention)`. -/
def calculateHalfLifeFromRetention (P : Platform F) (retentionMinutes targetRetention : F) : F :=
  if targetRetention ≤ 0 ∨ targetRetention ≥ 1 then 30.0
  else -P.ln2 * retentionMinutes / P.log targetRetention

/-! ## Frame lemmas -/

section Frame

variable (P : Platform F) (td : TemporalDecay F) (now : Time)

/-- Decay changes the score and nothing else. -/
theorem TemporalDecay.decayResult_eq (r : SearchResult F) :
    td.decayResult P now r = { r with score := (td.decayResult P now r).score } := by
  unfold TemporalDecay.decayResult
  split
  · split <;> rfl
  · rfl

@[simp] theorem TemporalDecay.decayResult_id (r : SearchResult F) :
    (td.decayResult P now r).id = r.id := by
  rw [td.decayResult_eq P now r]

@[simp] theorem TemporalDecay.ids_applyToResults (results : List (SearchResult F)) :
    ids (td.applyToResults P results now) = ids results := by
  simp [TemporalDecay.applyToResults, ids, Function.comp_def]

@[simp] theorem TemporalDecay.length_applyToResults (results : List (SearchResult F)) :
    (td.applyToResults P results now).length = results.length := by
  simp [TemporalDecay.applyToResults]

end Frame

end AgentRag.Retriever
