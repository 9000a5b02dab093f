import AgentRag.Retriever.Decay

/-!
# The decay curve under the laws of `math.Exp`

`Apply` multiplies a score by `decayFactor`: `exp(-ln 2 · Δt / H)` floored at
`minWeight`, with `Δt` the record's age in minutes. Everything said here
about its value rests on four facts of `math.Exp`, `math.Log` and
`math.Ln2`, gathered in `Platform.MathLaws`: `exp 0 = 1`, `exp` is strictly
increasing, `exp (log x) = x` for `x > 0`, and `exp (ln 2) = 2`. The real
functions satisfy them (`Platform.ofMath_mathLaws`).

What the curve does:

- the floor holds for every age: `minWeight · s ≤ Apply(s, ts, now)` for
  `s ≥ 0`, and `Apply(s, now, now) = s`;
- the multiplier is at most `1` exactly when the record is not
  younger than `now`: a timestamp after `now` makes the exponent positive,
  and nothing clamps it, so `Apply(s, ts, now) > s` for every `s > 0`
  (`apply_le_score_iff`);
- the multiplier grows with the timestamp (`decayFactor_mono`), which the
  monotonicity of the weighted merge uses;
- `CalculateHalfLifeFromRetention(t, r)` is the half-life at which a record
  aged `t` minutes keeps `r` of its score
  (`calculateHalfLifeFromRetention_inverse`).
-/

namespace AgentRag.Retriever

variable {F : Type} [LinearOrderedField F]

/-- The laws of `math.Exp`, `math.Log` and `math.Ln2` the decay curve rests
on. Go's functions approximate the real ones; the model reads them as
exact, as it reads `float64` arithmetic. -/
structure Platform.MathLaws (P : Platform F) : Prop where
  exp_zero : P.exp 0 = 1
  exp_strictMono : StrictMono P.exp
  exp_log : ∀ x, 0 < x → P.exp (P.log x) = x
  exp_ln2 : P.exp P.ln2 = 2

/-- The real exponential and logarithm satisfy the laws. -/
theorem Platform.ofMath_mathLaws : (Platform.ofMath Real.exp Real.log (Real.log 2)).MathLaws :=
  ⟨Real.exp_zero, Real.exp_strictMono, fun _ hx => Real.exp_log hx, Real.exp_log two_pos⟩

namespace Platform.MathLaws

variable {P : Platform F} (hP : P.MathLaws)
include hP

theorem ln2_pos : 0 < P.ln2 :=
  hP.exp_strictMono.lt_iff_lt.1 (by rw [hP.exp_zero, hP.exp_ln2]; norm_num)

theorem exp_le_one {x : F} (hx : x ≤ 0) : P.exp x ≤ 1 :=
  hP.exp_zero ▸ hP.exp_strictMono.monotone hx

theorem one_lt_exp {x : F} (hx : 0 < x) : 1 < P.exp x :=
  hP.exp_zero ▸ hP.exp_strictMono hx

theorem log_neg {x : F} (h0 : 0 < x) (h1 : x < 1) : P.log x < 0 :=
  hP.exp_strictMono.lt_iff_lt.1 (by rw [hP.exp_log x h0, hP.exp_zero]; exact h1)

end Platform.MathLaws

/-! ## The multiplier -/

/-- The multiplier `Apply` puts on the score when the decay is enabled: the
local `decayFactor` after the floor. -/
def TemporalDecay.decayFactor (P : Platform F) (td : TemporalDecay F)
    (timestamp currentTime : Time) : F :=
  let decayFactor := P.exp (-P.ln2 * (currentTime.sub timestamp).minutes / td.halfLifeMinutes)
  if decayFactor < td.minWeight then td.minWeight else decayFactor

namespace TemporalDecay

variable (P : Platform F) (td : TemporalDecay F) {ts now : Time}

theorem apply_of_enabled (h : td.enabled = true) (score : F) (ts now : Time) :
    td.apply P score ts now = score * td.decayFactor P ts now := by
  simp [apply, decayFactor, h]

theorem apply_of_disabled (h : td.enabled = false) (score : F) (ts now : Time) :
    td.apply P score ts now = score := by
  simp [apply, h]

/-- `Apply` is linear in the score: weighting before or after decay is the
same. -/
theorem apply_mul_right (score w : F) (ts now : Time) :
    td.apply P (score * w) ts now = td.apply P score ts now * w := by
  cases h : td.enabled
  · rw [apply_of_disabled P td h, apply_of_disabled P td h]
  · rw [apply_of_enabled P td h, apply_of_enabled P td h]
    ring

/-- The floor is a `max`. -/
theorem decayFactor_eq_max : td.decayFactor P ts now =
    max td.minWeight (P.exp (-P.ln2 * (now.sub ts).minutes / td.halfLifeMinutes)) := by
  dsimp only [decayFactor]
  split_ifs with h
  · exact (max_eq_left h.le).symm
  · exact (max_eq_right (not_lt.1 h)).symm

theorem minWeight_le_decayFactor : td.minWeight ≤ td.decayFactor P ts now :=
  (td.decayFactor_eq_max P).symm ▸ le_max_left _ _

variable {P td}

/-- The exponent `-ln 2 · Δt / H` falls as the age grows. -/
theorem exponent_anti (hP : P.MathLaws) (hH : 0 < td.halfLifeMinutes) {t t' : F} (h : t ≤ t') :
    -P.ln2 * t' / td.halfLifeMinutes ≤ -P.ln2 * t / td.halfLifeMinutes :=
  div_le_div_of_nonneg_right (mul_le_mul_of_nonpos_left h (neg_nonpos.2 hP.ln2_pos.le)) hH.le

theorem decayFactor_le_one (hP : P.MathLaws) (hH : 0 < td.halfLifeMinutes)
    (hm : td.minWeight ≤ 1) (hts : ts.unixNano ≤ now.unixNano) : td.decayFactor P ts now ≤ 1 := by
  have hage : (0 : F) ≤ (now.sub ts).minutes :=
    (Duration.minutes_nonneg_iff _).2 ((Time.sub_nonneg_iff _ _).2 hts)
  rw [decayFactor_eq_max]
  exact max_le hm (hP.exp_le_one ((exponent_anti hP hH hage).trans_eq (by rw [mul_zero, zero_div])))

theorem one_lt_decayFactor (hP : P.MathLaws) (hH : 0 < td.halfLifeMinutes)
    (hts : now.unixNano < ts.unixNano) : 1 < td.decayFactor P ts now := by
  have hage : (now.sub ts).minutes < (0 : F) :=
    not_le.1 fun h =>
      not_le.2 hts ((Time.sub_nonneg_iff _ _).1 ((Duration.minutes_nonneg_iff _).1 h))
  rw [decayFactor_eq_max]
  exact lt_max_of_lt_right
    (hP.one_lt_exp (div_pos (mul_pos_of_neg_of_neg (neg_neg_of_pos hP.ln2_pos) hage) hH))

/-- At age zero the multiplier is `1`. -/
theorem decayFactor_self (hP : P.MathLaws) (hm : td.minWeight ≤ 1) :
    td.decayFactor P now now = 1 := by
  have h0 : (now.sub now).minutes = (0 : F) := by
    rw [Duration.minutes, Time.sub_self, Int.cast_zero, zero_div]
  rw [decayFactor_eq_max, h0, mul_zero, zero_div, hP.exp_zero, max_eq_right hm]

/-- A later timestamp never gets a smaller multiplier. -/
theorem decayFactor_mono (hP : P.MathLaws) (hH : 0 < td.halfLifeMinutes) {ts ts' : Time}
    (h : ts.unixNano ≤ ts'.unixNano) : td.decayFactor P ts now ≤ td.decayFactor P ts' now := by
  rw [decayFactor_eq_max, decayFactor_eq_max]
  exact max_le_max le_rfl (hP.exp_strictMono.monotone
    (exponent_anti hP hH (Duration.minutes_le_minutes (now.sub_anti h))))

/-- `Apply` grows with the score, from a non-negative one, and with the
timestamp, when the floor is non-negative. -/
theorem apply_mono (hP : P.MathLaws) (hH : 0 < td.halfLifeMinutes) (hm : 0 ≤ td.minWeight)
    {score score' : F} (hs : 0 ≤ score) (h : score ≤ score') {ts ts' : Time}
    (ht : ts.unixNano ≤ ts'.unixNano) : td.apply P score ts now ≤ td.apply P score' ts' now := by
  cases hen : td.enabled
  · rw [apply_of_disabled P td hen, apply_of_disabled P td hen]
    exact h
  · rw [apply_of_enabled P td hen, apply_of_enabled P td hen]
    exact mul_le_mul h (decayFactor_mono hP hH ht) (hm.trans (td.minWeight_le_decayFactor P))
      (hs.trans h)

/-- A later reference time gives a smaller multiplier: a record ages. -/
theorem decayFactor_anti (hP : P.MathLaws) (hH : 0 < td.halfLifeMinutes) {now' : Time}
    (h : now.unixNano ≤ now'.unixNano) : td.decayFactor P ts now' ≤ td.decayFactor P ts now := by
  rw [decayFactor_eq_max, decayFactor_eq_max]
  exact max_le_max le_rfl (hP.exp_strictMono.monotone
    (exponent_anti hP hH (Duration.minutes_le_minutes (Time.sub_mono ts h))))

/-- A non-negative score decays no less at a later reference time. -/
theorem apply_anti (hP : P.MathLaws) (hH : 0 < td.halfLifeMinutes) {score : F} (hs : 0 ≤ score)
    {now' : Time} (h : now.unixNano ≤ now'.unixNano) :
    td.apply P score ts now' ≤ td.apply P score ts now := by
  cases hen : td.enabled
  · rw [apply_of_disabled P td hen, apply_of_disabled P td hen]
  · rw [apply_of_enabled P td hen, apply_of_enabled P td hen]
    exact mul_le_mul_of_nonneg_left (decayFactor_anti hP hH h) hs

end TemporalDecay

/-! ## `Apply` at every age -/

section Laws

variable {P : Platform F}

/-- **`Apply` on a positive score, at every age.** The floor holds and age
zero keeps the score; but the score comes out at most itself exactly when
the timestamp is not after `currentTime`: a record stamped in the future
gains. -/
theorem apply_le_score_iff (hP : P.MathLaws) (td : TemporalDecay F) (hen : td.enabled = true)
    (hH : 0 < td.halfLifeMinutes) (hm : td.minWeight ≤ 1) (score : F) (hs : 0 < score)
    (ts now : Time) :
    td.minWeight * score ≤ td.apply P score ts now ∧ td.apply P score now now = score ∧
      (td.apply P score ts now ≤ score ↔ ts.unixNano ≤ now.unixNano) := by
  rw [td.apply_of_enabled P hen, td.apply_of_enabled P hen, td.decayFactor_self hP hm, mul_one,
    mul_le_iff_le_one_right hs, mul_comm td.minWeight]
  exact ⟨mul_le_mul_of_nonneg_left (td.minWeight_le_decayFactor P) hs.le, rfl,
    fun h => not_lt.1 fun h' => (td.one_lt_decayFactor hP hH h').not_le h,
    td.decayFactor_le_one hP hH hm⟩

/-- The default decay (half-life 30 minutes, floor 0.01) on a record
stamped 30 minutes after `currentTime`. -/
theorem apply_le_score_iff_future_stamp :
    let P := Platform.ofMath Real.exp Real.log (Real.log 2)
    let td := TemporalDecay.ofConfig (defaultMergeConfig : MergeConfig ℝ)
    P.MathLaws ∧ td.enabled = true ∧ 0 < td.halfLifeMinutes ∧ td.minWeight ≤ 1 ∧
      (0 : ℝ) < 0.8 ∧
      (td.minWeight * 0.8 ≤ td.apply P 0.8 ⟨1800000000000⟩ ⟨0⟩ ∧ td.apply P 0.8 ⟨0⟩ ⟨0⟩ = 0.8 ∧
        (td.apply P 0.8 ⟨1800000000000⟩ ⟨0⟩ ≤ 0.8 ↔
          (⟨1800000000000⟩ : Time).unixNano ≤ (⟨0⟩ : Time).unixNano)) := by
  intro P td
  have hH : 0 < td.halfLifeMinutes := by
    norm_num [td, TemporalDecay.ofConfig, newTemporalDecay, defaultMergeConfig]
  have hm : td.minWeight ≤ 1 := by
    norm_num [td, TemporalDecay.ofConfig, newTemporalDecay, defaultMergeConfig]
  exact ⟨Platform.ofMath_mathLaws, rfl, hH, hm, by norm_num,
    apply_le_score_iff Platform.ofMath_mathLaws _ rfl hH hm _ (by norm_num) _ _⟩

/-- **`CalculateHalfLifeFromRetention` inverts the curve.** For a
retention time `t > 0` and a target `0 < r < 1` the half-life is positive,
so it passes `Validate` in place of any accepted half-life, and an enabled
decay with that half-life and a floor at most `r` keeps exactly `r` of the
score of a record aged `t` minutes. -/
theorem calculateHalfLifeFromRetention_inverse (hP : P.MathLaws) (t r : F) (ht : 0 < t)
    (hr0 : 0 < r) (hr1 : r < 1) (m score : F) (hm : m ≤ r) (ts now : Time)
    (hage : (now.sub ts).minutes = t) :
    0 < calculateHalfLifeFromRetention P t r ∧
      (∀ c : MergeConfig F, c.validate = none →
        ({ c with halfLifeMinutes := calculateHalfLifeFromRetention P t r } :
          MergeConfig F).validate = none) ∧
      (newTemporalDecay (calculateHalfLifeFromRetention P t r) m true).apply P score ts now =
        r * score := by
  have hlog := hP.log_neg hr0 hr1
  have hnum : -P.ln2 * t < 0 := mul_neg_of_neg_of_pos (neg_neg_of_pos hP.ln2_pos) ht
  have hH : calculateHalfLifeFromRetention P t r = -P.ln2 * t / P.log r :=
    if_neg (by push_neg; exact ⟨hr0, hr1⟩)
  have hpos : 0 < calculateHalfLifeFromRetention P t r := hH ▸ div_pos_of_neg_of_neg hnum hlog
  refine ⟨hpos, fun c hc => ?_, ?_⟩
  · obtain ⟨h1, h2, -, h4⟩ := MergeConfig.validate_eq_none.1 hc
    exact MergeConfig.validate_eq_none.2 ⟨h1, h2, hpos, h4⟩
  · have hexp : -P.ln2 * t / calculateHalfLifeFromRetention P t r = P.log r := by
      rw [hH, div_div_cancel₀ hnum.ne]
    rw [TemporalDecay.apply_of_enabled _ _ rfl, mul_comm]
    simp only [TemporalDecay.decayFactor, newTemporalDecay, hage, hexp, hP.exp_log r hr0,
      if_neg (not_lt.2 hm)]

/-- `CalculateHalfLifeFromRetention(120, 0.1)` from the source's comment, on a
record two hours old, with the default floor. -/
theorem calculateHalfLifeFromRetention_inverse_two_hours :
    let P := Platform.ofMath Real.exp Real.log (Real.log 2)
    P.MathLaws ∧ (0 : ℝ) < 120 ∧ (0 : ℝ) < 0.1 ∧ (0.1 : ℝ) < 1 ∧ (0.01 : ℝ) ≤ 0.1 ∧
      (Time.sub ⟨7200000000000⟩ ⟨0⟩).minutes = (120 : ℝ) ∧
      (0 < calculateHalfLifeFromRetention P 120 0.1 ∧
        (∀ c : MergeConfig ℝ, c.validate = none →
          ({ c with halfLifeMinutes := calculateHalfLifeFromRetention P 120 0.1 } :
            MergeConfig ℝ).validate = none) ∧
        (newTemporalDecay (calculateHalfLifeFromRetention P 120 0.1) 0.01 true).apply P 1
          ⟨0⟩ ⟨7200000000000⟩ = 0.1 * 1) := by
  have hage : (Time.sub ⟨7200000000000⟩ ⟨0⟩).minutes = (120 : ℝ) := by
    norm_num [Time.sub, Duration.minutes, minDuration, maxDuration]
  exact ⟨Platform.ofMath_mathLaws, by norm_num, by norm_num, by norm_num, by norm_num, hage,
    calculateHalfLifeFromRetention_inverse Platform.ofMath_mathLaws 120 0.1 (by norm_num)
      (by norm_num) (by norm_num) 0.01 1 (by norm_num) ⟨0⟩ ⟨7200000000000⟩ hage⟩

end Laws

end AgentRag.Retriever
