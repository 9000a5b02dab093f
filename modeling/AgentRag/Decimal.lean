import AgentRag.Go

/-!
# Decimal numerals

Go prints an integer with `%d` and `%v`, and pads one with `appendInt`, as
the digits of its absolute value, with no leading zero, after a `-` when it
is negative; `toString` on `Nat` and `Int` is the same text. Two readers in
the model fold such digits back: `digitsValue`, which `getnum` and the year
of `parseRFC3339` use, and the `IntValue` reading of a GraphQL server.

`IsNumeral cs n` says `cs` is the numeral of `n`, and
`isNumeral_toDigits` that `Nat.toDigits 10 n` is one. The length bounds
(`length_le_of_lt_pow`) are what a fixed-width field needs.
-/

namespace AgentRag

@[simp] theorem toList_append (s t : String) : (s ++ t).toList = s.toList ++ t.toList := rfl

/-- `cs` is the decimal numeral of `n`: nonempty digits denoting `n`, with no
leading zero unless it is `0` itself. -/
structure IsNumeral (cs : List Char) (n : Nat) : Prop where
  ne_nil : cs ≠ []
  isDigit : ∀ c ∈ cs, c.isDigit
  value : digitsValue cs = n
  noLeadingZero : cs.head? = some '0' → cs = ['0']

theorem isDigit_iff_toNat {c : Char} : c.isDigit ↔ 48 ≤ c.toNat ∧ c.toNat ≤ 57 := by
  simp only [Char.isDigit, Bool.and_eq_true, decide_eq_true_eq]
  exact Iff.rfl

theorem digitValue_lt_ten {c : Char} (h : c.isDigit) : digitValue c < 10 := by
  have := isDigit_iff_toNat.1 h
  simp only [digitValue, show '0'.toNat = 48 from rfl]
  omega

theorem digitValue_pos {c : Char} (h : c.isDigit) (h0 : c ≠ '0') : 0 < digitValue c := by
  have := isDigit_iff_toNat.1 h
  simp only [digitValue, show '0'.toNat = 48 from rfl]
  by_contra hc
  exact h0 (by rw [← Char.ofNat_toNat c, show c.toNat = 48 by omega])

theorem digitChar_of_lt_ten {d : Nat} (h : d < 10) :
    (Nat.digitChar d).isDigit ∧ digitValue (Nat.digitChar d) = d := by
  revert d
  decide

theorem digitsValue_append_single (cs : List Char) (c : Char) :
    digitsValue (cs ++ [c]) = 10 * digitsValue cs + digitValue c := by
  simp [digitsValue, List.foldl_append]

theorem digitsValue_append (cs ds : List Char) :
    digitsValue (cs ++ ds) = digitsValue cs * 10 ^ ds.length + digitsValue ds := by
  induction ds using List.reverseRecOn with
  | nil => simp [digitsValue]
  | append_singleton ds d ih =>
    rw [← List.append_assoc, digitsValue_append_single, digitsValue_append_single, ih,
      List.length_append, List.length_singleton, pow_succ]
    ring

theorem toDigitsCore_isNumeral (fuel n : Nat) (ds : List Char) (h : n < fuel) :
    ∃ cs, Nat.toDigitsCore 10 fuel n ds = cs ++ ds ∧ IsNumeral cs n := by
  induction fuel generalizing n ds with
  | zero => omega
  | succ fuel ih =>
    have hd := digitChar_of_lt_ten (Nat.mod_lt n (by norm_num : 10 > 0))
    rw [Nat.toDigitsCore]
    split_ifs with h0
    · refine ⟨[Nat.digitChar (n % 10)], rfl, ⟨List.cons_ne_nil _ _, by simpa using hd.1, ?_, ?_⟩⟩
      · simp only [digitsValue, List.foldl_cons, List.foldl_nil, hd.2]
        omega
      · intro h
        simp only [List.head?_cons, Option.some.injEq] at h
        rw [h]
    · obtain ⟨cs, hcs, hnum⟩ := ih (n / 10) (Nat.digitChar (n % 10) :: ds) (by omega)
      obtain ⟨c, cs', rfl⟩ := List.exists_cons_of_ne_nil hnum.ne_nil
      refine ⟨c :: cs' ++ [Nat.digitChar (n % 10)], by simp [hcs], ⟨by simp, ?_, ?_, ?_⟩⟩
      · exact fun x hx => (List.mem_append.1 hx).elim (hnum.isDigit x)
          fun h => (List.mem_singleton.1 h) ▸ hd.1
      · rw [digitsValue_append_single, hnum.value, hd.2]
        omega
      · intro h
        have hv := hnum.value
        rw [hnum.noLeadingZero (by simpa using h)] at hv
        simp only [digitsValue, List.foldl_cons, List.foldl_nil, digitValue, Nat.sub_self] at hv
        omega

/-- `Nat.toDigits 10 n`, the text of `toString n`, is the numeral of `n`. -/
theorem isNumeral_toDigits (n : Nat) : IsNumeral (Nat.toDigits 10 n) n := by
  obtain ⟨cs, hcs, hnum⟩ := toDigitsCore_isNumeral (n + 1) n [] (by omega)
  rw [Nat.toDigits, hcs, List.append_nil]
  exact hnum

/-- A numeral that does not start with `0` denotes at least `10 ^ (k - 1)`
for its `k` digits. -/
theorem pow_le_digitsValue (cs : List Char) (h : ∀ c ∈ cs, c.isDigit) (hne : cs ≠ [])
    (h0 : cs.head? ≠ some '0') : 10 ^ (cs.length - 1) ≤ digitsValue cs := by
  induction cs using List.reverseRecOn with
  | nil => exact absurd rfl hne
  | append_singleton cs c ih =>
    rw [digitsValue_append_single, List.length_append, List.length_singleton, Nat.add_sub_cancel]
    rcases cs with _ | ⟨d, ds⟩
    · have := digitValue_pos (h c (by simp)) (by simpa using h0)
      simp only [digitsValue, List.foldl_nil, List.length_nil, pow_zero]
      omega
    · have := ih (fun c hc => h c (List.mem_append_left _ hc)) (List.cons_ne_nil _ _)
        (by simpa using h0)
      rw [List.length_cons, Nat.add_sub_cancel] at this
      rw [List.length_cons, pow_succ]
      omega

/-- A numeral is no longer than the number it denotes needs. -/
theorem length_le_of_lt_pow {cs : List Char} {n k : Nat} (hnum : IsNumeral cs n)
    (hk : n < 10 ^ k) (hk0 : 0 < k) : cs.length ≤ k := by
  by_cases h0 : cs.head? = some '0'
  · rw [hnum.noLeadingZero h0]
    exact hk0
  · have := pow_le_digitsValue cs hnum.isDigit hnum.ne_nil h0
    rw [hnum.value] at this
    have := (Nat.pow_lt_pow_iff_right (by norm_num : 1 < 10)).1 (this.trans_lt hk)
    omega

theorem digitsValue_replicate_zero (n : Nat) : digitsValue (List.replicate n '0') = 0 := by
  induction n with
  | zero => rfl
  | succ n ih =>
    rw [List.replicate_succ', digitsValue_append_single, ih]
    rfl

/-- `n` padded with zeros to `w` digits, as `appendInt` and `%.Nf` write a
field: `w` digits denoting `n`. -/
theorem padded_toDigits {n w : Nat} (hn : n < 10 ^ w) (hw : 0 < w) :
    (List.replicate (w - (Nat.toDigits 10 n).length) '0' ++ Nat.toDigits 10 n).length = w ∧
      (∀ c ∈ List.replicate (w - (Nat.toDigits 10 n).length) '0' ++ Nat.toDigits 10 n,
        c.isDigit = true) ∧
      digitsValue (List.replicate (w - (Nat.toDigits 10 n).length) '0' ++ Nat.toDigits 10 n) = n := by
  have hnum := isNumeral_toDigits n
  have hlen := length_le_of_lt_pow hnum hn hw
  rw [List.length_append, List.length_replicate, digitsValue_append, digitsValue_replicate_zero,
    hnum.value]
  refine ⟨by omega, fun c hc => ?_, by omega⟩
  rcases List.mem_append.1 hc with hc | hc
  · rw [List.eq_of_mem_replicate hc]
    rfl
  · exact hnum.isDigit c hc

end AgentRag
