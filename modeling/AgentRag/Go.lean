import Mathlib

/-!
# The Go platform under the retriever

`src/modules/agent-rag` is Go over `float64`, `time.Time`, `error` values and
the `interface{}` trees `encoding/json` decodes. This file fixes how each of
them is read by the rest of the model:

- `float64` is a `LinearOrderedField` `F`: exact arithmetic, no rounding.
  The one place the retriever leaves the finite floats for reasons other
  than overflow is `mergeRRF`'s `1.0 / (k + float64(rank))` at a zero
  divisor; there the computation runs in `Float64 F`, which adds IEEE 754's
  infinities and NaN to `F`.
- `time.Time` is a count of nanoseconds since the Unix epoch (`Time`);
  `t.Sub(u)` is a `Duration` that saturates at the bounds of `int64`, as Go's
  does, and `d.Minutes()` divides by `6·10¹⁰`.
- An `error` is a `GoError`: a sentinel made by `errors.New` (compared by
  identity, which for the retriever's seven sentinels is their text), a text
  made by `fmt.Errorf` without `%w`, or a text wrapping an inner error with
  `%w`. `GoError.error` is the `Error()` string and `GoError.is` is
  `errors.Is`.
- `t.Format(time.RFC3339)` of a UTC time is `Time.formatRFC3339`: the civil
  date of the proleptic Gregorian calendar, and whole seconds.
- A decoded JSON value is a `Json F`; objects keep their fields as a list.
-/

namespace AgentRag

/-! ## `float64` with its special values -/

/-- A Go `float64` with IEEE 754's special values: a finite value, read in
`F`, an infinity (`neg` is its sign bit), or NaN. Signed zeros are not kept:
the one division the model makes divides by a sum of two integers, which is
`+0` when it is zero. -/
inductive Float64 (F : Type) where
  | finite (x : F)
  | inf (neg : Bool)
  | nan
  deriving DecidableEq, Repr

namespace Float64

variable {F : Type} [LinearOrderedField F]

/-- `x / y` for finite `x` and `y`, a zero `y` being `+0`: an infinity of
the sign of a nonzero `x`, NaN for `0 / 0`. -/
def div (x y : F) : Float64 F :=
  if y = 0 then (if x = 0 then nan else inf (decide (x < 0))) else finite (x / y)

/-- `a * y` for a finite `y`: an infinity times zero is NaN. -/
def mul : Float64 F → F → Float64 F
  | finite x, y => finite (x * y)
  | inf neg, y => if y = 0 then nan else inf (neg != decide (y < 0))
  | nan, _ => nan

/-- `a + b`: NaN absorbs everything, an infinity absorbs a finite value, and
two infinities of opposite signs give NaN. -/
def add : Float64 F → Float64 F → Float64 F
  | finite x, finite y => finite (x + y)
  | nan, _ => nan
  | _, nan => nan
  | inf s, finite _ => inf s
  | finite _, inf s => inf s
  | inf s, inf t => if s = t then inf s else nan

instance : Add (Float64 F) := ⟨add⟩

instance : Zero (Float64 F) := ⟨finite 0⟩

instance : AddZeroClass (Float64 F) where
  zero_add a := by cases a <;> first | rfl | exact congrArg finite (zero_add _)
  add_zero a := by cases a <;> first | rfl | exact congrArg finite (add_zero _)

/-- A finite float is a float: the inclusion of `F`, additive. -/
def finiteHom : F →+ Float64 F where
  toFun := finite
  map_zero' := rfl
  map_add' _ _ := rfl

/-- The number a float denotes in `F`: an infinity and NaN have none, and
read as `0`. -/
def value : Float64 F → F
  | finite x => x
  | _ => 0

@[simp] theorem value_finite (x : F) : (finite x).value = x := rfl

/-- Dividing by a nonzero value stays finite. -/
theorem div_of_ne_zero (x : F) {y : F} (hy : y ≠ 0) : div x y = finite (x / y) := if_neg hy

end Float64

/-- A Go `time.Duration`: a signed count of nanoseconds. -/
structure Duration where
  nanos : Int
  deriving DecidableEq, Repr

/-- The least `time.Duration` (package `time`'s `minDuration`). -/
def minDuration : Duration := ⟨-(2 ^ 63)⟩

/-- The greatest `time.Duration` (package `time`'s `maxDuration`). -/
def maxDuration : Duration := ⟨2 ^ 63 - 1⟩

/-- A Go `time.Time`, read as nanoseconds since the Unix epoch in UTC. The
monotonic clock reading `time.Now` attaches is not modelled: every time the
retriever subtracts comes from the wall clock or from a parsed RFC 3339 text. -/
structure Time where
  unixNano : Int
  deriving DecidableEq, Repr

/-- `t.Sub(u)`: `t - u`, saturated to `[minDuration, maxDuration]`. -/
def Time.sub (t u : Time) : Duration :=
  ⟨max minDuration.nanos (min maxDuration.nanos (t.unixNano - u.unixNano))⟩

/-- `t.Add(d)`. -/
def Time.add (t : Time) (d : Duration) : Time := ⟨t.unixNano + d.nanos⟩

/-- `-d` on an `int64`: the negation of the least duration wraps to
itself. -/
def Duration.neg (d : Duration) : Duration :=
  if d.nanos = minDuration.nanos then d else ⟨-d.nanos⟩

/-- `d.Minutes()`: the duration as a (real) number of minutes. -/
def Duration.minutes {F : Type} [LinearOrderedField F] (d : Duration) : F :=
  (d.nanos : F) / 60000000000

/-- Saturation keeps the sign of a difference. -/
theorem Time.sub_nonneg_iff (t u : Time) : 0 ≤ (t.sub u).nanos ↔ u.unixNano ≤ t.unixNano := by
  simp only [Time.sub, minDuration, maxDuration]
  omega

/-- A later `u` gives a smaller `t.Sub(u)`, saturated or not. -/
theorem Time.sub_anti (t : Time) {u u' : Time} (h : u.unixNano ≤ u'.unixNano) :
    (t.sub u').nanos ≤ (t.sub u).nanos := by
  simp only [Time.sub, minDuration, maxDuration]
  omega

/-- A later `t` gives a larger `t.Sub(u)`, saturated or not. -/
theorem Time.sub_mono {t t' : Time} (u : Time) (h : t.unixNano ≤ t'.unixNano) :
    (t.sub u).nanos ≤ (t'.sub u).nanos := by
  simp only [Time.sub, minDuration, maxDuration]
  omega

/-- A time minus itself is the zero duration. -/
theorem Time.sub_self (t : Time) : (t.sub t).nanos = 0 := by
  simp only [Time.sub, minDuration, maxDuration]
  omega

section Minutes

variable {F : Type} [LinearOrderedField F]

theorem Duration.minutes_le_minutes {d d' : Duration} (h : d.nanos ≤ d'.nanos) :
    (d.minutes : F) ≤ d'.minutes :=
  div_le_div_of_nonneg_right (Int.cast_le.2 h) (by norm_num)

theorem Duration.minutes_nonneg_iff (d : Duration) : (0 : F) ≤ d.minutes ↔ 0 ≤ d.nanos := by
  rw [Duration.minutes, div_nonneg_iff]
  norm_num

end Minutes

/-- A Go `error` value as far as the retriever inspects it. -/
inductive GoError where
  /-- `errors.New(text)`: a sentinel, compared with `==` by identity. -/
  | sentinel (text : String)
  /-- `fmt.Errorf(format, args...)` without `%w`: only the formatted text. -/
  | text (msg : String)
  /-- `fmt.Errorf("<context>%w", inner)`: the text before `%w`, and the
  error it wraps. -/
  | wrap (context : String) (inner : GoError)
  deriving DecidableEq, Repr

/-- `err.Error()`. -/
def GoError.error : GoError → String
  | .sentinel t => t
  | .text m => m
  | .wrap c e => c ++ e.error

/-- The error is a sentinel made by `errors.New`. -/
def GoError.isSentinel : GoError → Bool
  | .sentinel _ => true
  | _ => false

/-- `errors.Is(e, target)`: `e` or an error it wraps is `target`. -/
def GoError.is : GoError → GoError → Bool
  | .wrap c inner, target => .wrap c inner == target || inner.is target
  | e, target => e == target

/-- `context.Canceled`. -/
def contextCanceled : GoError := .sentinel "context canceled"

/-! ## RFC 3339 -/

/-- `(year, month, day)` of the day `z` days after 1970-01-01, in the
proleptic Gregorian calendar (Go's `absDate`, computed by 400-year eras). -/
def civilFromDays (z : Int) : Int × Int × Int :=
  let z := z + 719468
  let era := z / 146097
  let doe := z - era * 146097
  let yoe := (doe - doe / 1460 + doe / 36524 - doe / 146096) / 365
  let doy := doe - (365 * yoe + yoe / 4 - yoe / 100)
  let mp := (5 * doy + 2) / 153
  let d := doy - (153 * mp + 2) / 5 + 1
  let m := if mp < 10 then mp + 3 else mp - 9
  (yoe + era * 400 + (if m ≤ 2 then 1 else 0), m, d)

/-- Go's `appendInt(b, x, width)`: a sign for a negative `x`, then the digits
of `|x|` padded with zeros to `width`. -/
def appendInt (x : Int) (width : Nat) : String :=
  let digits := toString x.natAbs
  (if x < 0 then "-" else "") ++ String.mk (List.replicate (width - digits.length) '0') ++ digits

/-- `t.UTC().Format(time.RFC3339)`: `YYYY-MM-DDThh:mm:ssZ`; the seconds are
truncated towards the past. -/
def Time.formatRFC3339 (t : Time) : String :=
  let secs := t.unixNano / 1000000000
  let (year, month, day) := civilFromDays (secs / 86400)
  let sod := secs % 86400
  appendInt year 4 ++ "-" ++ appendInt month 2 ++ "-" ++ appendInt day 2 ++ "T" ++
    appendInt (sod / 3600) 2 ++ ":" ++ appendInt (sod % 3600 / 60) 2 ++ ":" ++
    appendInt (sod % 60) 2 ++ "Z"

example : (Time.mk 1767225600000000000).formatRFC3339 = "2026-01-01T00:00:00Z" := by decide
example : (Time.mk (-1)).formatRFC3339 = "1969-12-31T23:59:59Z" := by decide

/-- `daysIn(month, year)`. -/
def daysIn (month : Nat) (year : Int) : Nat :=
  if month = 2 then
    if year % 4 = 0 ∧ (year % 100 ≠ 0 ∨ year % 400 = 0) then 29 else 28
  else if month = 4 ∨ month = 6 ∨ month = 9 ∨ month = 11 then 30
  else 31

/-- The day count since 1970-01-01 of a civil date; the inverse of
`civilFromDays`. -/
def daysFromCivil (year : Int) (month day : Nat) : Int :=
  let y := if month ≤ 2 then year - 1 else year
  let era := y / 400
  let yoe := y - era * 400
  let mp : Int := if month > 2 then month - 3 else month + 9
  let doy := (153 * mp + 2) / 5 + day - 1
  era * 146097 + (yoe * 365 + yoe / 4 - yoe / 100 + doy) - 719468

/-- The value of a decimal digit. -/
def digitValue (c : Char) : Nat := c.toNat - '0'.toNat

/-- The number a list of decimal digits denotes. -/
def digitsValue (ds : List Char) : Nat := ds.foldl (fun n d => 10 * n + digitValue d) 0

/-- Go's `getnum(s, fixed)`: a number of two digits, or of one when it is not
`fixed`. -/
def getnum : List Char → Bool → Option (Nat × List Char)
  | a :: b :: rest, fixed =>
    if !a.isDigit then none
    else if b.isDigit then some (10 * digitValue a + digitValue b, rest)
    else if fixed then none else some (digitValue a, b :: rest)
  | [a], fixed => if a.isDigit && !fixed then some (digitValue a, []) else none
  | [], _ => none

/-- The fractional second `time.Parse` reads after the seconds: a `.` or `,`
and digits, of which the first nine count. -/
def parseFraction : List Char → Nat × List Char
  | p :: d :: rest =>
    if (p == '.' || p == ',') && d.isDigit then
      let digits := (d :: rest.takeWhile Char.isDigit).take 9
      (digitsValue digits * 10 ^ (9 - digits.length), rest.dropWhile Char.isDigit)
    else (0, p :: d :: rest)
  | s => (0, s)

/-- The `Z07:00` element: `Z`, or a signed `hh:mm` offset east of UTC in
seconds, where Go admits 24 hours and 60 minutes. -/
def parseZone : List Char → Option (Int × List Char)
  | 'Z' :: rest => some (0, rest)
  | sign :: h1 :: h2 :: ':' :: m1 :: m2 :: rest => do
    let (hr, _) ← getnum [h1, h2] true
    let (mm, _) ← getnum [m1, m2] true
    if hr > 24 ∨ mm > 60 then none
    else
      let offset : Int := (hr * 60 + mm) * 60
      if sign = '+' then some (offset, rest)
      else if sign = '-' then some (-offset, rest)
      else none
  | _ => none

/-- `time.Parse(time.RFC3339, value)` when it succeeds: Go's layout parser
on `2006-01-02T15:04:05Z07:00`, which accepts everything its RFC 3339 fast
path accepts and gives the same instant. The error text is not modelled:
the one caller discards it. -/
def parseRFC3339 (value : String) : Option Time := do
  let y0 :: y1 :: y2 :: y3 :: s := value.toList | none
  if !(y0.isDigit && y1.isDigit && y2.isDigit && y3.isDigit) then none
  let year : Int := digitsValue [y0, y1, y2, y3]
  let '-' :: s := s | none
  let (month, s) ← getnum s true
  if month < 1 ∨ 12 < month then none
  let '-' :: s := s | none
  let (day, s) ← getnum s true
  let 'T' :: s := s | none
  let (hour, s) ← getnum s false
  if 24 ≤ hour then none
  let ':' :: s := s | none
  let (min, s) ← getnum s true
  if 60 ≤ min then none
  let ':' :: s := s | none
  let (sec, s) ← getnum s true
  if 60 ≤ sec then none
  let (nsec, s) := parseFraction s
  let (offset, s) ← parseZone s
  if !s.isEmpty then none
  if day < 1 ∨ daysIn month year < day then none
  let secs := daysFromCivil year month day * 86400 + hour * 3600 + min * 60 + sec - offset
  pure ⟨secs * 1000000000 + nsec⟩

example : parseRFC3339 "2026-01-01T00:00:00Z" = some ⟨1767225600000000000⟩ := by decide
example : parseRFC3339 "2026-01-01T02:00:00.5+02:00" = some ⟨1767225600500000000⟩ := by decide

/-- A value `encoding/json` decodes into an `interface{}`: `nil`, `bool`,
`float64`, `string`, `[]interface{}` or `map[string]interface{}`. -/
inductive Json (F : Type) where
  | null
  | bool (b : Bool)
  | number (x : F)
  | string (s : String)
  | array (xs : List (Json F))
  | object (fields : List (String × Json F))

end AgentRag
