import Lakehouse.Lib.Digits

/-!
# Dates and timestamps

A date is a number of days since 1970-01-01 and a timestamp a number of microseconds since its
midnight, both in UTC and in the proleptic Gregorian calendar. `civilOfDays` and `daysOfCivil`
convert between a day number and a year, month and day (`daysOfCivil_civilOfDays`); a timestamp is
written in ISO-8601 by `formatTimestamp` and read back by `readTimestamp`
(`readTimestamp_format`).
-/

namespace Lakehouse.Lib

/-! ## The civil calendar -/

/-- The year of a 400-year era and the day of that year (counted from March) that a day of the era
falls in: centuries, then four-year groups, then years, the last of each group a day longer. -/
def yearOfEra (doe : Nat) : Nat × Nat :=
  let cent := min (doe / 36524) 3
  let doc := doe - cent * 36524
  let quad := doc / 1461
  let doq := doc - quad * 1461
  let yr := min (doq / 365) 3
  (100 * cent + 4 * quad + yr, doq - yr * 365)

/-- Year, month and day of a day number; eras and years are counted from the first of March. -/
def civilOfDays (z : Int) : Int × Nat × Nat :=
  let era := (z + 719468) / 146097
  let (yoe, doy) := yearOfEra ((z + 719468) % 146097).toNat
  let mp := (5 * doy + 2) / 153
  let d := doy - (153 * mp + 2) / 5 + 1
  let m := if mp < 10 then mp + 3 else mp - 9
  (yoe + era * 400 + (if m ≤ 2 then 1 else 0), m, d)

/-- The days from the epoch to a date of the Gregorian calendar. -/
def daysOfCivil (y : Int) (m d : Nat) : Int :=
  let y := if m ≤ 2 then y - 1 else y
  let era := y / 400
  let yoe := (y % 400).toNat
  let mp := if 2 < m then m - 3 else m + 9
  let doy := (153 * mp + 2) / 5 + d - 1
  let doe := yoe * 365 + yoe / 4 - yoe / 100 + doy
  era * 146097 + doe - 719468

/-- A day of the era is the first day of its year plus its day of the year. -/
theorem yearOfEra_spec {doe : Nat} (h : doe < 146097) :
    (yearOfEra doe).1 < 400 ∧ (yearOfEra doe).2 < 366 ∧
      (yearOfEra doe).1 * 365 + (yearOfEra doe).1 / 4 - (yearOfEra doe).1 / 100 +
        (yearOfEra doe).2 = doe := by
  unfold yearOfEra
  simp only
  generalize hcent : min (doe / 36524) 3 = cent
  generalize hdoc : doe - cent * 36524 = doc
  generalize hquad : doc / 1461 = quad
  generalize hdoq : doc - quad * 1461 = doq
  generalize hyr : min (doq / 365) 3 = yr
  have hq : quad ≤ 24 := by omega
  have hy : yr ≤ 3 := by omega
  have e₁ : (100 * cent + 4 * quad + yr) / 4 = 25 * cent + quad := by omega
  have e₂ : (100 * cent + 4 * quad + yr) / 100 = cent := by omega
  rw [e₁, e₂]
  refine ⟨?_, ?_, ?_⟩ <;> omega

/-- **A day number is the day number of its date.** -/
theorem daysOfCivil_civilOfDays (z : Int) :
    daysOfCivil (civilOfDays z).1 (civilOfDays z).2.1 (civilOfDays z).2.2 = z := by
  have hdoe : ((z + 719468) % 146097).toNat < 146097 := by omega
  obtain ⟨h₁, h₂, h₃⟩ := yearOfEra_spec hdoe
  have hz : z + 719468 =
      (z + 719468) / 146097 * 146097 + ((z + 719468) % 146097).toNat := by omega
  unfold civilOfDays daysOfCivil
  generalize ((z + 719468) % 146097).toNat = doe at *
  generalize (z + 719468) / 146097 = era at *
  generalize yearOfEra doe = yd at *
  obtain ⟨yoe, doy⟩ := yd
  simp only at h₁ h₂ h₃ ⊢
  generalize hmp : (5 * doy + 2) / 153 = mp
  have hback : (153 * mp + 2) / 5 ≤ doy := by omega
  by_cases hlt : mp < 10
  · simp only [hlt, if_true]
    rw [if_neg (by omega), if_neg (by omega), if_pos (by omega)]
    have e₁ : (↑yoe + era * 400 + 0) / 400 = era := by omega
    have e₂ : ((↑yoe + era * 400 + 0) % 400).toNat = yoe := by omega
    have e₃ : mp + 3 - 3 = mp := by omega
    rw [e₁, e₂, e₃]
    omega
  · simp only [hlt, if_false]
    rw [if_pos (by omega), if_pos (by omega), if_neg (by omega)]
    have e₁ : (↑yoe + era * 400 + 1 - 1) / 400 = era := by omega
    have e₂ : ((↑yoe + era * 400 + 1 - 1) % 400).toNat = yoe := by omega
    have e₃ : mp - 9 + 9 = mp := by omega
    rw [e₁, e₂, e₃]
    omega

/-- The months from the epoch to the month of a day. -/
def monthOfDays (z : Int) : Int :=
  let (y, m, _) := civilOfDays z
  (y - 1970) * 12 + (m - 1)

/-! ## Timestamps -/

/-- The microseconds of a day. -/
def microsPerDay : Int := 86400000000

/-- The day of a time. -/
def dateOf (t : Int) : Int := t / microsPerDay

/-- The year of an ISO-8601 text: at least four digits, signed outside 0000 to 9999. -/
def yearText (y : Int) : List Char :=
  (if y < 0 then ['-'] else if 9999 < y then ['+'] else []) ++ padDigits 4 y.natAbs

/-- A timestamp in ISO-8601, in UTC and with microseconds. -/
def formatTimestamp (t : Int) : List Char :=
  let (y, m, d) := civilOfDays (dateOf t)
  let u := (t % microsPerDay).toNat
  yearText y ++ ('-' :: (padDigits 2 m ++ ('-' :: (padDigits 2 d ++ ('T' ::
    (padDigits 2 (u / 3600000000) ++ (':' :: (padDigits 2 (u / 60000000 % 60) ++ (':' ::
      (padDigits 2 (u / 1000000 % 60) ++ ('.' :: (padDigits 6 (u % 1000000) ++ ['Z']))))))))))))

/-- A number that a separator ends. -/
def takeField (sep : Char) (l : List Char) : Option (Nat × List Char) :=
  match takeNat l with
  | some (n, c :: l) => if c = sep then some (n, l) else none
  | _ => none

theorem takeField_padDigits (w n : Nat) {sep : Char} (hsep : sep.isDigit = false)
    (l : List Char) : takeField sep (padDigits w n ++ sep :: l) = some (n, l) := by
  unfold takeField
  rw [takeNat_padDigits w n (noDigit_cons hsep)]
  exact if_pos rfl

/-- The microseconds of the digits after the decimal point of the seconds; digits past the sixth
are cut off. -/
def microsOfFrac (ds : List Char) : Nat :=
  Nat.ofDigitChars 10 (ds.take 6 ++ List.replicate (6 - ds.length) '0') 0

/-- The seconds of a timestamp with their fraction, up to the zone designator that ends it. -/
def takeSeconds (l : List Char) : Option (Nat × Nat) :=
  match takeNat l with
  | some (s, ['Z']) => some (s, 0)
  | some (s, '.' :: l) =>
    let (ds, l) := l.span Char.isDigit
    if ds ≠ [] ∧ l = ['Z'] then some (s, microsOfFrac ds) else none
  | _ => none

/-- Read an ISO-8601 timestamp in UTC, with `T` before the time and `Z` after it. Fields out of
their range and dates that are not in the calendar are refused. -/
def readTimestamp (l : List Char) : Option Int :=
  let (neg, l) := takeSign l
  (takeField '-' l).bind fun (y, l) => (takeField '-' l).bind fun (m, l) =>
  (takeField 'T' l).bind fun (d, l) => (takeField ':' l).bind fun (hh, l) =>
  (takeField ':' l).bind fun (mm, l) => (takeSeconds l).bind fun (ss, us) =>
    let z := daysOfCivil (signed neg y) m d
    if civilOfDays z = (signed neg y, m, d) ∧ hh < 24 ∧ mm < 60 ∧ ss < 60 then
      some (z * microsPerDay + (((hh * 60 + mm) * 60 + ss) * 1000000 + us : Nat))
    else none

theorem takeSign_yearText (y : Int) (rest : List Char) :
    takeSign (yearText y ++ rest) = (decide (y < 0), padDigits 4 y.natAbs ++ rest) := by
  unfold yearText
  by_cases hneg : y < 0
  · simp [hneg, takeSign]
  by_cases hbig : 9999 < y
  · simp [hneg, hbig, takeSign]
  · simp only [hneg, hbig, if_false, List.nil_append, decide_false]
    exact takeSign_digit (padDigits_ne_nil 4 _) (isDigit_padDigits 4 _) rest

theorem takeSeconds_format (s us : Nat) (hus : us < 1000000) :
    takeSeconds (padDigits 2 s ++ '.' :: (padDigits 6 us ++ ['Z'])) = some (s, us) := by
  have hlen : (padDigits 6 us).length = 6 := length_padDigits (by decide) (by omega)
  have hspan : (padDigits 6 us ++ ['Z']).span Char.isDigit = (padDigits 6 us, ['Z']) :=
    span_run (isDigit_padDigits 6 us) (noDigit_cons (by decide))
  have hmicros : microsOfFrac (padDigits 6 us) = us := by
    unfold microsOfFrac
    rw [List.take_of_length_le (by omega), hlen]
    simp
  unfold takeSeconds
  rw [takeNat_padDigits 2 s (noDigit_cons (by decide))]
  simp only [hspan, hmicros]
  exact if_pos ⟨padDigits_ne_nil 6 us, trivial⟩

/-- **Round trip**: a timestamp is read back from its ISO-8601 text. -/
@[simp] theorem readTimestamp_format (t : Int) : readTimestamp (formatTimestamp t) = some t := by
  have hdays := daysOfCivil_civilOfDays (dateOf t)
  have hday : (0 : Int) ≤ t % microsPerDay ∧ t % microsPerDay < 86400000000 := by
    unfold microsPerDay; omega
  have hsplit : t = dateOf t * microsPerDay + (t % microsPerDay).toNat := by
    have := Int.mul_ediv_add_emod t microsPerDay
    have hc : microsPerDay * (t / microsPerDay) = t / microsPerDay * microsPerDay :=
      Int.mul_comm _ _
    unfold dateOf
    omega
  unfold readTimestamp formatTimestamp
  generalize hciv : civilOfDays (dateOf t) = civ at hdays
  obtain ⟨y, m, d⟩ := civ
  generalize hu : (t % microsPerDay).toNat = u at hsplit
  have hlt : u < 86400000000 := by omega
  simp only at hdays ⊢
  rw [takeSign_yearText]
  simp only [takeField_padDigits _ _ (show '-'.isDigit = false by decide),
    takeField_padDigits _ _ (show 'T'.isDigit = false by decide),
    takeField_padDigits _ _ (show ':'.isDigit = false by decide), Option.bind_some,
    takeSeconds_format _ _ (Nat.mod_lt u (by decide : 0 < 1000000)), signed_natAbs, hdays, hciv]
  rw [if_pos ⟨trivial, by omega, by omega, by omega⟩, Option.some.injEq]
  have hfields : ((u / 3600000000 * 60 + u / 60000000 % 60) * 60 + u / 1000000 % 60) * 1000000 +
      u % 1000000 = u := by omega
  rw [hfields]
  exact hsplit.symm

end Lakehouse.Lib
