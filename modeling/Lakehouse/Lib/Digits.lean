import Mathlib

/-!
# Numerals as text

Numbers cross a text boundary as runs of ASCII digits. `takeNat` reads the longest run at the
front of a text, `readNumeral` reads a whole text as a signed numeral with an optional fraction
and exponent, and `padDigits` writes a number at a fixed width. Each reader returns what the
matching writer was given (`takeNat_padDigits`, `readNumeral_int`, `readNumeral_frac`).
-/

namespace Lakehouse.Lib

/-! ## Runs of digits -/

/-- What is left does not go on with a digit. -/
def NoDigit (l : List Char) : Prop := ∀ c ∈ l.head?, c.isDigit = false

theorem noDigit_nil : NoDigit [] := by intro c hc; cases hc

theorem noDigit_cons {c : Char} {l : List Char} (h : c.isDigit = false) : NoDigit (c :: l) := by
  intro d hd
  cases hd
  exact h

theorem span_run {p : Char → Bool} {ds rest : List Char} (hds : ∀ c ∈ ds, p c = true)
    (hrest : ∀ c ∈ rest.head?, p c = false) : (ds ++ rest).span p = (ds, rest) := by
  rw [List.span_eq_takeWhile_dropWhile, List.takeWhile_append_of_pos hds,
    List.dropWhile_append_of_pos hds]
  cases rest with
  | nil => simp
  | cons c rest =>
    have hc : p c = false := hrest c rfl
    simp [hc]

theorem isDigit_toDigits (n : Nat) : ∀ c ∈ Nat.toDigits 10 n, c.isDigit = true :=
  fun _ hc => Nat.isDigit_of_mem_toDigits (by decide) (by decide) hc

/-- The digits at the front, as a number. -/
def takeNat (l : List Char) : Option (Nat × List Char) :=
  let (ds, rest) := l.span Char.isDigit
  if ds = [] then none else some (Nat.ofDigitChars 10 ds 0, rest)

theorem takeNat_run {ds rest : List Char} (hne : ds ≠ []) (hds : ∀ c ∈ ds, c.isDigit = true)
    (hrest : NoDigit rest) : takeNat (ds ++ rest) = some (Nat.ofDigitChars 10 ds 0, rest) := by
  unfold takeNat
  rw [span_run hds hrest]
  simp [hne]

/-- The digits of a number, filled up with zeros to a width. -/
def padDigits (w n : Nat) : List Char :=
  List.replicate (w - (Nat.toDigits 10 n).length) '0' ++ Nat.toDigits 10 n

theorem isDigit_padDigits (w n : Nat) : ∀ c ∈ padDigits w n, c.isDigit = true := by
  intro c hc
  rcases List.mem_append.1 hc with hc | hc
  · rw [(List.mem_replicate.1 hc).2]; decide
  · exact isDigit_toDigits n c hc

theorem padDigits_ne_nil (w n : Nat) : padDigits w n ≠ [] := by simp [padDigits]

@[simp] theorem ofDigitChars_padDigits (w n : Nat) :
    Nat.ofDigitChars 10 (padDigits w n) 0 = n := by
  unfold padDigits
  rw [Nat.ofDigitChars_append, Nat.ofDigitChars_replicate_zero, Nat.mul_zero,
    Nat.ofDigitChars_ten_toDigits]

theorem length_padDigits {w n : Nat} (hw : 0 < w) (hn : n < 10 ^ w) :
    (padDigits w n).length = w := by
  have hlen : (Nat.toDigits 10 n).length ≤ w := (Nat.length_toDigits_le_iff (by decide) hw).2 hn
  simp only [padDigits, List.length_append, List.length_replicate]
  omega

theorem takeNat_padDigits (w n : Nat) {rest : List Char} (hrest : NoDigit rest) :
    takeNat (padDigits w n ++ rest) = some (n, rest) := by
  rw [takeNat_run (padDigits_ne_nil w n) (isDigit_padDigits w n) hrest, ofDigitChars_padDigits]

/-! ## Signed numerals -/

/-- A leading sign: whether it is a minus, and the rest of the text. -/
def takeSign : List Char → Bool × List Char
  | '-' :: l => (true, l)
  | '+' :: l => (false, l)
  | l => (false, l)

/-- The integer with a given sign and magnitude. -/
def signed (neg : Bool) (n : Nat) : Int := if neg then -n else n

theorem signed_natAbs (n : Int) : signed (decide (n < 0)) n.natAbs = n := by
  unfold signed
  by_cases h : n < 0
  · simp only [h, decide_true, if_true]; omega
  · simp only [h, decide_false, Bool.false_eq_true, if_false]; omega

theorem takeSign_digit {l : List Char} (hne : l ≠ []) (hl : ∀ c ∈ l, c.isDigit = true)
    (rest : List Char) : takeSign (l ++ rest) = (false, l ++ rest) := by
  cases l with
  | nil => exact absurd rfl hne
  | cons c l =>
    have hc : c.isDigit = true := hl c List.mem_cons_self
    have hminus : c ≠ '-' := by rintro rfl; exact absurd hc (by decide)
    have hplus : c ≠ '+' := by rintro rfl; exact absurd hc (by decide)
    rw [List.cons_append, takeSign.eq_3]
    · intro l' h
      exact hminus (List.cons.inj h).1
    · intro l' h
      exact hplus (List.cons.inj h).1

/-- A sign in front of a text, as the writers put it: nothing for a non-negative number. -/
def signText (n : Int) : List Char := if n < 0 then ['-'] else []

theorem takeSign_signText (n : Int) {l : List Char} (hne : l ≠ [])
    (hl : ∀ c ∈ l, c.isDigit = true) (rest : List Char) :
    takeSign (signText n ++ (l ++ rest)) = (decide (n < 0), l ++ rest) := by
  unfold signText
  by_cases h : n < 0
  · simp [h, takeSign]
  · simp only [h, if_false, List.nil_append, decide_false]
    exact takeSign_digit hne hl rest

theorem toList_toString_int (n : Int) :
    (toString n).toList = signText n ++ Nat.toDigits 10 n.natAbs := by
  cases n with
  | ofNat m =>
    have h : ¬ (Int.ofNat m < 0) := by simp
    change (Nat.repr m).toList = _
    rw [Nat.toList_repr]
    simp [signText]
  | negSucc m =>
    change ("-" ++ (Nat.succ m).repr).toList = _
    rw [String.toList_append, Nat.toList_repr]
    simp [signText, Int.negSucc_lt_zero]

/-- A numeral as it is written: sign, integer digits, fraction digits and power of ten. -/
structure Numeral where
  neg : Bool
  int : List Char
  frac : List Char
  exp : Int
deriving DecidableEq, Repr

/-- The exponent of a numeral, zero without one. -/
def readExp : List Char → Option Int
  | [] => some 0
  | c :: l =>
    if c = 'e' ∨ c = 'E' then
      let (neg, l) := takeSign l
      match takeNat l with
      | some (n, []) => some (signed neg n)
      | _ => none
    else none

/-- The digits after a decimal point. -/
def takeFrac : List Char → List Char × List Char
  | '.' :: l => l.span Char.isDigit
  | l => ([], l)

/-- Read a whole text as a numeral. A numeral has at least one digit before or after the point. -/
def readNumeral (l : List Char) : Option Numeral :=
  let (neg, l) := takeSign l
  let (int, l) := l.span Char.isDigit
  let (frac, l) := takeFrac l
  if int = [] ∧ frac = [] then none
  else (readExp l).map fun exp => ⟨neg, int, frac, exp⟩

theorem span_digits {ds : List Char} (hds : ∀ c ∈ ds, c.isDigit = true) :
    ds.span Char.isDigit = (ds, []) := by
  have hspan : (ds ++ []).span Char.isDigit = (ds, []) := span_run hds noDigit_nil
  rwa [List.append_nil] at hspan

theorem readNumeral_int (n : Int) :
    readNumeral (toString n).toList =
      some ⟨decide (n < 0), Nat.toDigits 10 n.natAbs, [], 0⟩ := by
  have hds := isDigit_toDigits n.natAbs
  have hsign := takeSign_signText n Nat.toDigits_ne_nil hds []
  rw [List.append_nil] at hsign
  unfold readNumeral
  rw [toList_toString_int, hsign]
  simp only [span_digits hds]
  simp [takeFrac, readExp]

/-- A signed run of digits, a point and a second run of digits read back as the two runs. -/
theorem readNumeral_frac (n : Int) {int frac : List Char} (hne : int ≠ [])
    (hint : ∀ c ∈ int, c.isDigit = true) (hfrac : ∀ c ∈ frac, c.isDigit = true) :
    readNumeral (signText n ++ (int ++ '.' :: frac)) = some ⟨decide (n < 0), int, frac, 0⟩ := by
  have hspan : (int ++ '.' :: frac).span Char.isDigit = (int, '.' :: frac) :=
    span_run hint (noDigit_cons (by decide))
  unfold readNumeral
  rw [takeSign_signText n hne hint]
  simp only [hspan, takeFrac, span_digits hfrac]
  simp [hne, readExp]

end Lakehouse.Lib
