import Lakehouse.Lib.Digits

/-!
# Fixed-point decimals

A `DECIMAL(p, s)` is an integer number of units of `10 ^ -s` with fewer than `p + 1` digits. Here
are the rounding of a quotient half up (`roundDiv`), the precision check of a cast
(`castPrecision`), and the casts of texts to integers and decimals. Rounding a quotient at a finer
scale first and then at the scale wanted gives the same units as rounding once, as long as the
divisor is smaller than the ratio of the scales (`roundDiv_roundDiv`).
-/

namespace Lakehouse.Lib

/-! ## Rounding half up -/

/-- The quotient of naturals, rounded to the nearest, ties up. -/
def roundDivNat (n d : Nat) : Nat := (2 * n + d) / (2 * d)

/-- The quotient `n / d`, rounded to the nearest integer, ties away from zero. -/
def roundDiv (n : Int) (d : Nat) : Int := n.sign * roundDivNat n.natAbs d

theorem roundDivNat_eq_iff {n d q : Nat} (hd : 0 < d) :
    roundDivNat n d = q ↔ 2 * d * q ≤ 2 * n + d ∧ 2 * n + d < 2 * d * (q + 1) := by
  unfold roundDivNat
  rw [Nat.div_eq_iff (by omega)]
  constructor
  · rintro ⟨h₁, h₂⟩
    have e : q * (2 * d) = 2 * d * q := Nat.mul_comm _ _
    have e' : 2 * d * (q + 1) = 2 * d * q + 2 * d := Nat.mul_succ _ _
    omega
  · rintro ⟨h₁, h₂⟩
    have e : q * (2 * d) = 2 * d * q := Nat.mul_comm _ _
    have e' : 2 * d * (q + 1) = 2 * d * q + 2 * d := Nat.mul_succ _ _
    omega

theorem roundDiv_natCast {d : Nat} (hd : 0 < d) (n : Nat) :
    roundDiv (n : Int) d = (roundDivNat n d : Nat) := by
  unfold roundDiv
  rcases Nat.eq_zero_or_pos n with rfl | hn
  · have h0 : roundDivNat 0 d = 0 := (roundDivNat_eq_iff hd).2 (by constructor <;> simp; omega)
    rw [h0]; simp
  · rw [Int.sign_eq_one_of_pos (by omega), Int.one_mul, Int.natAbs_natCast]

theorem roundDiv_neg (n : Int) (d : Nat) : roundDiv (-n) d = -roundDiv n d := by
  unfold roundDiv
  rw [Int.sign_neg, Int.natAbs_neg, Int.neg_mul]

/-- Rounding twice over naturals: the quotient in units `2 * m` times finer, then in the units. -/
theorem roundDivNat_roundDivNat {n d m : Nat} (hd : 0 < d) (hdm : d < 2 * m) :
    roundDivNat (roundDivNat (n * (2 * m)) d) (2 * m) = roundDivNat n d := by
  have hm : 0 < m := by omega
  obtain ⟨hlo, hhi⟩ := (roundDivNat_eq_iff (n := n) hd).1 rfl
  obtain ⟨hlo', hhi'⟩ := (roundDivNat_eq_iff (n := n * (2 * m)) hd).1 rfl
  generalize roundDivNat n d = q at hlo hhi
  generalize roundDivNat (n * (2 * m)) d = r at hlo' hhi'
  rw [roundDivNat_eq_iff (by omega)]
  constructor
  · -- `n / d ≥ q - 1/2`, so the finer quotient is at least the integer `2 m q - m`
    by_contra hcon
    have hr : r + 1 ≤ 2 * m * q - m := by
      have : 2 * (2 * m) * q = 2 * (2 * m * q) := by ring
      omega
    have hge : m ≤ 2 * m * q := by omega
    have h₁ : 2 * d * (r + 1) ≤ 2 * d * (2 * m * q - m) := Nat.mul_le_mul_left _ hr
    have h₂ : 2 * d * (2 * m * q - m) + 2 * d * m = 2 * m * (2 * d * q) := by
      rw [← Nat.mul_add, Nat.sub_add_cancel hge]; ring
    have h₃ : 2 * m * (2 * d * q) ≤ 2 * m * (2 * n + d) := Nat.mul_le_mul_left _ hlo
    have h₄ : 2 * m * (2 * n + d) = 2 * (n * (2 * m)) + 2 * d * m := by ring
    omega
  · -- `n / d < q + 1/2` by at least `1 / (2 d)`, which is more than half a finer unit
    by_contra hcon
    have hr : 2 * m * (q + 1) - m ≤ r := by
      have : 2 * (2 * m) * (q + 1) = 2 * (2 * m * (q + 1)) := by ring
      omega
    have hge : m ≤ 2 * m * (q + 1) := by nlinarith
    have h₁ : 2 * d * (2 * m * (q + 1) - m) ≤ 2 * d * r := Nat.mul_le_mul_left _ hr
    have h₂ : 2 * d * (2 * m * (q + 1) - m) + 2 * d * m = 2 * m * (2 * d * (q + 1)) := by
      rw [← Nat.mul_add, Nat.sub_add_cancel hge]; ring
    have h₃ : 2 * m * (2 * n + d + 1) ≤ 2 * m * (2 * d * (q + 1)) :=
      Nat.mul_le_mul_left _ hhi
    have h₄ : 2 * m * (2 * n + d + 1) = 2 * (n * (2 * m)) + 2 * d * m + 2 * m := by ring
    omega

/-- **Double rounding is harmless for small divisors**: rounding `n / d` first in units `2 * m`
times finer and then in the units themselves is rounding it once, when `d < 2 * m`. -/
theorem roundDiv_roundDiv {n : Int} {d m : Nat} (hd : 0 < d) (hdm : d < 2 * m) :
    roundDiv (roundDiv (n * (2 * m : Nat)) d) (2 * m) = roundDiv n d := by
  have hnat : ∀ k : Nat,
      roundDiv (roundDiv ((k : Int) * (2 * m : Nat)) d) (2 * m) = roundDiv (k : Int) d := by
    intro k
    rw [← Int.natCast_mul, roundDiv_natCast hd, roundDiv_natCast (by omega),
      roundDivNat_roundDivNat hd hdm, roundDiv_natCast hd]
  obtain ⟨k, rfl | rfl⟩ := n.eq_nat_or_neg
  · exact hnat k
  · rw [Int.neg_mul, roundDiv_neg, roundDiv_neg, roundDiv_neg, hnat k]

theorem natAbs_roundDiv_le (n : Int) {d : Nat} (hd : 0 < d) :
    (roundDiv n d).natAbs ≤ n.natAbs := by
  have hnat : ∀ k : Nat, roundDivNat k d ≤ k := by
    intro k
    apply Nat.le_of_lt_succ
    apply Nat.div_lt_of_lt_mul
    change 2 * k + d < 2 * d * (k + 1)
    have : 2 * d * (k + 1) = 2 * (d * k) + 2 * d := by ring
    have : k ≤ d * k := Nat.le_mul_of_pos_left k hd
    omega
  obtain ⟨k, rfl | rfl⟩ := n.eq_nat_or_neg
  · rw [roundDiv_natCast hd, Int.natAbs_natCast, Int.natAbs_natCast]
    exact hnat k
  · rw [roundDiv_neg, Int.natAbs_neg, Int.natAbs_neg, roundDiv_natCast hd, Int.natAbs_natCast,
      Int.natAbs_natCast]
    exact hnat k

/-! ## Casts -/

/-- A value of `DECIMAL(p, s)`, in units of its last digit. -/
def Dec (p : Nat) := {n : Int // n.natAbs < 10 ^ p}
deriving DecidableEq

instance (p : Nat) : Zero (Dec p) := ⟨0, Nat.pow_pos (by decide)⟩

/-- A number of units that fits. -/
def Dec.ofNat {p : Nat} (n : Nat) (h : n < 10 ^ p := by decide) : Dec p :=
  ⟨n, (Int.natAbs_natCast n).symm ▸ h⟩

/-- The cast of a number of units to `p` digits: nothing when it does not fit. -/
def castPrecision (p : Nat) (n : Int) : Option (Dec p) :=
  if h : n.natAbs < 10 ^ p then some ⟨n, h⟩ else none

theorem castPrecision_of_lt {p : Nat} {n : Int} (h : n.natAbs < 10 ^ p) :
    castPrecision p n = some ⟨n, h⟩ := dif_pos h

theorem castPrecision_eq_some {p : Nat} {n : Int} {d : Dec p} (h : castPrecision p n = some d) :
    d.val = n := by
  unfold castPrecision at h
  split at h
  · rw [← Option.some.inj h]
  · cases h

@[simp] theorem castPrecision_val {p : Nat} (n : Dec p) : castPrecision p n.val = some n :=
  castPrecision_of_lt n.property

/-- White space and control characters at the ends of a text do not count in a cast. -/
def trim (l : List Char) : List Char :=
  ((l.dropWhile (· ≤ ' ')).reverse.dropWhile (· ≤ ' ')).reverse

theorem trim_of_visible {l : List Char} (h : ∀ c ∈ l, ¬ c ≤ ' ') : trim l = l := by
  have hdrop : ∀ l : List Char, (∀ c ∈ l, ¬ c ≤ ' ') → l.dropWhile (· ≤ ' ') = l := by
    intro l hl
    cases l with
    | nil => rfl
    | cons c l => rw [List.dropWhile_cons_of_neg (by simpa using hl c List.mem_cons_self)]
  unfold trim
  rw [hdrop l h, hdrop l.reverse (fun c hc => h c (List.mem_reverse.1 hc)), List.reverse_reverse]

/-- The cast of a text to a signed integer of `w` bits: a fraction is cut off, an exponent is not
read, and a value out of range gives nothing. -/
def castInt (w : Nat) (s : String) : Option Int :=
  (readNumeral (trim s.toList)).bind fun x =>
    let n := signed x.neg (Nat.ofDigitChars 10 x.int 0)
    if x.exp = 0 ∧ -2 ^ (w - 1) ≤ n ∧ n < 2 ^ (w - 1) then some n else none

/-- The cast of a text to `DECIMAL(p, s)`, rounding half up to the scale. -/
def castDecimal (p s : Nat) (t : String) : Option (Dec p) :=
  (readNumeral (trim t.toList)).bind fun x =>
    let m := signed x.neg (Nat.ofDigitChars 10 (x.int ++ x.frac) 0)
    let shift : Int := s + x.exp - x.frac.length
    castPrecision p (if 0 ≤ shift then m * 10 ^ shift.toNat else roundDiv m (10 ^ (-shift).toNat))

theorem visible_digits {l : List Char} (h : ∀ c ∈ l, c.isDigit = true) : ∀ c ∈ l, ¬ c ≤ ' ' := by
  intro c hc hle
  have hd := h c hc
  simp only [Char.isDigit, Bool.and_eq_true, decide_eq_true_eq] at hd
  have h₁ : (48 : UInt32).toNat ≤ c.val.toNat := UInt32.le_iff_toNat_le.1 hd.1
  have h₂ : c.val.toNat ≤ (' ').val.toNat := UInt32.le_iff_toNat_le.1 hle
  have h₃ : (' ').val.toNat = 32 := rfl
  have h₄ : (48 : UInt32).toNat = 48 := rfl
  omega

theorem visible_signText (n : Int) : ∀ c ∈ signText n, ¬ c ≤ ' ' := by
  unfold signText
  split
  · intro c hc; rw [List.mem_singleton.1 hc]; decide
  · intro c hc; cases hc

theorem castInt_toString {w : Nat} {n : Int} (hlo : -2 ^ (w - 1) ≤ n) (hhi : n < 2 ^ (w - 1)) :
    castInt w (toString n) = some n := by
  have hvis : ∀ c ∈ (toString n).toList, ¬ c ≤ ' ' := by
    intro c hc
    rw [toList_toString_int] at hc
    rcases List.mem_append.1 hc with hc | hc
    · exact visible_signText n c hc
    · exact visible_digits (isDigit_toDigits _) c hc
  unfold castInt
  rw [trim_of_visible hvis, readNumeral_int, Option.bind_some]
  simp only [Nat.ofDigitChars_ten_toDigits, signed_natAbs]
  exact if_pos ⟨trivial, hlo, hhi⟩

/-- A number of hundredths with its two decimals. -/
def decimalText (n : Int) : List Char :=
  signText n ++ (Nat.toDigits 10 (n.natAbs / 100) ++ '.' :: padDigits 2 (n.natAbs % 100))

theorem castDecimal_decimalText {p : Nat} {n : Int} (h : n.natAbs < 10 ^ p) :
    castDecimal p 2 (String.ofList (decimalText n)) = some ⟨n, h⟩ := by
  have hint := isDigit_toDigits (n.natAbs / 100)
  have hfrac := isDigit_padDigits 2 (n.natAbs % 100)
  have hlen : (padDigits 2 (n.natAbs % 100)).length = 2 := length_padDigits (by decide) (by omega)
  have hvis : ∀ c ∈ decimalText n, ¬ c ≤ ' ' := by
    intro c hc
    rcases List.mem_append.1 hc with hc | hc
    · exact visible_signText n c hc
    rcases List.mem_append.1 hc with hc | hc
    · exact visible_digits hint c hc
    rcases List.mem_cons.1 hc with rfl | hc
    · decide
    · exact visible_digits hfrac c hc
  have hval : Nat.ofDigitChars 10
      (Nat.toDigits 10 (n.natAbs / 100) ++ padDigits 2 (n.natAbs % 100)) 0 = n.natAbs := by
    rw [Nat.ofDigitChars_append, Nat.ofDigitChars_eq_ofDigitChars_zero, hlen,
      ofDigitChars_padDigits, Nat.ofDigitChars_ten_toDigits]
    omega
  unfold castDecimal
  rw [String.toList_ofList, trim_of_visible hvis]
  unfold decimalText
  rw [readNumeral_frac n Nat.toDigits_ne_nil hint hfrac, Option.bind_some]
  simp only [hval, hlen, signed_natAbs]
  simpa using castPrecision_of_lt h

end Lakehouse.Lib
