import Mathlib.Data.List.Infix

/-!
# Words of a line

A line is cut at its blanks into words, as `awk` numbers its fields. A line written as a blank-free
word after another is read back (`cutWord_append`), and where a line ends in a word that follows a
blank, the end of the line determines the word and what stands before it (`append_blank_inj`).
-/

namespace Lakehouse.Lib

/-- A line of a file, as its characters. -/
abbrev Line := List Char

/-- What separates words. -/
def isBlank (c : Char) : Bool := c == ' ' || c == '\t'

/-- A text that is one word of a line. -/
def IsWord (w : Line) : Prop := w ≠ [] ∧ ∀ c ∈ w, isBlank c = false

instance (w : Line) : Decidable (IsWord w) :=
  @instDecidableAnd _ _ inferInstance (List.decidableBAll _ w)

/-- The first word of a line, and the line after it. -/
def cutWord (l : Line) : Line × Line :=
  let l := l.dropWhile isBlank
  (l.takeWhile (! isBlank ·), l.dropWhile (! isBlank ·))

/-- The first word of a line, `$1`. -/
def firstWord (l : Line) : Line := (cutWord l).1

/-- The second word of a line, `$2`. -/
def secondWord (l : Line) : Line := (cutWord (cutWord l).2).1

@[simp] theorem cutWord_blank (l : Line) : cutWord (' ' :: l) = cutWord l := rfl

/-- A word is cut off where a blank or the end of the line follows it. -/
theorem cutWord_append {w rest : Line} (hw : IsWord w)
    (hrest : ∀ c ∈ rest.head?, isBlank c = true) :
    cutWord (w ++ rest) = (w, rest) := by
  obtain ⟨hne, hblank⟩ := hw
  have hvisible : ∀ c ∈ w, (! isBlank c) = true := fun c hc => by rw [hblank c hc]; rfl
  have hstart : (w ++ rest).dropWhile isBlank = w ++ rest := by
    cases w with
    | nil => exact absurd rfl hne
    | cons c w =>
      apply List.dropWhile_cons_of_neg
      rw [hblank c List.mem_cons_self]
      decide
  have hrestTake : rest.takeWhile (! isBlank ·) = [] := by
    cases rest with
    | nil => rfl
    | cons c rest => simp [hrest c rfl]
  have hrestDrop : rest.dropWhile (! isBlank ·) = rest := by
    cases rest with
    | nil => rfl
    | cons c rest => simp [hrest c rfl]
  simp only [cutWord, hstart, List.takeWhile_append_of_pos hvisible,
    List.dropWhile_append_of_pos hvisible, hrestTake, hrestDrop, List.append_nil]

/-- A line of two words. -/
theorem cutWord_pair {w v : Line} (hw : IsWord w) (hv : IsWord v) :
    firstWord (w ++ ' ' :: v) = w ∧ secondWord (w ++ ' ' :: v) = v := by
  unfold firstWord secondWord
  rw [cutWord_append hw fun c hc => by cases hc; rfl, cutWord_blank]
  have hlast := @cutWord_append v [] hv nofun
  rw [List.append_nil] at hlast
  exact ⟨rfl, by rw [hlast]⟩

/-- The last word of a line and what stands before it are determined by the line. -/
theorem append_blank_inj {a b v w : Line} (hv : ∀ c ∈ v, isBlank c = false)
    (hw : ∀ c ∈ w, isBlank c = false) (h : a ++ ' ' :: v = b ++ ' ' :: w) : a = b ∧ v = w := by
  have hlast : ∀ {l : Line} (pre : Line), (∀ c ∈ l, isBlank c = false) →
      (pre ++ ' ' :: l).reverse.takeWhile (! isBlank ·) = l.reverse := by
    intro l pre hl
    have hvisible : ∀ c ∈ l.reverse, (! isBlank c) = true := fun c hc => by
      rw [hl c (List.mem_reverse.1 hc)]
      rfl
    rw [List.reverse_append, List.reverse_cons, List.append_assoc,
      List.takeWhile_append_of_pos hvisible]
    simp [isBlank]
  have hvw : v = w := by
    have htake := congrArg (fun l : Line => l.reverse.takeWhile (! isBlank ·)) h
    simp only [hlast a hv, hlast b hw] at htake
    exact List.reverse_injective htake
  subst hvw
  exact ⟨List.append_cancel_right h, rfl⟩

end Lakehouse.Lib
