import Lakehouse.Lib.Words

/-!
# Kustomizations and their image

The `images:` block of a `kustomization.yaml` as `kustomize edit set image` writes it, and
`read_image_field` of `scripts/promote.sh`, the `awk` program that reads one field of it line by
line. A kustomization keeps its lines in three parts: what stands before the entry of `spark-batch`,
the entry, and what stands after it. What the scanner reads is what the entry says
(`readImageField_newName`, `readImageField_newTag`), or nothing where the image name looks like the
start of another entry.
-/

namespace Lakehouse.Release

open Lib

/-! ## Files -/

/-- A word without blanks. -/
def Word := {w : Line // IsWord w}
deriving DecidableEq

/-- The fields of the entry `spark-batch`. -/
structure Image where
  newName : Word
  newTag : Word
deriving DecidableEq

/-- The pattern `name: spark-batch$`. -/
def startsEntry (l : Line) : Prop := "name: spark-batch".toList <:+ l

instance (l : Line) : Decidable (startsEntry l) := inferInstanceAs (Decidable (_ <:+ _))

/-- A machine-written `kustomization.yaml`. -/
structure Kustomization where
  before : List Line
  image : Option Image
  after : List Line
  before_other : ∀ l ∈ before, ¬ startsEntry l
  after_other : image = none → ∀ l ∈ after, ¬ startsEntry l
deriving DecidableEq

/-- The fields that `image_field` reads. -/
inductive ImageField where
  | newName | newTag
deriving DecidableEq

/-- The key of a field, as it stands in the file. -/
def ImageField.key : ImageField → Line
  | .newName => "newName:".toList
  | .newTag => "newTag:".toList

/-- The value of a field. -/
def Image.field (i : Image) : ImageField → Word
  | .newName => i.newName
  | .newTag => i.newTag

/-- The line of a field. -/
def Image.fieldLine (i : Image) (f : ImageField) : Line :=
  ' ' :: ' ' :: (f.key ++ ' ' :: (i.field f).val)

/-- The lines of an entry. -/
def Image.lines (i : Image) : List Line :=
  ["- name: spark-batch".toList, i.fieldLine .newName, i.fieldLine .newTag]

/-- The lines of the file. -/
def Kustomization.lines (k : Kustomization) : List Line :=
  k.before ++ ((k.image.map Image.lines).getD [] ++ k.after)

/-! ## The scanner -/

/-- The `awk` program of `read_image_field` from one line on. -/
def scanImageField (field : ImageField) : Bool → List Line → Line
  | _, [] => []
  | inEntry, l :: ls =>
    if startsEntry l then scanImageField field true ls
    else if inEntry = true ∧ firstWord l = field.key then secondWord l
    else if inEntry = true ∧ "name:".toList <:+: l then []
    else scanImageField field inEntry ls

/-- `image_field`. -/
def readImageField (file : Kustomization) (field : ImageField) : Line :=
  scanImageField field false file.lines

theorem words_fieldLine (i : Image) (f : ImageField) :
    firstWord (i.fieldLine f) = f.key ∧ secondWord (i.fieldLine f) = (i.field f).val :=
  cutWord_pair (by cases f <;> decide) (i.field f).property

/-- A field of an entry does not start another one. -/
theorem not_startsEntry_fieldLine (i : Image) (f : ImageField) : ¬ startsEntry (i.fieldLine f) := by
  rintro ⟨pre, h⟩
  have hname : pre ++ "name: spark-batch".toList =
      (pre ++ "name:".toList) ++ ' ' :: "spark-batch".toList := by
    rw [List.append_assoc]
    rfl
  rw [hname] at h
  have hword : IsWord "spark-batch".toList := by decide
  have hkey : "name:".toList <:+ ' ' :: ' ' :: f.key :=
    ⟨pre, (append_blank_inj hword.2 (i.field f).property.2 h).1⟩
  revert hkey
  cases f <;> decide

theorem scan_skip {field : ImageField} {skipped : List Line} (h : ∀ l ∈ skipped, ¬ startsEntry l)
    (ls : List Line) :
    scanImageField field false (skipped ++ ls) = scanImageField field false ls := by
  induction skipped with
  | nil => rfl
  | cons l skipped ih =>
    obtain ⟨hl, hskipped⟩ := List.forall_mem_cons.1 h
    rw [List.cons_append, scanImageField, if_neg hl, if_neg (by simp), if_neg (by simp),
      ih hskipped]

/-- The scanner stops at the field it looks for. -/
theorem scan_fieldLine (i : Image) (f : ImageField) (ls : List Line) :
    scanImageField f true (i.fieldLine f :: ls) = (i.field f).val := by
  obtain ⟨hfirst, hsecond⟩ := words_fieldLine i f
  rw [scanImageField, if_neg (not_startsEntry_fieldLine i f), if_pos ⟨rfl, hfirst⟩, hsecond]

theorem readImageField_entry {k : Kustomization} {i : Image} (h : k.image = some i)
    (f : ImageField) :
    readImageField k f =
      scanImageField f true (i.fieldLine .newName :: i.fieldLine .newTag :: k.after) := by
  unfold readImageField Kustomization.lines
  rw [h, scan_skip k.before_other]
  change scanImageField f false ("- name: spark-batch".toList :: _) = _
  rw [scanImageField, if_pos (by decide)]
  rfl

theorem readImageField_newName {k : Kustomization} {i : Image} (h : k.image = some i) :
    readImageField k .newName = i.newName.val := by
  rw [readImageField_entry h]
  exact scan_fieldLine i .newName _

/-- The tag is read unless the image name holds the text `name:`. -/
theorem readImageField_newTag {k : Kustomization} {i : Image} (h : k.image = some i) :
    readImageField k .newTag =
      if "name:".toList <:+: i.fieldLine .newName then [] else i.newTag.val := by
  have hother : firstWord (i.fieldLine .newName) ≠ ImageField.newTag.key := by
    rw [(words_fieldLine i .newName).1]
    decide
  rw [readImageField_entry h, scanImageField, if_neg (not_startsEntry_fieldLine i .newName),
    if_neg fun hc => hother hc.2, scan_fieldLine i .newTag]
  simp only [true_and]
  rfl

theorem readImageField_none {k : Kustomization} (h : k.image = none) (field : ImageField) :
    readImageField k field = [] := by
  unfold readImageField Kustomization.lines
  rw [h, scan_skip k.before_other]
  have hnone := @scan_skip field _ (k.after_other h) []
  rw [List.append_nil] at hnone
  exact hnone

/-- **What the script reads is in the file.** -/
theorem image_of_readImageField {k : Kustomization} (hname : readImageField k .newName ≠ [])
    (htag : readImageField k .newTag ≠ []) :
    ∃ i, k.image = some i ∧ readImageField k .newName = i.newName.val ∧
      readImageField k .newTag = i.newTag.val := by
  cases h : k.image with
  | none => exact absurd (readImageField_none h _) hname
  | some i =>
    have hread := readImageField_newTag h
    refine ⟨i, rfl, readImageField_newName h, ?_⟩
    split at hread
    · exact absurd hread htag
    · exact hread

end Lakehouse.Release
