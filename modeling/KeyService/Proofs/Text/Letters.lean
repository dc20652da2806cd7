import KeyService.Text.Blank
import Mathlib.Data.List.Forall2

/-! Words whose letters may be of either case.
A word is given in capitals. It is spelled by every text that has, place for place, its
characters or the small letters of them; these are the texts that are the word in capitals. -/
namespace KeyService.Text

/-- A text in which each character is that of the word, or the small letter of it. -/
def Spells (word s : String) : Prop :=
  List.Forall₂ (fun w c => c = w ∨ c = w.toLower) word.toList s.toList

def Capital (word : String) : Prop := ∀ w ∈ word.toList, w.isLower = false

theorem toUpper_iff {c w : Char} (capital : w.isLower = false) :
    c.toUpper = w ↔ c = w ∨ c = w.toLower := by
  have bound := c.val.toNat_lt
  have bound' := w.val.toNat_lt
  unfold Char.isLower at capital
  unfold Char.toUpper Char.toLower
  simp only [Bool.and_eq_false_iff, decide_eq_false_iff_not, ge_iff_le,
    UInt32.le_iff_toNat_le, Char.reduceVal, UInt32.reduceToNat] at capital
  simp only [Char.ext_iff, ← UInt32.toNat_inj, UInt32.le_iff_toNat_le, ge_iff_le, Char.reduceVal,
    UInt32.reduceToNat]
  split
  · split
    · simp only [UInt32.toNat_add, UInt32.reduceToNat, UInt32.reduceSub]
      omega
    · simp only [UInt32.toNat_add, UInt32.reduceToNat, UInt32.reduceSub]
      omega
  · split
    · simp only [UInt32.toNat_add, UInt32.reduceToNat, UInt32.reduceSub]
      omega
    · omega

theorem map_toUpper_iff {word cs : List Char} (capital : ∀ w ∈ word, w.isLower = false) :
    cs.map Char.toUpper = word ↔ List.Forall₂ (fun w c => c = w ∨ c = w.toLower) word cs := by
  induction word generalizing cs with
  | nil => simp
  | cons w word ih =>
    cases cs with
    | nil => simp
    | cons c cs =>
      have first : w.isLower = false := capital w List.mem_cons_self
      have later : ∀ w ∈ word, w.isLower = false := fun w member => capital w (.tail _ member)
      simp [toUpper_iff first, ih later]

theorem upper_iff {word s : String} (capital : Capital word) : upper s = word ↔ Spells word s := by
  rw [upper, ← String.toList_inj, String.toList_ofList]
  exact map_toUpper_iff capital

/-- What holds of the characters of a word and of their small letters holds of all its spellings. -/
theorem Spells.forall {word s : String} (spells : Spells word s) {P : Char → Prop}
    (holds : ∀ w ∈ word.toList, P w ∧ P w.toLower) : ∀ c ∈ s.toList, P c := by
  unfold Spells at spells
  generalize word.toList = ws at spells holds
  generalize s.toList = cs at spells
  induction spells with
  | nil => simp
  | cons same _ ih =>
    intro c member
    rcases List.mem_cons.mp member with rfl | later
    · rcases same with rfl | rfl
      · exact (holds _ List.mem_cons_self).1
      · exact (holds _ List.mem_cons_self).2
    · exact ih (fun w inside => holds w (.tail _ inside)) c later

end KeyService.Text
