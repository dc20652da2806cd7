import KeyService.Text.Blank
import Mathlib.Data.List.TakeWhile

/-! Taking white space off the ends of a text. -/
namespace KeyService.Text

theorem mem_dropWhile {p : Char → Bool} {c : Char} {cs : List Char} (member : c ∈ cs)
    (stays : p c = false) : c ∈ cs.dropWhile p := by
  rw [← List.takeWhile_append_dropWhile (p := p) (l := cs)] at member
  rcases List.mem_append.mp member with member | member
  · rw [List.mem_takeWhile_imp member] at stays
    cases stays
  · exact member

theorem mem_trim {s : String} {c : Char} (member : c ∈ s.toList) (visible : isBlank c = false) :
    c ∈ (trim s).toList := by
  rw [trim, String.toList_ofList, List.mem_reverse]
  exact mem_dropWhile (List.mem_reverse.mpr (mem_dropWhile member visible)) visible

theorem dropWhile_eq_self {p : Char → Bool} {cs : List Char} (stay : ∀ c ∈ cs, p c = false) :
    cs.dropWhile p = cs := by
  cases cs with
  | nil => rfl
  | cons c rest => rw [List.dropWhile_cons_of_neg (by simp [stay c List.mem_cons_self])]

theorem trim_eq_self {s : String} (visible : ∀ c ∈ s.toList, isBlank c = false) : trim s = s := by
  rw [trim, dropWhile_eq_self visible, dropWhile_eq_self, List.reverse_reverse, String.ofList_toList]
  exact fun c member => visible c (List.mem_reverse.mp member)

def Blank (s : String) : Prop := ∀ c ∈ s.toList, isBlank c = true

theorem exists_trim (s : String) :
    ∃ before after, Blank before ∧ Blank after ∧ s = before ++ trim s ++ after := by
  let rest := s.toList.dropWhile isBlank
  refine ⟨String.ofList (s.toList.takeWhile isBlank),
    String.ofList (rest.reverse.takeWhile isBlank).reverse, ?_, ?_, ?_⟩
  · intro c member
    rw [String.toList_ofList] at member
    exact List.mem_takeWhile_imp member
  · intro c member
    rw [String.toList_ofList, List.mem_reverse] at member
    exact List.mem_takeWhile_imp member
  · apply String.toList_inj.mp
    have back : (rest.reverse.dropWhile isBlank).reverse ++
        (rest.reverse.takeWhile isBlank).reverse = rest := by
      rw [← List.reverse_append, List.takeWhile_append_dropWhile, List.reverse_reverse]
    simp only [trim, String.toList_append, String.toList_ofList, List.append_assoc]
    rw [back, List.takeWhile_append_dropWhile]

theorem trim_surrounded {before s after : String} (blankBefore : Blank before)
    (blankAfter : Blank after) (visible : ∀ c ∈ s.toList, isBlank c = false) :
    trim (before ++ s ++ after) = s := by
  have back : ∀ c ∈ after.toList.reverse, isBlank c = true := fun c member =>
    blankAfter c (List.mem_reverse.mp member)
  have turned : ∀ c ∈ s.toList.reverse, isBlank c = false := fun c member =>
    visible c (List.mem_reverse.mp member)
  have front : (s.toList ++ after.toList).dropWhile isBlank =
      s.toList ++ (if s.toList = [] then [] else after.toList) := by
    cases chars : s.toList with
    | nil => simpa [Blank] using blankAfter
    | cons c rest =>
      have seen : isBlank c = false := visible c (by simp [chars])
      simp [seen]
  have kept : ((s.toList ++ (if s.toList = [] then [] else after.toList)).reverse.dropWhile
      isBlank) = s.toList.reverse := by
    rw [List.reverse_append, List.dropWhile_append_of_pos, dropWhile_eq_self turned]
    intro c member
    split at member
    · simp at member
    · exact back c member
  rw [trim]
  simp only [String.toList_append, List.append_assoc]
  rw [List.dropWhile_append_of_pos blankBefore, front, kept, List.reverse_reverse,
    String.ofList_toList]

end KeyService.Text
