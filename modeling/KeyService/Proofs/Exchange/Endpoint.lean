import KeyService.Exchange.Endpoint
import KeyService.Proofs.Http.Spelling
import Mathlib.Data.List.Forall2

/-! The paths that an endpoint accepts.
A pattern describes paths part by part. Only two asterisks at its very end stand for more than one
part, or for none; anywhere else they stand for themselves. -/
namespace KeyService.Exchange

open Http.Pattern (cuts)

/-- What stands between the slashes of a text, wherever something does. -/
def parts (text : String) : List String :=
  ((cuts text.toList).filter (· ≠ [])).map String.ofList

theorem segments_eq (path : String) : segments path = parts path := by
  have empty :
      (fun s : String => decide (s ≠ "")) ∘ String.ofList = fun cs => decide (cs ≠ []) := by
    funext cs
    simp [String.ofList_eq_empty_iff]
  rw [segments, Text.pieces, List.filter_map, empty, parts, cuts]

theorem segments_inj {path path' : String} : segments path = segments path' ↔
    (cuts path.toList).filter (· ≠ []) = (cuts path'.toList).filter (· ≠ []) := by
  rw [segments_eq, segments_eq]
  exact (List.map_injective_iff.mpr fun _ _ same => String.ofList_injective same).eq_iff

/-- A part of a pattern agrees with a part of a path: an asterisk with any part, and every other
part with itself. -/
def Agrees (p s : String) : Prop := p = "*" ∨ p = s

/-- A pattern describes the paths that agree with it part by part; if it ends with two asterisks, it
describes all paths that begin as the parts before them say. -/
def Describes (pattern path : List String) : Prop :=
  List.Forall₂ Agrees pattern path ∨
    ∃ front shown rest, pattern = front ++ ["**"] ∧ path = shown ++ rest ∧
      List.Forall₂ Agrees front shown

variable {p s : String} {pattern path : List String}

theorem describes_many (path : List String) : Describes ["**"] path :=
  .inr ⟨[], [], path, rfl, rfl, .nil⟩

theorem describes_nil : Describes [] path ↔ path = [] := by
  constructor
  · rintro (agrees | ⟨front, shown, rest, ends, -, -⟩)
    · cases agrees
      rfl
    · simp at ends
  · rintro rfl
    exact .inl .nil

theorem not_describes_nil (other : p :: pattern ≠ ["**"]) : ¬ Describes (p :: pattern) [] := by
  rintro (agrees | ⟨front, shown, rest, ends, begins, agrees⟩)
  · cases agrees
  · obtain ⟨rfl, -⟩ := List.append_eq_nil_iff.mp begins.symm
    cases agrees
    exact other ends

/-- Unless it is the last part of all, the first part of a pattern says what the first part of a
path is, and the others say what follows it. -/
theorem describes_cons (other : p :: pattern ≠ ["**"]) :
    Describes (p :: pattern) (s :: path) ↔ Agrees p s ∧ Describes pattern path := by
  constructor
  · rintro (agrees | ⟨front, shown, rest, ends, begins, agrees⟩)
    · obtain ⟨first, others⟩ := List.forall₂_cons.mp agrees
      exact ⟨first, .inl others⟩
    · cases agrees with
      | nil => exact absurd ends other
      | cons first others =>
        rw [List.cons_append] at ends begins
        obtain ⟨rfl, last⟩ := List.cons.inj ends
        obtain ⟨rfl, more⟩ := List.cons.inj begins
        exact ⟨first, .inr ⟨_, _, rest, last, more, others⟩⟩
  · rintro ⟨first, others | ⟨front, shown, rest, rfl, rfl, others⟩⟩
    · exact .inl (.cons first others)
    · exact .inr ⟨p :: front, s :: shown, rest, rfl, rfl, .cons first others⟩

theorem describes_plain (plain : ∀ p ∈ pattern, p ≠ "*" ∧ p ≠ "**") :
    Describes pattern path ↔ path = pattern := by
  constructor
  · rintro (agrees | ⟨front, shown, rest, rfl, -, -⟩)
    · induction agrees with
      | nil => rfl
      | cons first _ ih =>
        obtain ⟨⟨notAny, -⟩, others⟩ := List.forall_mem_cons.mp plain
        rw [ih others, first.resolve_left notAny]
    · exact absurd rfl (plain "**" (by simp)).2
  · rintro rfl
    exact .inl (List.forall₂_same.mpr fun _ _ => .inr rfl)

theorem matchSegments_nil (other : p :: pattern ≠ ["**"]) : matchSegments (p :: pattern) [] = false := by
  rw [matchSegments] <;> simp [other]

theorem matchSegments_cons (other : p :: pattern ≠ ["**"]) : matchSegments (p :: pattern) (s :: path) =
    ((p = "*" || p = s) && matchSegments pattern path) := by
  rw [matchSegments]
  rintro rfl rfl
  exact other rfl

/-- By induction on the parts of both: each step of the match takes one part of either. -/
theorem matchSegments_iff : matchSegments pattern path = true ↔ Describes pattern path := by
  induction pattern generalizing path with
  | nil => cases path <;> simp [matchSegments, describes_nil]
  | cons p pattern ih =>
    by_cases many : p :: pattern = ["**"]
    · rw [many]
      exact iff_of_true (by simp [matchSegments]) (describes_many path)
    · cases path with
      | nil => simp [matchSegments_nil many, not_describes_nil many]
      | cons s path => simp [matchSegments_cons many, describes_cons many, Agrees, ih]

/-- An endpoint accepts the paths that its pattern describes, and no others. -/
theorem Endpoint.accepts_iff (e : Endpoint) (path : String) :
    e.accepts path = true ↔ Describes (parts e.pattern) (parts path) := by
  rw [accepts, matchSegments_iff, segments_eq, segments_eq]

end KeyService.Exchange
