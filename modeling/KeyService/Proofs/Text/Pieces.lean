import KeyService.Text.Blank
import Mathlib.Data.List.TakeWhile

/-! Texts that are put together of pieces, and taken apart again.
A separator marks the end of a piece as long as it does not occur in it. -/
namespace KeyService.Text

theorem cut_last {sep : Char} {x x' z z' : List Char} (free : sep ∉ z) (free' : sep ∉ z')
    (same : x ++ sep :: z = x' ++ sep :: z') : x = x' ∧ z = z' := by
  rcases List.append_eq_append_iff.mp same with ⟨c, rfl, tail⟩ | ⟨c, rfl, tail⟩
  · cases c with
    | nil => exact ⟨(List.append_nil x).symm, (List.cons.inj tail).2⟩
    | cons d rest =>
      have member : sep ∈ z := by rw [(List.cons.inj tail).2]; simp
      exact absurd member free
  · cases c with
    | nil => exact ⟨List.append_nil x', (List.cons.inj tail).2.symm⟩
    | cons d rest =>
      have member : sep ∈ z' := by rw [(List.cons.inj tail).2]; simp
      exact absurd member free'

theorem startsWith_append (start rest : String) : startsWith (start ++ rest) start = true := by
  rw [startsWith, List.isPrefixOf_iff_prefix, String.toList_append]
  exact List.prefix_append ..

theorem after?_append (start rest : String) : after? (start ++ rest) start = some rest := by
  rw [after?, if_pos (startsWith_append start rest), String.toList_append, List.drop_left,
    String.ofList_toList]

theorem after?_iff {whole start rest : String} :
    after? whole start = some rest ↔ whole = start ++ rest := by
  constructor
  · intro found
    unfold after? at found
    split at found
    · rename_i begins
      obtain ⟨tail, same⟩ := List.isPrefixOf_iff_prefix.mp begins
      obtain rfl := Option.some.inj found
      apply String.toList_inj.mp
      rw [String.toList_append, String.toList_ofList, ← same, List.drop_left]
    · cases found
  · rintro rfl
    exact after?_append start rest

/-- A text is cut at the first separator: there is none in the part before it. -/
theorem cut?_iff {sep : Char} {s first second : String} :
    cut? sep s = some (first, second) ↔
      sep ∉ first.toList ∧ s = first ++ String.singleton sep ++ second := by
  have spelled (x y : String) : s = x ++ String.singleton sep ++ y ↔
      s.toList = x.toList ++ sep :: y.toList := by
    rw [← String.toList_inj]
    simp
  rw [spelled]
  constructor
  · intro found
    have parts : s.toList.takeWhile (· ≠ sep) ++ s.toList.dropWhile (· ≠ sep) = s.toList :=
      List.takeWhile_append_dropWhile
    unfold cut? at found
    split at found
    · cases found
    · rename_i c rest tail
      obtain ⟨rfl, rfl⟩ := Prod.mk.inj (Option.some.inj found)
      have stopped : ¬ decide (c ≠ sep) = true := by
        have head := List.head?_dropWhile_not (fun c => decide (c ≠ sep)) s.toList
        rw [tail] at head
        simpa using head
      obtain rfl : c = sep := by simpa using stopped
      rw [String.toList_ofList, String.toList_ofList, ← tail]
      refine ⟨fun member => ?_, parts.symm⟩
      simpa using List.mem_takeWhile_imp member
  · rintro ⟨free, same⟩
    have stays : ∀ c ∈ first.toList, decide (c ≠ sep) = true := fun c member =>
      decide_eq_true fun same => free (same ▸ member)
    have front : s.toList.takeWhile (· ≠ sep) = first.toList := by
      rw [same, List.takeWhile_append_of_pos stays, List.takeWhile_cons_of_neg (by simp),
        List.append_nil]
    have back : s.toList.dropWhile (· ≠ sep) = sep :: second.toList := by
      rw [same, List.dropWhile_append_of_pos stays, List.dropWhile_cons_of_neg (by simp)]
    simp only [cut?, front, back, String.ofList_toList]

theorem joined_pieces (sep : Char) (s : String) :
    String.intercalate (String.singleton sep) (pieces sep s) = s := by
  rw [← String.toList_inj, String.toList_intercalate, String.toList_singleton, pieces, List.map_map]
  have same : String.toList ∘ String.ofList = id := funext fun _ => String.toList_ofList
  rw [same, List.map_id, List.intercalate_splitOn]

theorem pieces_joined {sep : Char} {parts : List String} (some : parts ≠ [])
    (free : ∀ part ∈ parts, sep ∉ part.toList) :
    pieces sep (String.intercalate (String.singleton sep) parts) = parts := by
  have free' : ∀ cs ∈ parts.map String.toList, sep ∉ cs := by
    intro cs member
    obtain ⟨part, inside, rfl⟩ := List.mem_map.mp member
    exact free part inside
  rw [pieces, String.toList_intercalate, String.toList_singleton,
    List.splitOn_intercalate sep free' (by simpa using some), List.map_map]
  have same : String.ofList ∘ String.toList = id := funext fun _ => String.ofList_toList
  rw [same, List.map_id]

end KeyService.Text
