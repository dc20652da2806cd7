import KeyService.Proofs.Json.Object
import Mathlib.Data.List.TakeDrop

/-! Whole numbers in JSON are read as they were written.
A number has no end of its own: it ends where what follows is no part of a number. -/
namespace KeyService.Json

open Bytes

theorem digit_range {c : Char} (digit : c.isDigit = true) : 48 ≤ c.toNat ∧ c.toNat ≤ 57 := by
  simp only [Char.isDigit, Bool.and_eq_true, decide_eq_true_eq] at digit
  exact ⟨UInt32.le_iff_toNat_le.mp digit.1, UInt32.le_iff_toNat_le.mp digit.2⟩

def digitByte (c : Char) : UInt8 := UInt8.ofNat c.toNat

theorem toNat_digitByte {c : Char} (digit : c.isDigit = true) : (digitByte c).toNat = c.toNat := by
  have range := digit_range digit
  rw [digitByte, UInt8.toNat_ofNat']
  omega

theorem isDigit_digitByte {c : Char} (digit : c.isDigit = true) : isDigit (digitByte c) = true := by
  have range := digit_range digit
  have value := toNat_digitByte digit
  simp only [isDigit, Bool.and_eq_true, decide_eq_true_eq, UInt8.le_iff_toNat_le, value]
  exact range

theorem ofChars_digits {cs : List Char} (digits : ∀ c ∈ cs, c.isDigit = true) :
    ofChars cs = cs.map digitByte := by
  induction cs with
  | nil => rfl
  | cons c cs ih =>
    have small : c.toNat < 128 := by
      have := digit_range (digits c List.mem_cons_self)
      omega
    rw [ofChars_ascii small, List.map_cons, ih fun c' member => digits c' (.tail _ member)]
    rfl

theorem foldl_digits {cs : List Char} (digits : ∀ c ∈ cs, c.isDigit = true) (start : Nat) :
    (cs.map digitByte).foldl (fun n d => n * 10 + (d.toNat - 48)) start =
      Nat.ofDigitChars 10 cs start := by
  induction cs generalizing start with
  | nil => rfl
  | cons c cs ih =>
    rw [List.map_cons, List.foldl_cons, ih fun c' member => digits c' (.tail _ member),
      toNat_digitByte (digits c List.mem_cons_self), Nat.ofDigitChars_cons, Nat.mul_comm]
    rfl

theorem digits_toDigits (n : Nat) : ∀ c ∈ Nat.toDigits 10 n, c.isDigit = true :=
  fun _ member => Nat.isDigit_of_mem_toDigits (by decide) (by decide) member

theorem digitsValue_toDigits (n : Nat) : digitsValue ((Nat.toDigits 10 n).map digitByte) = n := by
  rw [digitsValue, foldl_digits (digits_toDigits n), Nat.ofDigitChars_ten_toDigits]

/-- No number but zero begins with a zero. -/
theorem head_toDigits {n : Nat} (positive : 0 < n) : (Nat.toDigits 10 n).head? ≠ some '0' := by
  induction n using Nat.strongRecOn with
  | ind n ih =>
    by_cases small : n < 10
    · have digit : ∀ d < 10, 0 < d → Nat.digitChar d ≠ '0' := by decide
      rw [Nat.toDigits_of_lt_base small]
      simpa using digit n small positive
    · have shorter := ih (n / 10) (by omega) (by omega)
      obtain ⟨d, ds, same⟩ := List.exists_cons_of_ne_nil (Nat.toDigits_ne_nil (n := n / 10) (b := 10))
      rw [Nat.toDigits_of_base_le (by decide) (by omega), same]
      rw [same] at shorter
      exact shorter

theorem span_digits {ds : Bytes} (digits : ∀ d ∈ ds, isDigit d = true) {rest : Bytes}
    (ends : Ends rest) : (ds ++ rest).span isDigit = (ds, rest) := by
  have stop : rest.takeWhile isDigit = [] ∧ rest.dropWhile isDigit = rest := by
    cases rest with
    | nil => exact ⟨rfl, rfl⟩
    | cons b rest =>
      have other : ¬ isDigit b = true := by simp [(ends b rfl).1]
      exact ⟨List.takeWhile_cons_of_neg other, List.dropWhile_cons_of_neg other⟩
  rw [List.span_eq_takeWhile_dropWhile, List.takeWhile_append_of_pos digits,
    List.dropWhile_append_of_pos digits, stop.1, stop.2, List.append_nil]

theorem digitRun_digits (ended : Fault) {ds : Bytes} (some : ds ≠ [])
    (digits : ∀ d ∈ ds, isDigit d = true) {rest : Bytes} (ends : Ends rest) :
    digitRun ended (ds ++ rest) = .ok (ds, rest) := by
  obtain ⟨d, others, rfl⟩ := List.exists_cons_of_ne_nil some
  have span := span_digits digits ends
  rw [List.cons_append] at span
  rw [List.cons_append, digitRun, if_pos (digits d List.mem_cons_self), span]

/-- A number without point and exponent ends with its digits. -/
theorem numeral_digits (ended : Fault) (negative : Bool) {ds : Bytes} (some : ds ≠ [])
    (digits : ∀ d ∈ ds, isDigit d = true)
    (proper : (decide (ds.length > 1) && decide (ds.head? = .some 0x30)) = false) {rest : Bytes}
    (ends : Ends rest) :
    numeral ended negative (ds ++ rest) = .ok (⟨negative, ds, none, none⟩, rest) := by
  rw [numeral, digitRun_digits ended some digits ends]
  change (if (_ && _) = true then _ else _) = _
  rw [proper, if_neg (by decide)]
  cases rest with
  | nil => rfl
  | cons b rest =>
    obtain ⟨-, point, small, capital⟩ := ends b rfl
    split
    · rename_i same
      exact absurd (List.cons.inj same).1 point
    · change (if _ then _ else _) = _
      rw [if_neg (by simp [small, capital])]

theorem head_digitBytes {n : Nat} (positive : 0 < n) :
    ((Nat.toDigits 10 n).map digitByte).head? ≠ some 0x30 := by
  intro same
  rw [List.head?_map, Option.map_eq_some_iff] at same
  obtain ⟨c, first, byte⟩ := same
  have digit := digits_toDigits n c (List.mem_of_mem_head? first)
  have value : c.toNat = '0'.toNat := by
    rw [← toNat_digitByte digit, byte]
    rfl
  exact head_toDigits positive (first.trans (congrArg some (Char.toNat_inj.mp value)))

theorem numeral_toDigits (ended : Fault) (negative : Bool) (n : Nat) {rest : Bytes}
    (ends : Ends rest) :
    numeral ended negative (ofChars (Nat.toDigits 10 n) ++ rest) =
      .ok (⟨negative, (Nat.toDigits 10 n).map digitByte, none, none⟩, rest) := by
  have digits : ∀ d ∈ (Nat.toDigits 10 n).map digitByte, isDigit d = true := by
    intro d member
    obtain ⟨c, inside, rfl⟩ := List.mem_map.mp member
    exact isDigit_digitByte (digits_toDigits n c inside)
  have proper : (decide (((Nat.toDigits 10 n).map digitByte).length > 1) &&
      decide (((Nat.toDigits 10 n).map digitByte).head? = some 0x30)) = false := by
    rcases Nat.eq_zero_or_pos n with rfl | positive
    · decide
    · rw [decide_eq_false (head_digitBytes positive), Bool.and_false]
  rw [ofChars_digits (digits_toDigits n)]
  exact numeral_digits ended negative (by simp [Nat.toDigits_ne_nil]) digits proper ends

theorem whole?_natural {n : Nat} (fits : n < UInt64.size) :
    (⟨false, (Nat.toDigits 10 n).map digitByte, none, none⟩ : Numeral).whole? = some (n : Int) := by
  simp only [Numeral.whole?, digitsValue_toDigits, if_pos fits]
  rfl

theorem whole?_negative {n : Nat} (positive : 0 < n) (fits : n ≤ UInt64.size / 2) :
    (⟨true, (Nat.toDigits 10 n).map digitByte, none, none⟩ : Numeral).whole? = some (-(n : Int)) := by
  simp only [Numeral.whole?, digitsValue_toDigits, decide_eq_true positive, decide_eq_true fits]
  rfl

variable {low high : Int} {rest : Bytes}

theorem visible_digit {b : UInt8} (digit : isDigit b = true) : isSpace b = false ∧ b ≠ 0x2D := by
  simp only [isDigit, Bool.and_eq_true, decide_eq_true_eq, UInt8.le_iff_toNat_le] at digit
  have apart : ∀ other : UInt8, other.toNat < 48 → b ≠ other := by
    rintro other small rfl
    exact absurd digit.1 (Nat.not_le_of_lt small)
  simp [isSpace, apart 0x20 (by decide), apart 0x0A (by decide), apart 0x09 (by decide),
    apart 0x0D (by decide), apart 0x2D (by decide)]

theorem integer_of_numeral {b : UInt8} {bs : Bytes} {num : Numeral} {v : Int}
    (digit : isDigit b = true) (read : numeral .truncated false (b :: bs) = .ok (num, rest))
    (whole : num.whole? = some v) (above : low ≤ v) (below : v ≤ high) :
    Reader.integer low high (b :: bs) = .ok (.number v, rest) := by
  obtain ⟨visible, unsigned⟩ := visible_digit digit
  rw [Reader.integer, skipSpace_cons visible]
  split
  · rename_i minus
    exact absurd (List.cons.inj minus).1 unsigned
  · rename_i first
    obtain ⟨rfl, rfl⟩ := List.cons.inj first
    rw [if_pos digit, read]
    simp only [bind, Except.bind, whole, if_pos (And.intro above below)]
  · rename_i none
    cases none

theorem integer_of_minus {bs : Bytes} {num : Numeral} {v : Int}
    (read : numeral .truncated true bs = .ok (num, rest)) (whole : num.whole? = some v)
    (above : low ≤ v) (below : v ≤ high) :
    Reader.integer low high (0x2D :: bs) = .ok (.number v, rest) := by
  rw [Reader.integer, skipSpace_cons (by decide)]
  simp only [read, bind, Except.bind, whole, if_pos (And.intro above below)]

/-- A number within the limits of its reader, which are within sixty-four bits, is read back. -/
theorem reads_integer (layout : Layout) {n : Int} (above : low ≤ n) (below : n ≤ high)
    (lowest : -((UInt64.size / 2 : Nat) : Int) ≤ low) (highest : high < UInt64.size) :
    Reads (Reader.integer low high) layout (.number n) (.number n) := by
  intro blanks rest blank ends
  -- Blanks in front are passed over, by the reader and by what it reads then.
  have passed : Reader.integer low high (blanks ++ (ofChars (chars layout (.number n)) ++ rest)) =
      Reader.integer low high (ofChars (chars layout (.number n)) ++ rest) := by
    rw [Reader.integer, Reader.integer, skipSpace_blanks blank]
  rw [passed, chars, Int.toString_eq_repr, Int.repr_eq_if]
  by_cases natural : 0 ≤ n
  · obtain ⟨m, rfl⟩ := Int.eq_ofNat_of_zero_le natural
    rw [if_pos natural, Int.toNat_natCast, Nat.toList_repr]
    have read := numeral_toDigits .truncated false m ends
    obtain ⟨c, cs, same⟩ := List.exists_cons_of_ne_nil (Nat.toDigits_ne_nil (n := m) (b := 10))
    have digit : isDigit (digitByte c) = true :=
      isDigit_digitByte (digits_toDigits m c (by rw [same]; exact List.mem_cons_self))
    have value := whole?_natural (n := m) (by omega)
    rw [ofChars_digits (digits_toDigits m)] at read ⊢
    rw [same, List.map_cons] at read value ⊢
    exact integer_of_numeral digit read value above below
  · obtain ⟨m, rfl⟩ : ∃ m : Nat, n = -(m : Int) := ⟨(-n).toNat, by omega⟩
    rw [if_neg natural, Int.neg_neg, Int.toNat_natCast, String.toList_append, Nat.toList_repr]
    have read := numeral_toDigits .truncated true m ends
    have value := whole?_negative (n := m) (by omega) (by omega)
    exact integer_of_minus read value above below

end KeyService.Json
