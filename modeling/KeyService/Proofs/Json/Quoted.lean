import KeyService.Json.Reader
import KeyService.Proofs.Text.Utf8

/-! Strings in JSON are read as they were written.
The reader works on bytes and the writer on characters. One written character, escaped or
not, puts the bytes of that character behind those that have been read so far. -/
namespace KeyService.Json

open Bytes

def Plain (b : UInt8) : Prop := b ≠ 0x22 ∧ b ≠ 0x5C ∧ ¬ b < 0x20

theorem plain_of_high {b : UInt8} (high : 128 ≤ b.toNat) : Plain b := by
  refine ⟨?_, ?_, ?_⟩
  · rintro rfl
    exact absurd high (by decide)
  · rintro rfl
    exact absurd high (by decide)
  · rw [UInt8.lt_iff_toNat_lt]
    exact Nat.not_lt_of_le (Nat.le_trans (by decide) high)

theorem stringAfter_plain {b : UInt8} (plain : Plain b) (done rest : Bytes) :
    stringAfter done (b :: rest) = stringAfter (b :: done) rest := by
  obtain ⟨quote, slash, control⟩ := plain
  rw [stringAfter]
  · rw [if_neg control]
  all_goals simp [quote, slash]

theorem stringAfter_plain_append {bs : Bytes} (plain : ∀ b ∈ bs, Plain b) (done rest : Bytes) :
    stringAfter done (bs ++ rest) = stringAfter (bs.reverse ++ done) rest := by
  induction bs generalizing done with
  | nil => rfl
  | cons b bs ih =>
    rw [List.cons_append, stringAfter_plain (plain b List.mem_cons_self),
      ih fun b member => plain b (List.mem_cons_of_mem _ member)]
    simp

theorem hexValue?_hexDigit : ∀ n < 16,
    (hexDigit n).toNat < 128 ∧ Json.hexValue? (UInt8.ofNat (hexDigit n).toNat) = some n := by
  decide

theorem stringAfter_control {c : Char} (control : c.toNat < 32) (done rest : Bytes) :
    stringAfter done (ofChars ['\\', 'u', '0', '0', hexDigit (c.toNat / 16),
      hexDigit (c.toNat % 16)] ++ rest) =
      stringAfter ((String.utf8EncodeChar c).reverse ++ done) rest := by
  obtain ⟨highAscii, highValue⟩ := hexValue?_hexDigit (c.toNat / 16) (by omega)
  obtain ⟨lowAscii, lowValue⟩ := hexValue?_hexDigit (c.toNat % 16) (by omega)
  have unit : codeUnit? (UInt8.ofNat '0'.toNat) (UInt8.ofNat '0'.toNat)
      (UInt8.ofNat (hexDigit (c.toNat / 16)).toNat)
      (UInt8.ofNat (hexDigit (c.toNat % 16)).toNat) = some c.toNat := by
    have zero : Json.hexValue? (UInt8.ofNat '0'.toNat) = some 0 := by decide
    simp only [codeUnit?, zero, highValue, lowValue, Option.bind_eq_bind, Option.bind_some,
      Option.pure_def, Option.some.injEq]
    omega
  have trailing : isTrailing c.toNat = false := by
    rw [isTrailing, decide_eq_false (by omega)]
    rfl
  have leading : isLeading c.toNat = false := by
    rw [isLeading, decide_eq_false (by omega)]
    rfl
  rw [ofChars_ascii (by decide), ofChars_ascii (by decide), ofChars_ascii (by decide),
    ofChars_ascii (by decide), ofChars_ascii highAscii, ofChars_ascii lowAscii]
  change stringAfter done (92 :: 117 :: _ :: _ :: _ :: _ :: rest) = _
  rw [stringAfter, unit]
  simp only [trailing, leading, Char.ofNat_toNat, if_false, Bool.false_eq_true]

theorem stringAfter_letter {c e : Char} (small : c.toNat < 128) (letter : e.toNat < 128)
    (known : plainEscape? (UInt8.ofNat e.toNat) = some (UInt8.ofNat c.toNat)) (done rest : Bytes) :
    stringAfter done (ofChars ['\\', e] ++ rest) =
      stringAfter ((String.utf8EncodeChar c).reverse ++ done) rest := by
  have notUnit : UInt8.ofNat e.toNat ≠ 0x75 := by
    intro same
    rw [same] at known
    cases known
  rw [ofChars_ascii (by decide), ofChars_ascii letter, utf8EncodeChar_ascii small]
  change stringAfter done (92 :: UInt8.ofNat e.toNat :: rest) = _
  rw [stringAfter]
  · rw [known]
    rfl
  all_goals simp [notUnit]

theorem stringAfter_unescaped {c : Char} (quote : c ≠ '"') (slash : c ≠ '\\')
    (visible : ¬ c.toNat < 32) (done rest : Bytes) :
    stringAfter done (ofChars [c] ++ rest) =
      stringAfter ((String.utf8EncodeChar c).reverse ++ done) rest := by
  rw [ofChars_cons, ofChars_nil, List.append_nil]
  refine stringAfter_plain_append (fun b member => ?_) done rest
  by_cases small : c.toNat < 128
  · rw [utf8EncodeChar_ascii small, List.mem_singleton] at member
    have value : b.toNat = c.toNat := by
      rw [member, UInt8.toNat_ofNat']
      omega
    refine ⟨?_, ?_, ?_⟩
    · rintro rfl
      exact quote (Char.toNat_inj.mp value.symm)
    · rintro rfl
      exact slash (Char.toNat_inj.mp value.symm)
    · rw [UInt8.lt_iff_toNat_lt, value]
      exact visible
  · exact plain_of_high (high_of_mem_utf8EncodeChar (by omega) member)

theorem stringAfter_escape (c : Char) (done rest : Bytes) :
    stringAfter done (ofChars (escape c) ++ rest) =
      stringAfter ((String.utf8EncodeChar c).reverse ++ done) rest := by
  unfold escape
  -- The seven characters with a letter of their own come first, in the order of the writer.
  split
  · subst c
    exact stringAfter_letter (by decide) (by decide) (by decide) done rest
  split
  · subst c
    exact stringAfter_letter (by decide) (by decide) (by decide) done rest
  iterate 5
    split
    · rename_i number
      exact stringAfter_letter (by omega) (by decide) (by rw [number]; rfl) done rest
  split
  · rename_i control
    exact stringAfter_control control done rest
  · rename_i quote slash _ _ _ _ _ visible
    exact stringAfter_unescaped quote slash visible done rest

theorem stringAfter_flatMap_escape (cs : List Char) (done rest : Bytes) :
    stringAfter done (ofChars (cs.flatMap escape) ++ rest) =
      stringAfter ((ofChars cs).reverse ++ done) rest := by
  induction cs generalizing done with
  | nil => rfl
  | cons c cs ih =>
    rw [List.flatMap_cons, ofChars_append, List.append_assoc, stringAfter_escape, ih, ofChars_cons]
    simp

theorem textBody_flatMap_escape (s : String) (rest : Bytes) :
    textBody (ofChars (s.toList.flatMap escape) ++ 0x22 :: rest) = .ok (s, rest) := by
  simp only [textBody, stringAfter_flatMap_escape, stringAfter, List.append_nil,
    List.reverse_reverse, ← ofText_eq, bind, Except.bind, text?_ofText]

theorem ofChars_quote (s : String) :
    ofChars (quote s) = 0x22 :: (ofChars (s.toList.flatMap escape) ++ [0x22]) := by
  rw [quote, ofChars_ascii (by decide), ofChars_append, ofChars_ascii (by decide) []]
  rfl

end KeyService.Json
