import KeyService.Bytes.Words

/-! Words and the bytes they are made of.
A word of thirty-two bits is its four bytes and four bytes are one word, so a string of whole
words is read and written without loss. -/
namespace KeyService.Bytes

/-- The bytes of a word are its digits: they overlap nowhere. -/
theorem toNat_word (a b c d : UInt8) :
    (word a b c d).toNat = ((a.toNat * 256 + b.toNat) * 256 + c.toNat) * 256 + d.toNat := by
  have := a.toNat_lt
  have := b.toNat_lt
  have := c.toNat_lt
  have := d.toNat_lt
  have low : c.toNat <<< 8 ||| d.toNat = c.toNat * 256 + d.toNat := by
    rw [← Nat.shiftLeft_add_eq_or_of_lt (by omega), Nat.shiftLeft_eq]
  have middle : b.toNat <<< 16 ||| (c.toNat * 256 + d.toNat) =
      b.toNat * 65536 + (c.toNat * 256 + d.toNat) := by
    rw [← Nat.shiftLeft_add_eq_or_of_lt (by omega), Nat.shiftLeft_eq]
  have high : a.toNat <<< 24 ||| (b.toNat * 65536 + (c.toNat * 256 + d.toNat)) =
      a.toNat * 16777216 + (b.toNat * 65536 + (c.toNat * 256 + d.toNat)) := by
    rw [← Nat.shiftLeft_add_eq_or_of_lt (by omega), Nat.shiftLeft_eq]
  have shifts : (a.toUInt32 <<< 24).toNat = a.toNat <<< 24 ∧
      (b.toUInt32 <<< 16).toNat = b.toNat <<< 16 ∧ (c.toUInt32 <<< 8).toNat = c.toNat <<< 8 := by
    simp only [UInt32.toNat_shiftLeft, UInt8.toNat_toUInt32, UInt32.reduceToNat, Nat.reduceMod,
      Nat.shiftLeft_eq, Nat.reducePow]
    omega
  rw [word, UInt32.toNat_or, UInt32.toNat_or, UInt32.toNat_or, shifts.1, shifts.2.1, shifts.2.2,
    UInt8.toNat_toUInt32, Nat.or_assoc, Nat.or_assoc, low, middle, high]
  omega

theorem word_ofWord (w : UInt32) :
    word (w >>> 24).toUInt8 (w >>> 16).toUInt8 (w >>> 8).toUInt8 w.toUInt8 = w := by
  have := w.toNat_lt
  apply UInt32.toNat_inj.mp
  simp only [toNat_word, UInt32.toNat_toUInt8, UInt32.toNat_shiftRight, UInt32.reduceToNat,
    Nat.reduceMod, Nat.shiftRight_eq_div_pow, Nat.reducePow]
  omega

theorem ofWord_word (a b c d : UInt8) : ofWord (word a b c d) = [a, b, c, d] := by
  have := a.toNat_lt
  have := b.toNat_lt
  have := c.toNat_lt
  have := d.toNat_lt
  simp only [ofWord, List.cons.injEq, ← UInt8.toNat_inj, UInt32.toNat_toUInt8,
    UInt32.toNat_shiftRight, UInt32.reduceToNat, toNat_word, Nat.reduceMod,
    Nat.shiftRight_eq_div_pow, Nat.reducePow, and_true]
  omega

theorem words_ofWord_append (w : UInt32) (rest : Bytes) :
    words (ofWord w ++ rest) = w :: words rest :=
  congrArg (· :: words rest) (word_ofWord w)

theorem flatMap_words {bs : Bytes} (whole : bs.length % 4 = 0) :
    (words bs).flatMap ofWord = bs ∧ 4 * (words bs).length = bs.length := by
  induction bs using words.induct with
  | case1 a b c d rest ih =>
    simp only [List.length_cons] at whole
    obtain ⟨written, count⟩ := ih (by omega)
    rw [words, List.flatMap_cons, ofWord_word, written, List.length_cons, List.length_cons,
      List.length_cons, List.length_cons, List.length_cons]
    exact ⟨rfl, by omega⟩
  | case2 bs short =>
    match bs, short with
    | [], _ => exact ⟨rfl, rfl⟩
    | [_], _ | [_, _], _ | [_, _, _], _ => simp at whole
    | a :: b :: c :: d :: rest, short => exact absurd rfl (short a b c d rest)

end KeyService.Bytes
