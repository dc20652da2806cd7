import KeyService.Block.Aes
import KeyService.Proofs.Block.Row
import KeyService.Proofs.Bytes.Words
import Mathlib.Algebra.Group.Nat.Defs
import Mathlib.Tactic.IntervalCases

/-! The AES block cipher decrypts what it encrypted.
Each layer of a round is undone by its counterpart: the substitution byte by byte, the rows by
turning them back, and the columns because mixing respects addition, so that it is enough to look
at words of a single bit. The rounds are then undone one by one, last first. -/
namespace KeyService.Aes

-- The field is small enough to try every element. Numbers are evaluated much faster than bytes, so
-- this is done with the number of an inverse.

def doubleNumber (a : Nat) : Nat := if a < 128 then 2 * a else (2 * a - 256) ^^^ 27

def timesNumber (n a b : Nat) : Nat :=
  match n with
  | 0 => 0
  | n + 1 => (if b % 2 = 1 then a else 0) ^^^ timesNumber n (doubleNumber a) (b / 2)

def inverseNumber (a : Nat) : Nat :=
  let a2 := timesNumber 8 a a
  let a4 := timesNumber 8 a2 a2
  let a8 := timesNumber 8 a4 a4
  let a16 := timesNumber 8 a8 a8
  let a32 := timesNumber 8 a16 a16
  let a64 := timesNumber 8 a32 a32
  let a128 := timesNumber 8 a64 a64
  timesNumber 8 a128 (timesNumber 8 a64 (timesNumber 8 a32 (timesNumber 8 a16
    (timesNumber 8 a8 (timesNumber 8 a4 a2)))))

theorem toNat_double (a : UInt8) : (double a).toNat = doubleNumber a.toNat := by
  have bound := a.toNat_lt
  have shifted : (a <<< 1).toNat = 2 * a.toNat % 256 := by
    rw [UInt8.toNat_shiftLeft, Nat.shiftLeft_eq, Nat.mul_comm]
    rfl
  have compared : a < 128 ↔ a.toNat < 128 := UInt8.lt_iff_toNat_lt
  unfold double doubleNumber
  by_cases small : a.toNat < 128
  · rw [if_pos (compared.mpr small), if_pos small, shifted]
    omega
  · rw [if_neg (mt compared.mp small), if_neg small, UInt8.toNat_xor, shifted]
    have : 2 * a.toNat % 256 = 2 * a.toNat - 256 := by omega
    rw [this]
    rfl

theorem toNat_times (n : Nat) (a b : UInt8) :
    (times n a b).toNat = timesNumber n a.toNat b.toNat := by
  induction n generalizing a b with
  | zero => rfl
  | succ n ih =>
    have odd : b % 2 = 1 ↔ b.toNat % 2 = 1 := by
      rw [← UInt8.toNat_inj, UInt8.toNat_mod]
      rfl
    have half : (b >>> 1).toNat = b.toNat / 2 := by
      rw [UInt8.toNat_shiftRight, Nat.shiftRight_eq_div_pow]
      rfl
    rw [times, timesNumber, UInt8.toNat_xor, ih, toNat_double, half]
    by_cases last : b.toNat % 2 = 1
    · rw [if_pos (odd.mpr last), if_pos last]
    · rw [if_neg (mt odd.mp last), if_neg last]
      rfl

theorem toNat_inverse (a : UInt8) : (inverse a).toNat = inverseNumber a.toNat := by
  simp only [inverse, inverseNumber, mul, toNat_times]

theorem inverse_inverse (a : UInt8) : inverse (inverse a) = a := by
  have numbers : ∀ i : Fin 256, inverseNumber (inverseNumber i.val) = i.val := by decide +kernel
  apply UInt8.toNat_inj.mp
  rw [toNat_inverse, toNat_inverse]
  exact numbers ⟨a.toNat, a.toNat_lt⟩

theorem unaffine_affine (a : UInt8) : unaffine (affine a) = a := by
  have numbers : ∀ i : Fin 256, unaffine (affine (UInt8.ofNat i.val)) = UInt8.ofNat i.val := by
    decide +kernel
  simpa only [UInt8.ofNat_toNat] using numbers ⟨a.toNat, a.toNat_lt⟩

theorem getD_ofFn (f : UInt8 → UInt8) (a : UInt8) :
    (Array.ofFn fun i : Fin 256 => f (UInt8.ofNat i.val)).getD a.toNat 0 = f a := by
  have small := a.toNat_lt
  rw [Array.getD_eq_getD_getElem?, Array.getElem?_ofFn, dif_pos small, Option.getD_some,
    UInt8.ofNat_toNat]

theorem unsubstitute_substitute (a : UInt8) : unsubstitute (substitute a) = a := by
  rw [unsubstitute, untable, getD_ofFn fun b => inverse (unaffine b), substitute, table,
    getD_ofFn fun b => affine (inverse b), unaffine_affine, inverse_inverse]

theorem mapBytes_word (f : UInt8 → UInt8) (a b c d : UInt8) :
    mapBytes f (Bytes.word a b c d) = Bytes.word (f a) (f b) (f c) (f d) := by
  have bytes := Bytes.ofWord_word a b c d
  simp only [Bytes.ofWord, List.cons.injEq, and_true] at bytes
  rw [mapBytes, bytes.1, bytes.2.1, bytes.2.2.1, bytes.2.2.2]

theorem mapBytes_unsubstitute (w : UInt32) :
    mapBytes unsubstitute (mapBytes substitute w) = w := by
  rw [← Bytes.word_ofWord w, mapBytes_word, mapBytes_word]
  simp only [unsubstitute_substitute]

/-- A map of words that respects their addition, which is without carries. -/
def Additive (f : UInt32 → UInt32) : Prop := ∀ v w, f (v ^^^ w) = f v ^^^ f w

namespace Additive

variable {f g : UInt32 → UInt32}

theorem xor (left : Additive f) (right : Additive g) : Additive fun w => f w ^^^ g w := by
  intro v w
  simp only [left v w, right v w]
  ac_rfl

theorem comp (outer : Additive f) (inner : Additive g) : Additive fun w => f (g w) := by
  intro v w
  simp only [inner v w, outer (g v)]

theorem self : Additive fun w => w := fun _ _ => rfl

theorem shiftLeft (n : UInt32) : Additive fun w => w <<< n := fun _ _ => UInt32.shiftLeft_xor

theorem shiftRight (n : UInt32) : Additive fun w => w >>> n := fun _ _ => UInt32.shiftRight_xor

theorem and (mask : UInt32) : Additive fun w => w &&& mask := by
  intro v w
  apply UInt32.toNat_inj.mp
  simp only [UInt32.toNat_and, UInt32.toNat_xor, Nat.and_xor_distrib_right]

theorem toNat_bit {n : Nat} (small : n < 32) : ((1 : UInt32) <<< UInt32.ofNat n).toNat = 2 ^ n := by
  have fits : 2 ^ n < 2 ^ 32 := Nat.pow_lt_pow_right (by decide) small
  rw [UInt32.toNat_shiftLeft, UInt32.toNat_ofNat', UInt32.toNat_one, Nat.shiftLeft_eq, one_mul,
    Nat.mod_eq_of_lt (by omega : n < 2 ^ 32), Nat.mod_eq_of_lt small, Nat.mod_eq_of_lt fits]

/-- An additive map that leaves the words of a single bit alone leaves every word alone: by
induction on the number of low bits that a word is made of, its highest bit is taken off. -/
theorem eq_self_of_lt (additive : Additive f)
    (single : ∀ i : Fin 32, f (1 <<< UInt32.ofNat i.val) = 1 <<< UInt32.ofNat i.val) (n : Nat)
    (bound : n ≤ 32) (w : UInt32) (small : w.toNat < 2 ^ n) : f w = w := by
  induction n generalizing w with
  | zero =>
    obtain rfl : w = 0 := UInt32.toNat_inj.mp (Nat.lt_one_iff.mp small)
    simpa using additive 0 0
  | succ n ih =>
    have cleared {j : Nat} (higher : n < j) : w.toNat.testBit j = false :=
      Nat.testBit_lt_two_pow (small.trans_le (Nat.pow_le_pow_right (by decide) higher))
    by_cases top : w.toNat.testBit n
    · let bit : UInt32 := 1 <<< UInt32.ofNat n
      have rest : (w ^^^ bit).toNat < 2 ^ n := by
        refine Nat.lt_pow_two_of_testBit _ fun j high => ?_
        rw [UInt32.toNat_xor, toNat_bit bound, Nat.testBit_xor, Nat.testBit_two_pow]
        rcases high.eq_or_lt with rfl | higher
        · simp [top]
        · simp [cleared higher, higher.ne]
      have parts : bit ^^^ (w ^^^ bit) = w := by
        rw [UInt32.xor_comm w, ← UInt32.xor_assoc, UInt32.xor_self, UInt32.zero_xor]
      rw [← parts, additive, single ⟨n, bound⟩, ih (by omega) _ rest]
    · refine ih (by omega) w (Nat.lt_pow_two_of_testBit _ fun j high => ?_)
      rcases high.eq_or_lt with rfl | higher
      · simpa using top
      · exact cleared higher

theorem eq_self (additive : Additive f)
    (single : ∀ i : Fin 32, f (1 <<< UInt32.ofNat i.val) = 1 <<< UInt32.ofNat i.val)
    (w : UInt32) : f w = w := additive.eq_self_of_lt single 32 le_rfl w w.toNat_lt

end Additive

theorem and_one (a : UInt8) : a &&& 1 = 0 ∨ a &&& 1 = 1 := by
  have value : (a &&& 1).toNat = a.toNat % 2 := by
    rw [UInt8.toNat_and]
    exact Nat.and_one_is_mod _
  rcases Nat.mod_two_eq_zero_or_one a.toNat with even | odd
  · exact .inl (UInt8.toNat_inj.mp (value.trans even))
  · exact .inr (UInt8.toNat_inj.mp (value.trans odd))

/-- A multiplication that is without carries, as the bits of its left factor are far apart. -/
theorem and_mul (v : UInt32) :
    let w : UInt32 := v &&& 0x01010101
    w * (0x1B : UInt32) = w ^^^ w <<< 1 ^^^ w <<< 3 ^^^ w <<< 4 := by
  obtain ⟨a, b, c, d, bits⟩ : ∃ a b c d : UInt8, v &&& 0x01010101 =
      Bytes.word (a &&& 1) (b &&& 1) (c &&& 1) (d &&& 1) := by
    refine ⟨(v >>> 24).toUInt8, (v >>> 16).toUInt8, (v >>> 8).toUInt8, v.toUInt8, ?_⟩
    rw [← Bytes.word_ofWord (v &&& 0x01010101)]
    simp only [UInt32.shiftRight_and, UInt32.toUInt8_and]
    rfl
  dsimp only
  rw [bits]
  rcases and_one a with first | first <;> rcases and_one b with second | second <;>
    rcases and_one c with third | third <;> rcases and_one d with fourth | fourth <;>
    rw [first, second, third, fourth] <;> decide

theorem additive_doubleColumn : Additive doubleColumn := by
  have highest : Additive fun w => (w >>> 7) &&& 0x01010101 := (Additive.and _).comp (.shiftRight 7)
  have shifted (n : UInt32) := (Additive.shiftLeft n).comp highest
  have reduced : Additive fun w => ((w >>> 7) &&& 0x01010101) * 0x1B := by
    simp only [and_mul]
    exact ((highest.xor (shifted 1)).xor (shifted 3)).xor (shifted 4)
  exact ((Additive.shiftLeft 1).comp (.and _)).xor reduced

theorem rotateColumn_eq {w n : UInt32} (whole : n = 8 ∨ n = 16 ∨ n = 24) :
    rotateColumn w n = w <<< n ^^^ w >>> (32 - n) := by
  apply UInt32.toBitVec_inj.mp
  apply BitVec.eq_of_getLsbD_eq
  intro i small
  simp only [rotateColumn, UInt32.toBitVec_or, UInt32.toBitVec_xor, BitVec.getLsbD_or,
    BitVec.getLsbD_xor]
  rcases whole with rfl | rfl | rfl <;> interval_cases i <;> simp

theorem additive_rotateColumn {n : UInt32} (whole : n = 8 ∨ n = 16 ∨ n = 24) :
    Additive fun w => rotateColumn w n := by
  simp only [rotateColumn_eq whole]
  exact (Additive.shiftLeft n).xor (.shiftRight (32 - n))

theorem additive_mix : Additive mix := by
  have turned := (additive_rotateColumn (.inl rfl)).comp (Additive.self.xor additive_doubleColumn)
  exact ((additive_doubleColumn.xor turned).xor (additive_rotateColumn (.inr (.inl rfl)))).xor
    (additive_rotateColumn (.inr (.inr rfl)))

theorem additive_unmix : Additive unmix := by
  have opposite := Additive.self.xor (additive_rotateColumn (.inr (.inl rfl)))
  exact additive_mix.comp
    (Additive.self.xor (additive_doubleColumn.comp (additive_doubleColumn.comp opposite)))

theorem unmix_mix (w : UInt32) : unmix (mix w) = w := by
  have single : ∀ i : Fin 32,
      unmix (mix (1 <<< UInt32.ofNat i.val)) = 1 <<< UInt32.ofNat i.val := by decide +kernel
  exact (additive_unmix.comp additive_mix).eq_self single w

namespace State

theorem add_add (s k : State) : (s.add k).add k = s := by
  simp only [add, UInt32.xor_assoc, UInt32.xor_self, UInt32.xor_zero]

theorem map_map {f g : UInt32 → UInt32} (undoes : ∀ w, g (f w) = w) (s : State) :
    (s.map f).map g = s := by
  simp only [map, undoes]

/-- The four bytes of a column come back from the four columns that they were moved to. -/
theorem gather_gather (a b c d : UInt32) :
    gather (gather a b c d) (gather d a b c) (gather c d a b) (gather b c d a) = a := by
  apply UInt32.toBitVec_inj.mp
  apply BitVec.eq_of_getLsbD_eq
  intro i small
  simp only [gather, UInt32.toBitVec_or, UInt32.toBitVec_and, BitVec.getLsbD_or,
    BitVec.getLsbD_and]
  interval_cases i <;> simp

theorem unshiftRows_shiftRows (s : State) : s.shiftRows.unshiftRows = s := by
  simp only [shiftRows, unshiftRows, gather_gather]

theorem ofBlock_toBlock (s : State) : ofBlock s.toBlock = s := by
  have words : Bytes.words s.toBlock.bytes = [s.a, s.b, s.c, s.d] := by
    simp only [toBlock, List.append_assoc, Bytes.words_ofWord_append]
    rw [← List.append_nil (Bytes.ofWord s.d), Bytes.words_ofWord_append]
    rfl
  rw [ofBlock, words, ofWords]

theorem toBlock_ofBlock (b : Block) : (ofBlock b).toBlock = b := by
  have whole : b.bytes.length % 4 = 0 := by rw [b.length_bytes]
  obtain ⟨written, count⟩ := Bytes.flatMap_words whole
  rw [b.length_bytes] at count
  apply Block.ext
  match words : Bytes.words b.bytes, count with
  | [p, q, r, s], _ =>
    rw [ofBlock, words, ← written, words]
    simp [ofWords, toBlock]

end State

def halfRound (s : State) : State := (s.map (mapBytes substitute)).shiftRows

theorem unhalf (s : State) :
    ((halfRound s).unshiftRows).map (mapBytes unsubstitute) = s := by
  rw [halfRound, State.unshiftRows_shiftRows, State.map_map mapBytes_unsubstitute]

/-- When the rounds with the keys of `k :: more` are undone, the first half of the first of them
is left, for the keys in `before` to undo. -/
theorem unrounds_rounds (s k : State) (more before : List State) (some : before ≠ []) :
    unrounds ((rounds s (k :: more)).add ((k :: more).getLast (by simp)))
      ((k :: more).reverse.tail ++ before) = unrounds (halfRound s) before := by
  induction more generalizing s k before with
  | nil => exact congrArg (unrounds · before) (State.add_add (halfRound s) k)
  | cons m more ih =>
    obtain ⟨k', before, rfl⟩ := List.exists_cons_of_ne_nil some
    have keys : (k :: m :: more).reverse.tail ++ k' :: before =
        (m :: more).reverse.tail ++ k :: k' :: before := by
      rw [List.reverse_cons, List.tail_append_of_ne_nil (by simp), List.append_assoc]
      rfl
    let mixed : State := ((halfRound s).map mix).add k
    have inner := ih mixed m (k :: k' :: before) (by simp)
    have outer : unrounds (halfRound mixed) (k :: k' :: before) =
        unrounds (((((halfRound mixed).unshiftRows).map (mapBytes unsubstitute)).add k).map unmix)
          (k' :: before) := rfl
    rw [keys, List.getLast_cons (by simp)]
    refine inner.trans (outer.trans ?_)
    rw [unhalf, State.add_add, State.map_map unmix_mix]

/-- Whatever the key is: a schedule of fewer than two round keys only adds and takes off. -/
theorem cipher_inverts (key : Bytes) : (cipher key).Inverts := by
  intro b
  simp only [cipher, State.ofBlock_toBlock]
  match schedule key with
  | [] | [k] =>
    dsimp only [List.headD, List.tail, List.reverse, List.reverseAux, rounds, unrounds]
    rw [State.add_add, State.toBlock_ofBlock]
  | first :: k :: more =>
    have last : (first :: k :: more).reverse.headD ⟨0, 0, 0, 0⟩ =
        (k :: more).getLast (by simp) := by
      rw [List.headD_eq_head?_getD, List.head?_reverse, List.getLast?_cons_cons,
        List.getLast?_eq_some_getLast (by simp), Option.getD_some]
    have keys : (first :: k :: more).reverse.tail = (k :: more).reverse.tail ++ [first] := by
      rw [List.reverse_cons, List.tail_append_of_ne_nil (by simp)]
    rw [last, keys, List.tail_cons, List.headD_cons, unrounds_rounds _ _ _ _ (by simp), unrounds,
      unhalf, State.add_add, State.toBlock_ofBlock]

end KeyService.Aes
