import KeyService.Block.Chain
import KeyService.Block.Padding

/-! Byte strings as rows of blocks, and rows that are decrypted again.
A string is its blocks and a rest. A row that was encrypted in a chain or by a codebook is
decrypted if single blocks are, and a padding that was added is found and removed. -/
namespace KeyService

namespace Bytes

theorem xor_comm (a b : Bytes) : xor a b = xor b a := List.zipWith_comm_of_comm UInt8.xor_comm

theorem xor_xor {a b : Bytes} (long : a.length ≤ b.length) : xor (xor a b) b = a := by
  induction a generalizing b with
  | nil => rfl
  | cons x a ih =>
    cases b with
    | nil => cases long
    | cons y b =>
      have inside : (x ^^^ y) ^^^ y = x := by rw [UInt8.xor_assoc, UInt8.xor_self, UInt8.xor_zero]
      change ((x ^^^ y) ^^^ y) :: xor (xor a b) b = x :: a
      rw [inside, ih (Nat.le_of_succ_le_succ long)]

end Bytes

namespace Block

theorem xor_xor (a b : Block) : a.xor (a.xor b) = b := by
  apply ext
  change Bytes.xor a.bytes (Bytes.xor a.bytes b.bytes) = b.bytes
  rw [Bytes.xor_comm a.bytes b.bytes, Bytes.xor_comm a.bytes]
  exact Bytes.xor_xor (by simp)

theorem splitAfter_eq (done : List Block) (bs : Bytes) :
    splitAfter done bs = (done.reverse ++ (split bs).1, (split bs).2) := by
  by_cases whole : (bs.take 16).length = 16
  · have further := splitAfter_eq (⟨bs.take 16, whole⟩ :: done) (bs.drop 16)
    have alone := splitAfter_eq [⟨bs.take 16, whole⟩] (bs.drop 16)
    have once : split bs = splitAfter [⟨bs.take 16, whole⟩] (bs.drop 16) := by
      rw [split, splitAfter, dif_pos whole]
    rw [splitAfter, dif_pos whole, once, further, alone]
    simp
  · have none : split bs = ([], bs) := by
      rw [split, splitAfter, dif_neg whole]
      rfl
    rw [splitAfter, dif_neg whole, none, List.append_nil]
termination_by bs.length
decreasing_by
  all_goals
    simp only [List.length_take, List.length_drop] at whole ⊢
    omega

theorem split_short {bs : Bytes} (short : bs.length < 16) : split bs = ([], bs) := by
  have notWhole : ¬ (bs.take 16).length = 16 := by
    rw [List.length_take]
    omega
  rw [split, splitAfter, dif_neg notWhole]
  rfl

theorem split_append (b : Block) (bs : Bytes) :
    split (b.bytes ++ bs) = (b :: (split bs).1, (split bs).2) := by
  have front : (b.bytes ++ bs).take 16 = b.bytes := List.take_left' b.length_bytes
  have back : (b.bytes ++ bs).drop 16 = bs := List.drop_left' b.length_bytes
  have whole : ((b.bytes ++ bs).take 16).length = 16 := by rw [front, b.length_bytes]
  rw [split, splitAfter, dif_pos whole, back, splitAfter_eq]
  simp only [front, List.reverse_cons, List.reverse_nil, List.nil_append, List.cons_append]

theorem split_join (blocks : List Block) : split (join blocks) = (blocks, []) := by
  induction blocks with
  | nil => exact split_short (by decide)
  | cons b blocks ih =>
    have unrolled : join (b :: blocks) = b.bytes ++ join blocks := List.flatMap_cons ..
    rw [unrolled, split_append, ih]

theorem join_split (bs : Bytes) :
    join (split bs).1 ++ (split bs).2 = bs ∧ (split bs).2.length = bs.length % 16 := by
  by_cases short : bs.length < 16
  · rw [split_short short, Nat.mod_eq_of_lt short]
    exact ⟨rfl, rfl⟩
  · let b : Block := ⟨bs.take 16, by rw [List.length_take]; omega⟩
    obtain ⟨joined, rest⟩ := join_split (bs.drop 16)
    have parts : bs = b.bytes ++ bs.drop 16 := (List.take_append_drop 16 bs).symm
    have cut : split bs = (b :: (split (bs.drop 16)).1, (split (bs.drop 16)).2) := by
      rw [← split_append, ← parts]
    rw [cut]
    constructor
    · change (b.bytes ++ join _) ++ _ = bs
      rw [List.append_assoc, joined, ← parts]
    · rw [rest, List.length_drop]
      omega
termination_by bs.length
decreasing_by
  rw [List.length_drop]
  omega

theorem join_split_of_whole {bs : Bytes} (whole : bs.length % 16 = 0) :
    join (split bs).1 = bs := by
  obtain ⟨joined, rest⟩ := join_split bs
  rw [whole] at rest
  rw [List.length_eq_zero_iff.mp rest, List.append_nil] at joined
  exact joined

theorem length_join (blocks : List Block) : (join blocks).length = 16 * blocks.length := by
  induction blocks with
  | nil => rfl
  | cons b blocks ih =>
    have unrolled : join (b :: blocks) = b.bytes ++ join blocks := List.flatMap_cons ..
    rw [unrolled, List.length_append, ih, b.length_bytes, List.length_cons]
    omega

end Block

/-- Decryption of single blocks undoes their encryption. -/
def BlockCipher.Inverts (c : BlockCipher) : Prop := ∀ b, c.backward (c.forward b) = b

variable {c : BlockCipher}

theorem Codebook.decrypt_encrypt (inverts : c.Inverts) (blocks : List Block) :
    decrypt c (encrypt c blocks) = blocks := by
  rw [decrypt, encrypt, List.map_map]
  exact List.map_id'' inverts blocks

namespace Chain

theorem encryptAfter_eq (done : List Block) (previous : Block) (blocks : List Block) :
    encryptAfter c done previous blocks = done.reverse ++ encrypt c previous blocks := by
  induction blocks generalizing done previous with
  | nil => exact (List.append_nil _).symm
  | cons b blocks ih =>
    have alone : encrypt c previous (b :: blocks) = encryptAfter c [c.forward (previous.xor b)]
      (c.forward (previous.xor b)) blocks := rfl
    rw [encryptAfter, alone, ih, ih]
    simp

theorem encrypt_cons (iv b : Block) (blocks : List Block) :
    encrypt c iv (b :: blocks) =
      c.forward (iv.xor b) :: encrypt c (c.forward (iv.xor b)) blocks := by
  rw [encrypt, encryptAfter, encryptAfter_eq]
  rfl

theorem decrypt_cons (iv b : Block) (blocks : List Block) :
    decrypt c iv (b :: blocks) = iv.xor (c.backward b) :: decrypt c b blocks := rfl

/-- Each block is the encryption of the text's block with its predecessor added, so the
predecessor, which is known, takes itself off again. -/
theorem decrypt_encrypt (inverts : c.Inverts) (iv : Block) (blocks : List Block) :
    decrypt c iv (encrypt c iv blocks) = blocks := by
  induction blocks generalizing iv with
  | nil => rfl
  | cons b blocks ih => rw [encrypt_cons, decrypt_cons, inverts, Block.xor_xor, ih]

@[simp] theorem length_encrypt (iv : Block) (blocks : List Block) :
    (encrypt c iv blocks).length = blocks.length := by
  induction blocks generalizing iv with
  | nil => rfl
  | cons b blocks ih => rw [encrypt_cons, List.length_cons, ih, List.length_cons]

end Chain

namespace Padding

theorem missing_bounds (length : Nat) : 1 ≤ missing length ∧ missing length ≤ 16 := by
  unfold missing
  omega

theorem length_add (bs : Bytes) : (add bs).length = bs.length + missing bs.length := by
  rw [add, List.length_append, List.length_replicate]

theorem whole_add (bs : Bytes) : (add bs).length % 16 = 0 := by
  rw [length_add, missing]
  omega

theorem add_ne_nil (bs : Bytes) : add bs ≠ [] := by
  intro empty
  have length := congrArg List.length empty
  have := (missing_bounds bs.length).1
  rw [length_add, List.length_nil] at length
  omega

theorem remove?_add (bs : Bytes) : remove? (add bs) = some bs := by
  obtain ⟨low, high⟩ := missing_bounds bs.length
  have small : (UInt8.ofNat (missing bs.length)).toNat = missing bs.length := by
    rw [UInt8.toNat_ofNat']
    omega
  obtain ⟨count, counted⟩ : ∃ n, missing bs.length = n + 1 := ⟨missing bs.length - 1, by omega⟩
  have last : (add bs).getLast? = some (UInt8.ofNat (missing bs.length)) := by
    rw [add, counted, List.replicate_succ', ← List.append_assoc, List.getLast?_concat]
  have start : (add bs).length - missing bs.length = bs.length := by
    rw [length_add]
    omega
  have front : (add bs).take bs.length = bs := List.take_left
  have back : (add bs).drop bs.length =
      List.replicate (missing bs.length) (UInt8.ofNat (missing bs.length)) := List.drop_left
  simp only [remove?, last, small, start, front, back]
  exact if_pos ⟨low, high, trivial⟩

/-- Of the strings of whole blocks, only those that were padded have a padding to remove. -/
theorem remove?_iff {whole text : Bytes} (aligned : whole.length % 16 = 0) :
    remove? whole = some text ↔ whole = add text := by
  constructor
  · intro removed
    unfold remove? at removed
    split at removed
    · cases removed
    · rename_i last _
      dsimp only at removed
      split at removed
      · rename_i counted
        obtain ⟨low, high, tail⟩ := counted
        obtain rfl := Option.some.inj removed
        have enough : last.toNat ≤ whole.length := by
          have length := congrArg List.length tail
          rw [List.length_drop, List.length_replicate] at length
          omega
        have count : missing (whole.take (whole.length - last.toNat)).length = last.toNat := by
          rw [List.length_take, missing]
          omega
        rw [add, count, UInt8.ofNat_toNat, ← tail, List.take_append_drop]
      · cases removed
  · rintro rfl
    exact remove?_add text

end Padding

end KeyService
