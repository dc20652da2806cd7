import KeyService.Block.GcmSiv
import KeyService.Proofs.Block.Row

/-! What was sealed opens, and nothing else does.
The key stream depends on the tag and on the length of the text alone, and both can be
read off the sealed string; the tag is computed anew from the text that comes out. -/
namespace KeyService.GcmSiv

variable (k : Keys) (start : Block)

theorem length_stream (length : Nat) :
    (stream k start length).length = 16 * ((length + 15) / 16) := by
  simp only [stream, List.length_flatMap, Block.length_bytes, List.map_const', List.length_range,
    List.sum_replicate_nat]
  omega

theorem length_mask (text : Bytes) : (mask k start text).length = text.length := by
  rw [mask, Bytes.xor, List.length_zipWith, length_stream]
  omega

theorem mask_mask (text : Bytes) : mask k start (mask k start text) = text := by
  have long : text.length ≤ (stream k start text.length).length := by
    rw [length_stream]
    omega
  have same : (mask k start text).length = text.length := length_mask k start text
  rw [mask, same]
  exact Bytes.xor_xor long

theorem length_sealed (text : Bytes) : (sealed k text).length = text.length + 16 := by
  rw [sealed, List.length_append, length_mask, (tag k text).length_bytes]

theorem open?_sealed (text : Bytes) : open? k (sealed k text) = some text := by
  have place : (sealed k text).length - 16 = (mask k (tag k text) text).length := by
    rw [length_sealed, length_mask]
    omega
  have front : (sealed k text).take (mask k (tag k text) text).length = mask k (tag k text) text :=
    List.take_left
  have back : (sealed k text).drop (mask k (tag k text) text).length = (tag k text).bytes :=
    List.drop_left
  simp only [open?, place, front, back, Block.length_bytes, dif_pos, mask_mask, if_true]

theorem open?_iff {whole text : Bytes} : open? k whole = some text ↔ whole = sealed k text := by
  constructor
  · intro opened
    unfold open? at opened
    dsimp only at opened
    split at opened
    · split at opened
      · rename_i same
        obtain rfl := Option.some.inj opened
        rw [sealed, same, mask_mask, List.take_append_drop]
      · cases opened
    · cases opened
  · rintro rfl
    exact open?_sealed k text

end KeyService.GcmSiv
