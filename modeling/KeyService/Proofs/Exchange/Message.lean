import KeyService.Exchange.Message
import KeyService.Proofs.Json.Number

/-! The two messages of a key exchange are read as they were written. -/
namespace KeyService.Exchange

open Json (Layout Reads)

variable (layout : Layout)

theorem reads_word16 (n : UInt16) : Reads word16 layout (.number n.toNat) (.number n.toNat) := by
  have below := n.toNat_lt
  exact Json.reads_integer layout (by omega) (by omega) (by decide) (by decide)

theorem reads_signed64 (n : Int64) : Reads signed64 layout (.number n.toInt) (.number n.toInt) :=
  Json.reads_integer layout (Int64.minValue_le_toInt n) (Int64.toInt_le n) (by decide) (by decide)

namespace Response

theorem reads_shape (r : Response) :
    Reads codec.shape layout (codec.write r) (codec.write r) := by
  refine Json.reads_record ?_ (by simp) rfl
  intro m member
  simp only [List.mem_cons, List.not_mem_nil, or_false] at member
  rcases member with rfl | rfl | rfl | rfl | rfl | rfl
  · exact ⟨_, rfl, Json.reads_text _ _⟩
  · exact ⟨_, rfl, Json.reads_text _ _⟩
  · exact ⟨_, rfl, reads_signed64 _ _⟩
  · exact ⟨_, rfl, reads_word16 _ _⟩
  · exact ⟨_, rfl, Json.reads_text _ _⟩
  · exact ⟨_, rfl, Json.reads_text _ _⟩

theorem codec_lossless : codec.Lossless where
  shows _ := Json.shows_object _ _ _
  reads := reads_shape .compact
  makes _ := by simp [codec]

end Response

namespace Request

/-- What is read for a request: an id that was left out is null. -/
def read (r : Request) : Json :=
  .object [("publicKey", .text r.publicKey),
    ("keyExchangeAlgorithm", .text r.keyExchangeAlgorithm), ("keyLength", .number r.keyLength.toNat),
    ("algorithm", .text r.algorithm), ("token", .text r.token),
    ("timestamp", .number r.timestamp.toInt), ("keyPairId", (r.keyPairId.map .text).getD .null)]

theorem reads_shape (r : Request) : Reads codec.shape layout (codec.write r) r.read := by
  obtain ⟨publicKey, kind, keyLength, algorithm, token, timestamp, id⟩ := r
  refine Json.reads_record (fun m member => ?_) ?_ ?_
  · rcases List.mem_append.mp member with always | present
    · simp only [List.mem_cons, List.not_mem_nil, or_false] at always
      rcases always with rfl | rfl | rfl | rfl | rfl | rfl
      · exact ⟨_, rfl, Json.reads_text _ _⟩
      · exact ⟨_, rfl, Json.reads_text _ _⟩
      · exact ⟨_, rfl, reads_word16 _ _⟩
      · exact ⟨_, rfl, Json.reads_text _ _⟩
      · exact ⟨_, rfl, Json.reads_text _ _⟩
      · exact ⟨_, rfl, reads_signed64 _ _⟩
    · cases id with
      | none => cases present
      | some id =>
        obtain rfl := List.mem_singleton.mp present
        exact ⟨_, rfl, Json.reads_optional (Json.shows_text _ _) (Json.reads_text _ _)⟩
  · cases id <;> simp [Json.optionalMember]
  · cases id <;> rfl

theorem make_read (r : Request) : codec.make? r.read = some r := by
  obtain ⟨publicKey, kind, keyLength, algorithm, token, timestamp, id⟩ := r
  cases id <;> simp [codec, read, pairId?]

theorem read_print (r : Request) : codec.read (Bytes.ofText (codec.print r)) = .ok (r, []) :=
  codec.read_written (reads_shape .compact r) (make_read r)

end Request

end KeyService.Exchange
