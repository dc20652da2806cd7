import KeyService.Proofs.Exchange.Message
import KeyService.Proofs.Gateway.Envelope
import KeyService.Proofs.KeyPair.Backend
import KeyService.Proofs.LocalText.Backend

/-! The documents of this service.
Two parties exchange some of them, and stores keep the others. Each is read back as it was
written, whatever texts and numbers it holds, so nothing is lost on the wire or in a file. -/
namespace KeyService.Json

variable {α : Type}

/-- Every value is read back from the text that is written for it. -/
def Codec.Recovers (c : Codec α) (write : α → String) : Prop :=
  ∀ a, c.parse (Bytes.ofText (write a)) = .ok a

theorem request_recovers :
    Exchange.Request.codec.Recovers Exchange.Request.codec.print := fun r =>
  Exchange.Request.codec.parse_written (r.reads_shape .compact) r.make_read

theorem Codec.Lossless.recovers {c : Codec α} (lossless : c.Lossless) :
    c.Recovers c.print := fun a =>
  c.parse_written (lossless.reads a) (lossless.makes a)

theorem record_recovers :
    LocalText.Record.codec.Recovers LocalText.Record.codec.print := fun r =>
  LocalText.Record.codec.parse_written (r.reads_shape .compact) rfl

theorem envelope_recovers {c : Codec α} (lossless : c.Lossless) :
    (Envelope.codec c).Recovers (Envelope.codec c).print := by
  rintro ⟨code, msg, data⟩
  cases data with
  | none => exact Envelope.parse_empty c code msg
  | some a => exact Envelope.parse_filled lossless code msg a

/-- Requests, answers, key pairs, records and envelopes are read back from what is written for
them; a record is so in either of its written forms. -/
theorem documents_recovered :
    Exchange.Request.codec.Recovers Exchange.Request.codec.print ∧
      Exchange.Response.codec.Recovers Exchange.Response.codec.print ∧
      KeyPair.codec.Recovers KeyPair.codec.print ∧
      LocalText.Record.codec.Recovers LocalText.Record.codec.print ∧
      LocalText.Record.codec.Recovers LocalText.Record.codec.pretty ∧
      (Envelope.codec Codec.text).Recovers (Envelope.codec Codec.text).print ∧
      (Envelope.codec Exchange.Response.codec).Recovers
        (Envelope.codec Exchange.Response.codec).print := by
  refine ⟨request_recovers, Exchange.Response.codec_lossless.recovers, KeyPair.parse_print,
    record_recovers, LocalText.parse_pretty, ?_, ?_⟩
  · exact envelope_recovers Codec.text_lossless
  · exact envelope_recovers Exchange.Response.codec_lossless

end KeyService.Json
