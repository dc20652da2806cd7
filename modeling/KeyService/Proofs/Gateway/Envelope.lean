import KeyService.Gateway.Client
import KeyService.Proofs.Json.Object

/-! What a gateway answers is understood by the one who called it.
Both sides use one form for all answers. Success has a code of its own, which no failure
has, so neither is taken for the other. -/
namespace KeyService

variable {α : Type} {c : Json.Codec α}

namespace Envelope

theorem parse_filled (lossless : c.Lossless) (code msg : String) (a : α) :
    (codec c).parse (Bytes.ofText ((codec c).print ⟨code, msg, some a⟩)) = .ok ⟨code, msg, some a⟩ := by
  have reads : Json.Reads (codec c).shape .compact ((codec c).write ⟨code, msg, some a⟩)
      ((codec c).write ⟨code, msg, some a⟩) := by
    refine Json.reads_record ?_ (by simp [Json.optionalMember]) rfl
    intro m member
    simp only [Json.optionalMember, Option.map, List.cons_append, List.nil_append,
      List.mem_cons, List.not_mem_nil, or_false] at member
    rcases member with rfl | rfl | rfl
    · exact ⟨_, rfl, Json.reads_text _ _⟩
    · exact ⟨_, rfl, Json.reads_text _ _⟩
    · exact ⟨_, rfl, Json.reads_optional (lossless.shows a) (lossless.reads a)⟩
  refine (codec c).parse_written reads ?_
  simp only [codec, Json.optionalMember, Option.map, List.cons_append, List.nil_append,
    lossless.makes_some]
  rfl

theorem parse_success (lossless : c.Lossless) (a : α) :
    (codec c).parse (Bytes.ofText ((codec c).print (success a))) = .ok (success a) :=
  parse_filled lossless _ _ a

theorem parse_empty (c : Json.Codec α) (code msg : String) :
    (codec c).parse (Bytes.ofText ((codec c).print ⟨code, msg, none⟩)) = .ok ⟨code, msg, none⟩ := by
  have reads : Json.Reads (codec c).shape .compact ((codec c).write ⟨code, msg, none⟩)
      (.object [("code", .text code), ("msg", .text msg), ("data", .null)]) := by
    refine Json.reads_record ?_ (by simp [Json.optionalMember]) rfl
    intro m member
    simp only [Json.optionalMember, Option.map, List.append_nil, List.mem_cons,
      List.not_mem_nil, or_false] at member
    rcases member with rfl | rfl
    · exact ⟨_, rfl, Json.reads_text _ _⟩
    · exact ⟨_, rfl, Json.reads_text _ _⟩
  exact (codec c).parse_written reads rfl

theorem parse_failure (c : Json.Codec α) (code msg : String) :
    (codec c).parse (Bytes.ofText ((codec Json.Codec.text).print (failure code msg))) =
      .ok (failure code msg) := by
  have same : (codec Json.Codec.text).write (failure code msg) =
      (codec c).write ⟨code, msg, none⟩ := rfl
  rw [Json.Codec.print, same]
  exact parse_empty c code msg

end Envelope

theorem ServiceError.code_ne_success (e : ServiceError) : e.code ≠ Envelope.successCode := by
  cases e <;> simp [code, Envelope.successCode]

theorem ServiceError.status_ne_ok (e : ServiceError) : e.status ≠ 200 := by
  cases e <;> simp [status]

namespace Gateway

theorem body_success (c : Json.Codec α) (a : α) :
    (success c a).body = Bytes.ofText ((Envelope.codec c).print (.success a)) := by
  simp only [success, envelope, Http.Response.ofText]

theorem body_failure (e : ServiceError) : (failure e).body =
    Bytes.ofText ((Envelope.codec Json.Codec.text).print (.failure e.code e.message)) := by
  simp only [failure, refusal, envelope, Http.Response.ofText]

theorem body_withHeader (r : Http.Response) (name value : String) :
    (r.withHeader name value).body = r.body := rfl

theorem parse_body_success (lossless : c.Lossless) (a : α) :
    (Envelope.codec c).parse (success c a).body = .ok (.success a) := by
  rw [body_success]
  exact Envelope.parse_success lossless a

theorem parse_body_failure (c : Json.Codec α) (e : ServiceError) :
    (Envelope.codec c).parse (failure e).body = .ok (.failure e.code e.message) := by
  rw [body_failure]
  exact Envelope.parse_failure c _ _

end Gateway

namespace Client

theorem readEnvelope_answer (lossless : c.Lossless) (x : Except Failure α) :
    readEnvelope c (Gateway.answer c x) =
      x.mapError fun e => .rejected e.service.code e.service.message := by
  cases x with
  | ok a =>
    simp only [readEnvelope, Gateway.answer, Gateway.parse_body_success lossless a]
    rfl
  | error e =>
    have failed : (Envelope.failure (α := α) e.service.code e.service.message).isSuccess = false :=
      decide_eq_false e.service.code_ne_success
    simp only [readEnvelope, Gateway.answer, Gateway.parse_body_failure c e.service, failed]
    rfl

end Client

end KeyService
