import KeyService.Json.Codec

/-! The envelope of every answer: a code, a message for people, and on success the
data. -/
namespace KeyService

structure Envelope (α : Type) where
  code : String
  msg : String
  data : Option α
  deriving DecidableEq

namespace Envelope

variable {α : Type}

def successCode : String := "0"

def success (data : α) : Envelope α := ⟨successCode, "success", some data⟩

def failure (code msg : String) : Envelope α := ⟨code, msg, none⟩

def isSuccess (e : Envelope α) : Bool := e.code = successCode

/-- The document of an envelope; data that are absent or null are no data. -/
def codec (c : Json.Codec α) : Json.Codec (Envelope α) where
  write e := .object ([("code", .text e.code), ("msg", .text e.msg)]
    ++ Json.optionalMember "data" (e.data.map c.write))
  shape := Json.Reader.record [.required "code" Json.Reader.text,
    .required "msg" Json.Reader.text, ⟨"data", Json.Reader.optional c.shape, true, false⟩]
  make?
    | .object [(_, .text code), (_, .text msg), (_, data)] => do
      let data ← (Json.Codec.optional c).make? data
      return ⟨code, msg, data⟩
    | _ => none

end Envelope

structure Health where
  status : String
  localCipherReady : Bool
  keyPairReady : Bool
  sessions : Nat
  deriving DecidableEq

def Health.codec : Json.Codec Health where
  write h := .object [("status", .text h.status), ("localCipherReady", .flag h.localCipherReady),
    ("keyPairReady", .flag h.keyPairReady), ("sessions", .number h.sessions)]
  shape := Json.Reader.record [.required "status" Json.Reader.text,
    .required "localCipherReady" Json.Reader.flag, .required "keyPairReady" Json.Reader.flag,
    .required "sessions" (Json.Reader.integer 0 (UInt64.size - 1))]
  make?
    | .object [(_, .text status), (_, .flag ready), (_, .flag pairReady), (_, .number sessions)] =>
      some ⟨status, ready, pairReady, sessions.toNat⟩
    | _ => none

end KeyService
