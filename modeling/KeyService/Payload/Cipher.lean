import KeyService.Payload.DataKey

/-! Ciphers for payloads.
A cipher belongs to one session and one data key, and goes one way only. To use it
the other way is a mistake of the caller, not a failure of the payload. -/
namespace KeyService.Payload

inductive Direction where
  | encrypt
  | decrypt
  deriving DecidableEq

def Direction.name : Direction → String
  | encrypt => "Encrypt"
  | decrypt => "Decrypt"

structure Cipher where
  session : Exchange.Session
  dataKey : DataKey
  direction : Direction
  deriving DecidableEq

inductive Refusal where
  | wrongWay (direction : Direction)
  | failed (cause : Failure)
  deriving DecidableEq

def Refusal.message : Refusal → String
  | wrongWay .encrypt => "transport cipher is encrypt-only"
  | wrongWay .decrypt => "transport cipher is decrypt-only"
  | failed cause => cause.message

namespace Cipher

def describe (c : Cipher) : String :=
  "TransportCipher \x7b result: " ++ c.session.describe ++ ", data_key: " ++ c.dataKey.describe
    ++ ", direction: " ++ c.direction.name ++ " \x7d"

variable (S : Suite)

def encrypt (c : Cipher) (now : Int64) (text : Bytes) : Except Refusal String :=
  match c.direction with
  | .decrypt => .error (.wrongWay .decrypt)
  | .encrypt => (Payload.encrypt S now c.session c.dataKey text).mapError .failed

def decrypt (c : Cipher) (now : Int64) (payload : String) : Except Refusal Bytes :=
  match c.direction with
  | .encrypt => .error (.wrongWay .encrypt)
  | .decrypt => (Payload.decrypt S now c.session c.dataKey payload).mapError .failed

end Cipher

end KeyService.Payload
