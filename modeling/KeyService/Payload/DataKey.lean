import KeyService.Bytes.Base64
import KeyService.Exchange.Session
import KeyService.Failure
import KeyService.Program
import KeyService.Symmetric.Cipher

/-! Payloads of a session, each under a data key of its own.
A data key travels wrapped in the session's key. It has the length of a key of AES,
which need not be the length of the session's key. Nothing is done for a session that
is over. -/
namespace KeyService.Payload

structure DataKey where
  bytes : Bytes
  size : Symmetric.KeySize
  length_bytes : bytes.length = size.bytes
  deriving DecidableEq

def sizeOf? (length : Nat) : Option Symmetric.KeySize :=
  if length = 16 then some .aes128
  else if length = 24 then some .aes192
  else if length = 32 then some .aes256
  else none

theorem bytes_of_sizeOf? {length : Nat} {size : Symmetric.KeySize}
    (found : sizeOf? length = some size) : length = size.bytes := by
  unfold sizeOf? at found
  split at found
  · obtain rfl := Option.some.inj found
    assumption
  · split at found
    · obtain rfl := Option.some.inj found
      assumption
    · split at found
      · obtain rfl := Option.some.inj found
        assumption
      · exact nomatch found

namespace DataKey

def describe (_ : DataKey) : String := "DataKey([REDACTED])"

def ofBytes (bs : Bytes) : Except Failure DataKey :=
  match found : sizeOf? bs.length with
  | some size => .ok ⟨bs, size, bytes_of_sizeOf? found⟩
  | none => .error (.payload .badDataKey)

def draw (bits : UInt16) : ExceptT Failure Program DataKey := do
  let size ← liftM ((Symmetric.KeySize.ofBits bits).mapError Failure.symmetric)
  ExceptT.mk (.ask (.random size.bytes) fun bs => .done (.ok ⟨bs.val, size, bs.property⟩))

end DataKey

def algorithm (size : Symmetric.KeySize) : Symmetric.Algorithm := ⟨.cbc, .counted, size⟩

def checkLive (now : Int64) (s : Exchange.Session) : Except Failure Unit :=
  if s.isExpired now then .error (.exchange (.expired s.id)) else .ok ()

def decode (text : String) : Except Failure Bytes :=
  match Base64.standard.decode? (Text.trim text) with
  | some bs => .ok bs
  | none => .error (.payload .malformed)

variable (S : Suite)

def sessionCipher (s : Exchange.Session) : Except Failure Symmetric.Algorithm := do
  return algorithm (← (Symmetric.KeySize.ofBits s.keyLength).mapError Failure.symmetric)

def wrap (now : Int64) (s : Exchange.Session) (key : DataKey) : Except Failure String := do
  checkLive now s
  let cipher ← sessionCipher s
  return Base64.standard.encode (← (cipher.encrypt S s.key s.iv key.bytes).mapError Failure.symmetric)

def unwrap (now : Int64) (s : Exchange.Session) (text : String) : Except Failure DataKey := do
  checkLive now s
  let cipher ← sessionCipher s
  let wrapped ← decode text
  DataKey.ofBytes (← (cipher.decrypt S s.key s.iv wrapped).mapError Failure.symmetric)

def encrypt (now : Int64) (s : Exchange.Session) (key : DataKey) (text : Bytes) :
    Except Failure String := do
  checkLive now s
  let whole ← ((algorithm key.size).encrypt S key.bytes s.iv text).mapError Failure.symmetric
  return Base64.standard.encode whole

def decrypt (now : Int64) (s : Exchange.Session) (key : DataKey) (payload : String) :
    Except Failure Bytes := do
  checkLive now s
  let whole ← decode payload
  ((algorithm key.size).decrypt S key.bytes s.iv whole).mapError Failure.symmetric

end KeyService.Payload
