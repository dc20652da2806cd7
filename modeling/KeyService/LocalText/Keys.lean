import KeyService.Bytes.Base64
import KeyService.Digest.Hmac
import KeyService.Program
import KeyService.Symmetric.Cipher
import KeyService.Text.DateTime

/-! The keys of a scheme and the record that keeps them.
A record is made with fresh keys, and gives them back to whoever knows the
application's secret. -/
namespace KeyService.LocalText

abbrev Act := ExceptT Error Program

structure Keys where
  dataKey : Bytes
  iv : Bytes
  deriving DecidableEq

def Keys.describe (_ : Keys) : String := "SchemeKeys([REDACTED])"

def rounds : Nat := 10000

def rootKey (secret salt : Bytes) : Bytes := Pbkdf2.derive secret salt rounds 32

variable (S : Suite)

def Record.wrap (appId header : String) (secret salt nonce : Bytes) (keys : Keys)
    (createdAt : String) : Except Error Record := do
  let wrapped ← (Symmetric.Algorithm.aes256GcmSiv.encrypt S (rootKey secret salt) nonce
    keys.dataKey).mapError .symmetric
  return { appId, markHeader := header, rootKeySalt := Base64.standard.encode salt,
           encryptedDataKey := Base64.standard.encode (nonce ++ wrapped),
           iv := Base64.standard.encode keys.iv, createdAt }

def Record.create (appId header : String) (secret : Bytes) (keyLength ivLength : Nat) :
    Act Record := do
  let salt ← Program.draw 16
  let dataKey ← Program.draw keyLength
  let nonce ← Program.draw 12
  let iv ← Program.draw ivLength
  let createdAt ← Program.time
  liftM (Record.wrap S appId header secret salt nonce ⟨dataKey, iv⟩
    (Text.dateTime createdAt.toInt))

/-- The keys of a record. The three encoded fields are looked at first, in their order; the wrapped
key is longer than its nonce. -/
def Record.unwrap (r : Record) (secret : Bytes) : Except Error Keys :=
  let broken (reason : String) : Except Error Keys :=
    .error (.record r.appId r.markHeader reason)
  match Base64.standard.decode? r.rootKeySalt with
  | none => broken "salt is not base64"
  | some salt =>
    match Base64.standard.decode? r.encryptedDataKey with
    | none => broken "data key is not base64"
    | some wrapped =>
      match Base64.standard.decode? r.iv with
      | none => broken "iv is not base64"
      | some iv =>
        if wrapped.length ≤ 12 then broken "data key is truncated"
        else
          match Symmetric.Algorithm.aes256GcmSiv.decrypt S (rootKey secret salt)
              (wrapped.take 12) (wrapped.drop 12) with
          | .ok dataKey => .ok ⟨dataKey, iv⟩
          | .error _ => broken "data key does not unwrap with the configured secret"

end KeyService.LocalText
