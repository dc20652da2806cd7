import KeyService.Bytes
import KeyService.Exchange.Error
import KeyService.Store.Table
import KeyService.Text.Quoted

/-! Sessions: what two parties agreed on, and until when it holds. -/
namespace KeyService.Exchange

structure Session where
  peer : String
  id : String
  key : Bytes
  iv : Bytes
  keyLength : UInt16
  /-- The last moment of the session, in milliseconds since the epoch. -/
  expireTime : Int64
  deriving DecidableEq

namespace Session

def isExpired (s : Session) (now : Int64) : Bool := s.expireTime < now

def describe (s : Session) : String :=
  "KeyExchangeResult \x7b x_session_id: " ++ Text.quoted s.id ++ ", key_length: "
    ++ toString s.keyLength.toNat ++ ", expire_time: " ++ toString s.expireTime.toInt
    ++ ", local_key: \"[REDACTED]\", local_iv: \"[REDACTED]\", .. \x7d"

end Session

abbrev SessionStore := Table String Session

namespace SessionStore

/-- Keep a session, in place of one with its id, and forget those that are over. -/
def keep (t : SessionStore) (now : Int64) (s : Session) : SessionStore :=
  (t.filter fun _ other => !other.isExpired now).insert s.id s

def get (t : SessionStore) (now : Int64) (id : String) : Except Error Session :=
  match t.find? id with
  | none => .error (.unknownSession id)
  | some s => if s.isExpired now then .error (.expired id) else .ok s

end SessionStore

end KeyService.Exchange
