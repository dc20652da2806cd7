import KeyService.Json.Codec

/-! The stored key material of one scheme for one application.
The data key is wrapped under a root key that is stretched from the application's
secret, so a record is worth nothing without the secret. -/
namespace KeyService.LocalText

structure Record where
  appId : String
  markHeader : String
  rootKeySalt : String
  encryptedDataKey : String
  /-- The scheme's initialisation vector in base64, empty if it draws one a message. -/
  iv : String
  createdAt : String
  deriving DecidableEq, Repr

namespace Record

open Json.Reader (text)

def codec : Json.Codec Record where
  write r := .object [("appId", .text r.appId), ("markHeader", .text r.markHeader),
    ("rootKeySalt", .text r.rootKeySalt), ("encryptedDataKey", .text r.encryptedDataKey),
    ("iv", .text r.iv), ("createdAt", .text r.createdAt)]
  shape := Json.Reader.record [.required "appId" text, .required "markHeader" text,
    .required "rootKeySalt" text, .required "encryptedDataKey" text, .required "iv" text,
    .required "createdAt" text]
  make?
    | .object [(_, .text appId), (_, .text markHeader), (_, .text salt), (_, .text wrapped),
        (_, .text iv), (_, .text createdAt)] =>
      some ⟨appId, markHeader, salt, wrapped, iv, createdAt⟩
    | _ => none

end Record

end KeyService.LocalText
