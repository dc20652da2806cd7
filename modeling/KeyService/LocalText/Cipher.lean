import KeyService.LocalText.Scheme
import KeyService.Text.Quoted

/-! Text encryption for one application.
A cipher holds the application's schemes in their order. The first one encrypts;
what is decrypted goes to the first one that knows its header. The keys of a scheme
are loaded when they are first needed, from the stored record or with a new one, and
stay as they are from then on. A failure leaves the scheme as it was. -/
namespace KeyService.LocalText

structure Slot where
  scheme : Scheme
  keys : Option Keys

structure Cipher where
  appId : String
  secret : Bytes
  slots : List Slot

namespace Cipher

/-- A cipher over given schemes; of two with the same order the first one given comes first. -/
def ofSchemes (appId : String) (secret : Bytes) (schemes : List Scheme) : Cipher where
  appId := appId
  secret := secret
  slots := (schemes.mergeSort fun a b => a.order ≤ b.order).map fun scheme => ⟨scheme, none⟩

def headers (c : Cipher) : List String := c.slots.map fun slot => slot.scheme.header

def isReady (c : Cipher) : Bool := c.slots.all fun slot => slot.keys.isSome

def describe (c : Cipher) : String :=
  "LocalTextCipher \x7b app_id: " ++ Text.quoted c.appId ++ ", schemes: ["
    ++ String.intercalate ", " (c.headers.map Text.quoted) ++ "], .. \x7d"

variable (S : Suite)

/-- The keys in the stored record of a scheme, or in a new one. If somebody else has stored one
meanwhile, theirs counts. -/
def load (appId : String) (secret : Bytes) (scheme : Scheme) : Act Keys := do
  let record ← match ← ExceptT.mk (Program.getRecord appId scheme.header) with
    | some record => pure record
    | none =>
      let created ← Record.create S appId scheme.header secret scheme.keyLength scheme.ivLength
      ExceptT.mk (Program.setRecord created)
  liftM (record.unwrap S secret)

def unlock (appId : String) (secret : Bytes) (slot : Slot) : Program (Except Error Keys × Slot) := do
  match slot.keys with
  | some keys => return (.ok keys, slot)
  | none =>
    match ← (load S appId secret slot.scheme).run with
    | .ok keys => return (.ok keys, { slot with keys := some keys })
    | .error e => return (.error e, slot)

def encrypt (c : Cipher) (text : String) : Program (Except Error String × Cipher) := do
  match c.slots with
  | [] => return (.error .noScheme, c)
  | slot :: others =>
    let (keys, slot) ← unlock S c.appId c.secret slot
    let c := { c with slots := slot :: others }
    match keys with
    | .ok keys => return (← (slot.scheme.encrypt keys text).run, c)
    | .error e => return (.error e, c)

def decryptIn (appId : String) (secret : Bytes) (whole : String) :
    List Slot → Program (Except Error String × List Slot)
  | [] => return (.error .headerNotMatch, [])
  | slot :: others => do
    if slot.scheme.supports whole then
      let (keys, slot) ← unlock S appId secret slot
      return (keys.bind fun keys => slot.scheme.decrypt keys whole, slot :: others)
    else
      let (text, others) ← decryptIn appId secret whole others
      return (text, slot :: others)

def decrypt (c : Cipher) (whole : String) : Program (Except Error String × Cipher) := do
  let (text, slots) ← decryptIn S c.appId c.secret whole c.slots
  return (text, { c with slots })

def loadIn (appId : String) (secret : Bytes) :
    List Slot → Program (Except Error Unit × List Slot)
  | [] => return (.ok (), [])
  | slot :: others => do
    let (keys, slot) ← unlock S appId secret slot
    match keys with
    | .ok _ =>
      let (done, others) ← loadIn appId secret others
      return (done, slot :: others)
    | .error e => return (.error e, slot :: others)

def loadAll (c : Cipher) : Program (Except Error Unit × Cipher) := do
  let (done, slots) ← loadIn S c.appId c.secret c.slots
  return (done, { c with slots })

end Cipher

end KeyService.LocalText
