import KeyService.LocalText.Keys
import KeyService.Text.Blank

/-! Schemes: the ways in which a text is encrypted at rest.
Every ciphertext of a scheme starts with the scheme's header, by which it is told
apart. The first scheme gives equal ciphertexts for equal texts, so an encrypted
column can be searched; the second one draws a nonce for every text. -/
namespace KeyService.LocalText

structure Scheme where
  header : String
  /-- The lowest of several schemes is the one that encrypts. -/
  order : Int
  keyLength : Nat
  ivLength : Nat
  encrypt : Keys → String → Act String
  decrypt : Keys → String → Except Error String

namespace Scheme

def supports (s : Scheme) (whole : String) : Bool := Text.startsWith whole s.header

def body (header whole : String) : Except Error String :=
  match Text.after? whole header with
  | some rest => .ok rest
  | none => .error .headerNotMatch

def part (encoded : String) : Except Error Bytes :=
  match Base64.urlSafe.decode? encoded with
  | some bs => .ok bs
  | none => .error .malformed

def toText (bs : Bytes) : Except Error String :=
  match Bytes.text? bs with
  | some text => .ok text
  | none => .error .notUtf8

variable (S : Suite)

def searchable : Scheme where
  header := "v1."
  order := 0
  keyLength := 32
  ivLength := 16
  encrypt keys text := liftM (do
    let whole ← (Symmetric.Algorithm.aes256Cbc.encrypt S keys.dataKey keys.iv
      (Bytes.ofText text)).mapError .symmetric
    return "v1." ++ Base64.urlSafe.encode whole : Except Error String)
  decrypt keys whole := do
    let encrypted ← part (← body "v1." whole)
    let text ← (Symmetric.Algorithm.aes256Cbc.decrypt S keys.dataKey keys.iv encrypted).mapError
      .symmetric
    toText text

def randomised : Scheme where
  header := "v2."
  order := 10
  keyLength := 32
  ivLength := 0
  encrypt keys text := do
    let nonce ← Program.draw 12
    liftM (do
      let whole ← (Symmetric.Algorithm.aes256GcmSiv.encrypt S keys.dataKey nonce
        (Bytes.ofText text)).mapError .symmetric
      return "v2." ++ Base64.urlSafe.encode nonce ++ "." ++ Base64.urlSafe.encode whole
      : Except Error String)
  decrypt keys whole := do
    match Text.cut? '.' (← body "v2." whole) with
    | none => .error .malformed
    | some (first, second) =>
      let nonce ← part first
      if nonce.length ≠ 12 then .error .malformed
      else
        let encrypted ← part second
        let text ← (Symmetric.Algorithm.aes256GcmSiv.decrypt S keys.dataKey nonce
          encrypted).mapError .symmetric
        toText text

def standard : List Scheme := [searchable S, randomised S]

end Scheme

end KeyService.LocalText
