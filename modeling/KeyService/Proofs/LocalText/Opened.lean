import KeyService.Proofs.LocalText.Fleet
import KeyService.Proofs.LocalText.Loaded
import KeyService.Proofs.Symmetric.Refusal
import KeyService.Proofs.Text.Blank
import KeyService.Proofs.Text.Visible

/-! Ciphertexts that a cipher opens by itself.
A cipher that has encrypted a text has the keys of its first scheme from then on. So it decrypts the
text whatever else it is used for, and asks nobody about it. The ciphertext is longer than the text,
and nothing is trimmed from it. -/
namespace KeyService.LocalText

variable {S : Suite} {text whole : String} {events : List Event}

namespace Scheme

variable {keys : Keys}

/-- How long the ciphertext of a text of some bytes is: a header, and whole blocks in base64. -/
def searchableLength (n : Nat) : Nat := 3 + (4 * (16 * (n / 16 + 1)) + 2) / 3

theorem length_searchable
    (encrypted : ((searchable S).encrypt keys text).run.Gives events (.ok whole)) :
    (Bytes.ofText whole).length = searchableLength (Bytes.ofText text).length := by
  obtain ⟨-, blocks, done, rfl⟩ := gives_searchable.mp encrypted
  have header : (Bytes.ofText "v1.").length = 3 := rfl
  have known : Base64.urlSafe ∈ [Base64.standard, Base64.urlSafe] := .tail _ List.mem_cons_self
  rw [Bytes.ofText_append, List.length_append, header, Text.length_encode known,
    Symmetric.Algorithm.length_chained done]
  rfl

theorem trim_searchable
    (encrypted : ((searchable S).encrypt keys text).run.Gives events (.ok whole)) :
    Text.trim whole = whole := by
  obtain ⟨-, blocks, -, rfl⟩ := gives_searchable.mp encrypted
  have header : "v1.".toList.all (fun c => !Text.isBlank c) = true := by decide
  refine Text.trim_eq_self fun c member => ?_
  rw [String.toList_append] at member
  rcases List.mem_append.mp member with first | rest
  · simpa using List.all_eq_true.mp header c first
  · exact (Base64.Form.plain_encode rest).1

end Scheme

namespace Cipher

variable {cipher cipher' : Cipher}

/-- The first scheme has keys with which it decrypts a ciphertext to a text. -/
def Opens (cipher : Cipher) (whole text : String) : Prop :=
  ∃ slot others keys, cipher.slots = slot :: others ∧ slot.keys = some keys ∧
    slot.scheme.supports whole = true ∧ slot.scheme.decrypt keys whole = .ok text

theorem Opens.later (opens : cipher.Opens whole text) (stays : cipher.Stays cipher') :
    cipher'.Opens whole text := by
  obtain ⟨slot, others, keys, slots, loaded, supported, decrypted⟩ := opens
  have stay := stays.slots
  rw [slots] at stay
  obtain ⟨slot', others', first, -, slots'⟩ := List.forall₂_cons_left_iff.mp stay
  refine ⟨slot', others', keys, slots', first.keys keys loaded, ?_, ?_⟩
  · rw [first.scheme]
    exact supported
  · rw [first.scheme]
    exact decrypted

theorem decrypt_of_opens (opens : cipher.Opens whole text) :
    cipher.decrypt S whole = pure (.ok text, cipher) := by
  obtain ⟨slot, others, keys, slots, loaded, supported, decrypted⟩ := opens
  have unlocked : unlock S cipher.appId cipher.secret slot = pure (.ok keys, slot) := by
    simp only [unlock, loaded]
  have opened : decryptIn S cipher.appId cipher.secret whole cipher.slots =
      pure (.ok text, cipher.slots) := by
    rw [slots, decryptIn, if_pos supported, unlocked, pure_bind]
    exact congrArg (fun answer => pure (answer, slot :: others)) decrypted
  rw [decrypt, opened, pure_bind]

theorem opens_of_encrypt (inverts : S.AesInverts) (searchable : cipher.Searchable S)
    (given : (cipher.encrypt S text).Gives events (.ok whole, cipher')) :
    cipher'.Opens whole text := by
  obtain ⟨slot, others, keys, slots, scheme, loaded, encrypted⟩ :=
    searchable_of_encrypt searchable given
  obtain ⟨supported, decrypted⟩ := Scheme.searchable_decrypts inverts encrypted
  exact ⟨slot, others, keys, slots, loaded, scheme ▸ supported, scheme ▸ decrypted⟩

end Cipher

end KeyService.LocalText
