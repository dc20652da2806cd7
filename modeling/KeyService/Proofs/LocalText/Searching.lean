import KeyService.Proofs.LocalText.Fleet

/-! Encrypted columns that can be searched.
Ciphers that encrypt with the searchable scheme, for one application and with one secret, make equal
ciphertexts of equal texts and different ones of different texts, whenever they were started and
whatever else was done with the store in between. For all of them have the keys of the record that
came first, and with these keys the scheme can be undone. -/
namespace KeyService.LocalText

variable {S : Suite} {appId : String} {secret : Bytes}

/-- With the keys that a store has, texts and their ciphertexts determine each other. -/
theorem Contents.Writes.eq_iff (inverts : S.AesInverts) {c : Contents} {a b whole whole' : String}
    (first : c.Writes S appId secret a whole) (second : c.Writes S appId secret b whole') :
    whole' = whole ↔ b = a := by
  obtain ⟨keys, yields, encrypted⟩ := first
  obtain ⟨keys', yields', encrypted'⟩ := second
  obtain rfl := yields'.unique yields
  constructor
  · rintro rfl
    have decrypted := (Scheme.searchable_decrypts inverts encrypted).2
    have decrypted' := (Scheme.searchable_decrypts inverts encrypted').2
    exact Except.ok.inj (decrypted'.symm.trans decrypted)
  · rintro rfl
    rw [Program.leads_nil.mp encrypted] at encrypted'
    exact Except.ok.inj (Program.gives_done.mp encrypted').2.symm

namespace Fleet

variable {named : String × String → Prop} {σ ρ : Type} {B : Backend σ} {valid : σ → Prop}
  {w : (question : Question) → StateM ρ question.Answer} {c : Contents} {f : Fleet σ ρ}

/-- A cipher of an application, with a secret, that encrypts with the searchable scheme. It may have
any other schemes behind it. -/
def Searches (S : Suite) (f : Fleet σ ρ) (appId : String) (secret : Bytes) (i : Nat) : Prop :=
  ∃ cipher, f.ciphers[i]? = some cipher ∧ cipher.appId = appId ∧ cipher.secret = secret ∧
    cipher.Searchable S

/-- Once a text was encrypted for an application, every such cipher encrypts any text, and with the
same keys. -/
theorem Settled.searches (settled : f.Settled S B named valid c) {i : Nat}
    (searches : f.Searches S appId secret i) {text whole : String}
    (writes : c.Writes S appId secret text whole) (other : String) :
    ∃ whole', (f.perform S B w (.call i (.encrypt other))).1 = some (.ok (some whole')) ∧
      c.Writes S appId secret other whole' := by
  obtain ⟨cipher, there, rfl, rfl, searchable⟩ := searches
  have member := List.mem_of_getElem? there
  obtain ⟨events, answer, cipher', store, others, given, answers, done⟩ :=
    perform_call (B := B) (w := w) there (.encrypt other)
  obtain ⟨⟨_, _⟩, encrypting, same⟩ := Program.gives_bind_pure.mp given
  cases same
  obtain ⟨whole', rfl, writes'⟩ := Cipher.encrypt_of_writes searchable (settled.fits cipher member)
    (settled.settled cipher member) settled.shown writes encrypting answers
  rw [done]
  exact ⟨whole', rfl, writes'⟩

/-- After one such cipher has encrypted a text, whatever was done before, any such cipher encrypts
any text whatever was done since. It returns the ciphertext that the first one has returned if, and
only if, it was given the same text. -/
theorem ciphertexts_eq_iff (keeps : B.KeepsFirst named valid) (inverts : S.AesInverts)
    {before later : List Action} {i j : Nat} {a whole : String} (empty : f.ciphers = [])
    (inside : valid f.store) (shown : B.Shows named f.store c)
    (usable : ∀ action ∈ before ++ .call i (.encrypt a) :: later, action.Usable named)
    (first : (f.after S B w before).Searches S appId secret i)
    (encrypted : ((f.after S B w before).perform S B w (.call i (.encrypt a))).1 =
      some (.ok (some whole)))
    (second : (f.after S B w (before ++ .call i (.encrypt a) :: later)).Searches S appId secret j)
    (b : String) :
    ∃ whole', ((f.after S B w (before ++ .call i (.encrypt a) :: later)).perform S B w
      (.call j (.encrypt b))).1 = some (.ok (some whole')) ∧ (whole' = whole ↔ b = a) := by
  obtain ⟨usableBefore, usableLater⟩ := List.forall_mem_append.mp usable
  have begun : f.Settled S B named valid c := settled_of_empty empty inside shown
  obtain ⟨c₁, -, settled₁⟩ := begun.after (w := w) keeps usableBefore
  obtain ⟨cipher, there, rfl, rfl, searchable⟩ := first
  obtain ⟨_, c₂, -, -, writes, settled₂⟩ := settled₁.encrypted keeps there searchable encrypted
  obtain ⟨c₃, grows, settled₃⟩ := settled₂.after (w := w) keeps
    (List.forall_mem_cons.mp usableLater).2
  rw [after_append] at second ⊢
  have kept := writes.later grows
  obtain ⟨whole', told, writes'⟩ := settled₃.searches (w := w) second kept b
  exact ⟨whole', told, kept.eq_iff inverts writes'⟩

/-- A cipher that was started later finds a text again by its ciphertext, and does not take for it
one that ends with what looks like padding. -/
theorem ciphertexts_eq_iff_small : ∃ whole,
    let f : Fleet (Table (String × String) Record) (Exchange.Host (Table String KeyPair)) :=
      ⟨[], .empty, ⟨0, .empty, .empty⟩⟩
    let w := Exchange.Host.answer KeyPair.Backend.memory Exchange.Small.chance
    let start : Action := .start "app" [1, 2] (Scheme.standard Suite.small)
    let encrypt : Action := .call 0 (.encrypt "text")
    let later := f.after Suite.small .memory w [start, encrypt, start]
    ((f.after Suite.small .memory w [start]).perform Suite.small .memory w encrypt).1 =
        some (.ok (some whole)) ∧
      (later.perform Suite.small .memory w (.call 1 (.encrypt "text"))).1 =
        some (.ok (some whole)) ∧
      ∃ whole', (later.perform Suite.small .memory w (.call 1 (.encrypt "text\x01"))).1 =
        some (.ok (some whole')) ∧ whole' ≠ whole := by
  let f : Fleet (Table (String × String) Record) (Exchange.Host (Table String KeyPair)) :=
    ⟨[], .empty, ⟨0, .empty, .empty⟩⟩
  let w := Exchange.Host.answer KeyPair.Backend.memory Exchange.Small.chance
  let start : Action := .start "app" [1, 2] (Scheme.standard Suite.small)
  let encrypt : Action := .call 0 (.encrypt "text")
  let cipher : Cipher := .ofSchemes "app" [1, 2] (Scheme.standard Suite.small)
  have usable : start.Usable fun _ => True := Scheme.fits_standard fun _ _ => trivial
  have searchable : cipher.Searchable Suite.small :=
    Cipher.Standard.searchable ((Cipher.schemes_ofSchemes _ _ _).trans
      (List.mergeSort_of_pairwise
        (by simp [Scheme.standard, Scheme.searchable, Scheme.randomised])))
  obtain ⟨events, whole, _, _, given, answers⟩ := Cipher.encrypt_fresh (w := w) (c := fun _ => none)
    (s := (f.store, f.others)) Backend.memory_keepsFirst searchable (fits_ofSchemes usable)
    (Cipher.locked_ofSchemes _ _ _) trivial (fun _ _ => rfl) rfl "text"
  have told := told_of_encrypt (f := f.after Suite.small .memory w [start]) (i := 0) rfl given answers
  have all : ∀ a ∈ [start] ++ encrypt :: [start], a.Usable fun _ => True := by
    intro a member
    simp only [List.cons_append, List.nil_append, List.mem_cons, List.not_mem_nil, or_false] at member
    rcases member with rfl | rfl | rfl
    · exact usable
    · trivial
    · exact usable
  have again := ciphertexts_eq_iff (f := f) (c := fun _ => none) (i := 0) (j := 1)
    Backend.memory_keepsFirst (fun _ _ _ _ => rfl) rfl trivial (fun _ _ => rfl) all
    ⟨cipher, rfl, rfl, rfl, searchable⟩ told ⟨cipher, rfl, rfl, rfl, searchable⟩
  obtain ⟨same, found, equal⟩ := again "text"
  obtain rfl := equal.mpr rfl
  obtain ⟨whole', other, different⟩ := again "text\x01"
  exact ⟨same, told, found, whole', other, fun equal => absurd (different.mp equal) (by decide)⟩

end Fleet

end KeyService.LocalText
