import KeyService.Proofs.LocalText.Load

/-! What the calls of a cipher do.
To encrypt, the first scheme needs its keys; to decrypt, the first that knows the header does. A call
asks for keys that are not there and then leaves the rest to the scheme, or it ends with the failure
and leaves the cipher as it was. All keys are loaded one after the other, up to the first failure. -/
namespace KeyService.LocalText

inductive Call where
  | encrypt (text : String)
  | decrypt (whole : String)
  | load

namespace Cipher

/-- The answer to a call, a text where there is one, and the cipher afterwards. -/
def call (S : Suite) (cipher : Cipher) :
    Call → Program (Except Error (Option String) × Cipher)
  | .encrypt text => do
    let (whole, cipher) ← cipher.encrypt S text
    return (whole.map some, cipher)
  | .decrypt whole => do
    let (text, cipher) ← cipher.decrypt S whole
    return (text.map some, cipher)
  | .load => do
    let (done, cipher) ← cipher.loadAll S
    return (done.map fun _ => none, cipher)

variable {S : Suite} {appId : String} {secret : Bytes} {events : List Event} {cipher cipher' : Cipher}

/-- The traces on which a cipher encrypts a text. -/
inductive Encrypts (S : Suite) (cipher : Cipher) (text : String) :
    List Event → Except Error String → Cipher → Prop where
  | empty : cipher.slots = [] → Encrypts S cipher text [] (.error .noScheme) cipher
  | worked {slot slot' : Slot} {others : List Slot} {before own : List Event} {keys : Keys}
      {answer : Except Error String} : cipher.slots = slot :: others →
      Unlocks S cipher.appId cipher.secret slot before (.ok keys) slot' →
      (slot.scheme.encrypt keys text).run.Gives own answer →
      Encrypts S cipher text (before ++ own) answer { cipher with slots := slot' :: others }
  | failed {slot : Slot} {others : List Slot} {events : List Event} {e : Error} :
      cipher.slots = slot :: others →
      Unlocks S cipher.appId cipher.secret slot events (.error e) slot →
      Encrypts S cipher text events (.error e) cipher

theorem encrypts_of_gives {text : String} {answer : Except Error String}
    (given : (cipher.encrypt S text).Gives events (answer, cipher')) :
    Encrypts S cipher text events answer cipher' := by
  unfold encrypt at given
  split at given
  · rename_i slots
    obtain ⟨rfl, same⟩ := Program.gives_pure.mp given
    cases same
    exact .empty slots
  · rename_i slot others slots
    obtain ⟨⟨keys, slot'⟩, before, own, rfl, unlocked, given⟩ := Program.gives_bind.mp given
    have unlocks := gives_unlock.mp unlocked
    cases keys with
    | ok keys =>
      obtain ⟨_, worked, same⟩ := Program.gives_bind_pure.mp given
      cases same
      rw [unlocks.scheme] at worked
      exact .worked slots unlocks worked
    | error e =>
      obtain ⟨rfl, same⟩ := Program.gives_pure.mp given
      cases same
      cases unlocks with
      | failed empty loading =>
        have unchanged : { cipher with slots := slot :: others } = cipher := by rw [← slots]
        rw [List.append_nil, unchanged]
        exact .failed slots (.failed empty loading)

theorem Encrypts.gives {text : String} {answer : Except Error String}
    (encrypts : Encrypts S cipher text events answer cipher') :
    (cipher.encrypt S text).Gives events (answer, cipher') := by
  unfold encrypt
  cases encrypts with
  | empty slots =>
    simp only [slots]
    exact Program.gives_pure.mpr ⟨rfl, rfl⟩
  | @worked slot slot' others before own keys _ slots unlocks worked =>
    simp only [slots]
    refine Program.gives_bind.mpr ⟨_, before, own, rfl, gives_unlock.mpr unlocks, ?_⟩
    rw [← unlocks.scheme] at worked
    exact Program.gives_bind_pure.mpr ⟨answer, worked, rfl⟩
  | @failed slot others _ e slots unlocks =>
    simp only [slots]
    have unchanged : { cipher with slots := slot :: others } = cipher := by rw [← slots]
    refine Program.gives_bind.mpr ⟨_, events, [], (List.append_nil _).symm,
      gives_unlock.mpr unlocks, ?_⟩
    exact Program.gives_pure.mpr ⟨rfl, congrArg _ unchanged⟩

theorem decryptIn_unknown {whole : String} {slots : List Slot}
    (unknown : ∀ slot ∈ slots, slot.scheme.supports whole = false) :
    decryptIn S appId secret whole slots = pure (.error .headerNotMatch, slots) := by
  induction slots with
  | nil => rfl
  | cons slot others ih =>
    obtain ⟨first, rest⟩ := List.forall_mem_cons.mp unknown
    rw [decryptIn, first, if_neg Bool.false_ne_true, ih rest, pure_bind]

theorem decryptIn_known {whole : String} {front back : List Slot} {slot : Slot}
    (unknown : ∀ other ∈ front, other.scheme.supports whole = false)
    (known : slot.scheme.supports whole = true) :
    decryptIn S appId secret whole (front ++ slot :: back) =
      (do
        let (keys, slot') ← unlock S appId secret slot
        return (keys.bind fun keys => slot'.scheme.decrypt keys whole, front ++ slot' :: back)) := by
  induction front with
  | nil => rw [List.nil_append, decryptIn, if_pos known]; rfl
  | cons other front ih =>
    obtain ⟨first, rest⟩ := List.forall_mem_cons.mp unknown
    rw [List.cons_append, decryptIn, first, if_neg Bool.false_ne_true, ih rest, bind_assoc]
    rfl

theorem decrypt_unknown {whole : String}
    (unknown : ∀ slot ∈ cipher.slots, slot.scheme.supports whole = false) :
    cipher.decrypt S whole = pure (.error .headerNotMatch, cipher) := by
  rw [decrypt, decryptIn_unknown unknown, pure_bind]

/-- A row of slots has a first one that knows the header, or none that does. -/
theorem known_or_unknown (whole : String) (slots : List Slot) :
    (∀ slot ∈ slots, slot.scheme.supports whole = false) ∨
      ∃ front slot back, slots = front ++ slot :: back ∧
        (∀ other ∈ front, other.scheme.supports whole = false) ∧
        slot.scheme.supports whole = true := by
  cases found : slots.find? fun slot => slot.scheme.supports whole with
  | none => exact .inl fun slot member => by simpa using List.find?_eq_none.mp found slot member
  | some slot =>
    obtain ⟨known, front, back, rfl, unknown⟩ := List.find?_eq_some_iff_append.mp found
    exact .inr ⟨front, slot, back, rfl, fun other member => by simpa using unknown other member,
      known⟩

/-- The traces on which a cipher decrypts a text. -/
inductive Decrypts (S : Suite) (cipher : Cipher) (whole : String) :
    List Event → Except Error String → Cipher → Prop where
  | unknown : (∀ slot ∈ cipher.slots, slot.scheme.supports whole = false) →
      Decrypts S cipher whole [] (.error .headerNotMatch) cipher
  | known {front back : List Slot} {slot slot' : Slot} {events : List Event}
      {keys : Except Error Keys} : cipher.slots = front ++ slot :: back →
      (∀ other ∈ front, other.scheme.supports whole = false) →
      slot.scheme.supports whole = true →
      Unlocks S cipher.appId cipher.secret slot events keys slot' →
      Decrypts S cipher whole events (keys.bind fun keys => slot.scheme.decrypt keys whole)
        { cipher with slots := front ++ slot' :: back }

/-- The first slot whose scheme knows the header is the one that decrypts. -/
theorem unlocks_of_known {whole : String} {front back : List Slot} {slot : Slot}
    {answer : Except Error String} (slots : cipher.slots = front ++ slot :: back)
    (unknown : ∀ other ∈ front, other.scheme.supports whole = false)
    (known : slot.scheme.supports whole = true)
    (given : (cipher.decrypt S whole).Gives events (answer, cipher')) :
    ∃ keys slot', Unlocks S cipher.appId cipher.secret slot events keys slot' ∧
      answer = (keys.bind fun keys => slot.scheme.decrypt keys whole) ∧
      cipher' = { cipher with slots := front ++ slot' :: back } := by
  rw [decrypt, slots, decryptIn_known unknown known] at given
  obtain ⟨⟨_, _⟩, decrypting, same⟩ := Program.gives_bind_pure.mp given
  cases same
  obtain ⟨⟨keys, slot'⟩, unlocked, same⟩ := Program.gives_bind_pure.mp decrypting
  cases same
  have unlocks := gives_unlock.mp unlocked
  exact ⟨keys, slot', unlocks, by rw [unlocks.scheme], rfl⟩

theorem decrypts_of_gives {whole : String} {answer : Except Error String}
    (given : (cipher.decrypt S whole).Gives events (answer, cipher')) :
    Decrypts S cipher whole events answer cipher' := by
  rcases known_or_unknown whole cipher.slots with unknown | ⟨front, slot, back, slots, unknown, known⟩
  · rw [decrypt_unknown unknown] at given
    obtain ⟨rfl, same⟩ := Program.gives_pure.mp given
    cases same
    exact .unknown unknown
  · obtain ⟨keys, slot', unlocks, rfl, rfl⟩ := unlocks_of_known slots unknown known given
    exact .known slots unknown known unlocks

theorem Decrypts.gives {whole : String} {answer : Except Error String}
    (decrypts : Decrypts S cipher whole events answer cipher') :
    (cipher.decrypt S whole).Gives events (answer, cipher') := by
  cases decrypts with
  | unknown unknown =>
    rw [decrypt_unknown unknown]
    exact Program.gives_pure.mpr ⟨rfl, rfl⟩
  | known slots unknown known unlocks =>
    rw [decrypt, slots, decryptIn_known unknown known]
    refine Program.gives_bind_pure.mpr ⟨_, Program.gives_bind_pure.mpr
      ⟨_, gives_unlock.mpr unlocks, rfl⟩, ?_⟩
    rw [unlocks.scheme]

/-- The traces on which the keys of a row of slots are loaded. -/
inductive LoadsIn (S : Suite) (appId : String) (secret : Bytes) :
    List Slot → List Event → Except Error Unit → List Slot → Prop where
  | done : LoadsIn S appId secret [] [] (.ok ()) []
  | loaded {slot slot' : Slot} {others others' : List Slot} {before after : List Event}
      {keys : Keys} {answer : Except Error Unit} :
      Unlocks S appId secret slot before (.ok keys) slot' →
      LoadsIn S appId secret others after answer others' →
      LoadsIn S appId secret (slot :: others) (before ++ after) answer (slot' :: others')
  | failed {slot : Slot} {others : List Slot} {events : List Event} {e : Error} :
      Unlocks S appId secret slot events (.error e) slot →
      LoadsIn S appId secret (slot :: others) events (.error e) (slot :: others)

theorem loadsIn_of_gives {slots slots' : List Slot} {answer : Except Error Unit}
    (given : (loadIn S appId secret slots).Gives events (answer, slots')) :
    LoadsIn S appId secret slots events answer slots' := by
  induction slots generalizing answer slots' events with
  | nil =>
    obtain ⟨rfl, same⟩ := Program.gives_pure.mp given
    cases same
    exact .done
  | cons slot others ih =>
    unfold loadIn at given
    obtain ⟨⟨keys, slot'⟩, before, after, rfl, unlocked, given⟩ := Program.gives_bind.mp given
    have unlocks := gives_unlock.mp unlocked
    cases keys with
    | ok keys =>
      obtain ⟨⟨loaded, others'⟩, tail, same⟩ := Program.gives_bind_pure.mp given
      cases same
      exact .loaded unlocks (ih tail)
    | error e =>
      obtain ⟨rfl, same⟩ := Program.gives_pure.mp given
      cases same
      cases unlocks with
      | failed empty loading =>
        rw [List.append_nil]
        exact .failed (.failed empty loading)

theorem LoadsIn.gives {slots slots' : List Slot} {answer : Except Error Unit}
    (loads : LoadsIn S appId secret slots events answer slots') :
    (loadIn S appId secret slots).Gives events (answer, slots') := by
  induction loads with
  | done => exact Program.gives_pure.mpr ⟨rfl, rfl⟩
  | @loaded _ _ _ _ before after _ _ unlocks _ ih =>
    exact Program.gives_bind.mpr ⟨_, before, after, rfl, gives_unlock.mpr unlocks,
      Program.gives_bind_pure.mpr ⟨_, ih, rfl⟩⟩
  | @failed _ _ events _ unlocks =>
    exact Program.gives_bind.mpr ⟨_, events, [], (List.append_nil _).symm, gives_unlock.mpr unlocks,
      Program.gives_pure.mpr ⟨rfl, rfl⟩⟩

/-- The traces on which a call is answered. -/
inductive Calls (S : Suite) (cipher : Cipher) :
    Call → List Event → Except Error (Option String) → Cipher → Prop where
  | encrypt {text : String} {events : List Event} {whole : Except Error String}
      {cipher' : Cipher} : Encrypts S cipher text events whole cipher' →
      Calls S cipher (.encrypt text) events (whole.map some) cipher'
  | decrypt {whole : String} {events : List Event} {text : Except Error String}
      {cipher' : Cipher} : Decrypts S cipher whole events text cipher' →
      Calls S cipher (.decrypt whole) events (text.map some) cipher'
  | load {events : List Event} {done : Except Error Unit} {slots : List Slot} :
      LoadsIn S cipher.appId cipher.secret cipher.slots events done slots →
      Calls S cipher .load events (done.map fun _ => none) { cipher with slots }

variable {call : Call} {answer : Except Error (Option String)}

theorem calls_of_gives (given : (cipher.call S call).Gives events (answer, cipher')) :
    Calls S cipher call events answer cipher' := by
  cases call with
  | encrypt text =>
    obtain ⟨⟨_, _⟩, encrypted, same⟩ := Program.gives_bind_pure.mp given
    cases same
    exact .encrypt (encrypts_of_gives encrypted)
  | decrypt whole =>
    obtain ⟨⟨_, _⟩, decrypted, same⟩ := Program.gives_bind_pure.mp given
    cases same
    exact .decrypt (decrypts_of_gives decrypted)
  | load =>
    obtain ⟨⟨_, _⟩, loaded, same⟩ := Program.gives_bind_pure.mp given
    cases same
    obtain ⟨⟨_, _⟩, row, same⟩ := Program.gives_bind_pure.mp loaded
    cases same
    exact .load (loadsIn_of_gives row)

theorem Calls.gives (calls : Calls S cipher call events answer cipher') :
    (cipher.call S call).Gives events (answer, cipher') := by
  cases calls with
  | encrypt encrypts => exact Program.gives_bind_pure.mpr ⟨_, encrypts.gives, rfl⟩
  | decrypt decrypts => exact Program.gives_bind_pure.mpr ⟨_, decrypts.gives, rfl⟩
  | load loads =>
    exact Program.gives_bind_pure.mpr ⟨_, Program.gives_bind_pure.mpr ⟨_, loads.gives, rfl⟩, rfl⟩

end Cipher

end KeyService.LocalText
