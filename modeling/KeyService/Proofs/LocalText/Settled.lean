import KeyService.Proofs.LocalText.Loaded
import KeyService.Proofs.Program.Asks

/-! Ciphers that agree with their store.
A cipher that has loaded keys has those of the record that the store has, so it makes no
difference when it loaded them. Its operations keep that up, and change nothing else about
the cipher. -/
namespace KeyService.LocalText

namespace Contents

/-- What was told holds of the contents. -/
def Knows (c : Contents) : Event → Prop
  | ⟨.findRecord appId header, .ok (some r)⟩ => c (appId, header) = some r
  | ⟨.keepRecord record, .ok r⟩ => c record.name = some r
  | _ => True

/-- Later contents have the same records, and maybe more. -/
def Grows (c c' : Contents) : Prop := ∀ name r, c name = some r → c' name = some r

theorem Grows.refl (c : Contents) : c.Grows c := fun _ _ there => there

theorem Grows.trans {c c' c'' : Contents} (first : c.Grows c') (second : c'.Grows c'') :
    c.Grows c'' := fun name r there => second name r (first name r there)

theorem grows_keep (c : Contents) (r : Record) : c.Grows (c.keep r) := by
  intro name first there
  rw [keep]
  split
  · rw [there]
    rfl
  · exact there

theorem Knows.later {c c' : Contents} {e : Event} (knows : c.Knows e) (grows : c.Grows c') :
    c'.Knows e := by
  unfold Knows at knows ⊢
  split
  · exact grows _ _ knows
  · exact grows _ _ knows
  · trivial

end Contents

variable {S : Suite} {appId : String} {secret : Bytes} {c c' : Contents} {events : List Event}

theorem Obtains.there_after {scheme : Scheme} {r : Record}
    (obtained : Obtains S appId secret scheme r events) (known : ∀ e ∈ events, c.Knows e) :
    c (appId, scheme.header) = some r := by
  cases obtained with
  | there => exact known ⟨.findRecord appId scheme.header, .ok (some r)⟩ (by simp)
  | @kept making created made =>
    obtain ⟨_, _, _, _, _, -, wrapped⟩ := gives_create.mp made
    rw [← wrap_name wrapped]
    exact known ⟨.keepRecord created, .ok r⟩ (by simp)

/-- The keys of a scheme, as the contents have them. -/
def Contents.Yields (S : Suite) (c : Contents) (appId header : String) (secret : Bytes)
    (keys : Keys) : Prop :=
  ∃ r, c (appId, header) = some r ∧ r.unwrap S secret = .ok keys

theorem Contents.Yields.unique {header : String} {keys keys' : Keys}
    (yields : c.Yields S appId header secret keys) (yields' : c.Yields S appId header secret keys') :
    keys = keys' := by
  obtain ⟨r, there, unwrapped⟩ := yields
  obtain ⟨r', there', unwrapped'⟩ := yields'
  obtain rfl := Option.some.inj (there.symm.trans there')
  exact Except.ok.inj (unwrapped.symm.trans unwrapped')

theorem Contents.Yields.later {header : String} {keys : Keys}
    (yields : c.Yields S appId header secret keys) (grows : c.Grows c') :
    c'.Yields S appId header secret keys := by
  obtain ⟨r, there, unwrapped⟩ := yields
  exact ⟨r, grows _ _ there, unwrapped⟩

def Slot.Settled (S : Suite) (c : Contents) (appId : String) (secret : Bytes) (slot : Slot) : Prop :=
  ∀ keys, slot.keys = some keys → c.Yields S appId slot.scheme.header secret keys

namespace Cipher

/-- A cipher's loaded keys are those that the contents have. -/
def Settled (S : Suite) (c : Contents) (cipher : Cipher) : Prop :=
  ∀ slot ∈ cipher.slots, slot.Settled S c cipher.appId cipher.secret

theorem Settled.later {cipher : Cipher} (settled : cipher.Settled S c) (grows : c.Grows c') :
    cipher.Settled S c' :=
  fun slot member keys loaded => (settled slot member keys loaded).later grows

theorem load_yields {scheme : Scheme} {keys : Keys}
    (given : (load S appId secret scheme).run.Gives events (.ok keys))
    (known : ∀ e ∈ events, c.Knows e) : c.Yields S appId scheme.header secret keys := by
  obtain ⟨r, obtained, unwrapped⟩ := gives_load.mp given
  exact ⟨r, obtained.there_after known, unwrapped⟩

end Cipher

theorem Unlocks.settled {slot slot' : Slot} {answer : Except Error Keys}
    (unlocks : Unlocks S appId secret slot events answer slot')
    (settled : slot.Settled S c appId secret) (known : ∀ e ∈ events, c.Knows e) :
    slot'.Settled S c appId secret := by
  cases unlocks with
  | ready _ => exact settled
  | loaded _ loading =>
    intro keys same
    cases same
    exact Cipher.load_yields loading known
  | failed => exact settled

namespace Cipher

/-- A row of slots that is settled. -/
def SettledRow (S : Suite) (c : Contents) (appId : String) (secret : Bytes)
    (slots : List Slot) : Prop :=
  ∀ slot ∈ slots, slot.Settled S c appId secret

theorem settledRow_cons {slot : Slot} {others : List Slot} :
    SettledRow S c appId secret (slot :: others) ↔
      slot.Settled S c appId secret ∧ SettledRow S c appId secret others :=
  List.forall_mem_cons

theorem LoadsIn.settled {slots slots' : List Slot} {answer : Except Error Unit}
    (loads : LoadsIn S appId secret slots events answer slots')
    (settled : SettledRow S c appId secret slots) (known : ∀ e ∈ events, c.Knows e) :
    SettledRow S c appId secret slots' := by
  induction loads with
  | done => exact settled
  | loaded unlocks _ ih =>
    obtain ⟨first, rest⟩ := settledRow_cons.mp settled
    obtain ⟨before, after⟩ := List.forall_mem_append.mp known
    exact settledRow_cons.mpr ⟨unlocks.settled first before, ih rest after⟩
  | failed _ => exact settled

end Cipher

namespace Cipher

variable {cipher cipher' : Cipher}

theorem Encrypts.settled {text : String} {answer : Except Error String}
    (encrypts : Encrypts S cipher text events answer cipher')
    (settled : cipher.Settled S c) (known : ∀ e ∈ events, c.Knows e) : cipher'.Settled S c := by
  unfold Cipher.Settled at settled
  cases encrypts with
  | empty _ => exact settled
  | worked slots unlocks _ =>
    rw [slots] at settled
    obtain ⟨first, rest⟩ := settledRow_cons.mp settled
    obtain ⟨before, -⟩ := List.forall_mem_append.mp known
    exact settledRow_cons.mpr ⟨unlocks.settled first before, rest⟩
  | failed _ _ => exact settled

theorem Decrypts.settled {whole : String} {answer : Except Error String}
    (decrypts : Decrypts S cipher whole events answer cipher')
    (settled : cipher.Settled S c) (known : ∀ e ∈ events, c.Knows e) : cipher'.Settled S c := by
  unfold Cipher.Settled at settled
  cases decrypts with
  | unknown _ => exact settled
  | known slots _ _ unlocks =>
    rw [slots] at settled
    obtain ⟨front, others⟩ := List.forall_mem_append.mp settled
    obtain ⟨first, back⟩ := settledRow_cons.mp others
    exact List.forall_mem_append.mpr
      ⟨front, settledRow_cons.mpr ⟨unlocks.settled first known, back⟩⟩

theorem Calls.settled {call : Call} {answer : Except Error (Option String)}
    (calls : Calls S cipher call events answer cipher')
    (settled : cipher.Settled S c) (known : ∀ e ∈ events, c.Knows e) : cipher'.Settled S c := by
  cases calls with
  | encrypt encrypts => exact encrypts.settled settled known
  | decrypt decrypts => exact decrypts.settled settled known
  | load loads => exact loads.settled settled known

end Cipher

end KeyService.LocalText
