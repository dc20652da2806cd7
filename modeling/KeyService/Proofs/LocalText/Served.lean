import KeyService.Proofs.LocalText.Settled
import KeyService.Proofs.Program.Machine

/-! Ciphers that are served by a store.
A cipher asks its store for the records of its schemes and for nothing else. What it is told
is what the store has then, and a store that keeps first records has it ever after. -/
namespace KeyService.LocalText

/-- A question about a record asks for a name that the store can use. -/
def Names (named : String × String → Prop) : Question → Prop
  | .findRecord appId header => named (appId, header)
  | .keepRecord record => named record.name
  | _ => True

/-- A store can use the names of a scheme's records, and the scheme itself leaves other names
alone. -/
def Scheme.Fits (named : String × String → Prop) (appId : String) (scheme : Scheme) : Prop :=
  named (appId, scheme.header) ∧
    ∀ keys text, (scheme.encrypt keys text).run.Asks (Names named)

theorem Scheme.asks_standard {S : Suite} {P : Question → Prop} (random : ∀ count, P (.random count))
    {scheme : Scheme} (member : scheme ∈ standard S) (keys : Keys) (text : String) :
    (scheme.encrypt keys text).run.Asks P := by
  simp only [standard, List.mem_cons, List.not_mem_nil, or_false] at member
  rcases member with rfl | rfl
  · exact Program.asks_except _
  · exact Program.asks_act_bind (Program.asks_program (Program.asks_draw (random 12))) fun _ _ _ =>
      Program.asks_except _

theorem Scheme.fits_standard {S : Suite} {named : String × String → Prop} {appId : String}
    (usable : ∀ scheme ∈ standard S, named (appId, scheme.header)) :
    ∀ scheme ∈ standard S, scheme.Fits named appId := fun scheme member =>
  ⟨usable scheme member, fun keys text => asks_standard (fun _ => trivial) member keys text⟩

def Cipher.Fits (named : String × String → Prop) (cipher : Cipher) : Prop :=
  ∀ scheme ∈ cipher.slots.map Slot.scheme, scheme.Fits named cipher.appId

variable {S : Suite} {named : String × String → Prop} {P : Question → Prop}

/-- All that it takes to make keys and to keep them under one of the names is of the kind `P`. -/
structure Admits (P : Question → Prop) (named : String × String → Prop) : Prop where
  random : ∀ count, P (.random count)
  now : P .now
  find : ∀ {appId header}, named (appId, header) → P (.findRecord appId header)
  keep : ∀ {record}, named record.name → P (.keepRecord record)

theorem admits_names (named : String × String → Prop) : Admits (Names named) named :=
  ⟨fun _ => trivial, trivial, id, id⟩

namespace Cipher

theorem asks_create (admits : Admits P named) (appId header : String) (secret : Bytes)
    (keyLength ivLength : Nat) :
    (Record.create S appId header secret keyLength ivLength).run.Asks P := by
  have draws : ∀ count, (Program.draw count).Asks P := fun count =>
    Program.asks_draw (admits.random count)
  unfold Record.create
  refine Program.asks_act_bind (Program.asks_program (draws 16)) fun _ _ _ => ?_
  refine Program.asks_act_bind (Program.asks_program (draws keyLength)) fun _ _ _ => ?_
  refine Program.asks_act_bind (Program.asks_program (draws 12)) fun _ _ _ => ?_
  refine Program.asks_act_bind (Program.asks_program (draws ivLength)) fun _ _ _ => ?_
  refine Program.asks_act_bind (Program.asks_program (Program.asks_put admits.now)) fun _ _ _ => ?_
  exact Program.asks_except _

theorem asks_load (admits : Admits P named) {appId : String} {secret : Bytes} {scheme : Scheme}
    (usable : named (appId, scheme.header)) : (load S appId secret scheme).run.Asks P := by
  unfold load
  refine Program.asks_act_bind (Program.asks_put (admits.find usable)) fun _ found _ => ?_
  cases found with
  | some r =>
    exact Program.asks_act_bind (Program.asks_pure _) fun _ _ _ => Program.asks_except _
  | none =>
    refine Program.asks_act_bind (asks_create admits ..) fun _ created made => ?_
    obtain ⟨_, _, _, _, _, -, wrapped⟩ := gives_create.mp made
    have keeps : P (.keepRecord created) := by
      refine admits.keep ?_
      rw [wrap_name wrapped]
      exact usable
    exact Program.asks_act_bind (Program.asks_put keeps) fun _ _ _ => Program.asks_except _

theorem asks_unlock (admits : Admits P named) {appId : String} {secret : Bytes} {slot : Slot}
    (usable : named (appId, slot.scheme.header)) : (unlock S appId secret slot).Asks P := by
  unfold unlock
  split
  · exact Program.asks_pure _
  · refine Program.asks_bind (asks_load admits usable) fun _ answer _ => ?_
    cases answer <;> exact Program.asks_pure _

theorem asks_encrypt (admits : Admits P named) {cipher : Cipher}
    (usable : ∀ slot ∈ cipher.slots, named (cipher.appId, slot.scheme.header))
    (quiet : ∀ slot ∈ cipher.slots, ∀ keys text, (slot.scheme.encrypt keys text).run.Asks P)
    (text : String) : (cipher.encrypt S text).Asks P := by
  unfold encrypt
  split
  · exact Program.asks_pure _
  · rename_i slot others slots
    have member : slot ∈ cipher.slots := by simp [slots]
    refine Program.asks_bind (asks_unlock admits (usable slot member)) fun events answer given => ?_
    obtain ⟨keys, slot'⟩ := answer
    cases keys with
    | ok keys =>
      have scheme : slot'.scheme = slot.scheme := (gives_unlock.mp given).scheme
      have quiet' : (slot'.scheme.encrypt keys text).run.Asks P := by
        rw [scheme]
        exact quiet slot member keys text
      exact Program.asks_bind quiet' fun _ _ _ => Program.asks_pure _
    | error e => exact Program.asks_pure _

theorem asks_decryptIn (admits : Admits P named) {appId : String} {secret : Bytes}
    {slots : List Slot} (whole : String)
    (usable : ∀ slot ∈ slots, named (appId, slot.scheme.header)) :
    (decryptIn S appId secret whole slots).Asks P := by
  induction slots with
  | nil => exact Program.asks_pure _
  | cons slot others ih =>
    obtain ⟨first, rest⟩ := List.forall_mem_cons.mp usable
    unfold decryptIn
    split
    · exact Program.asks_bind (asks_unlock admits first) fun _ _ _ => Program.asks_pure _
    · exact Program.asks_bind (ih rest) fun _ _ _ => Program.asks_pure _

theorem asks_decrypt (admits : Admits P named) {cipher : Cipher} (whole : String)
    (usable : ∀ slot ∈ cipher.slots, named (cipher.appId, slot.scheme.header)) :
    (cipher.decrypt S whole).Asks P :=
  Program.asks_bind (asks_decryptIn admits whole usable) fun _ _ _ => Program.asks_pure _

theorem asks_loadIn (admits : Admits P named) {appId : String} {secret : Bytes} {slots : List Slot}
    (usable : ∀ slot ∈ slots, named (appId, slot.scheme.header)) :
    (loadIn S appId secret slots).Asks P := by
  induction slots with
  | nil => exact Program.asks_pure _
  | cons slot others ih =>
    obtain ⟨first, rest⟩ := List.forall_mem_cons.mp usable
    unfold loadIn
    refine Program.asks_bind (asks_unlock admits first) fun _ answer _ => ?_
    obtain ⟨keys, slot'⟩ := answer
    cases keys with
    | ok keys => exact Program.asks_bind (ih rest) fun _ _ _ => Program.asks_pure _
    | error e => exact Program.asks_pure _

theorem asks_call {cipher : Cipher} (fits : cipher.Fits named) (call : Call) :
    (cipher.call S call).Asks (Names named) := by
  have admits := admits_names named
  have fitting (slot : Slot) (member : slot ∈ cipher.slots) :=
    fits slot.scheme (List.mem_map_of_mem member)
  have usable : ∀ slot ∈ cipher.slots, named (cipher.appId, slot.scheme.header) :=
    fun slot member => (fitting slot member).1
  cases call with
  | encrypt text =>
    have quiet := fun slot member => (fitting slot member).2
    exact Program.asks_bind (asks_encrypt admits usable quiet text) fun _ _ _ =>
      Program.asks_pure _
  | decrypt whole =>
    exact Program.asks_bind (asks_decrypt admits whole usable) fun _ _ _ => Program.asks_pure _
  | load =>
    refine Program.asks_bind ?_ fun _ _ _ => Program.asks_pure _
    exact Program.asks_bind (asks_loadIn admits usable) fun _ _ _ => Program.asks_pure _

theorem Fits.same {cipher cipher' : Cipher} (fits : cipher.Fits named)
    (same : Same cipher cipher') : cipher'.Fits named := by
  unfold Fits
  rw [same.schemes, same.appId]
  exact fits

end Cipher

variable {σ ρ : Type} {B : Backend σ} {valid : σ → Prop}
  {w : (question : Question) → StateM ρ question.Answer}

/-- Questions about records are answered by a store, all others by the rest of the
surroundings. -/
def Backend.among (B : Backend σ) (w : (question : Question) → StateM ρ question.Answer) :
    Surroundings (StateM (σ × ρ)) := .ofAnswers fun
  | .findRecord appId header => fun s => (B.find s.1 appId header, s)
  | .keepRecord record => fun s => ((B.keep s.1 record).1, ((B.keep s.1 record).2, s.2))
  | question => fun s => ((w question s.2).1, (s.1, (w question s.2).2))

theorem Backend.KeepsFirst.answer (keeps : B.KeepsFirst named valid) {c : Contents} {s : σ × ρ}
    (inside : valid s.1) (shown : B.Shows named s.1 c) {question : Question}
    (usable : Names named question) :
    ∃ c', c.Grows c' ∧ valid ((B.among w).answer question s).2.1 ∧
      B.Shows named ((B.among w).answer question s).2.1 c' ∧
      c'.Knows ⟨question, ((B.among w).answer question s).1⟩ := by
  cases question with
  | findRecord appId header =>
    refine ⟨c, .refl c, inside, shown, ?_⟩
    have told : ((B.among w).answer (.findRecord appId header) s).1 =
        .ok (c (appId, header)) := shown (appId, header) usable
    rw [told]
    cases there : c (appId, header) with
    | none => trivial
    | some r => exact there
  | keepRecord record =>
    obtain ⟨kept, stays, after⟩ := keeps.keep inside shown usable
    refine ⟨c.keep record, c.grows_keep record, stays, after, ?_⟩
    have told : ((B.among w).answer (.keepRecord record) s).1 =
        .ok ((c record.name).getD record) := kept
    rw [told]
    exact if_pos rfl
  | _ => exact ⟨c, .refl c, inside, shown, trivial⟩

/-- A run leaves the store with what it had, and maybe more, and everything that was told on the way
is there. -/
theorem Backend.KeepsFirst.answers (keeps : B.KeepsFirst named valid) {c : Contents}
    {s s' : σ × ρ} {events : List Event} (answers : (B.among w).Answers s events s')
    (inside : valid s.1) (shown : B.Shows named s.1 c)
    (usable : ∀ e ∈ events, Names named e.1) :
    ∃ c', c.Grows c' ∧ valid s'.1 ∧ B.Shows named s'.1 c' ∧ ∀ e ∈ events, c'.Knows e := by
  induction answers generalizing c with
  | nil s => exact ⟨c, .refl c, inside, shown, fun _ member => absurd member List.not_mem_nil⟩
  | @cons s s' s'' question answer events same _ ih =>
    obtain ⟨first, others⟩ := List.forall_mem_cons.mp usable
    obtain ⟨c', grows, stays, after, knows⟩ :=
      keeps.answer (w := w) inside shown first
    rw [same] at stays after knows
    obtain ⟨c'', further, stays', after', known⟩ := ih stays after others
    refine ⟨c'', grows.trans further, stays', after', fun e member => ?_⟩
    rcases List.mem_cons.mp member with rfl | member
    · exact knows.later further
    · exact known e member

namespace Cipher

variable {c : Contents}

theorem load_run {appId : String} {secret : Bytes} {scheme : Scheme} {r : Record} {s : σ × ρ}
    (there : B.find s.1 appId scheme.header = .ok (some r)) :
    (load S appId secret scheme).run.run (B.among w) s = (r.unwrap S secret, s) := by
  have told : (B.among w).answer (.findRecord appId scheme.header) s = (.ok (some r), s) :=
    congrArg (·, s) there
  have given : (load S appId secret scheme).run.Gives
      [⟨.findRecord appId scheme.header, .ok (some r)⟩] (r.unwrap S secret) := by
    unfold load
    refine Program.gives_act_bind.mpr (.inr ⟨some r, _, [], rfl, Program.gives_getRecord.mpr rfl, ?_⟩)
    exact .refl _
  exact Program.run_eq_of_gives given (Surroundings.answers_single.mpr told)

/-- Where no record is found, a new one is made. The keys are those of the record that is there
after it was to be kept, be it this one or another. -/
theorem load_makes {appId : String} (secret : Bytes) {scheme : Scheme} {s : σ × ρ}
    (looked : B.find s.1 appId scheme.header = .ok none) :
    ∃ events r keys s', (B.among w).Answers s events s' ∧ s'.1 = s.1 ∧
      r.name = (appId, scheme.header) ∧ r.unwrap S secret = .ok keys ∧
      keys.dataKey.length = scheme.keyLength ∧ keys.iv.length = scheme.ivLength ∧
      ∀ first keys', first.unwrap S secret = .ok keys' →
        (load S appId secret scheme).run.Gives (events ++ [⟨.keepRecord r, .ok first⟩])
          (.ok keys') := by
  let salt := (B.among w).answer (.random 16) s
  let dataKey := (B.among w).answer (.random scheme.keyLength) salt.2
  let nonce := (B.among w).answer (.random 12) dataKey.2
  let iv := (B.among w).answer (.random scheme.ivLength) nonce.2
  let now := (B.among w).answer .now iv.2
  obtain ⟨r, wrapped, unwrapped⟩ := unwrap_wrap S appId scheme.header secret salt.1.val nonce.1.2
    ⟨dataKey.1.val, iv.1.val⟩ (Text.dateTime now.1.toInt)
  have made := gives_create.mpr ⟨salt.1, dataKey.1, nonce.1, iv.1, now.1, rfl, wrapped⟩
  have found : (B.among w).answer (.findRecord appId scheme.header) s = (.ok none, s) :=
    congrArg (·, s) looked
  have drawn : (B.among w).Answers s [⟨.random 16, salt.1⟩, ⟨.random scheme.keyLength, dataKey.1⟩,
      ⟨.random 12, nonce.1⟩, ⟨.random scheme.ivLength, iv.1⟩, ⟨.now, now.1⟩] now.2 :=
    .cons rfl (.cons rfl (.cons rfl (.cons rfl (.cons rfl (.nil _)))))
  exact ⟨_, r, ⟨dataKey.1.val, iv.1.val⟩, now.2, .cons found drawn, rfl, wrap_name wrapped, unwrapped,
    dataKey.1.2, iv.1.2, fun first keys' known => gives_load.mpr ⟨first, .kept made, known⟩⟩

theorem load_fresh (keeps : B.KeepsFirst named valid) {appId : String} (secret : Bytes)
    {scheme : Scheme} {s : σ × ρ} (inside : valid s.1) (shown : B.Shows named s.1 c)
    (usable : named (appId, scheme.header)) (free : c (appId, scheme.header) = none) :
    ∃ events keys s', (load S appId secret scheme).run.Gives events (.ok keys) ∧
      (B.among w).Answers s events s' ∧ keys.dataKey.length = scheme.keyLength ∧
      keys.iv.length = scheme.ivLength := by
  have looked : B.find s.1 appId scheme.header = .ok none :=
    (shown _ usable).trans (congrArg Except.ok free)
  obtain ⟨events, r, keys, s', answers, same, name, unwrapped, key, iv, gives⟩ :=
    load_makes (S := S) (w := w) secret looked
  have kept : (B.keep s'.1 r).1 = .ok r := by
    rw [same, (keeps.keep inside shown (name.symm ▸ usable)).1, name, free]
    rfl
  have keeping : (B.among w).Answers s' [⟨.keepRecord r, .ok r⟩] ((B.keep s'.1 r).2, s'.2) :=
    Surroundings.answers_single.mpr (congrArg (·, ((B.keep s'.1 r).2, s'.2)) kept)
  exact ⟨_, keys, _, gives r keys unwrapped, answers.append keeping, key, iv⟩

end Cipher

end KeyService.LocalText
