import KeyService.Proofs.Exchange.Completion
import KeyService.Proofs.LocalText.Scheme
import KeyService.Proofs.LocalText.Served
import KeyService.Proofs.Store.Calls

/-! Ciphers that share a store.
Ciphers of any applications are started and called one after the other, in any order. A
text that a cipher has encrypted is read by every cipher of the same application, however
much later, for they all have the keys of one record. -/
namespace KeyService.LocalText

variable {S : Suite} {named : String × String → Prop} {σ ρ : Type} {B : Backend σ}
  {valid : σ → Prop} {w : (question : Question) → StateM ρ question.Answer}

/-- A text that the contents' keys decrypt. -/
def Contents.Reads (S : Suite) (c : Contents) (appId : String) (secret : Bytes)
    (whole text : String) : Prop :=
  ∃ keys, c.Yields S appId (Scheme.searchable S).header secret keys ∧
    (Scheme.searchable S).supports whole = true ∧
    (Scheme.searchable S).decrypt keys whole = .ok text

/-- What a text is encrypted to with the contents' keys. -/
def Contents.Writes (S : Suite) (c : Contents) (appId : String) (secret : Bytes)
    (text whole : String) : Prop :=
  ∃ keys, c.Yields S appId (Scheme.searchable S).header secret keys ∧
    ((Scheme.searchable S).encrypt keys text).run.Gives [] (.ok whole)

theorem Contents.Writes.reads {c : Contents} {appId : String} {secret : Bytes} {text whole : String}
    (writes : c.Writes S appId secret text whole) (inverts : S.AesInverts) :
    c.Reads S appId secret whole text := by
  obtain ⟨keys, yields, encrypted⟩ := writes
  obtain ⟨supported, decrypted⟩ := Scheme.searchable_decrypts inverts encrypted
  exact ⟨keys, yields, supported, decrypted⟩

theorem Contents.Writes.later {c c' : Contents} {appId : String} {secret : Bytes}
    {text whole : String} (writes : c.Writes S appId secret text whole) (grows : c.Grows c') :
    c'.Writes S appId secret text whole := by
  obtain ⟨keys, yields, encrypted⟩ := writes
  exact ⟨keys, yields.later grows, encrypted⟩

theorem Contents.Reads.later {c c' : Contents} {appId : String} {secret : Bytes}
    {whole text : String} (reads : c.Reads S appId secret whole text) (grows : c.Grows c') :
    c'.Reads S appId secret whole text := by
  obtain ⟨keys, yields, known, decrypted⟩ := reads
  exact ⟨keys, yields.later grows, known, decrypted⟩

namespace Cipher

variable {cipher cipher' : Cipher} {c : Contents} {events : List Event} {whole text : String}

/-- The searchable scheme is the first one, so it encrypts. -/
def Searchable (S : Suite) (cipher : Cipher) : Prop :=
  ∃ slot others, cipher.slots = slot :: others ∧ slot.scheme = Scheme.searchable S

/-- The built-in schemes, with the searchable one in front. -/
def Standard (S : Suite) (cipher : Cipher) : Prop :=
  cipher.slots.map Slot.scheme = Scheme.standard S

theorem Standard.searchable (standard : cipher.Standard S) : cipher.Searchable S := by
  unfold Standard at standard
  cases slots : cipher.slots with
  | nil =>
    rw [slots] at standard
    cases standard
  | cons slot others =>
    rw [slots] at standard
    exact ⟨slot, others, slots, (List.cons.inj standard).1⟩

/-- What such a cipher has encrypted was encrypted by the searchable scheme, whose keys it has
afterwards. -/
theorem searchable_of_encrypt (searchable : cipher.Searchable S)
    (given : (cipher.encrypt S text).Gives events (.ok whole, cipher')) :
    ∃ slot others keys, cipher'.slots = slot :: others ∧ slot.scheme = Scheme.searchable S ∧
      slot.keys = some keys ∧ ((Scheme.searchable S).encrypt keys text).run.Gives [] (.ok whole) := by
  obtain ⟨slot, others, slots, first⟩ := searchable
  cases encrypts_of_gives given with
  | worked here unlocks encrypted =>
    obtain ⟨rfl, rfl⟩ := List.cons.inj (slots.symm.trans here)
    rw [first] at encrypted
    obtain ⟨rfl, -⟩ := Scheme.gives_searchable.mp encrypted
    exact ⟨_, others, _, rfl, unlocks.scheme.trans first, unlocks.loads, encrypted⟩

/-- What was encrypted is what the keys make of it that the store had by then. -/
theorem writes_of_encrypt (searchable : cipher.Searchable S)
    (given : (cipher.encrypt S text).Gives events (.ok whole, cipher'))
    (settled : cipher.Settled S c) (known : ∀ e ∈ events, c.Knows e) :
    c.Writes S cipher.appId cipher.secret text whole := by
  obtain ⟨slot, others, keys, slots, scheme, loaded, encrypted⟩ :=
    searchable_of_encrypt searchable given
  have encrypts := encrypts_of_gives given
  have same := encrypts.stays.same
  have yields := encrypts.settled settled known slot (by simp [slots]) keys loaded
  rw [same.appId, same.secret, scheme] at yields
  exact ⟨keys, yields, encrypted⟩

theorem unlocks_of_yields {appId : String} {secret : Bytes} {slot slot' : Slot}
    {answer : Except Error Keys} {keys : Keys} {s s' : σ × ρ} (shown : B.Shows named s.1 c)
    (usable : named (appId, slot.scheme.header))
    (yields : c.Yields S appId slot.scheme.header secret keys)
    (settled : slot.Settled S c appId secret)
    (unlocks : Unlocks S appId secret slot events answer slot')
    (answers : (B.among w).Answers s events s') : answer = .ok keys := by
  obtain ⟨r, there, unwrapped⟩ := yields
  have found : (load S appId secret slot.scheme).run.run (B.among w) s = (.ok keys, s) := by
    rw [load_run ((shown _ usable).trans (congrArg _ there)), unwrapped]
  cases unlocks with
  | ready loaded => exact congrArg _ ((settled _ loaded).unique ⟨r, there, unwrapped⟩)
  | loaded _ loading =>
    rw [Program.run_eq_of_gives loading answers] at found
    exact congrArg Prod.fst found
  | failed _ loading =>
    rw [Program.run_eq_of_gives loading answers] at found
    exact congrArg Prod.fst found

theorem decrypt_of_reads (searchable : cipher.Searchable S) (fits : cipher.Fits named)
    (settled : cipher.Settled S c) {s s' : σ × ρ} (shown : B.Shows named s.1 c)
    (reads : c.Reads S cipher.appId cipher.secret whole text) {answer : Except Error String}
    (given : (cipher.decrypt S whole).Gives events (answer, cipher'))
    (answers : (B.among w).Answers s events s') : answer = .ok text := by
  obtain ⟨keys, yields, supported, decrypted⟩ := reads
  obtain ⟨slot, others, slots, first⟩ := searchable
  have settled' : slot.Settled S c cipher.appId cipher.secret := settled slot (by simp [slots])
  have usable : named (cipher.appId, slot.scheme.header) :=
    (fits slot.scheme (by simp [slots])).1
  have foremost : cipher.slots = [] ++ slot :: others := slots
  obtain ⟨_, _, unlocks, rfl, -⟩ := unlocks_of_known foremost
    (fun _ member => absurd member List.not_mem_nil) (first ▸ supported) given
  rw [unlocks_of_yields shown usable (first ▸ yields) settled' unlocks answers, first]
  exact decrypted

theorem encrypt_of_writes (searchable : cipher.Searchable S) (fits : cipher.Fits named)
    (settled : cipher.Settled S c) {s s' : σ × ρ} (shown : B.Shows named s.1 c)
    (writes : c.Writes S cipher.appId cipher.secret text whole) {other : String}
    {answer : Except Error String} (given : (cipher.encrypt S other).Gives events (answer, cipher'))
    (answers : (B.among w).Answers s events s') :
    ∃ whole', answer = .ok whole' ∧ c.Writes S cipher.appId cipher.secret other whole' := by
  obtain ⟨keys, yields, encrypted⟩ := writes
  obtain ⟨key, iv⟩ := Scheme.lengths_of_searchable encrypted
  obtain ⟨whole', encrypts⟩ := Scheme.searchable_encrypts (S := S) key iv other
  obtain ⟨slot, others, slots, first⟩ := searchable
  have settled' : slot.Settled S c cipher.appId cipher.secret := settled slot (by simp [slots])
  have usable : named (cipher.appId, slot.scheme.header) :=
    (fits slot.scheme (by simp [slots])).1
  cases encrypts_of_gives given with
  | empty nothing => cases slots.symm.trans nothing
  | worked here unlocks working =>
    obtain ⟨rfl, rfl⟩ := List.cons.inj (slots.symm.trans here)
    obtain ⟨_, loading, -⟩ := Surroundings.answers_append.mp answers
    cases unlocks_of_yields shown usable (first ▸ yields) settled' unlocks loading
    rw [first, Program.leads_nil.mp encrypts] at working
    exact ⟨whole', (Program.gives_done.mp working).2.symm, keys, yields, encrypts⟩
  | failed here unlocks =>
    obtain ⟨rfl, rfl⟩ := List.cons.inj (slots.symm.trans here)
    cases unlocks_of_yields shown usable (first ▸ yields) settled' unlocks answers

end Cipher

namespace Cipher

variable {c : Contents}

theorem encrypt_fresh (keeps : B.KeepsFirst named valid) {cipher : Cipher} {s : σ × ρ}
    (searchable : cipher.Searchable S) (fits : cipher.Fits named)
    (locked : ∀ slot ∈ cipher.slots, slot.keys = none) (inside : valid s.1)
    (shown : B.Shows named s.1 c)
    (free : c (cipher.appId, (Scheme.searchable S).header) = none) (text : String) :
    ∃ events whole cipher' s', (cipher.encrypt S text).Gives events (.ok whole, cipher') ∧
      (B.among w).Answers s events s' := by
  obtain ⟨slot, others, slots, first⟩ := searchable
  have usable : named (cipher.appId, (Scheme.searchable S).header) :=
    (fits (Scheme.searchable S) (by simp [slots, first])).1
  obtain ⟨events, keys, s', loading, answers, key, iv⟩ :=
    load_fresh (S := S) (w := w) keeps cipher.secret inside shown usable free
  obtain ⟨whole, encrypted⟩ := Scheme.searchable_encrypts (S := S) key iv text
  have encrypts : Encrypts S cipher text (events ++ []) (.ok whole) _ :=
    .worked slots (.loaded (locked slot (by simp [slots])) (first ▸ loading)) (first ▸ encrypted)
  rw [List.append_nil] at encrypts
  exact ⟨events, whole, _, s', encrypts.gives, answers⟩

end Cipher

/-- All ciphers that were ever started, in their order, with their surroundings. -/
structure Fleet (σ ρ : Type) where
  ciphers : List Cipher
  store : σ
  others : ρ

inductive Action where
  /-- Start a cipher. It has no keys yet. -/
  | start (appId : String) (secret : Bytes) (schemes : List Scheme)
  | call (i : Nat) (call : Call)

namespace Fleet

/-- Nothing is answered to a start, nor to the call of a cipher that was never started. -/
def perform (S : Suite) (B : Backend σ)
    (w : (question : Question) → StateM ρ question.Answer) (f : Fleet σ ρ) :
    Action → Option (Except Error (Option String)) × Fleet σ ρ
  | .start appId secret schemes =>
    (none, { f with ciphers := f.ciphers ++ [.ofSchemes appId secret schemes] })
  | .call i call =>
    match f.ciphers[i]? with
    | none => (none, f)
    | some cipher =>
      let ended := (cipher.call S call).run (B.among w) (f.store, f.others)
      (some ended.1.1, ⟨f.ciphers.set i ended.1.2, ended.2.1, ended.2.2⟩)

end Fleet

/-- Ciphers of an application are started with one secret and the built-in schemes, those of other
applications with any secrets and schemes that the store can serve. -/
def Action.Fits (S : Suite) (named : String × String → Prop) (appId : String) (secret : Bytes) :
    Action → Prop
  | .start other key schemes =>
    (∀ scheme ∈ schemes, scheme.Fits named other) ∧
      (other = appId → key = secret ∧ schemes = Scheme.standard S)
  | .call _ _ => True

/-- What holds of every cipher of a fleet, whatever has been done with it. -/
structure Cipher.Serves (S : Suite) (named : String × String → Prop) (appId : String)
    (secret : Bytes) (c : Contents) (cipher : Cipher) : Prop where
  fits : cipher.Fits named
  settled : cipher.Settled S c
  own : cipher.appId = appId → cipher.secret = secret ∧ cipher.Standard S

/-- Ciphers are started with schemes that the store can serve. -/
def Action.Usable (named : String × String → Prop) : Action → Prop
  | .start appId _ schemes => ∀ scheme ∈ schemes, scheme.Fits named appId
  | .call _ _ => True

namespace Fleet

variable {appId : String} {secret : Bytes} {c : Contents} {f : Fleet σ ρ}

theorem fits_ofSchemes {other : String} {key : Bytes} {schemes : List Scheme}
    (fits : ∀ scheme ∈ schemes, scheme.Fits named other) :
    (Cipher.ofSchemes other key schemes).Fits named := by
  intro scheme member
  rw [Cipher.schemes_ofSchemes, List.mem_mergeSort] at member
  exact fits scheme member

theorem settled_ofSchemes (other : String) (key : Bytes) (schemes : List Scheme) :
    (Cipher.ofSchemes other key schemes).Settled S c := by
  intro slot member keys loaded
  rw [Cipher.locked_ofSchemes other key schemes slot member] at loaded
  cases loaded

theorem forall_started {Q : Cipher → Prop} {other : String} {key : Bytes} {schemes : List Scheme}
    (before : ∀ cipher ∈ f.ciphers, Q cipher) (now : Q (.ofSchemes other key schemes)) :
    ∀ cipher ∈ (f.perform S B w (.start other key schemes)).2.ciphers, Q cipher :=
  List.forall_mem_append.mpr ⟨before, List.forall_mem_singleton.mpr now⟩

theorem perform_call {i : Nat} {cipher : Cipher} (there : f.ciphers[i]? = some cipher)
    (call : Call) : ∃ events answer cipher' store others,
      (cipher.call S call).Gives events (answer, cipher') ∧
      (B.among w).Answers (f.store, f.others) events (store, others) ∧
      f.perform S B w (.call i call) = (some answer, ⟨f.ciphers.set i cipher', store, others⟩) := by
  obtain ⟨events, given, answers⟩ :=
    Program.gives_of_run (w := B.among w) (cipher.call S call) (f.store, f.others)
  refine ⟨events, _, _, _, _, given, answers, ?_⟩
  simp only [perform, there]

/-- A fleet after some actions. -/
def after (S : Suite) (B : Backend σ) (w : (question : Question) → StateM ρ question.Answer)
    (f : Fleet σ ρ) (actions : List Action) : Fleet σ ρ :=
  (Store.work (perform S B w) f actions).2

theorem after_append (before later : List Action) :
    f.after S B w (before ++ later) = (f.after S B w before).after S B w later := by
  induction before generalizing f with
  | nil => rfl
  | cons a before ih => exact ih

section Kept

variable {I : Contents → Fleet σ ρ → Prop} {P : Action → Prop}

theorem kept_of_call {i : Nat} {call : Call} (holds : I c f)
    (called : ∀ {cipher}, f.ciphers[i]? = some cipher →
      ∃ c', c.Grows c' ∧ I c' (f.perform S B w (.call i call)).2) :
    ∃ c', c.Grows c' ∧ I c' (f.perform S B w (.call i call)).2 := by
  cases there : f.ciphers[i]? with
  | none =>
    have same : f.perform S B w (.call i call) = (none, f) := by simp only [perform, there]
    rw [same]
    exact ⟨c, .refl c, holds⟩
  | some cipher => exact called there

/-- What each action keeps, while the records grow in number, any actions keep. -/
theorem kept_of_actions (step : ∀ {c : Contents} {f : Fleet σ ρ} {a : Action}, I c f → P a →
      ∃ c', c.Grows c' ∧ I c' (f.perform S B w a).2)
    (holds : I c f) {actions : List Action} (fits : ∀ a ∈ actions, P a) :
    ∃ c', c.Grows c' ∧ I c' (f.after S B w actions) := by
  induction actions generalizing f c with
  | nil => exact ⟨c, .refl c, holds⟩
  | cons a actions ih =>
    obtain ⟨first, others⟩ := List.forall_mem_cons.mp fits
    obtain ⟨c', grows, holds'⟩ := step holds first
    obtain ⟨c'', further, holds''⟩ := ih holds' others
    exact ⟨c'', grows.trans further, holds''⟩

end Kept

/-- A fleet whose store is in order, and whose ciphers all agree with it. -/
structure Settled (S : Suite) (B : Backend σ) (named : String × String → Prop) (valid : σ → Prop)
    (c : Contents) (f : Fleet σ ρ) : Prop where
  inside : valid f.store
  shown : B.Shows named f.store c
  fits : ∀ cipher ∈ f.ciphers, cipher.Fits named
  settled : ∀ cipher ∈ f.ciphers, cipher.Settled S c

theorem settled_of_empty (empty : f.ciphers = []) (inside : valid f.store)
    (shown : B.Shows named f.store c) : f.Settled S B named valid c where
  inside := inside
  shown := shown
  fits _ member := absurd (empty ▸ member) List.not_mem_nil
  settled _ member := absurd (empty ▸ member) List.not_mem_nil

/-- A call takes no record away, what its cipher was told is so, and the cipher is the same but for
the keys that it has. -/
theorem Settled.call (keeps : B.KeepsFirst named valid) (settled : f.Settled S B named valid c)
    {i : Nat} {cipher : Cipher} (there : f.ciphers[i]? = some cipher) (call : Call) :
    ∃ events answer cipher' c', (cipher.call S call).Gives events (answer, cipher') ∧
      (f.perform S B w (.call i call)).1 = some answer ∧
      (f.perform S B w (.call i call)).2.ciphers = f.ciphers.set i cipher' ∧
      Cipher.Same cipher cipher' ∧ c.Grows c' ∧ (∀ e ∈ events, c'.Knows e) ∧
      (f.perform S B w (.call i call)).2.Settled S B named valid c' := by
  obtain ⟨events, answer, cipher', store, others, given, answers, done⟩ :=
    perform_call (S := S) (w := w) there call
  have member := List.mem_of_getElem? there
  have fits := settled.fits cipher member
  obtain ⟨c', grows, stays, shown, known⟩ := keeps.answers answers settled.inside settled.shown
    ((Cipher.asks_call fits call).gives given)
  have calls := Cipher.calls_of_gives given
  have same := calls.stays.same
  have now := calls.settled ((settled.settled cipher member).later grows) known
  rw [done]
  refine ⟨events, answer, cipher', c', given, rfl, rfl, same, grows, known, stays, shown, ?_, ?_⟩
  · intro other member
    rcases List.mem_or_eq_of_mem_set member with before | rfl
    · exact settled.fits other before
    · exact fits.same same
  · intro other member
    rcases List.mem_or_eq_of_mem_set member with before | rfl
    · exact (settled.settled other before).later grows
    · exact now

theorem Settled.perform (keeps : B.KeepsFirst named valid) (settled : f.Settled S B named valid c)
    {a : Action} (usable : a.Usable named) :
    ∃ c', c.Grows c' ∧ (f.perform S B w a).2.Settled S B named valid c' := by
  cases a with
  | start other key schemes =>
    refine ⟨c, .refl c, settled.inside, settled.shown, ?_, ?_⟩
    · exact forall_started settled.fits (fits_ofSchemes usable)
    · exact forall_started settled.settled (settled_ofSchemes other key schemes)
  | call i call =>
    refine kept_of_call settled fun there => ?_
    obtain ⟨_, _, _, c', -, -, -, -, grows, -, settled'⟩ := settled.call (w := w) keeps there call
    exact ⟨c', grows, settled'⟩

theorem Settled.after (keeps : B.KeepsFirst named valid) (settled : f.Settled S B named valid c)
    {actions : List Action} (usable : ∀ a ∈ actions, a.Usable named) :
    ∃ c', c.Grows c' ∧ (f.after S B w actions).Settled S B named valid c' :=
  kept_of_actions (fun holds fits => holds.perform keeps fits) settled usable

/-- What a cipher is told to have encrypted a text to is what the keys make of it that the store has
from then on. -/
theorem Settled.encrypted (keeps : B.KeepsFirst named valid) (settled : f.Settled S B named valid c)
    {i : Nat} {cipher : Cipher} (there : f.ciphers[i]? = some cipher)
    (searchable : cipher.Searchable S) {text whole : String}
    (told : (f.perform S B w (.call i (.encrypt text))).1 = some (.ok (some whole))) :
    ∃ cipher' c', (f.perform S B w (.call i (.encrypt text))).2.ciphers = f.ciphers.set i cipher' ∧
      Cipher.Same cipher cipher' ∧ c'.Writes S cipher.appId cipher.secret text whole ∧
      (f.perform S B w (.call i (.encrypt text))).2.Settled S B named valid c' := by
  obtain ⟨events, answer, cipher', c', given, answered, ciphers, same, grows, known, settled'⟩ :=
    settled.call (w := w) keeps there (.encrypt text)
  obtain rfl := Option.some.inj (answered.symm.trans told)
  obtain ⟨⟨result, _⟩, encrypting, pairs⟩ := Program.gives_bind_pure.mp given
  have success : result = .ok whole := by
    have mapped : result.map some = .ok (some whole) := congrArg Prod.fst pairs
    cases result with
    | error e => cases mapped
    | ok text => exact congrArg _ (Option.some.inj (Except.ok.inj mapped))
  subst success
  have writes := Cipher.writes_of_encrypt searchable encrypting
    ((settled.settled cipher (List.mem_of_getElem? there)).later grows) known
  exact ⟨cipher', c', ciphers, same, writes, settled'⟩

/-- A fleet whose store is in order, and whose ciphers all agree with it. Those of one application
have one secret and the built-in schemes. -/
structure Sound (S : Suite) (B : Backend σ) (named : String × String → Prop) (valid : σ → Prop)
    (appId : String) (secret : Bytes) (c : Contents) (f : Fleet σ ρ) : Prop where
  inside : valid f.store
  shown : B.Shows named f.store c
  serves : ∀ cipher ∈ f.ciphers, cipher.Serves S named appId secret c

theorem Sound.settled (sound : f.Sound S B named valid appId secret c) :
    f.Settled S B named valid c where
  inside := sound.inside
  shown := sound.shown
  fits cipher member := (sound.serves cipher member).fits
  settled cipher member := (sound.serves cipher member).settled

theorem Sound.called {f' : Fleet σ ρ} {c' : Contents}
    (sound : f.Sound S B named valid appId secret c) {i : Nat} {cipher cipher' : Cipher}
    (there : f.ciphers[i]? = some cipher) (same : Cipher.Same cipher cipher')
    (ciphers : f'.ciphers = f.ciphers.set i cipher') (settled : f'.Settled S B named valid c') :
    f'.Sound S B named valid appId secret c' := by
  refine ⟨settled.inside, settled.shown, fun other member => ?_⟩
  refine ⟨settled.fits other member, settled.settled other member, fun ours => ?_⟩
  rw [ciphers] at member
  rcases List.mem_or_eq_of_mem_set member with before | rfl
  · exact (sound.serves other before).own ours
  · have serves := sound.serves cipher (List.mem_of_getElem? there)
    obtain ⟨key, standard⟩ := serves.own (same.appId.symm.trans ours)
    exact ⟨same.secret.trans key, same.schemes.trans standard⟩

theorem serves_ofSchemes {other : String} {key : Bytes} {schemes : List Scheme}
    (fits : (Action.start other key schemes).Fits S named appId secret) :
    (Cipher.ofSchemes other key schemes).Serves S named appId secret c where
  fits := fits_ofSchemes fits.1
  settled := settled_ofSchemes other key schemes
  own same := by
    obtain ⟨rfl, rfl⟩ := fits.2 same
    refine ⟨rfl, ?_⟩
    rw [Cipher.Standard, Cipher.schemes_ofSchemes]
    exact List.mergeSort_of_pairwise (by simp [Scheme.standard, Scheme.searchable, Scheme.randomised])

theorem Sound.perform (keeps : B.KeepsFirst named valid)
    (sound : f.Sound S B named valid appId secret c) {a : Action}
    (fits : a.Fits S named appId secret) :
    ∃ c', c.Grows c' ∧ (f.perform S B w a).2.Sound S B named valid appId secret c' := by
  cases a with
  | start other key schemes =>
    refine ⟨c, .refl c, sound.inside, sound.shown, ?_⟩
    exact forall_started sound.serves (serves_ofSchemes fits)
  | call i call =>
    refine kept_of_call sound fun there => ?_
    obtain ⟨_, _, cipher', c', -, -, ciphers, same, grows, -, settled⟩ :=
      sound.settled.call (w := w) keeps there call
    exact ⟨c', grows, sound.called there same ciphers settled⟩

theorem Sound.after (keeps : B.KeepsFirst named valid)
    (sound : f.Sound S B named valid appId secret c) {actions : List Action}
    (fits : ∀ a ∈ actions, a.Fits S named appId secret) :
    ∃ c', c.Grows c' ∧ (f.after S B w actions).Sound S B named valid appId secret c' :=
  kept_of_actions (fun holds fit => holds.perform keeps fit) sound fits

/-- The application of a cipher, if it was started. -/
def appOf (f : Fleet σ ρ) (i : Nat) : Option String := f.ciphers[i]?.map Cipher.appId

theorem there_of_appOf {i : Nat} (owner : f.appOf i = some appId) :
    ∃ cipher, f.ciphers[i]? = some cipher ∧ cipher.appId = appId :=
  Option.map_eq_some_iff.mp owner

theorem Sound.encrypted (keeps : B.KeepsFirst named valid) (inverts : S.AesInverts)
    (sound : f.Sound S B named valid appId secret c) {i : Nat} {text whole : String}
    (owner : f.appOf i = some appId)
    (told : (f.perform S B w (.call i (.encrypt text))).1 = some (.ok (some whole))) :
    ∃ c', c'.Reads S appId secret whole text ∧
      (f.perform S B w (.call i (.encrypt text))).2.Sound S B named valid appId secret c' := by
  obtain ⟨cipher, there, ours⟩ := there_of_appOf owner
  obtain ⟨key, standard⟩ := (sound.serves cipher (List.mem_of_getElem? there)).own ours
  obtain ⟨cipher', c', ciphers, same, writes, settled⟩ :=
    sound.settled.encrypted keeps there standard.searchable told
  rw [ours, key] at writes
  exact ⟨c', writes.reads inverts, sound.called there same ciphers settled⟩

theorem Sound.decrypted {i : Nat} {text whole : String}
    (sound : f.Sound S B named valid appId secret c) (owner : f.appOf i = some appId)
    (reads : c.Reads S appId secret whole text) :
    (f.perform S B w (.call i (.decrypt whole))).1 = some (.ok (some text)) := by
  obtain ⟨cipher, there, ours⟩ := there_of_appOf owner
  obtain ⟨events, answer, cipher', store, others, given, answers, done⟩ :=
    perform_call (B := B) (w := w) there (.decrypt whole)
  obtain ⟨fits, settled, own⟩ := sound.serves cipher (List.mem_of_getElem? there)
  obtain ⟨key, standard⟩ := own ours
  obtain ⟨⟨_, _⟩, decrypting, same⟩ := Program.gives_bind_pure.mp given
  cases same
  rw [done, Cipher.decrypt_of_reads standard.searchable fits settled sound.shown
    (by rwa [ours, key]) decrypting answers]
  rfl

/-- Whatever ciphers are started and called before and after, on a store that had whatever records to
begin with, a text that one cipher of an application has encrypted is decrypted by any of them. -/
theorem text_survives (keeps : B.KeepsFirst named valid) (inverts : S.AesInverts)
    {before later : List Action} {i j : Nat} {text whole : String} (empty : f.ciphers = [])
    (inside : valid f.store) (shown : B.Shows named f.store c)
    (fits : ∀ a ∈ before ++ .call i (.encrypt text) :: later, a.Fits S named appId secret)
    (writer : (f.after S B w before).appOf i = some appId)
    (encrypted : ((f.after S B w before).perform S B w (.call i (.encrypt text))).1 =
      some (.ok (some whole)))
    (reader : (f.after S B w (before ++ .call i (.encrypt text) :: later)).appOf j = some appId) :
    ((f.after S B w (before ++ .call i (.encrypt text) :: later)).perform S B w
      (.call j (.decrypt whole))).1 = some (.ok (some text)) := by
  obtain ⟨fitsBefore, fitsLater⟩ := List.forall_mem_append.mp fits
  have begun : f.Sound S B named valid appId secret c :=
    ⟨inside, shown, fun cipher member => absurd (empty ▸ member) List.not_mem_nil⟩
  obtain ⟨c₁, -, sound₁⟩ := begun.after (w := w) keeps fitsBefore
  obtain ⟨c₂, reads, sound₂⟩ := sound₁.encrypted keeps inverts writer encrypted
  obtain ⟨c₃, grows, sound₃⟩ := sound₂.after (w := w) keeps
    (List.forall_mem_cons.mp fitsLater).2
  rw [after_append] at reader ⊢
  exact sound₃.decrypted reader (reads.later grows)

theorem told_of_encrypt {i : Nat} {cipher cipher' : Cipher} {text whole : String}
    {events : List Event} {s' : σ × ρ} (there : f.ciphers[i]? = some cipher)
    (given : (cipher.encrypt S text).Gives events (.ok whole, cipher'))
    (answers : (B.among w).Answers (f.store, f.others) events s') :
    (f.perform S B w (.call i (.encrypt text))).1 = some (.ok (some whole)) := by
  have called : (cipher.call S (.encrypt text)).Gives events (.ok (some whole), cipher') :=
    Program.gives_bind_pure.mpr ⟨_, given, rfl⟩
  simp only [perform, there, Program.run_eq_of_gives called answers]

/-- Two ciphers of an application, one of them started after the other has encrypted. -/
theorem text_survives_small : ∃ whole,
    let f : Fleet (Table (String × String) Record) (Exchange.Host (Table String KeyPair)) :=
      ⟨[], .empty, ⟨0, .empty, .empty⟩⟩
    let w := Exchange.Host.answer KeyPair.Backend.memory Exchange.Small.chance
    let start : Action := .start "app" [1, 2] (Scheme.standard Suite.small)
    let encrypt : Action := .call 0 (.encrypt "text")
    ((f.after Suite.small .memory w [start]).perform Suite.small .memory w encrypt).1 =
        some (.ok (some whole)) ∧
      ((f.after Suite.small .memory w [start, encrypt, start]).perform Suite.small .memory w
        (.call 1 (.decrypt whole))).1 = some (.ok (some "text")) := by
  let f : Fleet (Table (String × String) Record) (Exchange.Host (Table String KeyPair)) :=
    ⟨[], .empty, ⟨0, .empty, .empty⟩⟩
  let w := Exchange.Host.answer KeyPair.Backend.memory Exchange.Small.chance
  let start : Action := .start "app" [1, 2] (Scheme.standard Suite.small)
  let encrypt : Action := .call 0 (.encrypt "text")
  have fits : start.Fits Suite.small (fun _ => True) "app" [1, 2] :=
    ⟨Scheme.fits_standard fun _ _ => trivial, fun _ => ⟨rfl, rfl⟩⟩
  have serves : (Cipher.ofSchemes "app" [1, 2] (Scheme.standard Suite.small)).Serves Suite.small
      (fun _ => True) "app" [1, 2] fun _ => none := serves_ofSchemes fits
  obtain ⟨events, whole, _, _, given, answers⟩ := Cipher.encrypt_fresh (w := w) (c := fun _ => none)
    (s := (f.store, f.others)) Backend.memory_keepsFirst (serves.own rfl).2.searchable serves.fits
    (Cipher.locked_ofSchemes _ _ _) trivial (fun _ _ => rfl) rfl "text"
  have told := told_of_encrypt (f := f.after Suite.small .memory w [start]) (i := 0) rfl given answers
  have all : ∀ a ∈ [start] ++ encrypt :: [start], a.Fits Suite.small (fun _ => True) "app" [1, 2] := by
    intro a member
    simp only [List.cons_append, List.nil_append, List.mem_cons, List.not_mem_nil, or_false] at member
    rcases member with rfl | rfl | rfl
    · exact fits
    · trivial
    · exact fits
  exact ⟨whole, told, text_survives (f := f) (c := fun _ => none) Backend.memory_keepsFirst
    (fun _ _ _ _ => rfl) rfl trivial (fun _ _ => rfl) all rfl told rfl⟩

end Fleet

end KeyService.LocalText
