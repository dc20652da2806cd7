import KeyService.LocalText.Cipher
import KeyService.Proofs.Bytes.Base64
import KeyService.Proofs.LocalText.Backend
import KeyService.Proofs.Program.Trace
import KeyService.Proofs.Symmetric.Inverse

/-! Where the keys of a scheme come from.
They are those of a record that the store told: one that was found there, or the one that
was there after a new one was to be kept. Which of the two it is makes no difference, as a
record stays as it is once the store has it. -/
namespace KeyService.LocalText

variable {S : Suite} {appId header : String} {secret : Bytes} {keys : Keys} {r : Record}
  {events : List Event}

theorem wrap_name {salt nonce : Bytes} {createdAt : String}
    (wrapped : Record.wrap S appId header secret salt nonce keys createdAt = .ok r) :
    r.name = (appId, header) := by
  unfold Record.wrap at wrapped
  cases encrypted : (Symmetric.Algorithm.aes256GcmSiv.encrypt S (rootKey secret salt) nonce
      keys.dataKey).mapError Error.symmetric with
  | error e =>
    rw [encrypted] at wrapped
    cases wrapped
  | ok whole =>
    rw [encrypted] at wrapped
    obtain rfl := Except.ok.inj wrapped
    rfl

theorem length_rootKey (secret salt : Bytes) : (rootKey secret salt).length = 32 :=
  Pbkdf2.length_derive ..

theorem unwrap_wrap (S : Suite) (appId header : String) (secret salt : Bytes) {nonce : Bytes}
    (proper : nonce.length = 12) (keys : Keys) (createdAt : String) :
    ∃ r, Record.wrap S appId header secret salt nonce keys createdAt = .ok r ∧
      r.unwrap S secret = .ok keys := by
  have rooted := length_rootKey secret salt
  let whole := GcmSiv.sealed (GcmSiv.keys S.aes (rootKey secret salt) nonce) keys.dataKey
  let r : Record := ⟨appId, header, Base64.standard.encode salt,
    Base64.standard.encode (nonce ++ whole), Base64.standard.encode keys.iv, createdAt⟩
  have long : ¬ (nonce ++ whole).length ≤ 12 := by
    have length : whole.length = keys.dataKey.length + 16 := GcmSiv.length_sealed ..
    rw [List.length_append]
    omega
  have front : (nonce ++ whole).take 12 = nonce := List.take_left' proper
  have back : (nonce ++ whole).drop 12 = whole := List.drop_left' proper
  have wrapped : Record.wrap S appId header secret salt nonce keys createdAt = .ok r := by
    rw [Record.wrap, Symmetric.Algorithm.encrypt_sealing rooted proper]
    rfl
  have opened : Symmetric.Algorithm.aes256GcmSiv.decrypt S (rootKey secret salt) nonce whole =
      .ok keys.dataKey := (Symmetric.Algorithm.decrypt_sealing_iff rooted proper).mpr rfl
  refine ⟨r, wrapped, ?_⟩
  rw [Record.unwrap]
  simp only [r, Base64.Form.decode?_encode Base64.Form.standard_proper, if_neg long, front, back,
    opened]

theorem gives_create {keyLength ivLength : Nat} :
    (Record.create S appId header secret keyLength ivLength).run.Gives events (.ok r) ↔
      ∃ (salt : RandomBytes 16) (dataKey : RandomBytes keyLength) (nonce : RandomBytes 12)
        (iv : RandomBytes ivLength) (now : Int64),
        events = [⟨.random 16, salt⟩, ⟨.random keyLength, dataKey⟩, ⟨.random 12, nonce⟩,
          ⟨.random ivLength, iv⟩, ⟨.now, now⟩] ∧
        Record.wrap S appId header secret salt.val nonce.val ⟨dataKey.val, iv.val⟩
          (Text.dateTime now.toInt) = .ok r := by
  unfold Record.create
  simp only [Program.gives_draw_bind, Program.gives_time_bind, Program.gives_except_ok]
  constructor
  · rintro ⟨salt, _, rfl, dataKey, _, rfl, nonce, _, rfl, iv, _, rfl, now, _, rfl, rfl, wrapped⟩
    exact ⟨salt, dataKey, nonce, iv, now, rfl, wrapped⟩
  · rintro ⟨salt, dataKey, nonce, iv, now, rfl, wrapped⟩
    exact ⟨salt, _, rfl, dataKey, _, rfl, nonce, _, rfl, iv, _, rfl, now, [], rfl, rfl, wrapped⟩

/-- The traces that lead to a record: it was there, or one was made and kept, and this is the
answer. -/
inductive Obtains (S : Suite) (appId : String) (secret : Bytes) (scheme : Scheme) (r : Record) :
    List Event → Prop where
  | there : Obtains S appId secret scheme r [⟨.findRecord appId scheme.header, .ok (some r)⟩]
  | kept {making : List Event} {created : Record} :
      (Record.create S appId scheme.header secret scheme.keyLength scheme.ivLength).run.Gives
        making (.ok created) →
      Obtains S appId secret scheme r (⟨.findRecord appId scheme.header, .ok none⟩ :: making ++
        [⟨.keepRecord created, .ok r⟩])

theorem gives_load {scheme : Scheme} :
    (Cipher.load S appId secret scheme).run.Gives events (.ok keys) ↔
      ∃ r, Obtains S appId secret scheme r events ∧ r.unwrap S secret = .ok keys := by
  unfold Cipher.load
  simp only [Program.gives_bind_ok, ExceptT.run_mk, Program.gives_getRecord]
  constructor
  · rintro ⟨found, _, rest, rfl, rfl, given⟩
    cases found with
    | some r =>
      simp only [Program.gives_bind_ok, Program.gives_pure_ok, Program.gives_except_ok] at given
      obtain ⟨_, _, _, rfl, ⟨rfl, rfl⟩, rfl, unwrapped⟩ := given
      exact ⟨r, .there, unwrapped⟩
    | none =>
      simp only [Program.gives_bind_ok, ExceptT.run_mk, Program.gives_setRecord,
        Program.gives_except_ok] at given
      obtain ⟨created, making, _, rfl, made, r, _, _, rfl, rfl, rfl, unwrapped⟩ := given
      exact ⟨r, .kept made, unwrapped⟩
  · rintro ⟨r, obtained, unwrapped⟩
    cases obtained with
    | there =>
      refine ⟨some r, _, [], rfl, rfl, ?_⟩
      simp only [Program.gives_bind_ok, Program.gives_pure_ok, Program.gives_except_ok]
      exact ⟨r, [], [], rfl, ⟨rfl, rfl⟩, rfl, unwrapped⟩
    | @kept making created made =>
      refine ⟨none, [_], making ++ [_], rfl, rfl, ?_⟩
      simp only [Program.gives_bind_ok, ExceptT.run_mk, Program.gives_setRecord,
        Program.gives_except_ok]
      exact ⟨created, making, _, rfl, made, r, _, [], rfl, rfl, rfl, unwrapped⟩

/-- The traces on which a slot has its keys, loads them, or fails to and stays as it is. -/
inductive Unlocks (S : Suite) (appId : String) (secret : Bytes) (slot : Slot) :
    List Event → Except Error Keys → Slot → Prop where
  | ready {keys : Keys} : slot.keys = some keys → Unlocks S appId secret slot [] (.ok keys) slot
  | loaded {events : List Event} {keys : Keys} : slot.keys = none →
      (Cipher.load S appId secret slot.scheme).run.Gives events (.ok keys) →
      Unlocks S appId secret slot events (.ok keys) { slot with keys := some keys }
  | failed {events : List Event} {e : Error} : slot.keys = none →
      (Cipher.load S appId secret slot.scheme).run.Gives events (.error e) →
      Unlocks S appId secret slot events (.error e) slot

theorem gives_unlock {slot slot' : Slot} {answer : Except Error Keys} :
    (Cipher.unlock S appId secret slot).Gives events (answer, slot') ↔
      Unlocks S appId secret slot events answer slot' := by
  unfold Cipher.unlock
  constructor
  · intro given
    split at given
    · rename_i keys loaded
      obtain ⟨rfl, same⟩ := Program.gives_pure.mp given
      cases same
      exact .ready loaded
    · rename_i empty
      obtain ⟨result, before, after, rfl, loading, ended⟩ := Program.gives_bind.mp given
      cases result with
      | error e =>
        obtain ⟨rfl, same⟩ := Program.gives_pure.mp ended
        cases same
        exact .failed empty (by rwa [List.append_nil])
      | ok keys =>
        obtain ⟨rfl, same⟩ := Program.gives_pure.mp ended
        cases same
        exact .loaded empty (by rwa [List.append_nil])
  · intro unlocks
    cases unlocks with
    | ready loaded =>
      simp only [loaded]
      exact Program.gives_pure.mpr ⟨rfl, rfl⟩
    | loaded empty loading =>
      simp only [empty]
      exact Program.gives_bind.mpr ⟨_, events, [], (List.append_nil _).symm, loading,
        Program.gives_pure.mpr ⟨rfl, rfl⟩⟩
    | failed empty loading =>
      simp only [empty]
      exact Program.gives_bind.mpr ⟨_, events, [], (List.append_nil _).symm, loading,
        Program.gives_pure.mpr ⟨rfl, rfl⟩⟩

theorem Unlocks.loads {slot slot' : Slot} {keys : Keys}
    (unlocks : Unlocks S appId secret slot events (.ok keys) slot') : slot'.keys = some keys := by
  cases unlocks with
  | ready loaded => exact loaded
  | loaded _ _ => rfl

theorem Unlocks.scheme {slot slot' : Slot} {answer : Except Error Keys}
    (unlocks : Unlocks S appId secret slot events answer slot') : slot'.scheme = slot.scheme := by
  cases unlocks <;> rfl

end KeyService.LocalText
