import KeyService.Proofs.Exchange.Completion
import KeyService.Proofs.LocalText.Scheme
import KeyService.Proofs.LocalText.Served
import KeyService.Proofs.Store.Calls
import Mathlib.Data.List.Nodup

/-! Which scheme a text goes to.
A cipher keeps its schemes sorted, so the one with the least order encrypts, and of several such the
one that was given first. Where no header is the start of another one, a ciphertext is known to the
scheme that made it and to no other, and so in whatever order the schemes were given. -/
namespace KeyService.LocalText

variable {S : Suite} {appId : String} {secret : Bytes} {schemes : List Scheme}

theorem order_trans (a b c : Scheme) : decide (a.order ≤ b.order) → decide (b.order ≤ c.order) →
    decide (a.order ≤ c.order) := by
  simp only [decide_eq_true_eq]
  exact Int.le_trans

theorem order_total (a b : Scheme) : decide (a.order ≤ b.order) || decide (b.order ≤ a.order) := by
  simp only [Bool.or_eq_true, decide_eq_true_eq]
  exact Int.le_total _ _

theorem sorted_mergeSort (schemes : List Scheme) :
    (schemes.mergeSort fun a b => a.order ≤ b.order).Pairwise fun a b => a.order ≤ b.order := by
  have sorted := List.pairwise_mergeSort order_trans order_total schemes
  simpa only [decide_eq_true_eq] using sorted

/-- The first scheme of the least order: those before it have a greater one, and those behind it have
no less. -/
def Foremost (schemes : List Scheme) (p : Scheme) : Prop :=
  ∃ before after, schemes = before ++ p :: after ∧ (∀ q ∈ before, p.order < q.order) ∧
    ∀ q ∈ after, p.order ≤ q.order

theorem Foremost.head? {p : Scheme} (foremost : Foremost schemes p) :
    (schemes.mergeSort fun a b => a.order ≤ b.order).head? = some p := by
  obtain ⟨before, after, rfl, greater, noLess⟩ := foremost
  induction before with
  | nil =>
    obtain ⟨front, back, whole, rest, less⟩ := List.mergeSort_cons order_trans order_total p after
    rw [List.nil_append, whole]
    cases front with
    | nil => rfl
    | cons q front =>
      -- Only what is less comes before `p`.
      have inside : q ∈ after.mergeSort fun a b => a.order ≤ b.order := by
        rw [rest]
        exact List.mem_cons_self
      have less' : q.order < p.order := by simpa using less q List.mem_cons_self
      exact absurd (noLess q (List.mem_mergeSort.mp inside)) (Int.not_le.mpr less')
  | cons q before ih =>
    obtain ⟨greatest, greater⟩ := List.forall_mem_cons.mp greater
    obtain ⟨front, back, whole, rest, -⟩ :=
      List.mergeSort_cons order_trans order_total q (before ++ p :: after)
    have sorted := sorted_mergeSort (q :: (before ++ p :: after))
    have first := ih greater
    rw [whole] at sorted
    rw [rest] at first
    rw [List.cons_append, whole]
    cases front with
    | nil =>
      -- Whatever comes behind `q` is not less.
      have behind : p ∈ back := List.mem_of_mem_head? first
      exact absurd ((List.pairwise_cons.mp sorted).1 p behind) (Int.not_le.mpr greatest)
    | cons r front => exact first

theorem mergeSort_of_perm {schemes' : List Scheme} (permuted : schemes'.Perm schemes)
    (distinct : (schemes.map Scheme.order).Nodup) :
    (schemes'.mergeSort fun a b => a.order ≤ b.order) =
      schemes.mergeSort fun a b => a.order ≤ b.order := by
  have permuted' := (List.mergeSort_perm schemes' fun a b => a.order ≤ b.order).trans
    (permuted.trans (List.mergeSort_perm schemes fun a b => a.order ≤ b.order).symm)
  refine List.Perm.eq_of_pairwise ?_ (sorted_mergeSort schemes') (sorted_mergeSort schemes) permuted'
  intro a b inside inside' less more
  have first : a ∈ schemes := permuted.mem_iff.mp (List.mem_mergeSort.mp inside)
  have second : b ∈ schemes := List.mem_mergeSort.mp inside'
  exact List.inj_on_of_nodup_map distinct first second (Int.le_antisymm less more)

namespace Scheme

variable {a b scheme : Scheme} {whole : String}

/-- Neither header is the start of the other one. -/
def Apart (a b : Scheme) : Prop :=
  ¬ a.header.toList <+: b.header.toList ∧ ¬ b.header.toList <+: a.header.toList

theorem Apart.symm (apart : a.Apart b) : b.Apart a := ⟨apart.2, apart.1⟩

theorem supports_iff : scheme.supports whole = true ↔ scheme.header.toList <+: whole.toList := by
  rw [supports, Text.startsWith, List.isPrefixOf_iff_prefix]

theorem unsupported_iff :
    scheme.supports whole = false ↔ ¬ scheme.header.toList <+: whole.toList := by
  rw [← supports_iff, Bool.not_eq_true]

theorem Apart.unsupported (apart : a.Apart b) (known : b.supports whole = true) :
    a.supports whole = false := by
  apply unsupported_iff.mpr
  intro starts
  rcases List.prefix_or_prefix_of_prefix starts (supports_iff.mp known) with first | second
  · exact apart.1 first
  · exact apart.2 second

/-- With the keys, a scheme puts its header in front of what it encrypts, and decrypts it. -/
def Inverts (scheme : Scheme) (keys : Keys) : Prop :=
  ∀ text events whole, (scheme.encrypt keys text).run.Gives events (.ok whole) →
    scheme.header.toList <+: whole.toList ∧ scheme.decrypt keys whole = .ok text

theorem searchable_inverts (inverts : S.AesInverts) (keys : Keys) :
    (searchable S).Inverts keys := by
  intro text events whole encrypted
  obtain ⟨known, decrypted⟩ := searchable_decrypts inverts encrypted
  exact ⟨supports_iff.mp known, decrypted⟩

theorem randomised_inverts (inverts : S.AesInverts) (keys : Keys) :
    (randomised S).Inverts keys := by
  intro text events whole encrypted
  obtain ⟨nonce, -, bytes, done, rfl⟩ := gives_randomised.mp encrypted
  have decrypted := Symmetric.Algorithm.decrypt_encrypt inverts done
  refine ⟨?_, randomised_decrypt_ok.mpr ⟨nonce.val, bytes, nonce.2, rfl, decrypted⟩⟩
  rw [parts_eq]
  exact supports_iff.mp (Text.startsWith_append "v2." _)

theorem standard_inverts (inverts : S.AesInverts) (member : scheme ∈ standard S) (keys : Keys) :
    scheme.Inverts keys := by
  simp only [standard, List.mem_cons, List.not_mem_nil, or_false] at member
  rcases member with rfl | rfl
  · exact searchable_inverts inverts keys
  · exact randomised_inverts inverts keys

theorem standard_apart (S : Suite) : (standard S).Pairwise Apart :=
  List.pairwise_pair.mpr (by simp [Apart, searchable, randomised])

end Scheme

variable {σ : Type} {W : Surroundings (StateM σ)} {s s' : σ} {cipher : Cipher}

/-- Surroundings whose store has an answer to every question about records. -/
structure Unfailing (W : Surroundings (StateM σ)) : Prop where
  find : ∀ appId header s e, (W.answer (.findRecord appId header) s).1 ≠ .error e
  keep : ∀ record s e, (W.answer (.keepRecord record) s).1 ≠ .error e

theorem made_of_create {header : String} {keyLength ivLength : Nat} {events : List Event}
    {made : Except Error Record}
    (given : (Record.create S appId header secret keyLength ivLength).run.Gives events made) :
    ∃ r, made = .ok r := by
  unfold Record.create at given
  simp only [Program.gives_draw_bind, Program.gives_time_bind] at given
  obtain ⟨salt, _, -, dataKey, _, -, nonce, _, -, iv, _, -, now, _, -, wrapped⟩ := given
  obtain ⟨r, done, -⟩ := unwrap_wrap S appId header secret salt.val nonce.2
    ⟨dataKey.val, iv.val⟩ (Text.dateTime now.toInt)
  rw [done] at wrapped
  exact ⟨r, (Program.gives_pure.mp wrapped).2.symm⟩

theorem unfailing_memory {ρ : Type} (w : (question : Question) → StateM ρ question.Answer) :
    Unfailing (Backend.memory.among w) where
  find appId header s e failed := by
    cases (failed : Except.ok (s.1.find? (appId, header)) = .error e)
  keep record s e failed := by
    change (Backend.memory.keep s.1 record).1 = .error e at failed
    cases there : s.1.find? (record.appId, record.markHeader) with
    | none =>
      simp only [Backend.memory, there] at failed
      cases failed
    | some first =>
      simp only [Backend.memory, there] at failed
      cases failed

/-- Where the store has its answers, keys that cannot be loaded are those of a record which cannot be
unwrapped. -/
theorem Unfailing.obtains (unfailing : Unfailing W) {scheme : Scheme} {events : List Event} {e : Error}
    (given : (Cipher.load S appId secret scheme).run.Gives events (.error e))
    (answers : W.Answers s events s') :
    ∃ r, Obtains S appId secret scheme r events ∧ r.unwrap S secret = .error e := by
  unfold Cipher.load at given
  rcases Program.gives_act_bind.mp given with ⟨_, looked, -⟩ | ⟨found, _, rest, rfl, looked, loading⟩
  · obtain rfl := Program.gives_getRecord.mp looked
    have told := Surroundings.answers_single.mp answers
    exact absurd (congrArg Prod.fst told) (unfailing.find _ _ _ _)
  obtain rfl := Program.gives_getRecord.mp looked
  cases found with
  | some r =>
    obtain ⟨rfl, unwrapped⟩ := Program.gives_pure.mp loading
    exact ⟨r, .there, unwrapped⟩
  | none =>
    rcases Program.gives_act_bind.mp loading with
      ⟨_, failed, -⟩ | ⟨created, making, _, rfl, made, keeping⟩
    · obtain ⟨_, impossible⟩ := made_of_create failed
      cases impossible
    rcases Program.gives_act_bind.mp keeping with ⟨_, kept, -⟩ | ⟨r, _, _, rfl, kept, unwrapping⟩
    · obtain rfl := Program.gives_setRecord.mp kept
      obtain ⟨_, -, others⟩ := Surroundings.answers_append.mp answers
      obtain ⟨_, -, keeping⟩ := Surroundings.answers_append.mp others
      have told := Surroundings.answers_single.mp keeping
      exact absurd (congrArg Prod.fst told) (unfailing.keep _ _ _)
    · obtain rfl := Program.gives_setRecord.mp kept
      obtain ⟨rfl, unwrapped⟩ := Program.gives_pure.mp unwrapping
      rw [List.append_nil]
      exact ⟨r, .kept made, unwrapped⟩

namespace Cipher

/-- The answer to a call in its surroundings, and what the call leaves behind. -/
def handle (S : Suite) (W : Surroundings (StateM σ)) (held : Cipher × σ) (call : Call) :
    Except Error (Option String) × Cipher × σ :=
  let ended := (held.1.call S call).run W held.2
  (ended.1.1, ended.1.2, ended.2)

theorem handle_of_calls {call : Call} {events : List Event} {answer : Except Error (Option String)}
    {cipher' : Cipher} (calls : Calls S cipher call events answer cipher')
    (answers : W.Answers s events s') : handle S W (cipher, s) call = (answer, cipher', s') := by
  simp only [handle, Program.run_eq_of_gives calls.gives answers]

theorem stays_of_work (calls : List Call) :
    cipher.Stays (Store.work (handle S W) (cipher, s) calls).2.1 := by
  induction calls generalizing cipher s with
  | nil => exact .refl _
  | cons call calls ih =>
    obtain ⟨events, given, -⟩ := Program.gives_of_run (w := W) (cipher.call S call) s
    exact (calls_of_gives given).stays.trans ih

/-- What a scheme can be used with now: the keys that are loaded already or at once, or the failure. -/
def Offers (S : Suite) (W : Surroundings (StateM σ)) (cipher : Cipher) (s : σ) (scheme : Scheme)
    (keys : Except Error Keys) (s' : σ) : Prop :=
  ∃ slot ∈ cipher.slots, slot.scheme = scheme ∧
    ∃ slot', (unlock S cipher.appId cipher.secret slot).run W s = ((keys, slot'), s')

theorem offers_of_unfailing (unfailing : Unfailing W) {scheme : Scheme}
    (listed : scheme ∈ cipher.slots.map Slot.scheme) :
    ∃ keys s', cipher.Offers S W s scheme keys s' ∧ ∀ e, keys = .error e →
      ∃ r events, W.Answers s events s' ∧
        Obtains S cipher.appId cipher.secret scheme r events ∧
        r.unwrap S cipher.secret = .error e := by
  obtain ⟨slot, member, rfl⟩ := List.mem_map.mp listed
  obtain ⟨events, given, answers⟩ :=
    Program.gives_of_run (w := W) (unlock S cipher.appId cipher.secret slot) s
  obtain ⟨⟨⟨keys, slot'⟩, s'⟩, unlocked⟩ : ∃ ended,
    (unlock S cipher.appId cipher.secret slot).run W s = ended := ⟨_, rfl⟩
  rw [unlocked] at given answers
  refine ⟨keys, s', ⟨slot, member, rfl, slot', unlocked⟩, ?_⟩
  rintro e rfl
  cases gives_unlock.mp given with
  | failed _ loading =>
    obtain ⟨r, obtained, broken⟩ := unfailing.obtains loading answers
    exact ⟨r, events, answers, obtained, broken⟩

theorem handle_encrypt {slot slot' : Slot} {others : List Slot} {keys : Except Error Keys}
    (slots : cipher.slots = slot :: others)
    (unlocked : (unlock S cipher.appId cipher.secret slot).run W s = ((keys, slot'), s'))
    (text : String) : (handle S W (cipher, s) (.encrypt text)).1 =
      (keys.bind fun keys => ((slot.scheme.encrypt keys text).run.run W s').1).map some := by
  obtain ⟨before, given, loading⟩ :=
    Program.gives_of_run (w := W) (unlock S cipher.appId cipher.secret slot) s
  rw [unlocked] at given loading
  have unlocks := gives_unlock.mp given
  cases keys with
  | ok keys =>
    obtain ⟨own, worked, working⟩ :=
      Program.gives_of_run (w := W) (slot.scheme.encrypt keys text).run s'
    have calls := Calls.encrypt (Encrypts.worked slots unlocks worked)
    exact congrArg Prod.fst (handle_of_calls calls (loading.append working))
  | error e =>
    cases unlocks with
    | failed empty failed =>
      have calls : Calls S cipher (.encrypt text) _ _ _ :=
        .encrypt (.failed slots (.failed empty failed))
      exact congrArg Prod.fst (handle_of_calls calls loading)

theorem handle_decrypt {slot slot' : Slot} {front back : List Slot} {keys : Except Error Keys}
    {whole : String} (slots : cipher.slots = front ++ slot :: back)
    (unknown : ∀ other ∈ front, other.scheme.supports whole = false)
    (known : slot.scheme.supports whole = true)
    (unlocked : (unlock S cipher.appId cipher.secret slot).run W s = ((keys, slot'), s')) :
    (handle S W (cipher, s) (.decrypt whole)).1 =
      (keys.bind fun keys => slot.scheme.decrypt keys whole).map some := by
  obtain ⟨events, given, loading⟩ :=
    Program.gives_of_run (w := W) (unlock S cipher.appId cipher.secret slot) s
  rw [unlocked] at given loading
  have calls := Calls.decrypt (Decrypts.known slots unknown known (gives_unlock.mp given))
  exact congrArg Prod.fst (handle_of_calls calls loading)

/-- How a cipher finds the scheme for a text, if it uses its surroundings as they are now. -/
structure Routes (S : Suite) (W : Surroundings (StateM σ)) (schemes : List Scheme) (cipher : Cipher)
    (s : σ) : Prop where
  /-- Each scheme has its keys, unless the record that the store has for it cannot be unwrapped. -/
  keyed : ∀ scheme ∈ schemes, ∃ keys s', cipher.Offers S W s scheme keys s' ∧
    ∀ e, keys = .error e → ∃ r events, W.Answers s events s' ∧
      Obtains S cipher.appId cipher.secret scheme r events ∧ r.unwrap S cipher.secret = .error e
  /-- The first scheme of the least order encrypts. -/
  encrypts : ∀ p, Foremost schemes p → ∀ keys s', cipher.Offers S W s p keys s' → ∀ text,
      (handle S W (cipher, s) (.encrypt text)).1 =
        (keys.bind fun keys => ((p.encrypt keys text).run.run W s').1).map some
  /-- What any scheme has encrypted with its keys is decrypted. -/
  decrypts : ∀ scheme ∈ schemes, ∀ keys s', cipher.Offers S W s scheme (.ok keys) s' →
    scheme.Inverts keys → ∀ text events whole,
      (scheme.encrypt keys text).run.Gives events (.ok whole) →
      (handle S W (cipher, s) (.decrypt whole)).1 = .ok (some text)
  /-- Nothing is asked about a text without a header. -/
  unknown : ∀ whole, (∀ scheme ∈ schemes, ¬ scheme.header.toList <+: whole.toList) →
    cipher.decrypt S whole = pure (.error .headerNotMatch, cipher)

theorem pairwise_slots (apart : schemes.Pairwise Scheme.Apart)
    (sorted : cipher.slots.map Slot.scheme = schemes.mergeSort fun a b => a.order ≤ b.order) :
    cipher.slots.Pairwise fun a b => a.scheme.Apart b.scheme := by
  apply List.pairwise_map.mp
  rw [sorted]
  exact ((List.mergeSort_perm ..).pairwise_iff Scheme.Apart.symm).mpr apart

theorem routes_of_sorted (unfailing : Unfailing W) (apart : schemes.Pairwise Scheme.Apart)
    (sorted : cipher.slots.map Slot.scheme = schemes.mergeSort fun a b => a.order ≤ b.order) :
    Routes S W schemes cipher s := by
  have slots_apart := pairwise_slots apart sorted
  have listed {scheme : Scheme} : scheme ∈ schemes ↔ scheme ∈ cipher.slots.map Slot.scheme := by
    rw [sorted, List.mem_mergeSort]
  constructor
  case keyed => exact fun scheme member => offers_of_unfailing unfailing (listed.mp member)
  case encrypts =>
    rintro p foremost keys s' ⟨slot, member, same, slot', unlocked⟩ text
    have least := foremost.head?
    rw [← sorted] at least
    cases slots : cipher.slots with
    | nil =>
      rw [slots] at least
      cases least
    | cons first others =>
      rw [slots] at least member slots_apart
      have here : first.scheme = p := Option.some.inj least
      rcases List.mem_cons.mp member with rfl | later
      · rw [handle_encrypt slots unlocked, same]
      · -- A second slot with this scheme would have the same header.
        have distinct := (List.pairwise_cons.mp slots_apart).1 slot later
        rw [here, same] at distinct
        exact absurd List.prefix_rfl distinct.1
  case decrypts =>
    rintro scheme - keys s' ⟨slot, member, rfl, slot', unlocked⟩ inverts text events whole encrypted
    obtain ⟨starts, decrypted⟩ := inverts text events whole encrypted
    have known : slot.scheme.supports whole = true := Scheme.supports_iff.mpr starts
    obtain ⟨front, back, slots⟩ := List.append_of_mem member
    rw [slots] at slots_apart
    have before := (List.pairwise_append.mp slots_apart).2.2
    have others : ∀ other ∈ front, other.scheme.supports whole = false := fun other earlier =>
      (before other earlier slot List.mem_cons_self).unsupported known
    rw [handle_decrypt slots others known unlocked]
    exact congrArg (Except.map some) decrypted
  case unknown =>
    intro whole unmarked
    refine decrypt_unknown fun slot member => ?_
    exact Scheme.unsupported_iff.mpr
      (unmarked slot.scheme (listed.mpr (List.mem_map_of_mem member)))

/-- On a store that has its answers, and whatever the cipher was used for, a text goes to its scheme.
Where no two schemes have the same order, it makes no difference in which order they were given. -/
theorem routes_after (S : Suite) (unfailing : Unfailing W) (apart : schemes.Pairwise Scheme.Apart)
    (appId : String) (secret : Bytes) (begun : σ) (calls : List Call) :
    Routes S W schemes
        (Store.work (handle S W) (ofSchemes appId secret schemes, begun) calls).2.1
        (Store.work (handle S W) (ofSchemes appId secret schemes, begun) calls).2.2 ∧
      ∀ schemes', schemes'.Perm schemes → (schemes.map Scheme.order).Nodup →
        Store.work (handle S W) (ofSchemes appId secret schemes', begun) calls =
          Store.work (handle S W) (ofSchemes appId secret schemes, begun) calls := by
  constructor
  · have same : Same (ofSchemes appId secret schemes) _ :=
      (stays_of_work (S := S) (W := W) (s := begun) calls).same
    exact routes_of_sorted unfailing apart (same.schemes.trans (schemes_ofSchemes ..))
  · intro schemes' permuted distinct
    have sorted := mergeSort_of_perm permuted distinct
    rw [ofSchemes, ofSchemes, sorted]

/-- The scheme that draws a nonce was given first. The other one encrypts nevertheless, and this one
decrypts what was made with the keys of its record. -/
theorem routes_after_small : ∃ (r : Record) (whole : String),
    let W := Backend.memory.among (Exchange.Host.answer KeyPair.Backend.memory Exchange.Small.chance)
    let schemes := [Scheme.randomised Suite.small, Scheme.searchable Suite.small]
    let held := (ofSchemes "app" [1, 2] schemes,
      ((Table.empty.insert ("app", "v2.") r : Table (String × String) Record),
        (⟨0, .empty, .empty⟩ : Exchange.Host (Table String KeyPair))))
    Foremost schemes (Scheme.searchable Suite.small) ∧
      (∃ keys s', Offers Suite.small W held.1 held.2 (Scheme.searchable Suite.small) keys s' ∧
        (handle Suite.small W held (.encrypt "text")).1 = (keys.bind fun keys =>
          (((Scheme.searchable Suite.small).encrypt keys "text").run.run W s').1).map some) ∧
      (handle Suite.small W held (.decrypt whole)).1 = .ok (some "text") ∧
      (handle Suite.small W held (.decrypt "v9.text")).1 = .error .headerNotMatch ∧
      Store.work (handle Suite.small W) (ofSchemes "app" [1, 2] schemes.reverse, held.2)
        [.encrypt "text", .decrypt whole] =
        Store.work (handle Suite.small W) held [.encrypt "text", .decrypt whole] := by
  let W := Backend.memory.among (Exchange.Host.answer KeyPair.Backend.memory Exchange.Small.chance)
  let schemes := [Scheme.randomised Suite.small, Scheme.searchable Suite.small]
  let keys : Keys := ⟨List.replicate 32 1, []⟩
  let nonce : RandomBytes 12 := ⟨List.replicate 12 2, rfl⟩
  obtain ⟨r, -, unwrapped⟩ :=
    unwrap_wrap Suite.small "app" "v2." [1, 2] [3] nonce.2 keys "2024-01-01T00:00:00+00:00"
  have proper : keys.dataKey.length = 32 := rfl
  have done := Symmetric.Algorithm.encrypt_sealing (S := Suite.small) proper nonce.2
    (Bytes.ofText "text")
  have encrypted := Scheme.gives_randomised.mpr ⟨nonce, rfl, _, done, rfl⟩
  let begun : Table (String × String) Record × Exchange.Host (Table String KeyPair) :=
    (Table.empty.insert ("app", "v2.") r, ⟨0, .empty, .empty⟩)
  have loading : (load Suite.small "app" [1, 2] (Scheme.randomised Suite.small)).run.Gives
      [⟨.findRecord "app" "v2.", .ok (some r)⟩] (.ok keys) := gives_load.mpr ⟨r, .there, unwrapped⟩
  have found : W.Answers begun [⟨.findRecord "app" "v2.", .ok (some r)⟩] begun :=
    Surroundings.answers_single.mpr rfl
  have slot : (⟨Scheme.randomised Suite.small, none⟩ : Slot) ∈ (ofSchemes "app" [1, 2] schemes).slots :=
    List.mem_map_of_mem (List.mem_mergeSort.mpr List.mem_cons_self)
  have offers : (ofSchemes "app" [1, 2] schemes).Offers Suite.small W begun
      (Scheme.randomised Suite.small) (.ok keys) begun :=
    ⟨_, slot, rfl, _, Program.run_eq_of_gives (gives_unlock.mpr (.loaded rfl loading)) found⟩
  have apart : schemes.Pairwise Scheme.Apart :=
    ((List.reverse_perm (Scheme.standard Suite.small)).pairwise_iff Scheme.Apart.symm).mpr
      (Scheme.standard_apart Suite.small)
  have unfailing : Unfailing W := unfailing_memory _
  obtain ⟨now, -⟩ := routes_after Suite.small unfailing apart "app" [1, 2] begun []
  obtain ⟨offered, s', first, -⟩ := now.keyed (Scheme.searchable Suite.small) (by simp [schemes])
  have inverts : (Scheme.randomised Suite.small).Inverts keys :=
    Scheme.standard_inverts (S := Suite.small) (fun _ _ _ _ => rfl) (by simp [Scheme.standard]) keys
  have decrypted := now.decrypts (Scheme.randomised Suite.small) List.mem_cons_self keys begun offers
    inverts "text" _ _ encrypted
  have strange := now.unknown "v9.text" (by simp [schemes, Scheme.randomised, Scheme.searchable])
  have foremost : Foremost schemes (Scheme.searchable Suite.small) :=
    ⟨[Scheme.randomised Suite.small], [], rfl,
      by simp [Scheme.randomised, Scheme.searchable], by simp⟩
  refine ⟨r, _, foremost,
    ⟨offered, s', first, now.encrypts _ foremost offered s' first "text"⟩, decrypted, ?_, ?_⟩
  · have given : ((ofSchemes "app" [1, 2] schemes).decrypt Suite.small "v9.text").Gives [] _ :=
      strange ▸ Program.gives_pure.mpr ⟨rfl, rfl⟩
    have calls := Calls.decrypt (decrypts_of_gives given)
    exact congrArg Prod.fst (handle_of_calls calls (.nil begun))
  · exact (routes_after Suite.small unfailing apart "app" [1, 2] begun _).2 schemes.reverse
      (List.reverse_perm schemes) (by decide)

end Cipher

end KeyService.LocalText
