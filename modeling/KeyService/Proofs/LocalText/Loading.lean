import KeyService.Proofs.LocalText.Served
import KeyService.Proofs.Program.Pool
import KeyService.Proofs.Suite.Small

/-! Keys that are loaded when a call needs them.
A call loads the keys that it needs and that are not there, in the order of the schemes. If this
fails, the call ends with the failure, and the scheme is still without keys when it is needed again.
Keys that are there are not loaded a second time, so whatever the store does later, they stay. -/
namespace KeyService.LocalText

/-- An attempt to load the keys of the scheme in some place. -/
structure Loading where
  index : Nat
  events : List Event
  result : Except Error Keys

def Loading.Worked (l : Loading) : Prop := ∃ keys, l.result = .ok keys

namespace Cipher

variable {S : Suite} {cipher cipher' : Cipher} {call : Call} {events own : List Event}
  {places : List Nat} {loadings : List Loading} {failure : Option Error} {slot slot' : Slot}

/-- The places of the schemes that a call needs, in their order. -/
def needed (cipher : Cipher) : Call → List Nat
  | .encrypt _ => (List.range cipher.slots.length).take 1
  | .decrypt whole => (cipher.slots.findIdx? fun slot => slot.scheme.supports whole).toList
  | .load => List.range cipher.slots.length

theorem nodup_needed (cipher : Cipher) (call : Call) : (cipher.needed call).Nodup := by
  cases call with
  | encrypt text => exact List.nodup_range.sublist (List.take_sublist _ _)
  | decrypt whole =>
    change (cipher.slots.findIdx? fun slot => slot.scheme.supports whole).toList.Nodup
    cases cipher.slots.findIdx? fun slot => slot.scheme.supports whole with
    | none => exact List.nodup_nil
    | some i => exact List.nodup_singleton i
  | load => exact List.nodup_range

/-- The scheme in this place has no keys. -/
def lacks (cipher : Cipher) (i : Nat) : Bool := cipher.slots[i]?.any fun slot => slot.keys.isNone

theorem lacks_of_none {i : Nat} (there : cipher.slots[i]? = some slot) (empty : slot.keys = none) :
    cipher.lacks i = true := by
  rw [lacks, there, Option.any_some, empty, Option.isNone_none]

theorem lacks_of_some {i : Nat} {keys : Keys} (there : cipher.slots[i]? = some slot)
    (loaded : slot.keys = some keys) : cipher.lacks i = false := by
  rw [lacks, there, Option.any_some, loaded, Option.isNone_some]

def put (cipher : Cipher) (i : Nat) (slot : Slot) : Cipher :=
  { cipher with slots := cipher.slots.set i slot }

theorem slot_put_self {i : Nat} (there : cipher.slots[i]? = some slot) :
    (cipher.put i slot').slots[i]? = some slot' := by
  obtain ⟨inside, -⟩ := List.getElem?_eq_some_iff.mp there
  exact List.getElem?_set_self inside

theorem slot_put_of_ne {i j : Nat} (other : i ≠ j) :
    (cipher.put i slot).slots[j]? = cipher.slots[j]? := List.getElem?_set_ne other

theorem lacks_put_of_ne {i j : Nat} (other : i ≠ j) :
    (cipher.put i slot).lacks j = cipher.lacks j := by
  rw [lacks, lacks, slot_put_of_ne other]

/-- From one cipher to another, keys that are needed are loaded where they are not there, up to the
first failure. -/
inductive Loads (S : Suite) : Cipher → List Nat → List Loading → Option Error → Cipher → Prop where
  | done (cipher : Cipher) : Loads S cipher [] [] none cipher
  | ready {cipher cipher' : Cipher} {i : Nat} {others : List Nat} {loadings : List Loading}
      {failure : Option Error} {slot : Slot} {keys : Keys} : cipher.slots[i]? = some slot →
      slot.keys = some keys → Loads S cipher others loadings failure cipher' →
      Loads S cipher (i :: others) loadings failure cipher'
  | loaded {cipher cipher' : Cipher} {i : Nat} {others : List Nat} {loadings : List Loading}
      {failure : Option Error} {slot : Slot} {events : List Event} {keys : Keys} :
      cipher.slots[i]? = some slot → slot.keys = none →
      (load S cipher.appId cipher.secret slot.scheme).run.Gives events (.ok keys) →
      Loads S (cipher.put i { slot with keys := some keys }) others loadings failure cipher' →
      Loads S cipher (i :: others) (⟨i, events, .ok keys⟩ :: loadings) failure cipher'
  | failed {cipher : Cipher} {i : Nat} {others : List Nat} {slot : Slot} {events : List Event}
      {e : Error} : cipher.slots[i]? = some slot → slot.keys = none →
      (load S cipher.appId cipher.secret slot.scheme).run.Gives events (.error e) →
      Loads S cipher (i :: others) [⟨i, events, .error e⟩] (some e) cipher

theorem Loads.inside (loads : Loads S cipher places loadings failure cipher') :
    ∀ l ∈ loadings, l.index ∈ places := by
  induction loads with
  | done => exact fun l member => absurd member List.not_mem_nil
  | ready _ _ _ ih => exact fun l member => .tail _ (ih l member)
  | loaded _ _ _ _ ih =>
    exact List.forall_mem_cons.mpr ⟨List.mem_cons_self, fun l member => .tail _ (ih l member)⟩
  | failed _ _ _ => exact List.forall_mem_singleton.mpr List.mem_cons_self

theorem Loads.others (loads : Loads S cipher places loadings failure cipher') {j : Nat}
    (spared : ∀ l ∈ loadings, l.index ≠ j) : cipher'.slots[j]? = cipher.slots[j]? := by
  induction loads with
  | done => rfl
  | ready _ _ _ ih => exact ih spared
  | loaded _ _ _ _ ih =>
    obtain ⟨first, rest⟩ := List.forall_mem_cons.mp spared
    exact (ih rest).trans (slot_put_of_ne first)
  | failed _ _ _ => rfl

/-- A scheme without keys asks for its own record only, and has the keys that come of it, if any. -/
def Attempts (S : Suite) (cipher : Cipher) (l : Loading) (cipher' : Cipher) : Prop :=
  ∃ slot, cipher.slots[l.index]? = some slot ∧ slot.keys = none ∧
    (load S cipher.appId cipher.secret slot.scheme).run.Gives l.events l.result ∧
    (∀ e ∈ l.events, Names (· = (cipher.appId, slot.scheme.header)) e.1) ∧
    cipher'.slots[l.index]? = some { slot with keys := l.result.toOption }

theorem attempts_of_gives {i : Nat} {result : Except Error Keys}
    (there : cipher.slots[i]? = some slot) (empty : slot.keys = none)
    (given : (load S cipher.appId cipher.secret slot.scheme).run.Gives events result)
    (after : cipher'.slots[i]? = some { slot with keys := result.toOption }) :
    Attempts S cipher ⟨i, events, result⟩ cipher' :=
  ⟨slot, there, empty, given, (asks_load (admits_names (· = (cipher.appId, slot.scheme.header))) rfl).gives given,
    after⟩

theorem Loads.attempts (loads : Loads S cipher places loadings failure cipher')
    (nodup : places.Nodup) : ∀ l ∈ loadings, Attempts S cipher l cipher' := by
  induction loads with
  | done => exact fun l member => absurd member List.not_mem_nil
  | ready _ _ _ ih => exact ih (List.nodup_cons.mp nodup).2
  | @loaded cipher cipher' i others loadings failure slot events keys there empty given loads ih =>
    obtain ⟨fresh, nodup⟩ := List.nodup_cons.mp nodup
    -- What comes later is about other schemes.
    have apart : ∀ l ∈ loadings, i ≠ l.index := fun l member same =>
      fresh (same ▸ loads.inside l member)
    refine List.forall_mem_cons.mpr ⟨?_, fun l member => ?_⟩
    · refine attempts_of_gives there empty given ?_
      rw [loads.others fun l member => (apart l member).symm]
      exact slot_put_self there
    · obtain ⟨other, found, rest⟩ := ih nodup l member
      rw [slot_put_of_ne (apart l member)] at found
      exact ⟨other, found, rest⟩
  | @failed cipher i others slot events e there empty given =>
    refine List.forall_mem_singleton.mpr (attempts_of_gives there empty given ?_)
    obtain ⟨scheme, keys⟩ := slot
    obtain rfl : keys = none := empty
    exact there

/-- Attempts are made in order, at all that is needed and not there, unless one has failed. -/
theorem Loads.order (loads : Loads S cipher places loadings failure cipher')
    (nodup : places.Nodup) :
    (failure = none ∧ loadings.map Loading.index = places.filter cipher.lacks ∧
        ∀ l ∈ loadings, l.Worked) ∨
      ∃ e front last, failure = some e ∧ loadings = front ++ [last] ∧
        loadings.map Loading.index <+: places.filter cipher.lacks ∧
        (∀ l ∈ front, l.Worked) ∧ last.result = .error e := by
  induction loads with
  | done => exact .inl ⟨rfl, rfl, fun l member => absurd member List.not_mem_nil⟩
  | ready there loaded _ ih =>
    rw [List.filter_cons_of_neg (by rw [lacks_of_some there loaded]; exact Bool.false_ne_true)]
    exact ih (List.nodup_cons.mp nodup).2
  | @loaded cipher cipher' i others loadings failure slot events keys there empty given loads ih =>
    obtain ⟨fresh, nodup⟩ := List.nodup_cons.mp nodup
    have same : others.filter (cipher.put i { slot with keys := some keys }).lacks =
        others.filter cipher.lacks :=
      List.filter_congr fun j member => lacks_put_of_ne fun here => fresh (here ▸ member)
    rw [List.filter_cons_of_pos (lacks_of_none there empty)]
    rcases ih nodup with ⟨rfl, all, worked⟩ | ⟨e, front, last, rfl, rfl, some, worked, failed⟩
    · refine .inl ⟨rfl, ?_, List.forall_mem_cons.mpr ⟨⟨keys, rfl⟩, worked⟩⟩
      rw [List.map_cons, all, same]
    · refine .inr ⟨e, ⟨i, events, .ok keys⟩ :: front, last, rfl, rfl, ?_,
        List.forall_mem_cons.mpr ⟨⟨keys, rfl⟩, worked⟩, failed⟩
      rw [List.map_cons]
      exact List.cons_prefix_cons.mpr ⟨rfl, same ▸ some⟩
  | @failed cipher i others slot events e there empty given =>
    rw [List.filter_cons_of_pos (lacks_of_none there empty)]
    refine .inr ⟨e, [], _, rfl, rfl, List.cons_prefix_cons.mpr ⟨rfl, List.nil_prefix⟩, ?_, rfl⟩
    exact fun l member => absurd member List.not_mem_nil

theorem put_self {i : Nat} (there : cipher.slots[i]? = some slot) : cipher.put i slot = cipher := by
  obtain ⟨inside, rfl⟩ := List.getElem?_eq_some_iff.mp there
  rw [put, List.set_getElem_self]

theorem put_append {front back : List Slot} (slots : cipher.slots = front ++ slot :: back) :
    cipher.put front.length slot' = { cipher with slots := front ++ slot' :: back } := by
  rw [put, slots, List.set_append_right _ _ (Nat.le_refl _), Nat.sub_self, List.set_cons_zero]

theorem getElem?_front {front back : List Slot} (slots : cipher.slots = front ++ slot :: back) :
    cipher.slots[front.length]? = some slot := by
  rw [slots, List.getElem?_append_right (Nat.le_refl _), Nat.sub_self, List.getElem?_cons_zero]

/-- A scheme that has its keys or loads them, and then what else is needed. -/
theorem loads_cons {i : Nat} {keys : Keys} {cipher'' : Cipher} (there : cipher.slots[i]? = some slot)
    (unlocks : Unlocks S cipher.appId cipher.secret slot events (.ok keys) slot')
    (rest : Loads S (cipher.put i slot') places loadings failure cipher'') :
    ∃ loadings', Loads S cipher (i :: places) loadings' failure cipher'' ∧
      loadings'.flatMap Loading.events = events ++ loadings.flatMap Loading.events := by
  cases unlocks with
  | ready loaded =>
    rw [put_self there] at rest
    exact ⟨loadings, .ready there loaded rest, rfl⟩
  | loaded empty given => exact ⟨_, .loaded there empty given rest, List.flatMap_cons⟩

theorem loads_failed {i : Nat} {e : Error} (there : cipher.slots[i]? = some slot)
    (unlocks : Unlocks S cipher.appId cipher.secret slot events (.error e) slot') :
    Loads S cipher (i :: places) [⟨i, events, .error e⟩] (some e) cipher := by
  cases unlocks with
  | failed empty given => exact .failed there empty given

/-- What a call comes to with the keys that a cipher has by then. The store has no part in it. -/
inductive Finishes (S : Suite) (cipher : Cipher) :
    Call → List Event → Except Error (Option String) → Prop where
  | noScheme {text : String} : cipher.slots = [] →
      Finishes S cipher (.encrypt text) [] (.error .noScheme)
  | encrypted {text : String} {slot : Slot} {others : List Slot} {keys : Keys} {own : List Event}
      {whole : Except Error String} : cipher.slots = slot :: others → slot.keys = some keys →
      (slot.scheme.encrypt keys text).run.Gives own whole →
      Finishes S cipher (.encrypt text) own (whole.map some)
  | unknown {whole : String} : (∀ slot ∈ cipher.slots, slot.scheme.supports whole = false) →
      Finishes S cipher (.decrypt whole) [] (.error .headerNotMatch)
  | decrypted {whole : String} {front back : List Slot} {slot : Slot} {keys : Keys} :
      cipher.slots = front ++ slot :: back →
      (∀ other ∈ front, other.scheme.supports whole = false) →
      slot.scheme.supports whole = true → slot.keys = some keys →
      Finishes S cipher (.decrypt whole) [] ((slot.scheme.decrypt keys whole).map some)
  | loaded : cipher.isReady = true → Finishes S cipher .load [] (.ok none)

/-- How a call ends after its attempts. -/
def Ends (S : Suite) (cipher : Cipher) (call : Call) (own : List Event)
    (answer : Except Error (Option String)) : Option Error → Prop
  | some e => own = [] ∧ answer = .error e
  | none => Finishes S cipher call own answer

theorem needed_first {others : List Slot} (slots : cipher.slots = slot :: others) (text : String) :
    cipher.needed (.encrypt text) = [0] := by
  rw [needed, slots, List.length_cons, List.range_succ_eq_map]
  rfl

theorem needed_known {front back : List Slot} {whole : String}
    (slots : cipher.slots = front ++ slot :: back)
    (unknown : ∀ other ∈ front, other.scheme.supports whole = false)
    (known : slot.scheme.supports whole = true) :
    cipher.needed (.decrypt whole) = [front.length] := by
  have none_before : (front.findIdx? fun other => other.scheme.supports whole) = none :=
    List.findIdx?_eq_none_iff.mpr unknown
  rw [needed, slots, List.findIdx?_append, none_before, List.findIdx?_cons, if_pos known]
  simp

theorem needed_unknown {whole : String}
    (unknown : ∀ slot ∈ cipher.slots, slot.scheme.supports whole = false) :
    cipher.needed (.decrypt whole) = [] := by
  rw [needed, List.findIdx?_eq_none_iff.mpr unknown, Option.toList_none]

theorem loads_of_encrypts {text : String} {answer : Except Error String}
    (encrypts : Encrypts S cipher text events answer cipher') :
    ∃ loadings failure own, Loads S cipher (cipher.needed (.encrypt text)) loadings failure cipher' ∧
      events = loadings.flatMap Loading.events ++ own ∧
      Ends S cipher' (.encrypt text) own (answer.map some) failure := by
  cases encrypts with
  | empty slots =>
    refine ⟨[], none, [], ?_, rfl, .noScheme slots⟩
    rw [needed, slots]
    exact .done cipher
  | @worked slot slot' others before own keys _ slots unlocks worked =>
    have foremost : cipher.slots = [] ++ slot :: others := slots
    have after : cipher.put 0 slot' = { cipher with slots := slot' :: others } := put_append foremost
    obtain ⟨loadings, loads, same⟩ := loads_cons (getElem?_front foremost) unlocks (.done _)
    rw [List.flatMap_nil, List.append_nil] at same
    refine ⟨loadings, none, own, ?_, by rw [same], ?_⟩
    · rw [needed_first slots, ← after]
      exact loads
    · rw [← unlocks.scheme] at worked
      exact .encrypted rfl unlocks.loads worked
  | @failed slot others _ e slots unlocks =>
    have foremost : cipher.slots = [] ++ slot :: others := slots
    refine ⟨[⟨0, events, .error e⟩], some e, [], ?_, by simp, rfl, rfl⟩
    rw [needed_first slots]
    exact loads_failed (getElem?_front foremost) unlocks

theorem loads_of_decrypts {whole : String} {answer : Except Error String}
    (decrypts : Decrypts S cipher whole events answer cipher') :
    ∃ loadings failure own, Loads S cipher (cipher.needed (.decrypt whole)) loadings failure cipher' ∧
      events = loadings.flatMap Loading.events ++ own ∧
      Ends S cipher' (.decrypt whole) own (answer.map some) failure := by
  cases decrypts with
  | unknown unknown =>
    refine ⟨[], none, [], ?_, rfl, .unknown unknown⟩
    rw [needed_unknown unknown]
    exact .done cipher
  | @known front back slot slot' _ keys slots unknown known unlocks =>
    have after : cipher.put front.length slot' = { cipher with slots := front ++ slot' :: back } :=
      put_append slots
    rw [needed_known slots unknown known, ← after]
    cases keys with
    | ok keys =>
      obtain ⟨loadings, loads, same⟩ := loads_cons (getElem?_front slots) unlocks (.done _)
      rw [List.flatMap_nil, List.append_nil] at same
      refine ⟨loadings, none, [], loads, by rw [same, List.append_nil], ?_⟩
      have still : slot'.scheme.supports whole = true := unlocks.scheme ▸ known
      have finishes := Finishes.decrypted (S := S) (congrArg Cipher.slots after) unknown still
        unlocks.loads
      rw [unlocks.scheme] at finishes
      exact finishes
    | error e =>
      cases unlocks with
      | failed empty given =>
        rw [put_self (getElem?_front slots)]
        exact ⟨_, some e, [], loads_failed (getElem?_front slots) (.failed empty given), by simp,
          rfl, rfl⟩

/-- A row of slots is loaded behind others. -/
theorem loads_of_loadsIn {appId : String} {secret : Bytes} {front slots slots' : List Slot}
    {answer : Except Error Unit} (loads : LoadsIn S appId secret slots events answer slots')
    (name : cipher.appId = appId) (key : cipher.secret = secret)
    (here : cipher.slots = front ++ slots) :
    ∃ loadings failure, Loads S cipher (List.range' front.length slots.length) loadings failure
        { cipher with slots := front ++ slots' } ∧
      events = loadings.flatMap Loading.events ∧
      (failure = none ∧ answer = .ok () ∨ ∃ e, failure = some e ∧ answer = .error e) := by
  induction loads generalizing front cipher with
  | done =>
    rw [← here]
    exact ⟨[], none, .done cipher, rfl, .inl ⟨rfl, rfl⟩⟩
  | @loaded slot slot' others others' before after keys answer unlocks _ ih =>
    subst name key
    have behind : (cipher.put front.length slot').slots = (front ++ [slot']) ++ others := by
      rw [put_append here, List.append_assoc]
      rfl
    have name : (cipher.put front.length slot').appId = cipher.appId := rfl
    obtain ⟨loadings, failure, rest, told, ended⟩ := ih name rfl behind
    rw [List.length_append, List.append_assoc] at rest
    obtain ⟨loadings', loads, same⟩ := loads_cons (getElem?_front here) unlocks rest
    exact ⟨loadings', failure, loads, by rw [same, told], ended⟩
  | @failed slot others events e unlocks =>
    subst name key
    rw [← here]
    exact ⟨_, some e, loads_failed (getElem?_front here) unlocks, by simp, .inr ⟨e, rfl, rfl⟩⟩

theorem LoadsIn.ready {appId : String} {secret : Bytes} {slots slots' : List Slot}
    {answer : Except Error Unit} (loads : LoadsIn S appId secret slots events answer slots') :
    answer = .ok () ↔ (slots'.all fun slot => slot.keys.isSome) = true := by
  induction loads with
  | done => exact ⟨fun _ => rfl, fun _ => rfl⟩
  | loaded unlocks _ ih =>
    rw [List.all_cons, unlocks.loads, Option.isSome_some, Bool.true_and]
    exact ih
  | @failed slot others events e unlocks =>
    have empty : slot.keys = none := by
      cases unlocks with
      | failed empty _ => exact empty
    rw [List.all_cons, empty, Option.isSome_none, Bool.false_and]
    exact ⟨nofun, fun same => absurd same Bool.false_ne_true⟩

theorem loads_of_calls {answer : Except Error (Option String)}
    (calls : Calls S cipher call events answer cipher') :
    ∃ loadings failure own, Loads S cipher (cipher.needed call) loadings failure cipher' ∧
      events = loadings.flatMap Loading.events ++ own ∧ Ends S cipher' call own answer failure := by
  cases calls with
  | encrypt encrypts => exact loads_of_encrypts encrypts
  | decrypt decrypts => exact loads_of_decrypts decrypts
  | load loadsIn =>
    have whole : cipher.slots = [] ++ cipher.slots := rfl
    obtain ⟨loadings, failure, loads, rfl, ended⟩ := loads_of_loadsIn loadsIn rfl rfl whole
    refine ⟨loadings, failure, [], ?_, (List.append_nil _).symm, ?_⟩
    · rw [needed, List.range_eq_range']
      exact loads
    · rcases ended with ⟨rfl, rfl⟩ | ⟨e, rfl, rfl⟩
      · exact .loaded (loadsIn.ready.mp rfl)
      · exact ⟨rfl, rfl⟩

/-- How a cipher loads its keys for a call, and what it does with them. -/
structure Conduct (S : Suite) (cipher : Cipher) (call : Call) (loadings : List Loading)
    (own : List Event) (answer : Except Error (Option String)) (cipher' : Cipher) : Prop where
  /-- Each scheme that is attempted had no keys. It asks for its own record, and has the keys that
  come of it; if none do, it stays as it was. -/
  attempts : ∀ l ∈ loadings, Attempts S cipher l cipher'
  /-- All others stay as they were. -/
  others : ∀ i, (∀ l ∈ loadings, l.index ≠ i) → cipher'.slots[i]? = cipher.slots[i]?
  /-- What is needed and not there is attempted in order. If all of it comes, the call does its work
  with the keys that are there then; else it ends with the first failure. -/
  ended : (loadings.map Loading.index = (cipher.needed call).filter cipher.lacks ∧
      (∀ l ∈ loadings, l.Worked) ∧ Finishes S cipher' call own answer) ∨
    ∃ front last e, loadings = front ++ [last] ∧
      loadings.map Loading.index <+: (cipher.needed call).filter cipher.lacks ∧
      (∀ l ∈ front, l.Worked) ∧ last.result = .error e ∧ own = [] ∧ answer = .error e
  /-- To load all keys is a success exactly if all are there afterwards. -/
  ready : call = .load → (answer = .ok none ↔ cipher'.isReady = true)

theorem conduct_of_calls {answer : Except Error (Option String)}
    (calls : Calls S cipher call events answer cipher') :
    ∃ loadings own, events = loadings.flatMap Loading.events ++ own ∧
      Conduct S cipher call loadings own answer cipher' := by
  obtain ⟨loadings, failure, own, loads, told, ends⟩ := loads_of_calls calls
  have nodup := cipher.nodup_needed call
  refine ⟨loadings, own, told, loads.attempts nodup, fun i => loads.others, ?_, ?_⟩
  · rcases loads.order nodup with ⟨rfl, all, worked⟩ | ⟨e, front, last, rfl, split, some, worked, failed⟩
    · exact .inl ⟨all, worked, ends⟩
    · exact .inr ⟨front, last, e, split, some, worked, failed, ends.1, ends.2⟩
  · rintro rfl
    cases calls with
    | @load _ done slots loadsIn =>
      refine Iff.trans ?_ loadsIn.ready
      cases done with
      | ok _ => exact ⟨fun _ => rfl, fun _ => rfl⟩
      | error e => exact ⟨nofun, nofun⟩

variable {loadings : List Loading} {answer : Except Error (Option String)}

theorem Conduct.kept (conduct : Conduct S cipher call loadings own answer cipher') {i : Nat}
    {keys : Keys} (there : cipher.slots[i]? = some slot) (loaded : slot.keys = some keys) :
    cipher'.slots[i]? = some slot ∧ ∀ l ∈ loadings, l.index ≠ i := by
  have spared : ∀ l ∈ loadings, l.index ≠ i := by
    rintro l member rfl
    obtain ⟨other, found, empty, -⟩ := conduct.attempts l member
    obtain rfl := Option.some.inj (there.symm.trans found)
    cases loaded.symm.trans empty
  exact ⟨(conduct.others i spared).trans there, spared⟩

/-- A call of a cipher, with what was asked and told during it. -/
structure Visit where
  call : Call
  events : List Event
  answer : Except Error (Option String)

/-- From one cipher to another, as the call says. -/
def Visit.Happens (S : Suite) (cipher : Cipher) (_ : Unit) (v : Visit) (cipher' : Cipher) : Prop :=
  (cipher.call S v.call).Gives v.events (v.answer, cipher')

/-- Calls of a cipher, whatever the store does. -/
abbrev Visits (S : Suite) : Cipher → List Visit → Cipher → Prop := Steps (Visit.Happens S) ()

variable {visits : List Visit}

theorem Visits.kept (run : Visits S cipher visits cipher') {i : Nat} {keys : Keys}
    (there : cipher.slots[i]? = some slot) (loaded : slot.keys = some keys) :
    cipher'.slots[i]? = some slot := by
  refine run.keeps (·.slots[i]? = some slot) (fun v _ s s' given still => ?_) there
  obtain ⟨_, _, -, conduct⟩ := conduct_of_calls (calls_of_gives given)
  exact (conduct.kept still loaded).1

/-- Whatever a cipher is called for, and whatever its store does: each call conducts itself well, what
is loaded before it stays and is not loaded again, and a cipher that is ready is so ever after. -/
theorem loaded_of_visits (run : Visits S cipher visits cipher') :
    (∀ before v after, visits = before ++ v :: after → ∃ s s' loadings own,
      Visits S cipher before s ∧ v.events = loadings.flatMap Loading.events ++ own ∧
      Conduct S s v.call loadings own v.answer s' ∧ Visits S s' after cipher' ∧
      (∀ (i : Nat) (slot : Slot) keys, cipher.slots[i]? = some slot → slot.keys = some keys →
        s.slots[i]? = some slot ∧ s'.slots[i]? = some slot ∧ ∀ l ∈ loadings, l.index ≠ i) ∧
      (s.isReady = true → s'.isReady = true)) ∧
    ∀ (i : Nat) (slot : Slot) keys, cipher.slots[i]? = some slot → slot.keys = some keys →
      cipher'.slots[i]? = some slot := by
  constructor
  · rintro before v after rfl
    obtain ⟨s, s', earlier, given, later⟩ := run.split
    obtain ⟨loadings, own, told, conduct⟩ := conduct_of_calls (calls_of_gives given)
    refine ⟨s, s', loadings, own, earlier, told, conduct, later, ?_, (calls_of_gives given).stays.isReady⟩
    intro i slot keys there loaded
    have still := Visits.kept earlier there loaded
    exact ⟨still, conduct.kept still loaded⟩
  · intro i slot keys there loaded
    exact run.kept there loaded

/-- The store is down when the keys are needed first. They are loaded later, and never again. -/
theorem loaded_of_visits_small : ∃ (r : Record) (keys : Keys),
    let fresh : Cipher := ⟨"app", [1, 2], [⟨Scheme.searchable Suite.small, none⟩]⟩
    let settled : Cipher := ⟨"app", [1, 2], [⟨Scheme.searchable Suite.small, some keys⟩]⟩
    let down : Visit := ⟨.load, [⟨.findRecord "app" "v1.", .error (.repository "down")⟩],
      .error (.repository "down")⟩
    let found : Visit := ⟨.load, [⟨.findRecord "app" "v1.", .ok (some r)⟩], .ok none⟩
    let again : Visit := ⟨.load, [], .ok none⟩
    Visits Suite.small fresh [down, found, again] settled ∧
      ∃ s s' loadings own, Visits Suite.small fresh [down] s ∧
        found.events = loadings.flatMap Loading.events ++ own ∧
        Conduct Suite.small s .load loadings own (.ok none) s' ∧
        Visits Suite.small s' [again] settled := by
  let keys : Keys := ⟨List.replicate 32 1, List.replicate 16 2⟩
  let nonce : RandomBytes 12 := ⟨List.replicate 12 2, rfl⟩
  obtain ⟨r, -, unwrapped⟩ :=
    unwrap_wrap Suite.small "app" "v1." [1, 2] [3] nonce.2 keys "2024-01-01T00:00:00+00:00"
  let slot (held : Option Keys) : Slot := ⟨Scheme.searchable Suite.small, held⟩
  let cipher (held : Option Keys) : Cipher := ⟨"app", [1, 2], [slot held]⟩
  have failed : Unlocks Suite.small "app" [1, 2] (slot none)
      [⟨.findRecord "app" "v1.", .error (.repository "down")⟩] (.error (.repository "down"))
      (slot none) := .failed rfl (.ask (.refl _))
  have loaded : Unlocks Suite.small "app" [1, 2] (slot none)
      [⟨.findRecord "app" "v1.", .ok (some r)⟩] (.ok keys) (slot (some keys)) :=
    .loaded rfl (gives_load.mpr ⟨r, .there, unwrapped⟩)
  have ready : Unlocks Suite.small "app" [1, 2] (slot (some keys)) [] (.ok keys)
      (slot (some keys)) := .ready rfl
  have calls {held held' : Option Keys} {events : List Event} {answer : Except Error Unit}
      (loads : LoadsIn Suite.small "app" [1, 2] [slot held] events answer [slot held']) :
      ((cipher held).call Suite.small .load).Gives events
        (answer.map fun _ => none, cipher held') :=
    (Calls.load loads).gives
  let down : Visit := ⟨.load, [⟨.findRecord "app" "v1.", .error (.repository "down")⟩],
    .error (.repository "down")⟩
  let found : Visit := ⟨.load, [⟨.findRecord "app" "v1.", .ok (some r)⟩], .ok none⟩
  let again : Visit := ⟨.load, [], .ok none⟩
  have run : Visits Suite.small (cipher none) [down, found, again] (cipher (some keys)) :=
    .cons (calls (.failed failed)) (.cons (calls (.loaded loaded .done))
      (.cons (calls (.loaded ready .done)) (.nil _)))
  obtain ⟨s, s', loadings, own, earlier, told, conduct, later, -⟩ :=
    (loaded_of_visits run).1 [down] found [again] rfl
  exact ⟨r, keys, run, s, s', loadings, own, earlier, told, conduct, later⟩

end Cipher

end KeyService.LocalText
