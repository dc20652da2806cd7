import KeyService.Proofs.Exchange.Frame
import KeyService.Proofs.Gateway.Stores

/-! Stores any call of which may fail.
A call is answered from what the stores have, or it fails and leaves them as they are. Nobody
else writes to them in the meantime, and the clock stands still. An operation of an engine then
changes the pairs in one way at most: it makes the default pair, where that was missing. -/
namespace KeyService

variable {ι σ : Type}

/-- The first use of a default pair, which a fresh one is kept for. -/
structure Engine.Created (S : Suite) (B : KeyPair.Backend σ) (e : Engine) (id : Option String)
    (before after : σ) : Prop where
  isDefault : id.getD e.defaultId = e.defaultId
  missing : ∃ name, B.find before e.defaultId = .error (.missing name)
  made : ∃ pair drawing, (fresh S e.algorithm).run.Gives drawing (.ok pair) ∧
    B.keep before e.defaultId pair = .ok after

namespace Stores

open Engine (Creates Created)
open Program (MayAsk missedAfter)

/-- A failure to look a pair up does not say that there is none. -/
inductive Call (B : KeyPair.Backend σ) : Stores σ → ι → Event → Stores σ → Prop where
  | answered {s s' : Stores σ} {i : ι} {e : Event} :
      Step B s i e s' → s'.now = s.now → Call B s i e s'
  | findFails (s : Stores σ) (i : ι) (id : String) {cause : KeyPair.Error} :
      (∀ name, cause ≠ .missing name) → Call B s i ⟨.findPair id, .error cause⟩ s
  | keepFails (s : Stores σ) (i : ι) (id : String) (pair : KeyPair) (cause : KeyPair.Error) :
      Call B s i ⟨.keepPair id pair, .error cause⟩ s

variable {B : KeyPair.Backend σ} {valid : σ → Prop} {S : Suite} {engine : Engine}
  {id : Option String} {s s' : Stores σ} {i : ι} {e : Event} {events : List Event}
  {missed : List String} {P : Question → Prop}

theorem Call.now (call : Call B s i e s') : s'.now = s.now := by
  cases call with
  | answered _ still => exact still
  | _ => rfl

theorem Call.reading {now : Int64} (call : Call B s i ⟨.now, now⟩ s') : now = s.now := by
  cases call with
  | answered step still =>
    cases step with
    | time => exact still
    | other _ elsewhere => exact elsewhere.elim

theorem now_of_calls (calls : Steps (Call B) i s events s') : s'.now = s.now :=
  calls.keeps (·.now = s.now) (fun _ _ _ _ call same => call.now.trans same) rfl

theorem reading_of_calls (calls : Steps (Call B) i s events s') {now : Int64}
    (member : ⟨.now, now⟩ ∈ events) : now = s.now := by
  obtain ⟨earlier, later, rfl⟩ := List.append_of_mem member
  obtain ⟨_, _, before, call, -⟩ := calls.split
  exact call.reading.trans (now_of_calls before)

theorem Call.sessions (call : Call B s i e s') :
    Exchange.SessionStore.Step s.sessions i e s'.sessions := by
  cases call with
  | answered step _ => exact step.sessions
  | _ => exact .other trivial

theorem sessions_eq_of_calls (calls : Steps (Call B) i s events s')
    (none : Exchange.SessionStore.kept events = []) : s'.sessions = s.sessions :=
  Exchange.SessionStore.eq_of_steps (calls.map Stores.sessions Call.sessions) none

theorem sessions_keep_of_calls {session : Exchange.Session}
    (calls : Steps (Call B) i s (events ++ [⟨.keepSession session, ()⟩]) s')
    (none : Exchange.SessionStore.kept events = []) :
    s'.sessions = s.sessions.keep s.now session := by
  obtain ⟨middle, before, last⟩ := steps_append.mp calls
  rw [← sessions_eq_of_calls before none, ← now_of_calls before]
  cases last with
  | cons call rest =>
    cases rest
    cases call with
    | answered step still =>
      cases step with
      | keepSession now => exact congrArg (middle.sessions.keep · session) still
      | other now elsewhere => exact elsewhere.elim

theorem Call.spares (isMap : B.IsMap valid) (call : Call B s i e s') (inside : valid s.pairs)
    (may : MayAsk P missed e.1) (free : Free B missed s) :
    Spares B valid s [e] s' ∧ Free B (missedAfter missed e) s' := by
  cases call with
  | answered step _ => exact step.spares isMap inside may free
  | @findFails _ id cause present =>
    refine ⟨⟨inside, fun _ _ there => there, fun id' pair sees => ?_⟩, ?_⟩
    · cases (sees_found.mp sees).2
    · cases cause with
      | missing name => exact absurd rfl (present name)
      | _ => exact free
  | keepFails id pair cause =>
    refine ⟨⟨inside, fun _ _ there => there, fun id' pair sees => ?_⟩, ?_⟩
    · cases (sees_kept.mp sees).2
    · exact fun _ member => absurd member List.not_mem_nil

def Missing (B : KeyPair.Backend σ) (missed : List String) (s : Stores σ) : Prop :=
  ∀ id ∈ missed, ∃ name, B.find s.pairs id = .error (.missing name)

theorem missing_nil : Missing B [] s := fun _ member => absurd member List.not_mem_nil

theorem missing_found (missing : Missing B missed s) (id : String) :
    Missing B (missedAfter missed ⟨.findPair id, B.find s.pairs id⟩) s := by
  cases told : B.find s.pairs id with
  | ok pair => exact missing
  | error cause =>
    cases cause with
    | missing name => exact List.forall_mem_cons.mpr ⟨⟨name, told⟩, missing⟩
    | _ => exact missing

/-- Where only a default pair may be made, a call leaves the pairs alone or makes it. -/
theorem Call.pairs (isMap : B.IsMap valid) (call : Call B s i e s') (inside : valid s.pairs)
    (may : MayAsk (Creates S engine id) missed e.1) (missing : Missing B missed s) :
    valid s'.pairs ∧ Missing B (missedAfter missed e) s' ∧
      (s'.pairs = s.pairs ∨ Created S B engine id s.pairs s'.pairs) := by
  cases call with
  | answered step _ =>
    cases step with
    | findPair now name => exact ⟨inside, missing_found missing name, .inl rfl⟩
    | @keepPair now name pair pairs kept =>
      obtain ⟨rfl, isDefault, drawing, drawn⟩ := may.kind name pair rfl
      have created : Created S B engine id s.pairs pairs :=
        ⟨isDefault, missing _ (may.missed _ pair rfl), pair, drawing, drawn, kept⟩
      exact ⟨isMap.valid_keep inside kept, missing_nil, .inr created⟩
    | refusePair => exact ⟨inside, missing_nil, .inl rfl⟩
    | other now elsewhere =>
      refine ⟨inside, ?_, .inl rfl⟩
      obtain ⟨question, answer⟩ := e
      cases question with
      | findPair => exact elsewhere.elim
      | keepPair => exact elsewhere.elim
      | _ => exact missing
    | _ => exact ⟨inside, missing, .inl rfl⟩
  | @findFails _ name cause present =>
    refine ⟨inside, ?_, .inl rfl⟩
    cases cause with
    | missing name => exact absurd rfl (present name)
    | _ => exact missing
  | keepFails => exact ⟨inside, missing_nil, .inl rfl⟩

theorem pairs_eq_of_there (isMap : B.IsMap valid) {α : Type} {p : Program α} {a : α}
    (careful : p.Careful (Creates S engine id) missed) (given : p.Gives events a)
    (calls : Steps (Call B) i s events s') (inside : valid s.pairs) (missing : Missing B missed s)
    {pair : KeyPair} (there : B.find s.pairs engine.defaultId = .ok pair) : s'.pairs = s.pairs := by
  induction p generalizing s events missed with
  | done b =>
    obtain ⟨rfl, -⟩ := Program.gives_done.mp given
    cases calls
    rfl
  | ask question next ih =>
    obtain ⟨answer, rest, rfl, tail⟩ := Program.gives_ask.mp given
    cases calls with
    | cons call others =>
      obtain ⟨inside', missing', same | created⟩ := call.pairs isMap inside careful.1 missing
      · have later := ih answer (careful.2 answer) tail others inside' missing' (same ▸ there)
        exact later.trans same
      · obtain ⟨name, absent⟩ := created.missing
        cases there.symm.trans absent

/-- In a whole run, the pairs are what they were, or the default pair was made. -/
theorem pairs_of_calls (isMap : B.IsMap valid) {α : Type} {p : Program α} {a : α}
    (careful : p.Careful (Creates S engine id) missed) (given : p.Gives events a)
    (calls : Steps (Call B) i s events s') (inside : valid s.pairs)
    (missing : Missing B missed s) :
    s'.pairs = s.pairs ∨ Created S B engine id s.pairs s'.pairs := by
  induction p generalizing s events missed with
  | done b =>
    obtain ⟨rfl, -⟩ := Program.gives_done.mp given
    cases calls
    exact .inl rfl
  | ask question next ih =>
    obtain ⟨answer, rest, rfl, tail⟩ := Program.gives_ask.mp given
    cases calls with
    | cons call others =>
      obtain ⟨inside', missing', same | created⟩ := call.pairs isMap inside careful.1 missing
      · rw [← same]
        exact ih answer (careful.2 answer) tail others inside' missing'
      · obtain ⟨pair, drawing, -, kept⟩ := created.made
        have later := pairs_eq_of_there isMap (careful.2 answer) tail others inside' missing'
          (isMap.find_kept inside kept)
        exact .inr (later ▸ created)

end Stores

end KeyService
