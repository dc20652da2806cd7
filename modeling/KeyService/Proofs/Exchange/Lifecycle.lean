import KeyService.Proofs.Exchange.Agreement
import KeyService.Proofs.Exchange.Stores
import KeyService.Proofs.Program.Asks

/-! The life of one handshake.
Only the first call on a handshake does anything. It may send one request, keep one session,
or be given up on the way; whatever becomes of it, every later call is refused and leaves
everything as it was. -/
namespace KeyService.Exchange

namespace Handshake

structure Use where
  url : String
  responderKey : String
  keyPairId : Option String

/-- A call ends with an answer, or is given up while a question is open. -/
inductive Ending where
  | answered (answer : Except Error Session)
  | abandoned (pending : Question)

def Ending.stage : Ending → Handshake
  | answered (.ok _) => .negotiated
  | answered (.error _) => .failed
  | abandoned _ => .requested

def Ending.pending : Ending → List Question
  | answered _ => []
  | abandoned question => [question]

/-- One call, with the handshake and the store of sessions before and after it. -/
structure Turn where
  use : Use
  before : Handshake
  stored : SessionStore
  events : List Event
  ending : Ending
  after : Handshake
  left : SessionStore

/-- All that a call asked, the question included that it did not wait for. -/
def Turn.asked (turn : Turn) : List Question :=
  turn.events.map Sigma.fst ++ turn.ending.pending

variable (S : Suite) (i : Initiator)

/-- What a call may do. From when its request is made until it ends it can be given up; the
handshake is then left as it was when the request was made. -/
inductive Goes (h : Handshake) (u : Use) : List Event → Ending → Handshake → Prop where
  | answered {events : List Event} {answer : Except Error Session} {h' : Handshake} :
      (negotiate S i h u.url u.responderKey u.keyPairId).Gives events (answer, h') →
      Goes h u events (.answered answer) h'
  | abandoned {before after : List Event} {p : Pending S} {h' : Handshake} {question : Question}
      {next : question.Answer → Program (Except Error Session × Handshake)} :
      (request S i h u.url u.responderKey u.keyPairId).Gives before (.ok p, h') →
      (negotiate S i h u.url u.responderKey u.keyPairId).Leads (before ++ after)
        (.ask question next) →
      Goes h u (before ++ after) (.abandoned question) h'

/-- Calls on one handshake, one after the other, while nobody else writes to the store. -/
inductive Life : Handshake → SessionStore → List Turn → Handshake → SessionStore → Prop where
  | nil (h : Handshake) (t : SessionStore) : Life h t [] h t
  | cons {turn : Turn} {turns : List Turn} {h' : Handshake} {t' : SessionStore} :
      Goes S i turn.before turn.use turn.events turn.ending turn.after →
      Steps SessionStore.Step () turn.stored turn.events turn.left →
      Life turn.after turn.left turns h' t' →
      Life turn.before turn.stored (turn :: turns) h' t'

/-- A call on a handshake that was used before. -/
structure Turn.Refused (turn : Turn) (h : Handshake) : Prop where
  before : turn.before = h
  after : turn.after = h
  left : turn.left = turn.stored
  asked : turn.asked = []
  ending : turn.ending =
    .answered (.error (.verification ("handshake already " ++ h.name)))

def IsExchange (question : Question) : Bool :=
  match question with
  | .exchange _ _ => true
  | _ => false

def exchanges (turns : List Turn) : Nat := (turns.flatMap Turn.asked).countP IsExchange

def kept (turns : List Turn) : List Session := SessionStore.kept (turns.flatMap Turn.events)

variable {S i} {h h' : Handshake} {t t' : SessionStore} {u : Use} {events : List Event}
  {ending : Ending} {turn : Turn} {turns : List Turn}

/-- To make a request takes random bytes and the time, and nothing else. The work has a name of its
own, so that nobody who uses the lemma has to look into it. -/
theorem asks_prepare {P : Question → Prop} (random : ∀ count, P (.random count)) (now : P .now)
    {url responderKey : String} {id : Option String} {work : Program (Except Error (Pending S))}
    (same : (i.prepare S url responderKey id).run = work) : work.Asks P := by
  subst same
  unfold Initiator.prepare
  -- What is found out about the key and the address does not matter to what is asked.
  generalize Responder.readKey S responderKey = read
  generalize i.endpoint.check url = checked
  refine Program.asks_act_bind (Program.asks_except _) fun _ responder _ => ?_
  refine Program.asks_act_bind (Program.asks_except _) fun _ _ _ => ?_
  have draws (count : Nat) : (Program.draw count).Asks P := Program.asks_draw (random count)
  refine Program.asks_act_bind (Program.asks_program (draws 48)) fun _ seed _ => ?_
  refine Program.asks_act_bind (Program.asks_program (draws _)) fun _ token _ => ?_
  refine Program.asks_act_bind (Program.asks_except _) fun _ ⟨key, iv⟩ _ => ?_
  refine Program.asks_act_bind (Program.asks_program (Program.asks_put now)) fun _ _ _ => ?_
  exact Program.asks_pure _

/-- Whether a call gets as far as to make a request. -/
def Admits (S : Suite) (i : Initiator) (u : Use) : Prop :=
  (∃ key, Responder.readKey S u.responderKey = .ok key) ∧ i.endpoint.check u.url = .ok ()

theorem gives_prepare_of_not_admits (barred : ¬ Admits S i u) {result : Except Error (Pending S)}
    (given : (i.prepare S u.url u.responderKey u.keyPairId).run.Gives events result) :
    events = [] ∧ ∃ cause, result = .error cause := by
  unfold Initiator.prepare at given
  rcases Program.gives_act_bind.mp given with ⟨cause, failed, rfl⟩ | ⟨key, _, _, rfl, looked, given₁⟩
  · exact ⟨(Program.gives_pure.mp failed).1, cause, rfl⟩
  obtain ⟨rfl, read⟩ := Program.gives_except_ok.mp looked
  rcases Program.gives_act_bind.mp given₁ with ⟨cause, failed, rfl⟩ | ⟨_, _, _, rfl, checked, -⟩
  · exact ⟨(Program.gives_pure.mp failed).1, cause, rfl⟩
  · exact absurd ⟨⟨key, read⟩, (Program.gives_except_ok.mp checked).2⟩ barred

/-- The ways of a first call, after its request was made or could not be made: it is given up while
it waits for the answer, or for the store; the answer is not accepted; or a session is kept. -/
inductive Course (S : Suite) (u : Use) :
    Except Error (Pending S) → List Event → Ending → Handshake → Prop where
  | barred (cause : Error) : Course S u (.error cause) [] (.answered (.error cause)) .failed
  | waiting (p : Pending S) :
      Course S u (.ok p) [] (.abandoned (.exchange u.url p.request)) .requested
  | rejected (p : Pending S) (answer : Except Error Response) (cause : Error) :
      Course S u (.ok p) [⟨.exchange u.url p.request, answer⟩] (.answered (.error cause)) .failed
  | keeping (p : Pending S) (answer : Except Error Response) (s : Session) :
      Course S u (.ok p) [⟨.exchange u.url p.request, answer⟩] (.abandoned (.keepSession s)) .requested
  | kept (p : Pending S) (answer : Except Error Response) (s : Session) :
      Course S u (.ok p) [⟨.exchange u.url p.request, answer⟩, ⟨.keepSession s, ()⟩]
        (.answered (.ok s)) .negotiated

theorem course_of_receive {p : Pending S} {answer : Except Error Response}
    {result : Except Error Session} (given : (receive S p answer).Gives events (result, h')) :
    Course S u (.ok p) (⟨.exchange u.url p.request, answer⟩ :: events) (.answered result) h' := by
  unfold receive at given
  split at given
  · obtain ⟨_, _, _, rfl, keeping, ended⟩ := Program.gives_bind.mp given
    rw [Program.gives_setSession] at keeping
    obtain ⟨rfl, same⟩ := Program.gives_pure.mp ended
    obtain ⟨rfl, rfl⟩ := Prod.mk.inj same
    subst keeping
    exact .kept p answer _
  · obtain ⟨rfl, same⟩ := Program.gives_pure.mp given
    obtain ⟨rfl, rfl⟩ := Prod.mk.inj same
    exact .rejected p answer _

/-- All that an answer may still lead to is a wait for the store. -/
theorem keeps_of_leads {p : Pending S} {answer : Except Error Response} {question : Question}
    {next : question.Answer → Program (Except Error Session × Handshake)}
    (led : (receive S p answer).Leads events (.ask question next)) :
    events = [] ∧ ∃ s, question = .keepSession s := by
  unfold receive at led
  split at led
  · rename_i s _
    change (Program.ask (.keepSession s) fun _ => .done _).Leads events (.ask question next) at led
    cases led with
    | refl => exact ⟨rfl, s, rfl⟩
    | ask rest => exact (Program.not_leads_of_done rest).elim
  · exact (Program.not_leads_of_done led).elim

theorem course_of_goes (goes : Goes S i .init u events ending h') :
    ∃ made before after, events = before ++ after ∧
      (i.prepare S u.url u.responderKey u.keyPairId).run.Gives before made ∧
      Course S u made after ending h' := by
  cases goes with
  | answered given =>
    obtain ⟨⟨pending, h₁⟩, before, after, rfl, requested, given⟩ := Program.gives_bind.mp given
    obtain ⟨made, before, _, rfl, prepared, told⟩ := Program.gives_bind.mp requested
    cases made with
    | error cause =>
      obtain ⟨rfl, same⟩ := Program.gives_pure.mp told
      obtain ⟨rfl, rfl⟩ := Prod.mk.inj same
      obtain ⟨rfl, same⟩ := Program.gives_pure.mp given
      obtain ⟨rfl, rfl⟩ := Prod.mk.inj same
      exact ⟨_, before, [], by simp, prepared, .barred cause⟩
    | ok p =>
      obtain ⟨rfl, same⟩ := Program.gives_pure.mp told
      obtain ⟨rfl, rfl⟩ := Prod.mk.inj same
      obtain ⟨answer, _, receiving, rfl, sent, received⟩ := Program.gives_bind.mp given
      rw [Program.gives_send] at sent
      subst sent
      exact ⟨_, before, _, by simp, prepared, course_of_receive received⟩
  | @abandoned before after p _ question next requested led =>
    obtain ⟨-, rfl, prepared⟩ := gives_request.mp requested
    have rest := (Program.leads_bind_of_gives requested).mp led
    change (Program.ask (.exchange u.url p.request) fun answer => receive S p answer).Leads after
      (.ask question next) at rest
    refine ⟨.ok p, before, after, rfl, prepared, ?_⟩
    cases rest with
    | refl => exact .waiting p
    | ask rest =>
      obtain ⟨rfl, s, rfl⟩ := keeps_of_leads rest
      exact .keeping p _ s

def Ending.session? : Ending → Option Session
  | answered (.ok s) => some s
  | _ => none

theorem quiet_of_prepare {result : Except Error (Pending S)}
    (given : (i.prepare S u.url u.responderKey u.keyPairId).run.Gives events result) :
    (events.map Sigma.fst).countP IsExchange = 0 ∧ SessionStore.kept events = [] := by
  generalize same : (i.prepare S u.url u.responderKey u.keyPairId).run = work at given
  have asked {P : Question → Prop} (random : ∀ count, P (.random count)) (now : P .now) :
      ∀ e ∈ events, P e.1 := (asks_prepare random now same).gives given
  constructor
  · refine List.countP_eq_zero.mpr fun question member => ?_
    obtain ⟨e, inside, rfl⟩ := List.mem_map.mp member
    have silent := asked (P := (IsExchange · = false)) (fun _ => rfl) rfl e inside
    simpa using silent
  · exact SessionStore.kept_eq_nil.mpr (asked (P := (·.session? = none)) (fun _ => rfl) rfl)

/-- A first call sends at most one request, keeps the session that it gives and no other one, and
leaves the handshake in the stage that its ending stands for. -/
theorem summary_of_goes (goes : Goes S i .init u events ending h') :
    (events.map Sigma.fst ++ ending.pending).countP IsExchange ≤ 1 ∧
      SessionStore.kept events = ending.session?.toList ∧ h' = ending.stage := by
  obtain ⟨made, before, after, rfl, prepared, course⟩ := course_of_goes goes
  obtain ⟨silent, nothing⟩ := quiet_of_prepare prepared
  rw [List.map_append, List.append_assoc, List.countP_append, silent, Nat.zero_add,
    SessionStore.kept_append, nothing, List.nil_append]
  have once : (after.map Sigma.fst ++ ending.pending).countP IsExchange ≤ 1 := by
    cases course <;> simp [Ending.pending, IsExchange, List.countP_cons]
  refine ⟨once, ?_⟩
  cases course <;> exact ⟨rfl, rfl⟩

theorem asked_of_barred (barred : ¬ Admits S i u) (goes : Goes S i .init u events ending h') :
    events.map Sigma.fst ++ ending.pending = [] := by
  obtain ⟨made, before, after, rfl, prepared, course⟩ := course_of_goes goes
  obtain ⟨rfl, cause, rfl⟩ := gives_prepare_of_not_admits barred prepared
  cases course
  rfl

theorem goes_of_used (used : h ≠ .init) (goes : Goes S i h u events ending h') :
    events = [] ∧ h' = h ∧
      ending = .answered (.error (.verification ("handshake already " ++ h.name))) := by
  cases goes with
  | answered given =>
    unfold negotiate request at given
    cases h with
    | init => exact absurd rfl used
    | _ =>
      obtain ⟨rfl, same⟩ := Program.gives_pure.mp given
      obtain ⟨rfl, rfl⟩ := Prod.mk.inj same
      exact ⟨rfl, rfl, rfl⟩
  | abandoned requested _ => exact absurd (gives_request.mp requested).1 used

theorem stage_ne_init (ending : Ending) : ending.stage ≠ .init := by
  cases ending with
  | answered answer => cases answer <;> simp [Ending.stage]
  | abandoned => simp [Ending.stage]

theorem stage_negotiated : ending.stage = .negotiated ↔ ∃ s, ending = .answered (.ok s) := by
  cases ending with
  | answered answer => cases answer <;> simp [Ending.stage]
  | abandoned => simp [Ending.stage]

theorem session?_eq_none (other : ending.stage ≠ .negotiated) : ending.session? = none := by
  cases given : ending.session? with
  | none => rfl
  | some s =>
    unfold Ending.session? at given
    split at given
    · exact absurd rfl other
    · cases given

theorem Life.refused (life : Life S i h t turns h' t') (used : h ≠ .init) :
    h' = h ∧ t' = t ∧ ∀ turn ∈ turns, turn.Refused h := by
  induction life with
  | nil => exact ⟨rfl, rfl, fun _ member => absurd member List.not_mem_nil⟩
  | @cons turn turns h' t' goes steps _ ih =>
    obtain ⟨none, after, ending⟩ := goes_of_used used goes
    rw [none] at steps
    have left := SessionStore.eq_of_steps steps rfl
    have first : turn.Refused turn.before := ⟨rfl, after, left, by simp [Turn.asked, none, ending,
      Ending.pending], ending⟩
    obtain ⟨same, stored, rest⟩ := ih (after ▸ used)
    rw [after] at same rest
    refine ⟨same, stored.trans left, fun other member => ?_⟩
    rcases List.mem_cons.mp member with rfl | member
    · exact first
    · exact rest other member

theorem exchanges_of_refused (refused : ∀ turn ∈ turns, turn.Refused h) : exchanges turns = 0 := by
  have nothing : turns.flatMap Turn.asked = [] :=
    List.flatMap_eq_nil_iff.mpr fun turn member => (refused turn member).asked
  rw [exchanges, nothing, List.countP_nil]

theorem kept_of_refused (refused : ∀ turn ∈ turns, turn.Refused h) : kept turns = [] := by
  have nothing : turns.flatMap Turn.events = [] :=
    List.flatMap_eq_nil_iff.mpr fun turn member =>
      List.map_eq_nil_iff.mp (List.append_eq_nil_iff.mp (refused turn member).asked).1
  rw [kept, nothing]
  rfl

theorem totals_of_refused (refused : ∀ turn ∈ turns, turn.Refused h) (first : Turn) :
    exchanges (first :: turns) = first.asked.countP IsExchange ∧
      kept (first :: turns) = SessionStore.kept first.events := by
  have silent := exchanges_of_refused refused
  have nothing := kept_of_refused refused
  rw [exchanges] at silent ⊢
  rw [kept] at nothing ⊢
  rw [List.flatMap_cons, List.flatMap_cons, List.countP_append, silent, Nat.add_zero,
    SessionStore.kept_append, nothing, List.append_nil]
  exact ⟨rfl, rfl⟩

/-- Calls on a new handshake send one request at most, and none for a key that cannot be read or an
address off the endpoint. The first call leaves the stage that its ending stands for, and every
later one is refused. The store is changed by one insert if the handshake ends as negotiated,
and else not at all. -/
theorem life_of_new (life : Life S i .init t turns h' t') :
    exchanges turns ≤ 1 ∧ (∀ turn ∈ turns, ¬ Admits S i turn.use → turn.asked = []) ∧
    (∀ first rest, turns = first :: rest →
      first.after = first.ending.stage ∧ h' = first.after ∧
        ∀ turn ∈ rest, turn.Refused first.after) ∧
    (h' = .negotiated → ∃ s now, kept turns = [s] ∧ t' = t.keep now s ∧
      ∃ first ∈ turns, first.ending = .answered (.ok s)) ∧
    (h' ≠ .negotiated → kept turns = [] ∧ t' = t) := by
  generalize new : Handshake.init = h at life
  cases life with
  | nil =>
    subst new
    exact ⟨Nat.zero_le 1, by simp, by simp, by simp, fun _ => ⟨rfl, rfl⟩⟩
  | @cons turn turns _ _ goes steps life =>
    rw [← new] at goes
    obtain ⟨once, keeps, stage⟩ := summary_of_goes goes
    obtain ⟨rfl, rfl, refused⟩ := life.refused (stage ▸ stage_ne_init turn.ending)
    obtain ⟨total, all⟩ := totals_of_refused refused turn
    rw [keeps] at all
    refine ⟨total ▸ once, ?_, ?_, ?_, ?_⟩
    · intro other member barred
      rcases List.mem_cons.mp member with rfl | member
      · exact asked_of_barred barred goes
      · exact (refused other member).asked
    · intro first rest same
      obtain ⟨rfl, rfl⟩ := List.cons.inj same
      exact ⟨stage, rfl, refused⟩
    · intro negotiated
      obtain ⟨s, ended⟩ := stage_negotiated.mp (stage.symm.trans negotiated)
      have one : SessionStore.kept turn.events = [s] := by rw [keeps, ended]; rfl
      obtain ⟨now, stored⟩ := SessionStore.keep_of_steps steps one
      exact ⟨s, now, by rw [all, ended]; rfl, stored, turn, List.mem_cons_self, ended⟩
    · intro other
      have none : turn.ending.session? = none := session?_eq_none (stage ▸ other)
      rw [none] at all keeps
      exact ⟨all, SessionStore.eq_of_steps steps keeps⟩

open Suite (small) in
/-- A handshake ends with a session, and is used once more. -/
theorem life_of_new_small : ∃ (first again : Turn) (t' : SessionStore),
    Life small Small.initiator .init .empty [first, again] .negotiated t' ∧
      exchanges [first, again] ≤ 1 ∧ again.Refused .negotiated ∧
      ∃ s now, kept [first, again] = [s] ∧ t' = SessionStore.keep .empty now s := by
  obtain ⟨p, -, prepared⟩ := Small.prepared 3
  let use : Use := ⟨"/exchange", (Small.pair 3).publicKey, none⟩
  let offer := Initiator.Prepared.offer Small.responder p (Small.pair 3) Small.drawn 0
  let response : Response := offer.answer p.request
    (small.curve.sign (3 : UInt8) (Bytes.ofText (offer.text p.request)))
  let session : Session := ⟨offer.publicKey, offer.session.id, p.key, p.iv, p.request.keyLength,
    offer.session.expireTime⟩
  have accepted : Initiator.accept small p response = .ok session :=
    prepared.accept_answer Suite.small_verifies (Small.halves 3) offer rfl rfl
  let making : List Event :=
    [⟨.random 48, Small.seed⟩, ⟨.random tokenLength, Small.token⟩, ⟨.now, 0⟩]
  let first : Turn := ⟨use, .init, .empty,
    making ++ [⟨.exchange "/exchange" p.request, .ok response⟩, ⟨.keepSession session, ()⟩],
    .answered (.ok session), .negotiated, SessionStore.keep .empty 0 session⟩
  let again : Turn := ⟨use, .negotiated, first.left, [],
    .answered (.error (.verification "handshake already Negotiated")), .negotiated, first.left⟩
  have goes : Goes small Small.initiator first.before use first.events first.ending first.after :=
    .answered (gives_negotiate.mpr ⟨rfl, rfl, p, _, _, _, response, prepared, rfl, accepted⟩)
  have steps : Steps SessionStore.Step () first.stored first.events first.left :=
    .cons (.other trivial) (.cons (.other trivial) (.cons (.other trivial)
      (.cons (.other trivial) (.cons (.keep ..) (.nil _)))))
  have goesAgain : Goes small Small.initiator again.before use again.events again.ending again.after :=
    .answered (Program.gives_pure.mpr ⟨rfl, rfl⟩)
  have life : Life small Small.initiator .init .empty [first, again] .negotiated again.left :=
    .cons goes steps (.cons goesAgain (.nil _) (.nil _ _))
  obtain ⟨once, -, refused, inserted, -⟩ := life_of_new life
  obtain ⟨s, now, keeps, stored, -⟩ := inserted rfl
  exact ⟨first, again, again.left, life, once, (refused first [again] rfl).2.2 again (by simp), s,
    now, keeps, stored⟩

end Handshake

end KeyService.Exchange
