import KeyService.Proofs.Exchange.Response
import KeyService.Proofs.Exchange.Stores
import KeyService.Proofs.Program.Careful

/-! What engines and responders leave alone.
The only pair that is ever kept on demand is the default pair, right after it was missed. The
only session is that of an exchange that succeeds, and it is kept last. -/
namespace KeyService

def Sessionless (question : Question) : Prop := question.session? = none

open Program (Careful Keepless)

variable {S : Suite} {e : Engine} {id : Option String} {events : List Event}

namespace Engine

/-- A pair is kept only under the id that is meant, if that is the default, and only a fresh one. -/
def Creates (S : Suite) (e : Engine) (id : Option String) (question : Question) : Prop :=
  ∀ name pair, question = .keepPair name pair →
    name = e.defaultId ∧ id.getD e.defaultId = e.defaultId ∧
      ∃ drawing, (fresh S e.algorithm).run.Gives drawing (.ok pair)

/-- What an operation of an engine asks with the pair of an id. -/
structure Uses (S : Suite) (e : Engine) (id : Option String) (question : Question) : Prop where
  sessionless : Sessionless question
  creates : Creates S e id question

theorem generate_careful {missed : List String} (meant : id.getD e.defaultId = e.defaultId)
    (member : e.defaultId ∈ missed) :
    (generate S e e.defaultId).run.Careful (Uses S e id) missed := by
  refine Program.careful_act_after (asks_fresh (fun _ => ⟨⟨rfl, nofun⟩, nofun⟩) _)
    fun drawing pair drawn => ?_
  have made : Creates S e id (.keepPair e.defaultId pair) := by
    rintro _ _ ⟨rfl, rfl⟩
    exact ⟨rfl, meant, drawing, drawn⟩
  refine Program.careful_act_bind (Program.careful_bind ⟨⟨⟨rfl, made⟩, ?_⟩, fun _ => trivial⟩
    fun _ => ?_) fun _ => Program.careful_pure _
  · rintro _ _ ⟨rfl, rfl⟩
    exact member
  · exact Program.careful_pure _

theorem generateDefault_careful (meant : id.getD e.defaultId = e.defaultId) :
    (generateDefault S e).run.Careful (Uses S e id) [] := by
  have asks {question : Question} (spares : Keepless (Uses S e id) question) :
      (Program.put question).Asks (Keepless (Uses S e id)) := Program.asks_put spares
  refine Program.careful_after (asks ⟨⟨rfl, nofun⟩, nofun⟩) fun _ _ _ => ?_
  refine Program.careful_bind ⟨⟨⟨rfl, nofun⟩, nofun⟩, fun found => ?_⟩ fun _ => ?_
  · cases found with
    | ok pair => exact Program.careful_pure _
    | error cause =>
      cases cause with
      | missing name => exact generate_careful meant List.mem_cons_self
      | _ => exact Program.careful_pure _
  · exact Program.careful_after (asks ⟨⟨rfl, nofun⟩, nofun⟩) fun _ _ _ => Program.careful_pure _

theorem resolve_careful (id : Option String) : (resolve S e id).run.Careful (Uses S e id) [] := by
  refine Program.careful_act_bind ?_ fun _ => Program.careful_except _
  have looked (name : String) : (liftM (Program.getPair name) :
      Act (Except KeyPair.Error KeyPair)).run.Careful (Uses S e id) [] :=
    Program.careful_of_asks (Program.asks_program (Program.asks_put ⟨⟨rfl, nofun⟩, nofun⟩))
  refine Program.careful_act_bind (looked _) fun found => ?_
  split
  · exact Program.careful_pure _
  · split
    · rename_i meant
      exact generateDefault_careful meant
    · exact Program.careful_pure _
  · exact Program.careful_pure _

theorem publicKey_careful (id : Option String) : (publicKey S e id).run.Careful (Uses S e id) [] :=
  Program.careful_act_bind (resolve_careful id) fun _ => Program.careful_pure _

theorem agree_careful (id : Option String) (peer : S.curve.PublicKey) :
    (agree S e id peer).run.Careful (Uses S e id) [] := by
  unfold agree
  split
  · exact Program.careful_pure _
  · refine Program.careful_act_bind (resolve_careful id) fun pair => ?_
    exact Program.careful_act_bind (Program.careful_except _) fun _ => Program.careful_pure _

theorem sign_careful (id : Option String) (message : Bytes) :
    (sign S e id message).run.Careful (Uses S e id) [] := by
  refine Program.careful_act_bind (resolve_careful id) fun pair => ?_
  split
  · exact Program.careful_act_bind (Program.careful_except _) fun _ => Program.careful_pure _
  · refine Program.careful_act_bind (Program.careful_except _) fun secret => ?_
    split <;> exact Program.careful_pure _

end Engine

namespace Exchange.Responder

open Engine (Uses)

variable {r : Responder} {request : Request}

theorem byEngine_careful {α : Type} {work : Engine.Act α}
    (careful : work.run.Careful (Uses S e id) []) :
    (byEngine work).run.Careful (Uses S e id) [] :=
  Program.careful_bind careful fun _ => Program.careful_pure _

theorem timed_careful : (liftM Program.time : Act Int64).run.Careful (Uses S e id) [] :=
  Program.careful_of_asks (Program.asks_program (Program.asks_put ⟨⟨rfl, nofun⟩, nofun⟩))

theorem validate_careful : (r.validate request).run.Careful (Uses S e id) [] := by
  unfold validate
  generalize checkCipher request = checked
  refine Program.careful_act_bind (Program.careful_except _) fun _ => ?_
  refine Program.careful_act_bind timed_careful fun now => ?_
  refine Program.careful_act_bind ?_ fun _ => Program.careful_except _
  exact Program.careful_of_asks (Program.asks_program (asks_compare ⟨⟨rfl, nofun⟩, nofun⟩ _ _))

theorem settle_careful :
    (settle S r request).run.Careful (Uses S r.engine request.keyPairId) [] := by
  unfold settle
  generalize readKey S request.publicKey = read
  have drawn : (liftM (Program.draw 16) : Act Bytes).run.Careful
      (Uses S r.engine request.keyPairId) [] :=
    Program.careful_of_asks (Program.asks_program (Program.asks_draw ⟨⟨rfl, nofun⟩, nofun⟩))
  refine Program.careful_act_bind validate_careful fun _ => ?_
  refine Program.careful_act_bind (Program.careful_except _) fun initiator => ?_
  refine Program.careful_act_bind (Program.careful_except _) fun token => ?_
  refine Program.careful_act_bind (byEngine_careful (Engine.agree_careful _ _)) fun shared => ?_
  refine Program.careful_act_bind (byEngine_careful (Engine.publicKey_careful _)) fun text => ?_
  refine Program.careful_act_bind (Program.careful_except _) fun ⟨key, iv⟩ => ?_
  refine Program.careful_act_bind drawn fun bs => ?_
  refine Program.careful_act_bind timed_careful fun ending => ?_
  exact Program.careful_pure _

theorem respond_careful :
    (respond S r request).run.Careful (Engine.Creates S r.engine request.keyPairId) [] := by
  have mono {α : Type} {p : Program α} (careful : p.Careful (Uses S r.engine request.keyPairId) []) :
      p.Careful (Engine.Creates S r.engine request.keyPairId) [] :=
    careful.mono (fun _ uses => uses.creates) (List.Subset.refl _)
  refine Program.careful_act_bind (mono settle_careful) fun offer => ?_
  refine Program.careful_act_bind (mono (byEngine_careful (Engine.sign_careful _ _))) fun _ => ?_
  refine Program.careful_act_bind ?_ fun _ => Program.careful_pure _
  exact Program.careful_of_asks (Program.asks_program (Program.asks_put ⟨nofun, nofun⟩))

theorem settle_sessionless : (settle S r request).run.Asks Sessionless :=
  settle_careful.asks.mono fun _ uses => uses.sessionless

theorem sign_sessionless (message : Bytes) :
    (byEngine (r.engine.sign S request.keyPairId message)).run.Asks Sessionless :=
  (byEngine_careful (Engine.sign_careful _ _)).asks.mono fun _ uses => uses.sessionless

theorem kept_of_sessionless {α : Type} {p : Program α} {a : α} (asks : p.Asks Sessionless)
    (given : p.Gives events a) : SessionStore.kept events = [] :=
  SessionStore.kept_eq_nil.mpr (asks.gives given)

theorem kept_of_failed {cause : Error}
    (given : (respond S r request).run.Gives events (.error cause)) :
    SessionStore.kept events = [] := by
  unfold respond at given
  rcases Program.gives_act_bind.mp given with ⟨_, failed, -⟩ | ⟨offer, _, _, rfl, settled, given₁⟩
  · exact kept_of_sessionless settle_sessionless failed
  have nothing := kept_of_sessionless settle_sessionless settled
  rcases Program.gives_act_bind.mp given₁ with ⟨_, failed, -⟩ | ⟨_, _, _, rfl, -, given₂⟩
  · have signing := kept_of_sessionless (sign_sessionless _) failed
    rw [SessionStore.kept_append, nothing, signing, List.nil_append]
  · obtain ⟨_, _, _, rfl, -, ended⟩ := Program.gives_program_bind.mp given₂
    cases (Program.gives_pure.mp ended).2

theorem kept_of_settled {settling signing : List Event} {offer : Offer}
    {first second third : KeyPair} (settled : Settled S r request settling offer first second)
    (found : (r.engine.resolve S request.keyPairId).run.Gives signing (.ok third)) :
    SessionStore.kept (settling ++ signing) = [] := by
  have nothing := kept_of_sessionless settle_sessionless (gives_settle.mpr ⟨_, _, settled⟩)
  have signed := kept_of_sessionless
    ((Engine.resolve_careful _).asks.mono fun _ uses => uses.sessionless) found
  rw [SessionStore.kept_append, nothing, signed, List.nil_append]

/-- An exchange that succeeds keeps one session, the one that it answers with, and does so last. -/
theorem keeps_last {response : Response}
    (given : (respond S r request).run.Gives events (.ok response)) :
    ∃ before session, events = before ++ [⟨.keepSession session, ()⟩] ∧
      SessionStore.kept before = [] ∧ session.id = response.sessionId ∧
      session.expireTime = response.expireTime := by
  obtain ⟨offer, settling, signing, first, second, third, secret, rfl, settled, found, -, rfl⟩ :=
    gives_respond.mp given
  exact ⟨settling ++ signing, offer.session, rfl, kept_of_settled settled found, rfl, rfl⟩

theorem sees_of_respond {response : Response}
    (given : (respond S r request).run.Gives events (.ok response)) :
    ∃ pair, Sees (request.keyPairId.getD r.engine.defaultId) pair events ∧
      pair.publicKey = response.publicKey := by
  obtain ⟨offer, settling, signing, first, second, third, secret, rfl, settled, found, -, rfl⟩ :=
    gives_respond.mp given
  obtain ⟨now, ending, drawn, one, two, trace⟩ := settled.trace
  have sees := (Engine.gives_resolve.mp trace.second).1.sees
  refine ⟨second, sees.mono fun e member => ?_, settled.publicKey.symm⟩
  simp [trace.events, member]

end Exchange.Responder

namespace Engine

theorem sees_of_publicKey {id : Option String} {text : String}
    (given : (publicKey S e id).run.Gives events (.ok text)) :
    ∃ pair, Sees (id.getD e.defaultId) pair events ∧ pair.publicKey = text := by
  obtain ⟨pair, resolved, named⟩ := gives_publicKey.mp given
  exact ⟨pair, (gives_resolve.mp resolved).1.sees, named⟩

end Engine

end KeyService
