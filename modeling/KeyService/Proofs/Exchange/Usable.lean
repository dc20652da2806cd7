import KeyService.Proofs.Exchange.Authentication
import KeyService.Proofs.Exchange.Causes
import KeyService.Proofs.Exchange.Frame
import KeyService.Proofs.Exchange.Lifecycle
import KeyService.Proofs.Payload.Usable
import KeyService.Proofs.Program.Assures

/-! Sessions that are kept can be used.
Either side derives a key of the length that the request names, and keeps its session only
after that. So whatever requests come in, and whatever they are answered, no store ever holds
a session that would fail whoever uses it. -/
namespace KeyService.Exchange

open Payload (Equipped Usable)
open Program (Asks Avoids)

variable {S : Suite}

/-- Questions that keep a session only if it is of the kind. -/
def Keeps (P : Session → Prop) (question : Question) : Prop :=
  ∀ s, question.session? = some s → P s

theorem keeps_of_none {P : Session → Prop} {question : Question}
    (other : question.session? = none) : Keeps P question :=
  fun _ same => nomatch other.symm.trans same

namespace SessionStore

variable {ι κ : Type} {i : ι} {e : Event} {t t' : SessionStore} {P : Session → Prop}

def All (P : Session → Prop) (t : SessionStore) : Prop := ∀ entry ∈ t.entries, P entry.2

theorem all_empty : All P .empty := fun _ member => absurd member List.not_mem_nil

theorem All.keep (all : t.All P) {s : Session} (fits : P s) (now : Int64) :
    (t.keep now s).All P := by
  intro entry member
  rcases List.mem_cons.mp member with rfl | member
  · exact fits
  · obtain ⟨live, -⟩ := List.mem_filter.mp member
    exact all entry (List.mem_filter.mp live).1

theorem Step.all (step : Step t i e t') (keeps : Keeps P e.1) (all : t.All P) : t'.All P := by
  cases keeping : e.1.session? with
  | none => exact step.eq_of_other keeping ▸ all
  | some s =>
    obtain ⟨now, rfl⟩ := step.kept_of_some keeping
    exact all.keep (keeps s keeping) now

/-- Each program uses a store of its own, or one that it has in common with others. -/
def Apart [DecidableEq κ] (owner : ι → κ) (stores : κ → SessionStore) (i : ι) (e : Event)
    (stores' : κ → SessionStore) : Prop :=
  ∃ t, Step (stores (owner i)) i e t ∧ stores' = Function.update stores (owner i) t

section

variable [DecidableEq κ] {owner : ι → κ} {stores : κ → SessionStore}

theorem apart_other (elsewhere : Elsewhere e.1) : Apart owner stores i e stores :=
  ⟨_, .other elsewhere, (Function.update_eq_self ..).symm⟩

theorem apart_keep (now : Int64) (s : Session) : Apart owner stores i ⟨.keepSession s, ()⟩
    (Function.update stores (owner i) ((stores (owner i)).keep now s)) :=
  ⟨_, .keep .., rfl⟩

end

/-- If no program ever asks to keep a session of another kind, there is none. -/
theorem all_of_run [DecidableEq ι] [DecidableEq κ] {owner : ι → κ} {α : ι → Type}
    {start pool : Pool α} {origin stores : κ → SessionStore} {history : History ι}
    (run : Run (Apart owner) start origin history pool stores)
    (asks : ∀ i, (start i).Asks (Keeps P)) (all : ∀ k, (origin k).All P) (k : κ) :
    (stores k).All P := by
  induction run with
  | start => exact all k
  | @step history pool stores _ i question next answer before asked step ih =>
    obtain ⟨t, step, rfl⟩ := step
    -- The question was still to come when the run had got this far.
    have left : (Program.ask question next).Asks (Keeps P) :=
      asked ▸ ((asks i).leads (before.leads i)).2
    by_cases same : k = owner i
    · subst same
      rw [Function.update_self]
      exact step.all left.1 ih
    · rw [Function.update_of_ne same]
      exact ih

end SessionStore

theorem equipped_of_deriveKey {shared token : Bytes} {s : Session}
    (derived : deriveKey shared token s.keyLength = .ok (s.key, s.iv)) :
    ∃ size, Equipped s size := by
  obtain ⟨size, bits, key, iv⟩ := size_of_deriveKey derived
  exact ⟨size, bits, key, iv⟩

theorem Responder.Settled.equipped {r : Responder} {request : Request} {events : List Event}
    {offer : Offer} {first second : KeyPair}
    (settled : Responder.Settled S r request events offer first second) :
    ∃ size, Equipped offer.session size := by
  obtain ⟨secret, initiator, token, -, -, -, derived⟩ := settled.agreed
  rw [← settled.keyLength] at derived
  exact equipped_of_deriveKey derived

theorem Initiator.Prepared.equipped {i : Initiator} {url responderKey : String} {id : Option String}
    {events : List Event} {p : Pending S} {seed : RandomBytes 48} {token : RandomBytes tokenLength}
    (prepared : Initiator.Prepared S i url responderKey id events p seed token)
    {response : Response} {session : Session}
    (accepted : Initiator.accept S p response = .ok session) : ∃ size, Equipped session size := by
  obtain ⟨-, rfl⟩ := Initiator.accept_iff.mp accepted
  exact equipped_of_deriveKey (s := ⟨response.publicKey, response.sessionId, p.key, p.iv,
    p.request.keyLength, response.expireTime⟩) prepared.derived

theorem Responder.respond_keeps (r : Responder) (request : Request) :
    (Responder.respond S r request).run.Asks (Keeps (Usable S)) := by
  have silent {α : Type} {p : Program α} (asks : p.Asks Sessionless) : p.Asks (Keeps (Usable S)) :=
    asks.mono fun _ => keeps_of_none
  refine Program.asks_act_bind (silent settle_sessionless) fun events offer given => ?_
  obtain ⟨first, second, settled⟩ := gives_settle.mp given
  refine Program.asks_act_bind (silent (sign_sessionless _)) fun _ _ _ => ?_
  refine Program.asks_act_bind (Program.asks_program (Program.asks_put ?_)) fun _ _ _ =>
    Program.asks_pure _
  rintro _ ⟨⟩
  obtain ⟨size, equipped⟩ := settled.equipped
  exact equipped.usable

namespace Handshake

variable {i : Initiator} {h : Handshake} {url responderKey : String} {id : Option String}
  {events : List Event} {p : Pending S} {seed : RandomBytes 48} {token : RandomBytes tokenLength}

theorem request_keeps : (request S i h url responderKey id).Asks (Keeps (Usable S)) := by
  cases h with
  | init =>
    unfold request
    dsimp only
    generalize same : (i.prepare S url responderKey id).run = work
    have silent : work.Asks (Keeps (Usable S)) :=
      asks_prepare (fun _ => keeps_of_none rfl) (keeps_of_none rfl) same
    refine Program.asks_bind silent fun _ made _ => ?_
    cases made <;> exact Program.asks_pure _
  | _ => exact Program.asks_pure _

theorem receive_keeps (prepared : Initiator.Prepared S i url responderKey id events p seed token)
    (answer : Except Error Response) : (receive S p answer).Asks (Keeps (Usable S)) := by
  unfold receive
  split
  · rename_i session outcome
    cases answer with
    | error cause => cases outcome
    | ok response =>
      rw [Except.bind] at outcome
      refine Program.asks_bind (Program.asks_put ?_) fun _ _ _ => Program.asks_pure _
      rintro _ ⟨⟩
      obtain ⟨size, equipped⟩ := prepared.equipped outcome
      exact equipped.usable
  · exact Program.asks_pure _

theorem negotiate_keeps : (negotiate S i h url responderKey id).Asks (Keeps (Usable S)) := by
  unfold negotiate
  refine Program.asks_bind request_keeps fun events ⟨made, h'⟩ given => ?_
  cases made with
  | error cause => exact Program.asks_pure _
  | ok p =>
    obtain ⟨-, -, prepares⟩ := gives_request.mp given
    obtain ⟨seed, token, prepared⟩ := Initiator.gives_prepare.mp prepares
    refine Program.asks_bind (Program.asks_put (keeps_of_none rfl)) fun _ answer _ => ?_
    exact receive_keeps prepared answer

end Handshake

variable {P : Event → Prop}

theorem deriveKey_avoids (shared token : Bytes) (bits : UInt16) :
    Avoids P (liftM (deriveKey shared token bits) : Act (Bytes × Bytes)) .derivation :=
  Program.avoids_except (deriveKey_ne_derivation shared token bits)

namespace Responder

theorem byEngine_avoids {α : Type} (work : Engine.Act α) :
    Avoids P (byEngine work) .derivation := by
  intro events result failed _ same
  obtain ⟨_, ⟨⟩, -⟩ := cause_of_byEngine (same ▸ failed)

theorem validate_avoids (r : Responder) (request : Request) :
    Avoids P (r.validate request) .derivation := by
  refine Program.avoids_bind (Program.avoids_except fun failed => ?_) fun _ => ?_
  · obtain ⟨_, ⟨⟩⟩ := cause_of_checkCipher failed
  · refine Program.avoids_bind (Program.avoids_program _) fun now => ?_
    refine Program.avoids_bind (Program.avoids_program _) fun _ => ?_
    exact Program.avoids_except fun failed => nomatch cause_of_checkClock failed

theorem settle_avoids (r : Responder) (request : Request) :
    Avoids P (settle S r request) .derivation := by
  have key : readKey S request.publicKey ≠ .error .derivation := by
    intro failed
    obtain ⟨_, ⟨⟩⟩ := cause_of_readKey failed
  have token : readToken request.token ≠ .error .derivation := by
    intro failed
    obtain ⟨_, ⟨⟩⟩ := cause_of_readToken failed
  unfold settle
  generalize readKey S request.publicKey = read at key ⊢
  refine Program.avoids_bind (validate_avoids r request) fun _ => ?_
  refine Program.avoids_bind (Program.avoids_except key) fun _ => ?_
  refine Program.avoids_bind (Program.avoids_except token) fun _ => ?_
  refine Program.avoids_bind (byEngine_avoids _) fun shared => ?_
  refine Program.avoids_bind (byEngine_avoids _) fun text => ?_
  refine Program.avoids_bind (deriveKey_avoids _ _ _) fun ⟨key, iv⟩ => ?_
  refine Program.avoids_bind (Program.avoids_program _) fun bs => ?_
  refine Program.avoids_bind (Program.avoids_program _) fun ending => ?_
  exact Program.avoids_pure _

theorem respond_avoids (r : Responder) (request : Request) :
    Avoids P (respond S r request) .derivation := by
  refine Program.avoids_bind (settle_avoids r request) fun offer => ?_
  refine Program.avoids_bind (byEngine_avoids _) fun signature => ?_
  exact Program.avoids_bind (Program.avoids_program _) fun _ => Program.avoids_pure _

end Responder

theorem Initiator.prepare_avoids (i : Initiator) (url responderKey : String)
    (id : Option String) : Avoids P (i.prepare S url responderKey id) .derivation := by
  have endpoint : i.endpoint.check url ≠ .error .derivation := by
    unfold Endpoint.check
    split <;> exact nofun
  have key : Responder.readKey S responderKey ≠ .error .derivation := by
    intro failed
    obtain ⟨_, ⟨⟩⟩ := Responder.cause_of_readKey failed
  unfold prepare
  generalize Responder.readKey S responderKey = read at key ⊢
  generalize i.endpoint.check url = checked at endpoint ⊢
  refine Program.avoids_bind (Program.avoids_except key) fun responder => ?_
  refine Program.avoids_bind (Program.avoids_except endpoint) fun _ => ?_
  refine Program.avoids_bind (Program.avoids_program _) fun seed => ?_
  refine Program.avoids_bind (Program.avoids_program _) fun token => ?_
  refine Program.avoids_bind (deriveKey_avoids _ _ _) fun ⟨key, iv⟩ => ?_
  refine Program.avoids_bind (Program.avoids_program _) fun now => ?_
  exact Program.avoids_pure _

theorem Initiator.accept_ne_derivation (p : Pending S) (response : Response) :
    accept S p response ≠ .error .derivation := by
  intro failed
  rcases Attempt.bind_error.mp failed with failed | ⟨_, -, ended⟩
  · obtain ⟨_, ⟨⟩⟩ := cause_of_verify failed
  · cases ended

namespace Handshake

variable {i : Initiator} {h h' : Handshake} {url responderKey : String} {id : Option String}
  {events : List Event}

/-- An answer to a request that is not the failure itself. -/
def Other (e : Event) : Prop := ∀ url request, e ≠ ⟨.exchange url request, .error .derivation⟩

theorem request_avoids :
    Program.Assures Other (request S i h url responderKey id) (·.1 ≠ .error .derivation) := by
  cases h with
  | init =>
    have avoids : Avoids Other (i.prepare S url responderKey id) .derivation :=
      i.prepare_avoids url responderKey id
    unfold request Avoids at *
    dsimp only
    generalize (i.prepare S url responderKey id).run = work at avoids ⊢
    refine Program.assures_bind avoids fun made other => ?_
    cases made with
    | ok p => exact Program.assures_pure nofun
    | error cause =>
      exact Program.assures_pure fun same => other (congrArg _ (Except.error.inj same))
  | _ => exact Program.assures_pure nofun

theorem receive_avoids (p : Pending S) {answer : Except Error Response}
    (other : answer ≠ .error .derivation) :
    Program.Assures P (receive S p answer) (·.1 ≠ .error .derivation) := by
  unfold receive
  split
  · refine Program.assures_bind Program.assures_true fun _ _ => ?_
    exact Program.assures_pure nofun
  · rename_i cause outcome
    refine Program.assures_pure fun same => ?_
    obtain rfl := Except.error.inj same
    rcases Attempt.bind_error.mp outcome with failed | ⟨response, -, failed⟩
    · exact other failed
    · exact Initiator.accept_ne_derivation p response failed

/-- A handshake fails in this way only if it is told so by whoever takes its request. -/
theorem told_of_derivation
    (given : (negotiate S i h url responderKey id).Gives events (.error .derivation, h')) :
    ∃ url request, ⟨.exchange url request, .error .derivation⟩ ∈ events := by
  by_contra untold
  have assures : Program.Assures Other (negotiate S i h url responderKey id)
      (·.1 ≠ .error .derivation) := by
    unfold negotiate
    refine Program.assures_bind request_avoids fun ⟨made, h'⟩ other => ?_
    cases made with
    | error cause =>
      exact Program.assures_pure fun same => other (congrArg _ (Except.error.inj same))
    | ok p =>
      refine Program.assures_bind (R := (· ≠ .error .derivation)) ?_ fun answer other =>
        receive_avoids p other
      exact Program.assures_put fun answer fits same => fits url p.request (same ▸ rfl)
  have others : ∀ e ∈ events, Other e :=
    fun e member url request same => untold ⟨url, request, same ▸ member⟩
  exact assures events _ given others rfl

end Handshake

namespace Network

open Handshake (told_of_derivation)

variable {H R κ : Type} [DecidableEq H] [DecidableEq R] [DecidableEq κ] {attempts : H → Attempt}
  {calls : R → Call} {owner : H ⊕ R → κ} {history : History (H ⊕ R)}
  {pool : Pool (Result (H := H) (R := R))} {stores : κ → SessionStore}

/-- However far handshakes and answering calls have got, and whatever they were told, every session
in the stores can be used. The derivation of keys never fails: no call ends with that, and a
handshake only where it passes on what its request was answered. -/
theorem usable_of_run (run : Run (SessionStore.Apart owner) (parties S attempts calls)
      (fun _ => .empty) history pool stores) :
    (∀ k, (stores k).All (Usable S)) ∧
    (∀ shared token bits, deriveKey shared token bits ≠ .error .derivation) ∧
    (∀ r, pool (.inr r) ≠ .done (.error .derivation)) ∧
    ∀ h stage, pool (.inl h) = .done (.error .derivation, stage) →
      ∃ url request, (.inl h, ⟨.exchange url request, .error .derivation⟩) ∈ history := by
  have keeps (i : H ⊕ R) : (parties S attempts calls i).Asks (Keeps (Usable S)) := by
    cases i with
    | inl h => exact Handshake.negotiate_keeps
    | inr r => exact Responder.respond_keeps (calls r).responder (calls r).request
  refine ⟨SessionStore.all_of_run run keeps fun _ => SessionStore.all_empty,
    deriveKey_ne_derivation, fun r ended => ?_, fun h stage ended => ?_⟩
  · have gives : (Responder.respond S (calls r).responder (calls r).request).run.Gives _ _ :=
      run.gives ended
    exact Responder.respond_avoids (P := fun _ => True) _ _ _ _ gives (fun _ _ => trivial) rfl
  · have gives : (Handshake.negotiate S _ _ _ _ _).Gives _ _ := run.gives ended
    obtain ⟨url, request, member⟩ := told_of_derivation gives
    exact ⟨url, request, mem_own.mp member⟩

open Suite (small) in
/-- Both ends of an exchange have kept their sessions, and either one serves. -/
theorem usable_of_run_small : ∃ (p : Pending small) (history : History (Unit ⊕ Unit))
    (pool : Pool (Result (H := Unit) (R := Unit))) (stores : Bool → SessionStore),
    Run (SessionStore.Apart Sum.isLeft)
      (parties small (fun _ => smallAttempt) fun _ => ⟨Small.responder, p.request⟩)
      (fun _ => .empty) history pool stores ∧
    (stores true).entries = [((smallSession p).id, smallSession p)] ∧
    (stores false).entries = [((smallOffer p).session.id, (smallOffer p).session)] ∧
    Payload.Serves small 0 (smallSession p) ∧ Payload.Serves small 0 (smallOffer p).session := by
  obtain ⟨p, middle, asks, responds, receives, -⟩ := small_parts
  have other {i : Unit ⊕ Unit} {e : Event} {stores : Bool → SessionStore}
      (elsewhere : SessionStore.Elsewhere e.1) : SessionStore.Apart Sum.isLeft stores i e stores :=
    SessionStore.apart_other elsewhere
  have sends : Steps (SessionStore.Apart Sum.isLeft) (.inl ()) (fun _ => .empty) making _ :=
    .cons (other trivial) (.cons (other trivial) (.cons (other trivial) (.nil _)))
  have replies : Steps (SessionStore.Apart Sum.isLeft) (.inr ()) (fun _ => .empty)
      (answering (Small.pair 3) (smallOffer p).session) _ :=
    .cons (other trivial) (.cons (other trivial) (.cons (other trivial) (.cons (other trivial)
      (.cons (other trivial) (.cons (other trivial)
        (.cons (SessionStore.apart_keep 0 (smallOffer p).session) (.nil _)))))))
  have ends (stores : Bool → SessionStore) :
      Steps (SessionStore.Apart Sum.isLeft) (.inl ()) stores (receiving p) _ :=
    .cons (other trivial) (.cons (SessionStore.apart_keep 0 (smallSession p)) (.nil _))
  obtain ⟨pool, run, -⟩ := run_of_parts asks responds receives sends replies (ends _)
  obtain ⟨usable, -⟩ := usable_of_run run
  refine ⟨p, _, pool, _, run, rfl, rfl, ?_, ?_⟩
  · exact (usable true _ List.mem_cons_self).serves 0 rfl
  · exact (usable false _ List.mem_cons_self).serves 0 rfl

end Network

end KeyService.Exchange
