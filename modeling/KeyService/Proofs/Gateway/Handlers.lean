import KeyService.Proofs.Exchange.Frame
import KeyService.Proofs.Exchange.Message
import KeyService.Proofs.Gateway.Dispatch
import KeyService.Proofs.Gateway.Echo
import KeyService.Proofs.LocalText.Loaded
import KeyService.Proofs.LocalText.Served

/-! What handlers keep, and what they answer.
Only the exchange of keys keeps sessions. No handler replaces a pair, and none changes the
gateway but for keys that it loads. -/
namespace KeyService.Gateway

open Http (Request Response)
open Program (Careful Keepless)

variable {S : Suite} {g g' : Gateway} {r : Request} {route : Route} {events : List Event}
  {response : Response}

/-- Questions that pairs and sessions have no part in. -/
def Apart : Question → Prop
  | .findPair _ | .keepPair _ _ | .findSession _ | .keepSession _ | .countSessions => False
  | _ => True

/-- The schemes of the local cipher do their work without pairs and sessions. -/
def Quiet (g : Gateway) : Prop :=
  ∀ slot ∈ g.cipher.slots, ∀ keys text, (slot.scheme.encrypt keys text).run.Asks Apart

theorem keepless_of_apart (question : Question) (apart : Apart question) :
    Keepless Sessionless question := by
  cases question with
  | findPair => exact apart.elim
  | keepPair => exact apart.elim
  | findSession => exact apart.elim
  | keepSession => exact apart.elim
  | countSessions => exact apart.elim
  | _ => exact ⟨rfl, nofun⟩

theorem keepless_of_looks (question : Question) (looks : Payload.Looks question) :
    Keepless Sessionless question := by
  cases question with
  | now => exact ⟨rfl, nofun⟩
  | random => exact ⟨rfl, nofun⟩
  | findSession => exact ⟨rfl, nofun⟩
  | _ => exact looks.elim

/-- Everything that a record takes is apart from pairs and sessions. -/
theorem admits_apart : LocalText.Admits Apart fun _ => True :=
  ⟨fun _ => trivial, trivial, fun _ => trivial, fun _ => trivial⟩

theorem quiet_of_standard {appId : String} {secret : Bytes}
    (built : g.cipher = .ofSchemes appId secret (LocalText.Scheme.standard S)) : Quiet g := by
  intro slot member keys text
  rw [built] at member
  have standard := LocalText.Cipher.scheme_of_slot member
  exact LocalText.Scheme.asks_standard (fun _ => trivial) standard ..

theorem publicKey_careful (e : Engine) (r : Request) :
    (publicKey S e r).Careful Sessionless [] := by
  unfold publicKey
  split
  · exact Program.careful_pure _
  · rename_i id named
    have careful : (e.publicKey S id).run.Careful Sessionless [] :=
      (Engine.publicKey_careful id).mono (fun _ uses => uses.sessionless) (List.Subset.refl _)
    exact Program.careful_bind careful fun _ => Program.careful_pure _

theorem health_careful (e : Engine) (cipher : LocalText.Cipher) :
    (health e cipher).Careful Sessionless [] := by
  have has : (e.has none).run.Careful Sessionless [] := by
    refine Program.careful_bind (Program.careful_of_asks (Program.asks_put ⟨rfl, nofun⟩)) fun found => ?_
    split <;> exact Program.careful_pure _
  refine Program.careful_bind has fun there => ?_
  refine Program.careful_bind (Program.careful_of_asks (Program.asks_put ⟨rfl, nofun⟩)) fun sessions => ?_
  exact Program.careful_pure _

theorem localEncrypt_asks (quiet : Quiet g) (r : Request) :
    (localEncrypt S g.cipher r).Asks Apart := by
  unfold localEncrypt
  split
  · exact Program.asks_pure _
  · exact Program.asks_bind (LocalText.Cipher.asks_encrypt admits_apart (fun _ _ => trivial) quiet _)
      fun _ _ _ => Program.asks_pure _

theorem localDecrypt_asks (cipher : LocalText.Cipher) (r : Request) :
    (localDecrypt S cipher r).Asks Apart := by
  unfold localDecrypt
  split
  · exact Program.asks_pure _
  · exact Program.asks_bind (LocalText.Cipher.asks_decrypt admits_apart _ fun _ _ => trivial)
      fun _ _ _ => Program.asks_pure _

theorem serve_careful_of_other (quiet : Quiet g) (r : Request) (other : route ≠ .negotiate) :
    (serve S g r route).Careful Sessionless [] := by
  have apart {α : Type} {p : Program α} (asks : p.Asks Apart) : p.Careful Sessionless [] :=
    Program.careful_of_asks (asks.mono keepless_of_apart)
  cases route with
  | negotiate => exact absurd rfl other
  | publicKey =>
    exact Program.careful_bind (publicKey_careful _ r) fun _ => Program.careful_pure _
  | secureEcho =>
    have echo : (secureEcho S r).Careful Sessionless [] :=
      Program.careful_of_asks ((secureEcho_looks r).mono keepless_of_looks)
    exact Program.careful_bind echo fun _ => Program.careful_pure _
  | localEncrypt =>
    exact Program.careful_bind (apart (localEncrypt_asks quiet r)) fun _ => Program.careful_pure _
  | localDecrypt =>
    exact Program.careful_bind (apart (localDecrypt_asks _ r)) fun _ => Program.careful_pure _
  | health =>
    exact Program.careful_bind (health_careful _ _) fun _ => Program.careful_pure _

theorem negotiate_careful (responder : Exchange.Responder) (r : Request) :
    (negotiate S responder r).Careful (fun _ => True) [] := by
  unfold negotiate
  split
  · exact Program.careful_pure _
  · apply Program.careful_bind
    · apply Program.careful_bind
        (Exchange.Responder.respond_careful.mono (fun _ _ => trivial) (List.Subset.refl _))
      intro result
      exact Program.careful_pure _
    · intro result
      exact Program.careful_pure _

theorem serve_careful (quiet : Quiet g) (r : Request) (route : Route) :
    (serve S g r route).Careful (fun _ => True) [] := by
  by_cases other : route = .negotiate
  · subst other
    exact Program.careful_bind (negotiate_careful _ r) fun _ => Program.careful_pure _
  · exact (serve_careful_of_other quiet r other).mono (fun _ _ => trivial) (List.Subset.refl _)

/-- A gateway is the same but for keys that it has loaded. -/
structure Lasts (g g' : Gateway) : Prop where
  same : g' = { g with cipher := g'.cipher }
  cipher : g.cipher.Stays g'.cipher

theorem Lasts.refl (g : Gateway) : Lasts g g := ⟨rfl, .refl _⟩

theorem Lasts.trans {g'' : Gateway} (first : Lasts g g') (second : Lasts g' g'') : Lasts g g'' := by
  refine ⟨?_, first.cipher.trans second.cipher⟩
  rw [second.same, first.same]

theorem Lasts.engine (lasts : Lasts g g') : g'.engine = g.engine := by
  rw [lasts.same]
  rfl

theorem Lasts.quiet (lasts : Lasts g g') (quiet : Quiet g) : Quiet g' := by
  intro slot' member
  obtain ⟨slot, before, stays⟩ := lasts.cipher.slots.mem member
  rw [stays.scheme]
  exact quiet slot before

theorem localEncrypt_stays {cipher cipher' : LocalText.Cipher}
    (given : (localEncrypt S cipher r).Gives events (response, cipher')) :
    cipher.Stays cipher' := by
  unfold localEncrypt at given
  split at given
  · obtain ⟨-, same⟩ := Program.gives_pure.mp given
    cases same
    exact .refl _
  · obtain ⟨⟨whole, left⟩, encrypted, same⟩ := Program.gives_bind_pure.mp given
    cases same
    exact (LocalText.Cipher.encrypts_of_gives encrypted).stays

theorem localDecrypt_stays {cipher cipher' : LocalText.Cipher}
    (given : (localDecrypt S cipher r).Gives events (response, cipher')) :
    cipher.Stays cipher' := by
  unfold localDecrypt at given
  split at given
  · obtain ⟨-, same⟩ := Program.gives_pure.mp given
    cases same
    exact .refl _
  · obtain ⟨⟨text, left⟩, decrypted, same⟩ := Program.gives_bind_pure.mp given
    cases same
    exact (LocalText.Cipher.decrypts_of_gives decrypted).stays

theorem serve_lasts (given : (serve S g r route).Gives events (response, g')) : Lasts g g' := by
  cases route with
  | localEncrypt =>
    obtain ⟨⟨answer, cipher⟩, served, same⟩ := Program.gives_bind_pure.mp given
    obtain ⟨-, rfl⟩ := Prod.mk.inj same
    exact ⟨rfl, localEncrypt_stays served⟩
  | localDecrypt =>
    obtain ⟨⟨answer, cipher⟩, served, same⟩ := Program.gives_bind_pure.mp given
    obtain ⟨-, rfl⟩ := Prod.mk.inj same
    exact ⟨rfl, localDecrypt_stays served⟩
  | _ =>
    obtain ⟨answer, -, same⟩ := Program.gives_bind_pure.mp given
    obtain ⟨-, rfl⟩ := Prod.mk.inj same
    exact .refl _

theorem handle_lasts (given : (handle S g r).Gives events (response, g')) : Lasts g g' := by
  cases reached : g.dispatch? r with
  | none =>
    obtain ⟨answer, same⟩ := handle_of_undispatched (S := S) reached
    rw [same] at given
    obtain ⟨-, ended⟩ := Program.gives_pure.mp given
    obtain ⟨-, rfl⟩ := Prod.mk.inj ended
    exact .refl _
  | some route =>
    obtain ⟨inner, served, -⟩ := (gives_handle reached).mp given
    exact serve_lasts served

variable {α : Type} {c : Json.Codec α}

theorem body_ne_nil (c : Json.Codec α) (data : α) : (success c data).body ≠ [] := by
  have shown := Json.shows_object .compact ("code", .text Envelope.successCode)
    (("msg", .text "success") :: Json.optionalMember "data" (some (c.write data)))
  obtain ⟨b, bs, written, -⟩ := shown
  have body : (success c data).body = b :: bs := by
    rw [body_success, Json.Codec.print, Json.print, Bytes.ofText_eq, String.toList_ofList]
    exact written
  rw [body]
  exact List.cons_ne_nil _ _

theorem ok_of_presented (lossless : c.Lossless) {x : Except Failure α} {data : α}
    (status : (presented r (answer c x)).status = 200)
    (body : (presented r (answer c x)).body = (success c data).body) : x = .ok data := by
  rw [status_presented] at status
  cases x with
  | error e => exact absurd status e.service.status_ne_ok
  | ok data' =>
    have bodies : (success c data').body = (success c data).body := by
      rcases body_presented r (answer c (.ok data')) with empty | same
      · exact absurd (body.symm.trans empty) (body_ne_nil c data)
      · exact same.symm.trans body
    have parsed := parse_body_success lossless data'
    rw [bodies, parse_body_success lossless data] at parsed
    have envelopes := Except.ok.inj parsed
    rw [Option.some.inj (congrArg Envelope.data envelopes)]

theorem gives_serve_publicKey {id : Option String} (named : namedPair r = .ok id) :
    (serve S g r .publicKey).Gives events (response, g') ↔
      (∃ result, (g.engine.publicKey S id).run.Gives events result ∧
        answer Json.Codec.text (result.mapError .engine) = response) ∧ g = g' := by
  simp only [serve, publicKey, named, bind_assoc, pure_bind, Program.gives_bind_pure, Prod.mk.injEq]
  constructor
  · rintro ⟨result, asked, answered, same⟩
    exact ⟨⟨result, asked, answered⟩, same⟩
  · rintro ⟨⟨result, asked, answered⟩, same⟩
    exact ⟨result, asked, answered, same⟩

theorem gives_serve_negotiate {request : Exchange.Request}
    (read : contentJson Exchange.Request.codec r = .ok request) :
    (serve S g r .negotiate).Gives events (response, g') ↔
      (∃ result, (g.responder.respond S request).run.Gives events result ∧
        answer Exchange.Response.codec (result.mapError .exchange) = response) ∧ g = g' := by
  simp only [serve, negotiate, read, ofExchange, bind_assoc, pure_bind, Program.gives_bind_pure,
    Prod.mk.injEq]
  constructor
  · rintro ⟨result, responded, answered, same⟩
    exact ⟨⟨result, responded, answered⟩, same⟩
  · rintro ⟨⟨result, responded, answered⟩, same⟩
    exact ⟨result, responded, answered, same⟩

theorem publicKey_told {id : Option String} {text : String}
    (given : (serve S g r .publicKey).Gives events (response, g')) (named : namedPair r = .ok id)
    (status : (presented r response).status = 200)
    (body : (presented r response).body = (success Json.Codec.text text).body) :
    ∃ pair, Sees (id.getD g.engine.defaultId) pair events ∧ pair.publicKey = text := by
  obtain ⟨⟨result, asked, rfl⟩, -⟩ := (gives_serve_publicKey named).mp given
  obtain rfl := Attempt.mapError_ok.mp (ok_of_presented Json.Codec.text_lossless status body)
  exact Engine.sees_of_publicKey asked

theorem gives_negotiate_unread {u : Unread}
    (given : (serve S g r .negotiate).Gives events (response, g'))
    (read : contentJson Exchange.Request.codec r = .error u) : events = [] := by
  obtain ⟨_, served, -⟩ := Program.gives_bind_pure.mp given
  simp only [negotiate, read] at served
  exact (Program.gives_pure.mp served).1

theorem negotiate_told {request : Exchange.Request} {told : Exchange.Response}
    (given : (serve S g r .negotiate).Gives events (response, g'))
    (read : contentJson Exchange.Request.codec r = .ok request)
    (status : (presented r response).status = 200)
    (body : (presented r response).body = (success Exchange.Response.codec told).body) :
    ∃ pair, Sees (request.keyPairId.getD g.engine.defaultId) pair events ∧
      pair.publicKey = told.publicKey := by
  obtain ⟨⟨result, responded, rfl⟩, -⟩ := (gives_serve_negotiate read).mp given
  obtain rfl :=
    Attempt.mapError_ok.mp (ok_of_presented Exchange.Response.codec_lossless status body)
  exact Exchange.Responder.sees_of_respond responded

theorem gives_has {e : Engine} {id : Option String} {there : Except Engine.Error Bool}
    (given : (e.has id).run.Gives events there) : ∃ found,
      events = [⟨.findPair (id.getD e.defaultId), found⟩] ∧
        (there = .ok true ↔ ∃ pair, found = .ok pair) := by
  obtain ⟨found, _, _, rfl, looked, told⟩ := Program.gives_bind.mp given
  rw [Program.gives_getPair.mp looked]
  split at told
  · obtain ⟨rfl, rfl⟩ := Program.gives_pure.mp told
    exact ⟨_, rfl, by simp⟩
  · obtain ⟨rfl, rfl⟩ := Program.gives_pure.mp told
    exact ⟨_, rfl, by simp⟩
  · obtain ⟨rfl, rfl⟩ := Program.gives_pure.mp told
    exact ⟨_, rfl, by simp⟩

theorem health_ok (given : (serve S g r .health).Gives events (response, g')) :
    ∃ found count, events = [⟨.findPair g.engine.defaultId, found⟩, ⟨.countSessions, count⟩] ∧
      (response.status = 200 ↔ g.cipher.isReady = true ∧ ∃ pair, found = .ok pair) := by
  obtain ⟨_, served, same⟩ := Program.gives_bind_pure.mp given
  obtain ⟨rfl, -⟩ := Prod.mk.inj same
  obtain ⟨there, _, _, rfl, has, rest⟩ := Program.gives_bind.mp served
  obtain ⟨found, rfl, told⟩ := gives_has has
  obtain ⟨count, counted, rfl⟩ := Program.gives_bind_pure.mp rest
  rw [Program.gives_put.mp counted]
  have status (ready : Bool) : (if ready then 200 else 503) = 200 ↔ ready = true := by
    cases ready <;> decide
  refine ⟨found, count, rfl, (status _).trans ?_⟩
  rw [Bool.and_eq_true, ← told]
  refine and_congr_right fun _ => ?_
  cases there <;> simp

end KeyService.Gateway
