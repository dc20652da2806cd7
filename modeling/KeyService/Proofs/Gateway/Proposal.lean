import KeyService.Proofs.Exchange.Causes
import KeyService.Proofs.Gateway.Marked

/-! The cipher that a gateway asks for.
A setting names it, in any of its spellings. What a request says is the name that the algorithm
gives for itself, and every responder reads there what was set. -/
namespace KeyService

open KeyService.Symmetric (Algorithm)

namespace Config

variable {c : Config} {a : Algorithm}

theorem transport_ok : c.transport = .ok a ↔
    Algorithm.ofName c.transportName c.transportBits = .ok a ∧ a.mode = .cbc := by
  rw [transport, Attempt.bind_ok]
  simp only [Attempt.mapError_ok]
  constructor
  · rintro ⟨read, known, chosen⟩
    split at chosen
    · rename_i chained
      obtain rfl := Attempt.pure_ok.mp chosen
      exact ⟨known, chained⟩
    · cases chosen
  · rintro ⟨known, chained⟩
    exact ⟨a, known, if_pos chained⟩

end Config

namespace Exchange

variable {S : Suite} {a : Algorithm}

/-- A responder reads the algorithm in the request, has no objection to it, and refuses the request
for its age if at all. -/
structure Responder.Understands (request : Request) (a : Algorithm) : Prop where
  read : Algorithm.ofName request.algorithm request.keyLength = .ok a
  suits : checkCipher request = .ok ()
  refusals : ∀ (r : Responder) (events : List Event) (cause : Error),
    (r.validate request).run.Gives events (.error cause) → ∃ apart, cause = .stale apart

namespace Initiator.Prepared

variable {i : Initiator} {url responderKey : String} {id : Option String} {sending : List Event}
  {p : Pending S} {seed : RandomBytes 48} {token : RandomBytes tokenLength}

theorem understands (prepared : Prepared S i url responderKey id sending p seed token)
    (chained : i.algorithm.mode = .cbc) : Responder.Understands p.request i.algorithm := by
  have suits := prepared.checkCipher chained
  refine ⟨?_, suits, fun r events cause given => ?_⟩
  · rw [prepared.algorithm, prepared.keyLength]
    exact Algorithm.ofName_chained chained
  · rcases Responder.gives_validate.mp given with ⟨_, refused, -⟩ | ⟨-, now, -, late⟩
    · cases suits.symm.trans refused
    · exact ⟨_, Responder.cause_of_checkClock late⟩

end Initiator.Prepared

/-- One grammar for the names of algorithms, wherever they are read: a name that is accepted in the
settings may be spelled in many ways, and all responders take what is asked for from it as the
algorithm that was set. -/
theorem names_read_alike (S : Suite) :
    (∀ name bits a, Algorithm.ofName name bits = .ok a ↔ a.Named name bits) ∧
    (∀ name bits a, Algorithm.ofName name bits = .ok a → Algorithm.ofName a.name bits = .ok a) ∧
    ∀ c : Config, c.check = .ok () → ∃ a, c.transport = .ok a ∧
      a.Named c.transportName c.transportBits ∧
      ∀ (endpoint : Endpoint) (url responderKey : String) (id : Option String)
        (events : List Event) (p : Pending S),
        ((⟨endpoint, a⟩ : Initiator).prepare S url responderKey id).run.Gives events (.ok p) →
          Responder.Understands p.request a := by
  refine ⟨fun name bits a => Algorithm.ofName_iff, fun name bits a read => ?_, fun c accepted => ?_⟩
  · have named := Algorithm.ofName_iff.mp read
    rw [named.bits]
    exact Algorithm.ofName_name (Algorithm.isMeaningful_iff.mpr named.meaningful)
  · obtain ⟨a, chosen⟩ := (Config.check_iff.mp accepted).transport
    obtain ⟨read, chained⟩ := Config.transport_ok.mp chosen
    refine ⟨a, chosen, Algorithm.ofName_iff.mp read, fun endpoint url responderKey id events p given => ?_⟩
    obtain ⟨seed, token, prepared⟩ := Initiator.gives_prepare.mp given
    exact prepared.understands chained

/-- Settings with a name that is spelled otherwise, and a request that is made by them. -/
theorem names_read_alike_small : ∃ (c : Config) (p : Pending Suite.small), c.check = .ok () ∧
    p.request.algorithm ≠ c.transportName ∧
    Responder.Understands p.request ⟨.cbc, .absent, .aes192⟩ := by
  let c := { Gateway.settings "/security/negotiate" "/security/publicKey" with
    transportName := " aes/cbc/noPadding\n", transportBits := 192 }
  have accepted : c.check = .ok () := by decide
  obtain ⟨a, chosen, -, understood⟩ := (names_read_alike Suite.small).2.2 c accepted
  have expected : c.transport = .ok ⟨.cbc, .absent, .aes192⟩ := by decide
  obtain rfl := Except.ok.inj (chosen.symm.trans expected)
  let i : Initiator := ⟨⟨"/exchange"⟩, ⟨.cbc, .absent, .aes192⟩⟩
  have inside : i.endpoint.check "/exchange" = .ok () := by decide
  obtain ⟨p, -, prepared⟩ :=
    Initiator.prepared_of_draws (Small.halves 5).2 inside none Small.seed Small.token 0
  refine ⟨c, p, accepted, ?_, ?_⟩
  · rw [prepared.algorithm]
    decide
  · exact understood _ _ _ _ _ p (Initiator.gives_prepare.mpr ⟨_, _, prepared⟩)

end Exchange

end KeyService
