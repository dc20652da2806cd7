import KeyService.Proofs.Exchange.Agreement
import KeyService.Proofs.Program.Attempt

/-! What a failed exchange blames.
Each check has a cause of its own, so the cause tells how far an exchange got. -/
namespace KeyService.Exchange

variable {S : Suite} {cause : Error}

namespace Responder

theorem cause_of_checkCipher {request : Request} (failed : checkCipher request = .error cause) :
    ∃ what, cause = .unsupported what := by
  unfold checkCipher at failed
  split at failed
  · exact ⟨_, (Except.error.inj failed).symm⟩
  · split at failed
    · exact ⟨_, (Except.error.inj failed).symm⟩
    · split at failed
      · cases failed
      · exact ⟨_, (Except.error.inj failed).symm⟩

theorem cause_of_checkClock {r : Responder} {now timestamp : Int64}
    (failed : r.checkClock now timestamp = .error cause) : cause = .stale (skew now timestamp) := by
  unfold checkClock at failed
  split at failed
  · exact (Except.error.inj failed).symm
  · cases failed

theorem cause_of_readKey {text : String} (failed : readKey S text = .error cause) :
    ∃ detail, cause = .invalidPublicKey detail := by
  obtain ⟨e, -, told⟩ := Attempt.mapError_error.mp failed
  exact ⟨_, told.symm⟩

theorem cause_of_readToken {token : String} (failed : readToken token = .error cause) :
    ∃ what, cause = .unsupported what := by
  unfold readToken at failed
  split at failed
  · exact ⟨_, (Except.error.inj failed).symm⟩
  · split at failed
    · exact ⟨_, (Except.error.inj failed).symm⟩
    · cases failed

theorem cause_of_byEngine {α : Type} {work : Engine.Act α} {events : List Event}
    (failed : (byEngine work).run.Gives events (.error cause)) :
    ∃ inner, cause = .engine inner ∧ work.run.Gives events (.error inner) := by
  obtain ⟨result, worked, told⟩ := Program.gives_bind_pure.mp failed
  obtain ⟨inner, rfl, rfl⟩ := Attempt.mapError_error.mp told
  exact ⟨inner, rfl, worked⟩

end Responder

theorem Initiator.cause_of_verify {request : Request} {responder : S.curve.PublicKey}
    {response : Response} (failed : verify S request responder response = .error cause) :
    ∃ detail, cause = .verification detail := by
  unfold verify at failed
  rcases Attempt.bind_error.mp failed with failed | ⟨echoed, -, failed⟩
  · obtain ⟨e, -, told⟩ := Attempt.mapError_error.mp failed
    exact ⟨_, told.symm⟩
  · split at failed
    · exact ⟨_, (Except.error.inj failed).symm⟩
    · split at failed
      · exact ⟨_, (Except.error.inj failed).symm⟩
      · split at failed
        · exact ⟨_, (Except.error.inj failed).symm⟩
        · split at failed
          · cases failed
          · exact ⟨_, (Except.error.inj failed).symm⟩

end KeyService.Exchange
