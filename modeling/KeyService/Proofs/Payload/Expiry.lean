import KeyService.Proofs.Exchange.Agreement
import KeyService.Proofs.Payload.Posting

/-! What the end of a session does to work in it.
Each step looks at the clock before it looks at anything else. So work that finds the session
over says so, at whichever step that is, and work that does not blames what it was given. -/
namespace KeyService.Payload

variable {S : Suite} {now : Int64} {s : Exchange.Session} {size : Symmetric.KeySize}
  {key : DataKey} {text : Bytes} {wrapped payload : String} {cause : Failure} {events : List Event}
  {α β : Type}

/-- A failure that has nothing to do with the life of a session. -/
inductive Mild : Failure → Prop where
  | payload (cause : Error) : Mild (.payload cause)
  | symmetric (cause : Symmetric.Error) : Mild (.symmetric cause)

/-- The clock was read, and the session was over. -/
def Ends (s : Exchange.Session) (events : List Event) : Prop :=
  ∃ now, ⟨.now, now⟩ ∈ events ∧ s.isExpired now = true

theorem ends_append {events' : List Event} :
    Ends s (events ++ events') ↔ Ends s events ∨ Ends s events' := by
  simp only [Ends, List.mem_append, or_and_right, exists_or]

theorem ends_time : Ends s (⟨.now, now⟩ :: events) ↔ s.isExpired now = true ∨ Ends s events := by
  constructor
  · rintro ⟨t, member, past⟩
    rcases List.mem_cons.mp member with same | later
    · obtain rfl : t = now := eq_of_heq (Sigma.mk.inj same).2
      exact .inl past
    · exact .inr ⟨t, later, past⟩
  · rintro (past | ⟨t, later, past⟩)
    · exact ⟨now, List.mem_cons_self, past⟩
    · exact ⟨t, .tail _ later, past⟩

/-- Work that fails with the end of a session exactly if it has seen it. -/
def Heeds (s : Exchange.Session) (x : ExceptT Failure Program α) : Prop :=
  ∀ events r, x.run.Gives events r →
    Ends s events ∧ r = .error (.exchange (.expired s.id)) ∨
      ¬ Ends s events ∧ ∀ cause, r = .error cause → Mild cause

theorem heeds_bind {x : ExceptT Failure Program α} {f : α → ExceptT Failure Program β}
    (first : Heeds s x) (second : ∀ a, Heeds s (f a)) : Heeds s (x >>= f) := by
  intro events r given
  rcases Program.gives_act_bind.mp given with ⟨cause, failed, rfl⟩ | ⟨a, before, after, rfl, led, rest⟩
  · refine (first events _ failed).imp (fun ended => ?_) fun fine => ?_
    · exact ⟨ended.1, congrArg _ (Except.error.inj ended.2)⟩
    · refine ⟨fine.1, fun cause' same => fine.2 cause' ?_⟩
      rw [Except.error.inj same]
  · obtain ⟨-, impossible⟩ | ⟨alive, -⟩ := first before _ led
    · cases impossible
    · rw [ends_append, or_iff_right alive]
      exact second a after r rest

theorem heeds_except {x : Except Failure α} (mild : ∀ cause, x = .error cause → Mild cause) :
    Heeds s (liftM x : ExceptT Failure Program α) := by
  intro events r given
  obtain ⟨rfl, rfl⟩ := Program.gives_pure.mp given
  exact .inr ⟨fun ends => absurd ends (by simp [Ends]), mild⟩

theorem heeds_pure (a : α) : Heeds s (pure a : ExceptT Failure Program α) :=
  heeds_except (x := .ok a) nofun

/-- Work that looks at the clock first. -/
structure Checked (s : Exchange.Session) (work : Int64 → Except Failure α) : Prop where
  past : ∀ now, s.isExpired now = true → work now = .error (.exchange (.expired s.id))
  mild : ∀ now cause, s.isExpired now = false → work now = .error cause → Mild cause

theorem heeds_timed {work : Int64 → Except Failure α} (checked : Checked s work)
    {f : α → ExceptT Failure Program β} (rest : ∀ a, Heeds s (f a)) : Heeds s (do
      let a ← liftM (work (← Program.time))
      f a : ExceptT Failure Program β) := by
  intro events r given
  obtain ⟨now, later, rfl, worked⟩ := Program.gives_time_bind.mp given
  rw [ends_time]
  cases past : s.isExpired now with
  | true =>
    rw [checked.past now past] at worked
    obtain ⟨-, rfl⟩ := Program.gives_pure.mp worked
    exact .inl ⟨.inl rfl, rfl⟩
  | false =>
    have heeds := heeds_bind (heeds_except fun cause => checked.mild now cause past) rest later r worked
    simpa using heeds

theorem heeds_draw (bits : UInt16) : Heeds s (DataKey.draw bits) := by
  refine heeds_bind (heeds_except fun cause failed => ?_) fun size => ?_
  · obtain ⟨inner, -, rfl⟩ := Attempt.mapError_error.mp failed
    exact .symmetric inner
  · intro events r given
    obtain ⟨drawn, rest, rfl, ended⟩ := Program.gives_ask.mp given
    obtain ⟨rfl, rfl⟩ := Program.gives_done.mp ended
    exact .inr ⟨by simp [Ends], nofun⟩

theorem checkLive_of_past (past : s.isExpired now = true) :
    checkLive now s = .error (.exchange (.expired s.id)) := by
  rw [checkLive, past]
  rfl

theorem checked_of_bind {rest : Except Failure α} (mild : ∀ cause, rest = .error cause → Mild cause) :
    Checked s fun now => checkLive now s >>= fun _ => rest where
  past now past := by
    rw [checkLive_of_past past]
    rfl
  mild now cause live failed := by
    rw [checkLive_of_live live] at failed
    exact mild cause failed

theorem mild_of_mapError {x : Except Symmetric.Error α} (cause : Failure)
    (failed : x.mapError Failure.symmetric = .error cause) : Mild cause := by
  obtain ⟨inner, -, rfl⟩ := Attempt.mapError_error.mp failed
  exact .symmetric inner

theorem mild_of_sessionCipher (cause : Failure) (failed : sessionCipher s = .error cause) :
    Mild cause := by
  rcases Attempt.bind_error.mp failed with failed | ⟨_, -, impossible⟩
  · exact mild_of_mapError cause failed
  · cases impossible

theorem mild_of_decode (cause : Failure) (failed : decode payload = .error cause) : Mild cause := by
  unfold decode at failed
  split at failed
  · cases failed
  · exact Except.error.inj failed ▸ .payload _

theorem mild_of_ofBytes {bs : Bytes} (cause : Failure) (failed : DataKey.ofBytes bs = .error cause) :
    Mild cause := by
  unfold DataKey.ofBytes at failed
  split at failed
  · cases failed
  · exact Except.error.inj failed ▸ .payload _

theorem checked_wrap (s : Exchange.Session) (key : DataKey) :
    Checked s fun now => wrap S now s key := by
  refine checked_of_bind fun cause failed => ?_
  rcases Attempt.bind_error.mp failed with failed | ⟨cipher, -, failed⟩
  · exact mild_of_sessionCipher cause failed
  rcases Attempt.bind_error.mp failed with failed | ⟨_, -, impossible⟩
  · exact mild_of_mapError cause failed
  · cases impossible

theorem checked_unwrap (s : Exchange.Session) (wrapped : String) :
    Checked s fun now => unwrap S now s wrapped := by
  refine checked_of_bind fun cause failed => ?_
  rcases Attempt.bind_error.mp failed with failed | ⟨cipher, -, failed⟩
  · exact mild_of_sessionCipher cause failed
  rcases Attempt.bind_error.mp failed with failed | ⟨whole, -, failed⟩
  · exact mild_of_decode cause failed
  rcases Attempt.bind_error.mp failed with failed | ⟨bs, -, failed⟩
  · exact mild_of_mapError cause failed
  · exact mild_of_ofBytes cause failed

theorem checked_encrypt (s : Exchange.Session) (key : DataKey) (text : Bytes) :
    Checked s fun now => encrypt S now s key text := by
  refine checked_of_bind fun cause failed => ?_
  rcases Attempt.bind_error.mp failed with failed | ⟨_, -, impossible⟩
  · exact mild_of_mapError cause failed
  · cases impossible

theorem checked_decrypt (s : Exchange.Session) (key : DataKey) (payload : String) :
    Checked s fun now => decrypt S now s key payload := by
  refine checked_of_bind fun cause failed => ?_
  rcases Attempt.bind_error.mp failed with failed | ⟨whole, -, failed⟩
  · exact mild_of_decode cause failed
  · exact mild_of_mapError cause failed

/-- A text and its data key, as they are read in a session whenever it lives. -/
structure Reads (S : Suite) (s : Exchange.Session) (wrapped payload : String) (key : DataKey)
    (text : Bytes) : Prop where
  unwrap : ∀ now, s.isExpired now = false → unwrap S now s wrapped = .ok key
  decrypt : ∀ now, s.isExpired now = false → decrypt S now s key payload = .ok text

theorem Checked.live {work : Int64 → Except Failure α} (checked : Checked s work) {a : α}
    (done : work now = .ok a) : s.isExpired now = false := by
  cases past : s.isExpired now with
  | true => exact nomatch done.symm.trans (checked.past now past)
  | false => rfl

/-- What is read at one time is read at any. -/
theorem reads_of_ok {later : Int64} (unwrapped : unwrap S now s wrapped = .ok key)
    (decrypted : decrypt S later s key payload = .ok text) : Reads S s wrapped payload key text where
  unwrap other live := by
    have before := checkLive_of_live ((checked_unwrap s wrapped).live unwrapped)
    simpa only [Payload.unwrap, checkLive_of_live live, before] using unwrapped
  decrypt other live := by
    have before := checkLive_of_live ((checked_decrypt s key payload).live decrypted)
    simpa only [Payload.decrypt, checkLive_of_live live, before] using decrypted

/-- A session in which anything can be read has a proper key and initialisation vector. -/
theorem equipped_of_unwrap (unwrapped : unwrap S now s wrapped = .ok key) :
    ∃ size, Equipped s size := by
  have live := (checked_unwrap s wrapped).live unwrapped
  simp only [unwrap, checkLive_of_live live, Attempt.ok_bind, Attempt.bind_ok, sessionCipher,
    Attempt.mapError_ok, Attempt.pure_ok] at unwrapped
  obtain ⟨_, ⟨size, known, rfl⟩, whole, -, bs, decrypted, -⟩ := unwrapped
  obtain ⟨proper, decrypted⟩ := Symmetric.Algorithm.of_checkKey decrypted
  obtain ⟨block, -⟩ := Symmetric.Algorithm.of_checkIv decrypted
  refine ⟨size, ?_, proper, block⟩
  cases named : Symmetric.KeySize.ofBits? s.keyLength with
  | none =>
    rw [Symmetric.KeySize.ofBits, named] at known
    cases known
  | some size' =>
    rw [Symmetric.KeySize.ofBits, named] at known
    obtain rfl := Except.ok.inj known
    exact Symmetric.KeySize.ofBits?_iff.mp named

theorem Posted.reads (posted : Posted S s size key text wrapped payload) (inverts : S.AesInverts)
    (equipped : Equipped s size) : Reads S s wrapped payload key text where
  unwrap _ live := posted.unwrap inverts ⟨rfl, rfl, rfl, rfl, rfl⟩ equipped live
  decrypt _ live := posted.decrypt inverts ⟨rfl, rfl, rfl, rfl, rfl⟩ live

variable {γ : Type} {make : String → String → γ}

theorem heeds_post : Heeds s (post S s text make) := by
  refine heeds_bind (heeds_draw _) fun key => ?_
  refine heeds_timed (checked_wrap s key) fun wrapped => ?_
  exact heeds_timed (checked_encrypt s key text) fun payload => heeds_pure _

theorem posted_of_post (equipped : Equipped s size) {made : γ}
    (given : (post S s text make).run.Gives events (.ok made)) :
    ∃ key wrapped payload, made = make wrapped payload ∧
      Posted S s size key text wrapped payload := by
  simp only [post, Program.gives_bind_ok, ↓Program.gives_time_bind,
    ↓Program.gives_except_bind_ok, Program.gives_pure_ok] at given
  obtain ⟨key, _, _, -, -, now, _, -, wrapped, wraps, later, _, -, payload, encrypts, -, rfl⟩ := given
  have live := (checked_wrap s key).live wraps
  have live' := (checked_encrypt s key text).live encrypts
  exact ⟨key, wrapped, payload, rfl, (wrap_ok equipped live).mp wraps, (encrypt_ok live').mp encrypts⟩

end KeyService.Payload
