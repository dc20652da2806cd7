import KeyService.Proofs.Exchange.Sessions
import KeyService.Proofs.Gateway.Echo
import KeyService.Proofs.Gateway.Marked
import KeyService.Proofs.Payload.Expiry

/-! How a request for an echo is judged.
The headers come first, then the session, then what was posted in it. A session can end at any
step; the answer is then that keys have to be exchanged, whatever the step was about. -/
namespace KeyService.Gateway

open Exchange (Session SessionStore)
open Http (Headers Request Response)
open Payload (Ends Equipped Heeds Mild Posted Reads Within)
open Program (Succeeds)

variable {S : Suite} {r : Request} {name id wrapped payload : String} {s : Session}
  {t : SessionStore} {looked : Int64} {events : List Event} {size : Symmetric.KeySize}
  {key : Payload.DataKey} {text : Bytes} {response : Response}

/-- The value of a header that is there and has visible characters only. -/
def headerText (r : Request) (name : String) : Option String :=
  (r.headers.find? name).bind Headers.text?

theorem header_ok_iff {value : String} : header r name = .ok value ↔ headerText r name = some value := by
  unfold header headerText
  split
  · rename_i missing
    simp [missing]
  · rename_i found
    rw [found, Option.bind_some]
    split
    · rename_i read
      simp [read]
    · rename_i unread
      simp [unread]

theorem status_of_header {refused : Response} (failed : header r name = .error refused) :
    refused.status = 400 := by
  unfold header at failed
  split at failed
  · exact Except.error.inj failed ▸ rfl
  · split at failed
    · cases failed
    · exact Except.error.inj failed ▸ rfl

/-- What is done for an echo once its session is found. -/
def reply (S : Suite) (s : Session) (wrapped payload : String) :
    ExceptT Failure Program (String × String) := do
  let key ← liftM (Payload.unwrap S (← Program.time) s wrapped)
  let text ← liftM (Payload.decrypt S (← Program.time) s key payload)
  Payload.post S s text Prod.mk

theorem echo_eq (S : Suite) (id wrapped payload : String) : echo S id wrapped payload = (do
    let s ← ofExchange (ExceptT.mk (Program.getSession id))
    reply S s wrapped payload) := rfl

theorem heeds_reply : Heeds s (reply S s wrapped payload) := by
  refine Payload.heeds_timed (Payload.checked_unwrap s wrapped) fun key => ?_
  refine Payload.heeds_timed (Payload.checked_decrypt s key payload) fun text => ?_
  exact Payload.heeds_post

theorem reply_ok {told : String × String}
    (given : (reply S s wrapped payload).run.Gives events (.ok told)) :
    ∃ size key text key', Equipped s size ∧ Reads S s wrapped payload key text ∧
      Posted S s size key' text told.1 told.2 := by
  simp only [reply, ↓Program.gives_time_bind, ↓Program.gives_except_bind_ok] at given
  obtain ⟨now, _, -, key, unwrapped, later, rest, -, text, decrypted, posting⟩ := given
  obtain ⟨size, equipped⟩ := Payload.equipped_of_unwrap unwrapped
  obtain ⟨key', wrapped', payload', rfl, posted⟩ := Payload.posted_of_post equipped posting
  exact ⟨size, key, text, key', equipped, Payload.reads_of_ok unwrapped decrypted, posted⟩

theorem reply_succeeds {P : Event → Prop} (within : Within P s) (equipped : Equipped s size)
    (reads : Reads S s wrapped payload key text) :
    Succeeds P (reply S s wrapped payload) fun _ => True := by
  refine Payload.timed_succeeds within reads.unwrap ?_
  refine Payload.timed_succeeds within reads.decrypt ?_
  intro events told given kind
  obtain ⟨made, done, -⟩ := Payload.post_succeeds within equipped ⟨rfl, rfl, rfl, rfl, rfl⟩ events told given kind
  exact ⟨made, done, trivial⟩

theorem gives_echo {result : Except Failure (String × String)} :
    (echo S id wrapped payload).run.Gives events result ↔
      ∃ found rest, events = ⟨.findSession id, found⟩ :: rest ∧
        ((∃ cause, found = .error cause ∧ rest = [] ∧ result = .error (.exchange cause)) ∨
          ∃ s, found = .ok s ∧ (reply S s wrapped payload).run.Gives rest result) := by
  have looking {looks : List Event} {told : Except Failure Session} :
      (ofExchange (ExceptT.mk (Program.getSession id))).Gives looks told ↔
        ∃ found, looks = [⟨.findSession id, found⟩] ∧ found.mapError .exchange = told := by
    unfold ofExchange
    rw [Program.gives_bind_pure]
    exact ⟨fun ⟨found, asked, same⟩ => ⟨found, Program.gives_put.mp asked, same⟩,
      fun ⟨found, same, told⟩ => ⟨found, Program.gives_put.mpr same, told⟩⟩
  rw [echo_eq, Program.gives_act_bind]
  constructor
  · rintro (⟨cause, failed, rfl⟩ | ⟨s, before, rest, rfl, asked, worked⟩)
    · obtain ⟨found, rfl, told⟩ := looking.mp failed
      obtain ⟨inner, rfl, rfl⟩ := Attempt.mapError_error.mp told
      exact ⟨_, [], rfl, .inl ⟨inner, rfl, rfl, rfl⟩⟩
    · obtain ⟨found, rfl, told⟩ := looking.mp asked
      obtain rfl := Attempt.mapError_ok.mp told
      exact ⟨_, rest, rfl, .inr ⟨s, rfl, worked⟩⟩
  · rintro ⟨found, rest, rfl, ⟨cause, rfl, rfl, rfl⟩ | ⟨s, rfl, worked⟩⟩
    · exact .inl ⟨_, looking.mpr ⟨_, rfl, rfl⟩, rfl⟩
    · exact .inr ⟨s, _, rest, rfl, looking.mpr ⟨_, rfl, rfl⟩, worked⟩

/-- There is no session of the id, or it was over when it was looked up or at some later step. -/
def Lapsed (t : SessionStore) (id : String) (looked : Int64) (events : List Event) : Prop :=
  ∀ s, t.find? id = some s → s.isExpired looked = true ∨ Ends s events

theorem ends_found {found : Except Exchange.Error Session} :
    Ends s (⟨.findSession id, found⟩ :: events) ↔ Ends s events := by
  simp [Ends]

/-- What comes of an echo: no session, a mild failure in a session that lives, or the text that was
read, posted once more. -/
inductive Outcome (S : Suite) (t : SessionStore) (id wrapped payload : String) (looked : Int64)
    (events : List Event) : Except Failure (String × String) → Prop where
  | lapsed {cause : Exchange.Error} : Lapsed t id looked events →
      cause = .unknownSession id ∨ (∃ name, cause = .expired name) →
      Outcome S t id wrapped payload looked events (.error (.exchange cause))
  | failed {cause : Failure} : ¬ Lapsed t id looked events → Mild cause →
      (∀ s key text, t.find? id = some s → ¬ Reads S s wrapped payload key text) →
      Outcome S t id wrapped payload looked events (.error cause)
  | echoed {s : Session} {size : Symmetric.KeySize} {key key' : Payload.DataKey} {text : Bytes}
      {told : String × String} : ¬ Lapsed t id looked events → t.find? id = some s →
      Equipped s size → Reads S s wrapped payload key text →
      Posted S s size key' text told.1 told.2 →
      Outcome S t id wrapped payload looked events (.ok told)

theorem outcome_of_reply {result : Except Failure (String × String)} (there : t.find? id = some s)
    (live : s.isExpired looked = false) (given : (reply S s wrapped payload).run.Gives events result) :
    Outcome S t id wrapped payload looked (⟨.findSession id, .ok s⟩ :: events) result := by
  have only {s'} (other : t.find? id = some s') : s' = s :=
    (Option.some.inj (there.symm.trans other)).symm
  rcases heeds_reply events result given with ⟨ends, rfl⟩ | ⟨alive, mild⟩
  · exact .lapsed (fun s' other => .inr (ends_found.mpr (only other ▸ ends))) (.inr ⟨_, rfl⟩)
  have lives : ¬ Lapsed t id looked (⟨.findSession id, .ok s⟩ :: events) := by
    intro lapsed
    rcases lapsed s there with ended | ends
    · exact Bool.false_ne_true (live.symm.trans ended)
    · exact alive (ends_found.mp ends)
  cases result with
  | ok told =>
    obtain ⟨size, key, text, key', equipped, reads, posted⟩ := reply_ok given
    exact .echoed lives there equipped reads posted
  | error cause =>
    refine .failed lives (mild cause rfl) fun s' key text other reads => ?_
    obtain rfl := only other
    obtain ⟨size, equipped⟩ := Payload.equipped_of_unwrap (reads.unwrap looked live)
    -- Before its end, a session in which the text can be read answers.
    have within : Within (· ∈ events) s' := fun now member => by
      by_contra ended
      exact alive ⟨now, member, by simpa using ended⟩
    obtain ⟨_, impossible, -⟩ :=
      reply_succeeds within equipped reads events _ given fun _ member => member
    cases impossible

theorem outcome_of_echo {result : Except Failure (String × String)}
    (given : (echo S id wrapped payload).run.Gives
      (⟨.findSession id, t.get looked id⟩ :: events) result) :
    Outcome S t id wrapped payload looked (⟨.findSession id, t.get looked id⟩ :: events) result := by
  obtain ⟨found, rest, same, ended⟩ := gives_echo.mp given
  obtain ⟨told, rfl⟩ := List.cons.inj same
  obtain rfl : t.get looked id = found := eq_of_heq (Sigma.mk.inj told).2
  rcases ended with ⟨cause, failed, -, rfl⟩ | ⟨s, done, worked⟩
  · cases there : t.find? id with
    | none =>
      obtain rfl := Except.error.inj ((SessionStore.get_of_none there).symm.trans failed)
      exact .lapsed (fun s other => nomatch there.symm.trans other) (.inl rfl)
    | some s =>
      rw [SessionStore.get_of_some there] at failed
      split at failed
      · rename_i past
        obtain rfl := Except.error.inj failed
        refine .lapsed (fun s' other => .inl ?_) (.inr ⟨id, rfl⟩)
        obtain rfl := Option.some.inj (there.symm.trans other)
        exact decide_eq_true past
      · cases failed
  · obtain ⟨there, early⟩ := SessionStore.get_ok.mp done
    rw [done]
    exact outcome_of_reply there (decide_eq_false (Int64.not_lt.mpr early)) worked

/-- The answer to an echo carries a text, posted in a session. -/
def Returns (S : Suite) (s : Session) (text : Bytes) (response : Response) : Prop :=
  ∃ key wrapped payload, response.headers.find? dataKeyHeader = some (Bytes.ofText wrapped) ∧
    (Envelope.codec Json.Codec.text).parse response.body = .ok (.success payload) ∧
    Reads S s wrapped payload key text

/-- What the answer to an echo says, and when, if both headers are there. -/
structure Decides (S : Suite) (t : SessionStore) (id wrapped payload : String) (looked : Int64)
    (events : List Event) (response : Response) : Prop where
  required_iff : response.status = 401 ↔ Lapsed t id looked events
  required : response.status = 401 → ∃ msg, (Envelope.codec Json.Codec.text).parse response.body =
    .ok (.failure "negotiation_required" msg)
  answered_iff : response.status = 200 ↔ ¬ Lapsed t id looked events ∧
    ∃ s key text, t.find? id = some s ∧ Reads S s wrapped payload key text
  answered : response.status = 200 → ∃ (s : Session) (key : Payload.DataKey) (text : Bytes),
    t.find? id = some s ∧ key.bytes.length ∈ [16, 24, 32] ∧
    Reads S s wrapped payload key text ∧ Returns S s text response
  otherwise : response.status ∈ [200, 400, 401, 500]

def echoed : Except Failure (String × String) → Response
  | .ok told => (success Json.Codec.text told.2).withHeader dataKeyHeader told.1
  | .error e => failure e.service

theorem length_dataKey (key : Payload.DataKey) : key.bytes.length ∈ [16, 24, 32] := by
  rw [key.length_bytes]
  cases key.size <;> decide

theorem status_of_mild {cause : Failure} (mild : Mild cause) :
    cause.service.status = 400 ∨ cause.service.status = 500 := by
  cases mild with
  | payload cause => exact .inl rfl
  | symmetric cause => exact .inr rfl

theorem returns_echoed (inverts : S.AesInverts) (equipped : Equipped s size) {told : String × String}
    (posted : Posted S s size key text told.1 told.2) : Returns S s text (echoed (.ok told)) := by
  have own : Text.sameLetters "content-type" dataKeyHeader = false ∧
      Text.sameLetters dataKeyHeader dataKeyHeader = true := by decide
  refine ⟨key, told.1, told.2, ?_, ?_, posted.reads inverts equipped⟩
  · simp [echoed, success, envelope, Response.ofText, Response.withHeader, Headers.find?, own]
  · exact parse_body_success Json.Codec.text_lossless told.2

theorem decides_of_outcome (inverts : S.AesInverts) {result : Except Failure (String × String)}
    (outcome : Outcome S t id wrapped payload looked events result) :
    Decides S t id wrapped payload looked events (echoed result) := by
  cases outcome with
  | @lapsed cause lapsed named =>
    have negotiation : ∃ msg, (Failure.exchange cause).service = .negotiationRequired msg := by
      rcases named with rfl | ⟨name, rfl⟩
      · exact ⟨_, rfl⟩
      · exact ⟨_, rfl⟩
    obtain ⟨msg, service⟩ := negotiation
    have status : (echoed (.error (.exchange cause))).status = 401 := congrArg ServiceError.status service
    refine ⟨iff_of_true status lapsed, fun _ => ?_, ?_, fun ok => ?_, by simp [status]⟩
    · have code : "negotiation_required" = (Failure.exchange cause).service.code :=
        (congrArg ServiceError.code service).symm
      refine ⟨(Failure.exchange cause).service.message, ?_⟩
      rw [code]
      exact parse_body_failure Json.Codec.text _
    · rw [status]
      exact iff_of_false (by decide) fun both => both.1 lapsed
    · rw [status] at ok
      cases ok
  | @failed cause lives mild unread =>
    have status : (echoed (.error cause)).status = cause.service.status := rfl
    have kinds := status_of_mild mild
    refine ⟨iff_of_false (by omega) lives, by omega, iff_of_false (by omega) ?_, by omega, ?_⟩
    · rintro ⟨-, s, key, text, there, reads⟩
      exact unread s key text there reads
    · simp only [List.mem_cons, List.not_mem_nil, or_false]
      omega
  | @echoed s size key key' text told lives there equipped reads posted =>
    have status : (echoed (.ok told)).status = 200 := rfl
    refine ⟨iff_of_false (by omega) lives, by omega, iff_of_true status ⟨lives, s, key, text, there, reads⟩,
      fun _ => ⟨s, key, text, there, length_dataKey key, reads, returns_echoed inverts equipped posted⟩, ?_⟩
    rw [status]
    decide

/-- How a request with the posted text is judged. -/
structure Judges (S : Suite) (t : SessionStore) (r : Request) (payload : String) (looked : Int64)
    (events : List Event) (response : Response) : Prop where
  nameless : headerText r sessionHeader = none ∨ headerText r dataKeyHeader = none →
    response.status = 400
  named : ∀ id wrapped, headerText r sessionHeader = some id →
    headerText r dataKeyHeader = some wrapped →
    Decides S t id wrapped payload looked events response

theorem decides_presented {sent : Response} (post : r.method = "POST")
    (decides : Decides S t id wrapped payload looked events sent) :
    Decides S t id wrapped payload looked events (presented r sent) := by
  have notHead : r.method ≠ "HEAD" := by
    rw [post]
    decide
  have same : (presented r sent).body = sent.body := body_presented_of_whole notHead sent
  have named (value : Bytes) (found : sent.headers.find? dataKeyHeader = some value) :
      (presented r sent).headers.find? dataKeyHeader = some value := by
    rw [presented, if_neg notHead]
    simp only [coded]
    split
    · exact found
    · split
      · exact found
      · rw [Response.withHeader, Headers.find?_append, found]
        rfl
  refine ⟨?_, ?_, ?_, ?_, ?_⟩
  · rw [status_presented]
    exact decides.required_iff
  · rw [status_presented, same]
    exact decides.required
  · rw [status_presented]
    exact decides.answered_iff
  · rw [status_presented]
    intro ok
    obtain ⟨s, key, text, there, length, reads, key', wrapped', payload', found, parsed, reads'⟩ :=
      decides.answered ok
    exact ⟨s, key, text, there, length, reads, key', wrapped', payload', named _ found,
      same ▸ parsed, reads'⟩
  · rw [status_presented]
    exact decides.otherwise

variable {σ : Type} {B : KeyPair.Backend σ} {c : Exchange.Chance} {h h' : Exchange.Host σ}

open Exchange (Host)

theorem same_of_looks (answers : (Host.alone B c).Answers h events h')
    (looks : ∀ e ∈ events, Payload.Looks e.1) : h'.pairs = h.pairs ∧ h'.sessions = h.sessions := by
  refine answers.keeps (fun h' => h'.pairs = h.pairs ∧ h'.sessions = h.sessions)
    (fun e member s s' told same => ?_) ⟨rfl, rfl⟩
  obtain ⟨rfl, -⟩ := Host.look_step (looks e member) told
  exact same

theorem clock_of_answers {now : Int64} (answers : (Host.alone B c).Answers h events h')
    (member : ⟨.now, now⟩ ∈ events) : ∃ n, c.clock n = now := by
  induction answers with
  | nil => cases member
  | @cons h h₁ h' question answer events same _ ih =>
    rcases List.mem_cons.mp member with first | later
    · cases first
      exact ⟨h.ticks, (Prod.mk.inj same).1⟩
    · exact ih later

theorem secureEcho_named (content : contentText r = .ok payload)
    (session : headerText r sessionHeader = some id) (dataKey : headerText r dataKeyHeader = some wrapped) :
    secureEcho S r = (do return echoed (← (echo S id wrapped payload).run)) := by
  simp only [secureEcho, content, header_ok_iff.mpr session, header_ok_iff.mpr dataKey]
  congr 1
  funext result
  cases result <;> rfl

theorem status_of_nameless (content : contentText r = .ok payload)
    (nameless : headerText r sessionHeader = none ∨ headerText r dataKeyHeader = none)
    (given : (secureEcho S r).Gives events response) : response.status = 400 := by
  simp only [secureEcho, content] at given
  split at given
  · rename_i refused failed
    obtain ⟨-, rfl⟩ := Program.gives_pure.mp given
    exact status_of_header failed
  · rename_i refused failed _
    obtain ⟨-, rfl⟩ := Program.gives_pure.mp given
    exact status_of_header failed
  · rename_i id wrapped session dataKey
    rw [header_ok_iff] at session dataKey
    rcases nameless with missing | missing
    · cases missing.symm.trans session
    · cases missing.symm.trans dataKey

theorem judges_of_secureEcho (inverts : S.AesInverts) (post : r.method = "POST")
    (content : contentText r = .ok payload) (given : (secureEcho S r).Gives events response)
    (answers : (Host.alone B c).Answers h events h') :
    Judges S h.sessions r payload (c.clock h.ticks) events (presented r response) where
  nameless missing := by
    rw [status_presented]
    exact status_of_nameless content missing given
  named id wrapped session dataKey := by
    rw [secureEcho_named content session dataKey] at given
    obtain ⟨result, worked, rfl⟩ := Program.gives_bind_pure.mp given
    obtain ⟨found, rest, rfl, -⟩ := gives_echo.mp worked
    obtain ⟨h₁, looked, -⟩ := Surroundings.answers_cons.mp answers
    obtain rfl : h.sessions.get (c.clock h.ticks) id = found := (Prod.mk.inj looked).1
    exact decides_presented post (decides_of_outcome inverts (outcome_of_echo worked))

variable {g g' : Gateway} {responder : Exchange.Responder} {cipher : LocalText.Cipher}
  {negotiationPath publicKeyPath : String}

/-- A request for an echo changes nothing. One that is marked as an exchange of keys, and kept from
its handler, is told so; any other is judged by its headers, its session and what it posts. -/
theorem echo_judged (inverts : S.AesInverts)
    (built : ofPaths responder cipher negotiationPath publicKeyPath = .ok g)
    (post : r.method = "POST") (target : r.target.path = echoPath)
    (body : r.body = Bytes.ofText payload) (fits : r.body.length ≤ maxContent)
    (ran : (handle S g r).run (Host.alone B c) h = ((response, g'), h')) :
    g' = g ∧ h'.pairs = h.pairs ∧ h'.sessions = h.sessions ∧
      (g.isStray r = true → response.status = 400) ∧
      (g.isStray r = false → ∃ events, (handle S g r).Gives events (response, g) ∧
        (Host.alone B c).Answers h events h' ∧
        Judges S h.sessions r payload (c.clock h.ticks) events response) := by
  obtain ⟨events, given, answers⟩ := Program.gives_of_run (w := Host.alone B c) (handle S g r) h
  rw [ran] at given answers
  cases stray : g.isStray r with
  | true =>
    obtain ⟨refused, idle, status, -⟩ := handle_of_stray (S := S) stray
    rw [idle] at given
    obtain ⟨rfl, ended⟩ := Program.gives_pure.mp given
    obtain ⟨rfl, rfl⟩ := Prod.mk.inj ended
    cases answers
    exact ⟨rfl, rfl, rfl, fun _ => status, fun inside => (Bool.false_ne_true inside.symm).elim⟩
  | false =>
    have planned : (r.target.path, Route.secureEcho) ∈ Router.plan negotiationPath publicKeyPath := by
      rw [target]
      simp [Router.plan, echoPath]
    have takes : r.method ∈ Route.secureEcho.methods := by
      rw [post]
      exact List.mem_singleton_self _
    have reached := dispatch?_of_inside built planned (target ▸ addressed_echoPath.literal.starless)
      takes stray
    obtain ⟨inner, served, rfl⟩ := (gives_handle reached).mp given
    obtain ⟨response, echoing, same⟩ := Program.gives_bind_pure.mp served
    obtain ⟨rfl, rfl⟩ := Prod.mk.inj same
    obtain ⟨pairs, sessions⟩ := same_of_looks answers ((secureEcho_looks r).gives echoing)
    refine ⟨rfl, pairs, sessions, fun marked => (Bool.false_ne_true marked).elim,
      fun _ => ⟨events, given, answers, ?_⟩⟩
    exact judges_of_secureEcho inverts post (contentText_ok body fits) echoing answers

open Exchange.Small (chance)

/-- A text that was posted in a session that lives is answered. -/
theorem echo_judged_small : ∃ (g g' : Gateway) (s : Session) (h h' : Host (Table String KeyPair))
    (wrapped payload : String) (response : Response),
    ofPaths Exchange.Small.responder (.ofSchemes "app" [] []) "/exchange" "/key" = .ok g ∧
    h.sessions.find? "id" = some s ∧
    (handle Suite.small g (echoRequest "" [] "id" wrapped payload)).run
      (Host.alone KeyPair.Backend.memory chance) h = ((response, g'), h') ∧
    g' = g ∧ response.status = 200 := by
  obtain ⟨g, built⟩ := ofPaths_small Exchange.Small.responder (.ofSchemes "app" [] [])
  let s : Session := ⟨"peer", "id", List.replicate 16 1, List.replicate 16 2, 128, 100⟩
  let key : Payload.DataKey := ⟨List.replicate 32 3, .aes256, by decide⟩
  let text : Bytes := [0xFF, 0x00]
  have equipped : Equipped s .aes128 := ⟨rfl, rfl, rfl⟩
  have inverts : Suite.small.AesInverts := fun _ _ _ _ => rfl
  obtain ⟨inner, wraps⟩ := Symmetric.Algorithm.encrypts_chained (S := Suite.small) .aes128
    equipped.key equipped.iv key.bytes
  obtain ⟨whole, encrypts⟩ := Symmetric.Algorithm.encrypts_chained (S := Suite.small) .aes256
    key.length_bytes equipped.iv text
  let wrapped := Base64.standard.encode inner
  let payload := Base64.standard.encode whole
  have posted : Posted Suite.small s .aes128 key text wrapped payload :=
    ⟨⟨inner, wraps, rfl⟩, whole, encrypts, rfl⟩
  let r := echoRequest "" [] "id" wrapped payload
  have visible : Text.Visible "id" := by
    intro c member
    obtain rfl | rfl : c = 'i' ∨ c = 'd' := by simpa using member
    · decide
    · decide
  have short : Payload.postedLength text ≤ maxContent := by decide
  have carries : Carries r "id" wrapped payload := carries_echoRequest visible posted short
  have unmarked : r.headers.find? exchangeHeader = none := by
    change Headers.find? (_ ++ []) _ = none
    rw [List.append_nil]
    exact (plain_echoCall "" "id" wrapped payload).unmarked
  have inside : g.isStray r = false := by
    rw [isStray, unmarked]
    rfl
  let h : Host (Table String KeyPair) := ⟨0, .empty, Table.empty.insert "id" s⟩
  have there : h.sessions.find? "id" = some s := by simp only [h, Table.find?_insert, if_true]
  have early : decide ((100 : Int64) < 0) = false := by decide
  have live (n : Nat) : s.isExpired (chance.clock n) = false := early
  cases ran : (handle Suite.small g r).run (Host.alone KeyPair.Backend.memory chance) h with
  | mk answer h' =>
    obtain ⟨response, g'⟩ := answer
    obtain ⟨same, -, -, -, judged⟩ := echo_judged inverts built rfl rfl rfl
      (posted.length.trans_le short) ran
    obtain ⟨events, given, answers, judges⟩ := judged inside
    have decides := judges.named "id" wrapped (header_ok_iff.mp carries.session)
      (header_ok_iff.mp carries.dataKey)
    have lives : ¬ Lapsed h.sessions "id" (chance.clock h.ticks) events := by
      intro lapsed
      rcases lapsed s there with past | ⟨now, member, past⟩
      · exact Bool.false_ne_true ((live _).symm.trans past)
      · obtain ⟨n, rfl⟩ := clock_of_answers answers member
        exact Bool.false_ne_true ((live n).symm.trans past)
    exact ⟨g, g', s, h, h', wrapped, payload, response, built, there, ran, same,
      decides.answered_iff.mpr ⟨lives, s, key, text, there, posted.reads inverts equipped⟩⟩

/-- A request that is marked is refused before anything else is looked at. -/
theorem marked_echo_refused : ∃ (g : Gateway) (h : Host (Table String KeyPair)) (r : Request)
    (response : Response),
    ofPaths Exchange.Small.responder (.ofSchemes "app" [] []) "/exchange" "/key" = .ok g ∧
    r.method = "POST" ∧ r.target.path = echoPath ∧ contentText r = .ok "payload" ∧
    headerText r sessionHeader = some "missing" ∧ headerText r dataKeyHeader = some "abc" ∧
    h.sessions.find? "missing" = none ∧
    (handle Suite.small g r).run (Host.alone KeyPair.Backend.memory chance) h =
      ((response, g), h) ∧
    response.status = 400 := by
  obtain ⟨g, built⟩ := ofPaths_small Exchange.Small.responder (.ofSchemes "app" [] [])
  let r := echoRequest "" [(exchangeHeader, Bytes.ofText "true")] "missing" "abc" "payload"
  have marked : Marked r := by
    unfold Marked
    decide
  have stray : g.isStray r = true := (isStray_of_marked built (by decide) marked).mpr (by decide)
  obtain ⟨response, idle, status, -⟩ := handle_of_stray (S := Suite.small) stray
  refine ⟨g, ⟨0, .empty, .empty⟩, r, response, built, rfl, rfl, ?_, ?_, ?_, rfl, ?_, status⟩
  · exact contentText_ok rfl (by decide)
  · decide
  · decide
  · rw [idle]
    rfl

end KeyService.Gateway
