import KeyService.Proofs.Gateway.Handlers
import KeyService.Proofs.Program.Alike

/-! What stores say of their failures stays inside.
Where a store fails, everything that calls it goes on in the same way, whatever the failure says,
and in the end tells the caller nothing of it. So two gateways whose stores fail alike answer all
requests alike. -/
namespace KeyService

open Program (Alike)

variable {S : Suite}

theorem plain_random (count : Nat) : (Question.random count).Plain := fun _ _ same => same

theorem plain_now : Question.now.Plain := fun _ _ same => same

theorem plain_overflow : Question.overflow.Plain := fun _ _ same => same

theorem told_pair {α : Type} {x x' : Except KeyPair.Error α}
    (alike : SameButText KeyPair.Error.storage x x') : ToldAlike KeyPair.Error.service x x' :=
  alike.told fun _ _ => rfl

theorem told_record {α : Type} {x x' : Except LocalText.Error α}
    (alike : SameButText LocalText.Error.repository x x') :
    ToldAlike LocalText.Error.service x x' := alike.told fun _ _ => rfl

namespace Engine

variable {e : Engine}

/-- Work of an engine that goes and is told alike. -/
abbrev Discreet {α : Type} (work : Act α) : Prop :=
  Alike (ToldAlike Error.service) work.run work.run

theorem keep_discreet (id : String) (pair : KeyPair) : Discreet (keep id pair) :=
  Program.alike_passed ((Program.alike_put (.keepPair id pair)).mono fun _ _ => told_pair)

theorem generate_discreet (id : String) : Discreet (generate S e id) := by
  refine Program.alike_act_bind ?_ fun pair => ?_
  · exact Program.alike_act_of_asks (asks_fresh plain_random _)
  · exact Program.alike_act_bind (keep_discreet id pair) fun _ => Program.alike_except (.ok pair)

theorem generateDefault_discreet : Discreet (generateDefault S e) := by
  refine Program.alike_alone ?_
  refine Program.alike_bind (Program.alike_put (.findPair e.defaultId)) fun _ _ _ _ alike => ?_
  cases alike with
  | text => exact Program.alike_pure (.error rfl)
  | same found =>
    split
    · exact Program.alike_pure (.ok _)
    · exact generate_discreet _
    · exact Program.alike_pure (.error rfl)

theorem resolve_discreet (id : Option String) : Discreet (resolve S e id) := by
  refine Program.alike_act_bind ?_ fun pair => Program.alike_except _
  refine Program.alike_put_bind fun found found' alike => ?_
  cases alike with
  | text => exact Program.alike_pure (.error rfl)
  | same found =>
    split
    · exact Program.alike_pure (.ok _)
    · split
      · exact generateDefault_discreet
      · exact Program.alike_pure (.error rfl)
    · exact Program.alike_pure (.error rfl)

theorem publicKey_discreet (id : Option String) : Discreet (publicKey S e id) :=
  Program.alike_act_bind (resolve_discreet id) fun pair => Program.alike_except (.ok pair.publicKey)

theorem agree_discreet (id : Option String) (peer : S.curve.PublicKey) :
    Discreet (agree S e id peer) := by
  unfold agree
  split
  · exact Program.alike_except (.error _)
  · refine Program.alike_act_bind (resolve_discreet id) fun pair => ?_
    exact Program.alike_act_bind (Program.alike_except _) fun secret => Program.alike_except (.ok _)

theorem sign_discreet (id : Option String) (message : Bytes) : Discreet (sign S e id message) := by
  refine Program.alike_act_bind (resolve_discreet id) fun pair => ?_
  split
  · exact Program.alike_act_bind (Program.alike_except _) fun secret => Program.alike_except (.ok _)
  · refine Program.alike_act_bind (Program.alike_except _) fun secret => ?_
    split
    · exact Program.alike_except (.ok _)
    · exact Program.alike_except (.error _)

theorem has_discreet (id : Option String) : Discreet (e.has id) := by
  refine Program.alike_bind (Program.alike_put (.findPair _)) fun _ _ _ _ alike => ?_
  cases alike with
  | text => exact Program.alike_pure (.error rfl)
  | same found => split <;> exact Program.alike_pure (.refl _ _)

end Engine

namespace Exchange.Responder

variable {responder : Responder}

abbrev Discreet {α : Type} (work : Act α) : Prop :=
  Alike (ToldAlike Error.service) work.run work.run

theorem byEngine_discreet {α : Type} {work : Engine.Act α} (discreet : Engine.Discreet work) :
    Discreet (byEngine work) := Program.alike_passed discreet

theorem validate_discreet (request : Request) : Discreet (responder.validate request) := by
  refine Program.alike_act_bind (Program.alike_except _) fun _ => ?_
  refine Program.alike_act_bind (Program.alike_program (Program.asks_put plain_now)) fun now => ?_
  refine Program.alike_act_bind (Program.alike_program ?_) fun _ => Program.alike_except _
  exact Responder.asks_compare plain_overflow _ _

theorem settle_discreet (request : Request) : Discreet (settle S responder request) := by
  refine Program.alike_act_bind (validate_discreet request) fun _ => ?_
  refine Program.alike_act_bind (Program.alike_except _) fun initiator => ?_
  refine Program.alike_act_bind (Program.alike_except _) fun token => ?_
  refine Program.alike_act_bind (byEngine_discreet (Engine.agree_discreet _ _)) fun shared => ?_
  refine Program.alike_act_bind (byEngine_discreet (Engine.publicKey_discreet _)) fun key => ?_
  refine Program.alike_act_bind (Program.alike_except _) fun keys => ?_
  refine Program.alike_act_bind (Program.alike_program (Program.asks_draw (plain_random 16)))
    fun id => ?_
  refine Program.alike_act_bind (Program.alike_program (Program.asks_put plain_now)) fun now => ?_
  exact Program.alike_except (.ok _)

theorem respond_discreet (request : Request) : Discreet (respond S responder request) := by
  refine Program.alike_act_bind (settle_discreet request) fun offer => ?_
  refine Program.alike_act_bind (byEngine_discreet (Engine.sign_discreet _ _)) fun signature => ?_
  refine Program.alike_act_bind (Program.alike_program (Program.asks_put fun _ _ same => same))
    fun _ => ?_
  exact Program.alike_except (.ok _)

end Exchange.Responder

namespace LocalText.Cipher

variable {appId : String} {secret : Bytes}

abbrev Discreet {α : Type} (work : Act α) : Prop :=
  Alike (ToldAlike Error.service) work.run work.run

/-- A result that is told alike, and the same left behind. -/
structure EndsAlike {α β : Type} (x x' : Except Error α × β) : Prop where
  told : ToldAlike Error.service x.1 x'.1
  left : x.2 = x'.2

/-- The schemes do their work without the stores. -/
def Storeless (cipher : Cipher) : Prop :=
  ∀ slot ∈ cipher.slots, ∀ keys text, (slot.scheme.encrypt keys text).run.Asks Question.Plain

theorem storeless_of_standard (appId : String) (secret : Bytes) :
    (ofSchemes appId secret (Scheme.standard S)).Storeless := fun _ member _ _ =>
  Scheme.asks_standard plain_random (scheme_of_slot member) ..

theorem create_plain (appId header : String) (secret : Bytes) (keyLength ivLength : Nat) :
    (Record.create S appId header secret keyLength ivLength).run.Asks Question.Plain := by
  have admits : Admits Question.Plain fun _ => False :=
    ⟨plain_random, plain_now, False.elim, False.elim⟩
  exact asks_create admits ..

theorem load_discreet (scheme : Scheme) : Discreet (load S appId secret scheme) := by
  refine Program.alike_act_bind ?_ fun found => ?_
  · exact (Program.alike_put (.findRecord _ _)).mono fun _ _ => told_record
  · cases found with
    | some record => exact Program.alike_except (record.unwrap S secret)
    | none =>
      refine Program.alike_act_bind (Program.alike_act_of_asks (create_plain ..)) fun created => ?_
      refine Program.alike_act_bind ?_ fun record => Program.alike_except _
      exact (Program.alike_put (.keepRecord created)).mono fun _ _ => told_record

theorem unlock_discreet (slot : Slot) :
    Alike EndsAlike (unlock S appId secret slot) (unlock S appId secret slot) := by
  unfold unlock
  split
  · exact Program.alike_pure ⟨.ok _, rfl⟩
  · refine Program.alike_bind (load_discreet _) fun _ _ _ _ told => ?_
    cases told with
    | ok keys => exact Program.alike_pure ⟨.ok keys, rfl⟩
    | error same => exact Program.alike_pure ⟨.error same, rfl⟩

theorem encrypt_discreet {cipher : Cipher} (storeless : cipher.Storeless) (text : String) :
    Alike EndsAlike (cipher.encrypt S text) (cipher.encrypt S text) := by
  unfold encrypt
  split
  · exact Program.alike_pure ⟨.error rfl, rfl⟩
  · rename_i slot others slots
    refine Program.alike_bind (unlock_discreet slot) fun _ answer answer' given ends => ?_
    obtain ⟨keys, slot'⟩ := answer
    obtain ⟨keys', slot''⟩ := answer'
    obtain ⟨told, rfl⟩ := ends
    cases told with
    | error same => exact Program.alike_pure ⟨.error same, rfl⟩
    | ok keys =>
      have scheme : slot'.scheme = slot.scheme := (gives_unlock.mp given).scheme
      have plain : (slot'.scheme.encrypt keys text).run.Asks Question.Plain := by
        rw [scheme]
        exact storeless slot (by simp [slots]) keys text
      exact Program.alike_bind (Program.alike_act_of_asks plain) fun _ _ _ _ told =>
        Program.alike_pure ⟨told, rfl⟩

theorem decryptIn_discreet (whole : String) (slots : List Slot) : Alike EndsAlike
    (decryptIn S appId secret whole slots) (decryptIn S appId secret whole slots) := by
  induction slots with
  | nil => exact Program.alike_pure ⟨.error rfl, rfl⟩
  | cons slot others ih =>
    unfold decryptIn
    split
    · refine Program.alike_bind (unlock_discreet slot) fun _ answer answer' _ ends => ?_
      obtain ⟨keys, slot'⟩ := answer
      obtain ⟨keys', slot''⟩ := answer'
      obtain ⟨told, rfl⟩ := ends
      exact Program.alike_pure ⟨told.bind _, rfl⟩
    · refine Program.alike_bind ih fun _ answer answer' _ ends => ?_
      obtain ⟨text, others'⟩ := answer
      obtain ⟨text', others''⟩ := answer'
      obtain ⟨told, rfl⟩ := ends
      exact Program.alike_pure ⟨told, rfl⟩

theorem decrypt_discreet (cipher : Cipher) (whole : String) :
    Alike EndsAlike (cipher.decrypt S whole) (cipher.decrypt S whole) := by
  refine Program.alike_bind (decryptIn_discreet whole _) fun _ answer answer' _ ends => ?_
  obtain ⟨text, slots⟩ := answer
  obtain ⟨text', slots'⟩ := answer'
  obtain ⟨told, rfl⟩ := ends
  exact Program.alike_pure ⟨told, rfl⟩

end LocalText.Cipher

namespace Gateway

open Http (Request Response)
open LocalText.Cipher (EndsAlike)

variable {g : Gateway} {r : Request} {route : Route} {α : Type}

theorem answer_eq {c : Json.Codec α} {x x' : Except Failure α}
    (told : ToldAlike Failure.service x x') : answer c x = answer c x' := by
  cases told with
  | ok a => rfl
  | error same => rw [answer, answer, same]

theorem publicKey_alike (e : Engine) (r : Request) :
    Alike Eq (publicKey S e r) (publicKey S e r) := by
  unfold publicKey
  split
  · exact Program.alike_pure rfl
  · refine Program.alike_bind (Engine.publicKey_discreet _) fun _ _ _ _ told => ?_
    refine Program.alike_pure (answer_eq (.mapError ?_))
    exact told

theorem negotiate_alike (responder : Exchange.Responder) (r : Request) :
    Alike Eq (negotiate S responder r) (negotiate S responder r) := by
  unfold negotiate
  split
  · exact Program.alike_pure rfl
  · rename_i request _
    have passed : Alike (ToldAlike Failure.service) (ofExchange (responder.respond S request))
        (ofExchange (responder.respond S request)) :=
      Program.alike_passed (Exchange.Responder.respond_discreet request)
    exact Program.alike_bind passed fun _ _ _ _ told => Program.alike_pure (answer_eq told)

theorem localEncrypt_alike (storeless : g.cipher.Storeless) (r : Request) :
    Alike Eq (localEncrypt S g.cipher r) (localEncrypt S g.cipher r) := by
  unfold localEncrypt
  split
  · exact Program.alike_pure rfl
  · refine Program.alike_bind (LocalText.Cipher.encrypt_discreet storeless _)
      fun _ answer answer' _ ends => ?_
    obtain ⟨whole, cipher⟩ := answer
    obtain ⟨whole', cipher'⟩ := answer'
    obtain ⟨told, rfl⟩ := ends
    refine Program.alike_pure (congrArg (·, cipher) (answer_eq (.mapError ?_)))
    exact told

theorem localDecrypt_alike (cipher : LocalText.Cipher) (r : Request) :
    Alike Eq (localDecrypt S cipher r) (localDecrypt S cipher r) := by
  unfold localDecrypt
  split
  · exact Program.alike_pure rfl
  · refine Program.alike_bind (LocalText.Cipher.decrypt_discreet cipher _)
      fun _ answer answer' _ ends => ?_
    obtain ⟨text, cipher⟩ := answer
    obtain ⟨text', cipher'⟩ := answer'
    obtain ⟨told, rfl⟩ := ends
    refine Program.alike_pure (congrArg (·, cipher) (answer_eq (.mapError ?_)))
    exact told

theorem plain_of_looks (question : Question) (looks : Payload.Looks question) :
    question.Plain := by
  cases question with
  | now => exact plain_now
  | random count => exact plain_random count
  | findSession => exact fun _ _ same => same
  | _ => exact looks.elim

theorem health_alike (e : Engine) (cipher : LocalText.Cipher) :
    Alike Eq (health e cipher) (health e cipher) := by
  refine Program.alike_bind (e.has_discreet none) fun _ _ _ _ told => ?_
  cases told with
  | ok there => exact Program.alike_of_asks ⟨fun _ _ same => same, fun _ => trivial⟩
  | error same => exact Program.alike_of_asks ⟨fun _ _ same => same, fun _ => trivial⟩

theorem serve_alike (storeless : g.cipher.Storeless) (r : Request) (route : Route) :
    Alike Eq (serve S g r route) (serve S g r route) := by
  have then_pure {β γ : Type} {p : Program β} (alike : Alike Eq p p) (f : β → γ) :
      Alike Eq (p >>= fun b => pure (f b)) (p >>= fun b => pure (f b)) :=
    Program.alike_bind alike fun _ _ _ _ same => Program.alike_pure (congrArg f same)
  cases route with
  | negotiate => exact then_pure (negotiate_alike _ r) _
  | publicKey => exact then_pure (publicKey_alike _ r) _
  | secureEcho =>
    exact then_pure (Program.alike_of_asks ((secureEcho_looks r).mono plain_of_looks)) _
  | localEncrypt => exact then_pure (localEncrypt_alike storeless r) _
  | localDecrypt => exact then_pure (localDecrypt_alike _ r) _
  | health => exact then_pure (health_alike _ _) _

theorem handle_alike (storeless : g.cipher.Storeless) (r : Request) :
    Alike Eq (handle S g r) (handle S g r) := by
  cases reached : g.dispatch? r with
  | none =>
    obtain ⟨response, same⟩ := handle_of_undispatched (S := S) reached
    rw [same]
    exact Program.alike_pure rfl
  | some route =>
    rw [handle_of_dispatch reached]
    exact Program.alike_bind (serve_alike storeless r route) fun _ _ _ _ same => same ▸
      Program.alike_pure rfl

theorem Lasts.storeless {g' : Gateway} (lasts : Lasts g g') (storeless : g.cipher.Storeless) :
    g'.cipher.Storeless := by
  intro slot' member
  obtain ⟨slot, before, stays⟩ := lasts.cipher.slots.mem member
  rw [stays.scheme]
  exact storeless slot before

variable (S) in
/-- What is answered to requests, one after the other. -/
def answers (g : Gateway) : List Request → Program (List Response)
  | [] => return []
  | r :: others => do
    let (response, g) ← handle S g r
    return response :: (← answers g others)

theorem answers_alike (storeless : g.cipher.Storeless) (requests : List Request) :
    Alike Eq (answers S g requests) (answers S g requests) := by
  induction requests generalizing g with
  | nil => exact Program.alike_pure rfl
  | cons r others ih =>
    refine Program.alike_bind (handle_alike storeless r) fun events answer _ given same => ?_
    subst same
    obtain ⟨response, g'⟩ := answer
    refine Program.alike_bind (ih ((handle_lasts given).storeless storeless)) fun _ _ _ _ same => ?_
    exact Program.alike_pure (congrArg (response :: ·) same)

/-- Two gateways that are the same, in surroundings that differ at most in what the stores say of
their failures, give the same answers to the same requests. -/
theorem answers_untold {σ σ' : Type} {sim : σ → σ' → Prop} {w : Surroundings (StateM σ)}
    {w' : Surroundings (StateM σ')} (twins : w.Twins sim w') {s : σ} {s' : σ'} (matching : sim s s')
    (storeless : g.cipher.Storeless) (requests : List Request) :
    ((answers S g requests).run w s).1 = ((answers S g requests).run w' s').1 :=
  ((answers_alike storeless requests).run twins matching).1

/-- Surroundings without stores, of which everything that may fail does. -/
def forsaken : Surroundings (StateM Unit) :=
  .ofAnswers fun question => pure <|
    match question with
    | .now => (0 : Int64)
    | .random count => ⟨List.replicate count 0, List.length_replicate⟩
    | .findPair _ | .keepPair _ _ => .error (.storage "disk full")
    | .findRecord _ _ | .keepRecord _ => .error (.repository "no such table")
    | .findSession id => .error (.unknownSession id)
    | .enter | .leave | .keepSession _ | .overflow => ()
    | .countSessions => (0 : Nat)
    | .exchange url _ | .fetchKey url => .error (.unreachable url)

/-- Whether a disk is full or a file cannot be read, the answers are the same. -/
theorem answers_untold_forsaken : ∃ (g : Gateway) (w' : Surroundings (StateM Unit)),
    forsaken.Twins Eq w' ∧
      forsaken.answer (.findPair "default") () ≠ w'.answer (.findPair "default") () ∧
      ∀ requests, ((answers Suite.small g requests).run forsaken ()).1 =
        ((answers Suite.small g requests).run w' ()).1 := by
  obtain ⟨g, built⟩ := ofPaths_small Exchange.Small.responder
    (.ofSchemes "app" [] (LocalText.Scheme.standard Suite.small))
  have storeless : g.cipher.Storeless := by
    obtain ⟨router, -, rfl⟩ := ofPaths_ok.mp built
    exact LocalText.Cipher.storeless_of_standard "app" []
  have twins := forsaken.twins_retold fun _ _ => "/var/lib/keys: permission denied"
  refine ⟨g, _, twins, ?_, answers_untold twins rfl storeless⟩
  intro same
  have texts := congrArg Prod.fst same
  rw [forsaken, Surroundings.retold, Surroundings.answer_ofAnswers,
    Surroundings.answer_ofAnswers] at texts
  exact absurd (KeyPair.Error.storage.inj (Except.error.inj texts)) (by decide)

end Gateway

end KeyService
