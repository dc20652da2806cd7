import KeyService.Proofs.Engine.Resolve
import KeyService.Proofs.Program.Asks
import KeyService.Proofs.Program.Attempt

/-! The operations of an engine.
Whatever is done with a pair, the pair is resolved first, and afterwards nothing is asked for but
random bytes. So what holds of resolving a pair holds of every operation that uses one. -/
namespace KeyService.Engine

variable {S : Suite} {e : Engine} {id : Option String} {events : List Event}

/-- What a pair is used for. -/
inductive Use (S : Suite) where
  | publicKey
  | encrypt (text : Bytes)
  | decrypt (whole : Bytes)
  | sign (message : Bytes)
  | verify (message signature : Bytes)
  | agree (peer : S.curve.PublicKey)

namespace Use

abbrev Result : Use S → Type
  | publicKey => String
  | verify _ _ => Bool
  | encrypt _ | decrypt _ | sign _ | agree _ => Bytes

def act (e : Engine) (id : Option String) : (u : Use S) → Act u.Result
  | publicKey => Engine.publicKey S e id
  | encrypt text => Engine.encrypt S e id text
  | decrypt whole => Engine.decrypt S e id whole
  | sign message => Engine.sign S e id message
  | verify message signature => Engine.verify S e id message signature
  | agree peer => Engine.agree S e id peer

/-- An engine agrees on a secret only on the curve. -/
def Allowed (e : Engine) : Use S → Prop
  | agree _ => e.algorithm = .elliptic
  | _ => True

end Use

/-- The operations of an engine that work with its store. -/
inductive Operation (S : Suite) where
  | generate (id : String)
  | has (id : Option String)
  | use (u : Use S) (id : Option String)

namespace Operation

abbrev Result : Operation S → Type
  | generate _ => KeyPair
  | has _ => Bool
  | use u _ => u.Result

def act (e : Engine) : (o : Operation S) → Act o.Result
  | generate id => Engine.generate S e id
  | has id => Engine.has e id
  | use u id => u.act e id

end Operation

/-- What a use makes of a pair, and of the random bytes that it draws. -/
inductive Use.Makes (S : Suite) (e : Engine) (pair : KeyPair) :
    (u : Use S) → List Event → u.Result → Prop
  | publicKey : Makes S e pair .publicKey [] pair.publicKey
  | encrypt {text whole : Bytes} {drawn : List Event} :
      (encryptWith S e pair.publicKey text).run.Gives drawn (.ok whole) →
      Makes S e pair (.encrypt text) drawn whole
  | decryptCurve {whole text : Bytes} {secret : S.curve.SecretKey} :
      e.algorithm = .elliptic → curveSecret S pair.privateKey = .ok secret →
      Ecies.decrypt S secret whole = .ok text → Makes S e pair (.decrypt whole) [] text
  | decryptRsa {bits : Nat} {whole text : Bytes} {secret : S.rsa.SecretKey} :
      e.algorithm = .rsa bits → rsaSecret S pair.privateKey = .ok secret →
      S.rsa.decrypt? secret whole = some text → Makes S e pair (.decrypt whole) [] text
  | signCurve {message : Bytes} {secret : S.curve.SecretKey} :
      e.algorithm = .elliptic → curveSecret S pair.privateKey = .ok secret →
      Makes S e pair (.sign message) [] (S.curve.sign secret message)
  | signRsa {bits : Nat} {message signature : Bytes} {secret : S.rsa.SecretKey} :
      e.algorithm = .rsa bits → rsaSecret S pair.privateKey = .ok secret →
      S.rsa.sign? secret message = some signature → Makes S e pair (.sign message) [] signature
  | verify {message signature : Bytes} {good : Bool} :
      e.verifyWith S pair.publicKey message signature = .ok good →
      Makes S e pair (.verify message signature) [] good
  | agree {peer : S.curve.PublicKey} {secret : S.curve.SecretKey} :
      curveSecret S pair.privateKey = .ok secret →
      Makes S e pair (.agree peer) [] (S.curve.agree secret peer)

theorem Use.makes_publicKey {pair : KeyPair} {drawn : List Event} {text : String} :
    Use.Makes S e pair .publicKey drawn text ↔ drawn = [] ∧ text = pair.publicKey := by
  constructor
  · intro makes
    cases makes
    exact ⟨rfl, rfl⟩
  · rintro ⟨rfl, rfl⟩
    exact .publicKey

def Draws (question : Question) : Prop := ∃ count, question = .random count

theorem asks_drawn (count : Nat) :
    (liftM (Program.draw count) : Act Bytes).run.Asks Draws :=
  Program.asks_program (Program.asks_draw ⟨count, rfl⟩)

theorem encryptWith_asks (text : String) (data : Bytes) :
    (encryptWith S e text data).run.Asks Draws := by
  unfold encryptWith
  cases e.algorithm with
  | elliptic =>
    generalize curvePublic S text = read
    apply Program.asks_act_bind (Program.asks_except read)
    intro _ recipient _
    apply Program.asks_act_bind (asks_drawn 48)
    intro _ seed _
    apply Program.asks_act_bind (asks_drawn 12)
    intro _ nonce _
    generalize Ecies.encrypt S recipient (S.curve.secretOf seed) nonce data = sent
    exact Program.asks_except sent
  | rsa bits =>
    generalize rsaPublic S text = read
    apply Program.asks_act_bind (Program.asks_except read)
    intro _ recipient _
    apply Program.asks_act_bind (asks_drawn 32)
    intro _ seed _
    split <;> exact Program.asks_pure _

/-- What is left of a use once its pair is resolved: it draws random bytes at most, and makes what it
should of the pair. -/
structure Use.Finishes (e : Engine) (u : Use S) (finish : KeyPair → Act u.Result) : Prop where
  draws : ∀ pair, (finish pair).run.Asks Draws
  makes : ∀ {pair drawn result}, (finish pair).run.Gives drawn (.ok result) →
    u.Makes S e pair drawn result

theorem Use.decrypt_finishes (whole : Bytes) :
    ∃ finish, Engine.decrypt S e id whole = (resolve S e id >>= finish) ∧
      (.decrypt whole : Use S).Finishes e finish := by
  refine ⟨_, rfl, ?_, ?_⟩
  · intro pair
    cases e.algorithm with
    | elliptic => exact Program.asks_except _
    | rsa bits =>
      apply Program.asks_act_bind (Program.asks_except _)
      intro _ secret _
      split <;> exact Program.asks_pure _
  · intro pair drawn text given
    split at given
    · rename_i elliptic
      obtain ⟨rfl, opened⟩ := Program.gives_except_ok.mp given
      obtain ⟨secret, read, done⟩ := Attempt.bind_ok.mp opened
      exact .decryptCurve elliptic read done
    · rename_i bits rsa
      obtain ⟨secret, read, given⟩ := Program.gives_except_bind_ok.mp given
      split at given
      · rename_i opened
        obtain ⟨rfl, rfl⟩ := Program.gives_pure_ok.mp given
        exact .decryptRsa rsa read opened
      · cases (Program.gives_pure.mp given).2

theorem Use.sign_finishes (message : Bytes) :
    ∃ finish, Engine.sign S e id message = (resolve S e id >>= finish) ∧
      (.sign message : Use S).Finishes e finish := by
  refine ⟨_, rfl, ?_, ?_⟩
  · intro pair
    cases e.algorithm with
    | elliptic =>
      apply Program.asks_act_bind (Program.asks_except _)
      intro _ secret _
      exact Program.asks_pure _
    | rsa bits =>
      apply Program.asks_act_bind (Program.asks_except _)
      intro _ secret _
      split <;> exact Program.asks_pure _
  · intro pair drawn signature given
    split at given
    · rename_i elliptic
      obtain ⟨secret, read, given⟩ := Program.gives_except_bind_ok.mp given
      obtain ⟨rfl, rfl⟩ := Program.gives_pure_ok.mp given
      exact .signCurve elliptic read
    · rename_i bits rsa
      obtain ⟨secret, read, given⟩ := Program.gives_except_bind_ok.mp given
      split at given
      · rename_i signed
        obtain ⟨rfl, rfl⟩ := Program.gives_pure_ok.mp given
        exact .signRsa rsa read signed
      · cases (Program.gives_pure.mp given).2

theorem Use.agree_finishes (elliptic : e.algorithm = .elliptic) (peer : S.curve.PublicKey) :
    ∃ finish, Engine.agree S e id peer = (resolve S e id >>= finish) ∧
      (.agree peer : Use S).Finishes e finish := by
  refine ⟨fun pair => do return S.curve.agree (← liftM (curveSecret S pair.privateKey)) peer, ?_,
    ?_, ?_⟩
  · simp only [Engine.agree, elliptic]
  · intro pair
    apply Program.asks_act_bind (Program.asks_except _)
    intro _ secret _
    exact Program.asks_pure _
  · intro pair drawn shared given
    obtain ⟨secret, read, given⟩ := Program.gives_except_bind_ok.mp given
    obtain ⟨rfl, rfl⟩ := Program.gives_pure_ok.mp given
    exact .agree read

/-- A use that is allowed begins by resolving the pair. -/
theorem Use.act_eq (u : Use S) (allowed : u.Allowed e) (id : Option String) :
    ∃ finish, u.act e id = (resolve S e id >>= finish) ∧ u.Finishes e finish := by
  cases u with
  | publicKey =>
    refine ⟨_, rfl, fun pair => Program.asks_pure _, fun given => ?_⟩
    obtain ⟨rfl, rfl⟩ := Program.gives_pure_ok.mp given
    exact .publicKey
  | encrypt text => exact ⟨_, rfl, fun pair => encryptWith_asks _ _, .encrypt⟩
  | decrypt whole => exact decrypt_finishes whole
  | sign message => exact sign_finishes message
  | verify message signature =>
    refine ⟨_, rfl, fun pair => Program.asks_except _, fun given => ?_⟩
    obtain ⟨rfl, checked⟩ := Program.gives_except_ok.mp given
    exact .verify checked
  | agree peer => exact agree_finishes allowed peer

theorem Use.act_refused (u : Use S) (refused : ¬ u.Allowed e) (id : Option String) :
    u.act e id = throw (.unsupported "key agreement" e.algorithm) := by
  cases u with
  | agree peer =>
    cases known : e.algorithm with
    | elliptic => exact absurd known refused
    | rsa bits => simp only [act, Engine.agree, known]
  | _ => exact absurd trivial refused

/-- A caller has resolved a pair, and may have gone on since. -/
def Resolved (S : Suite) (e : Engine) (id : Option String) (pair : KeyPair)
    (events : List Event) : Prop :=
  ∃ before after, events = before ++ after ∧ (resolve S e id).run.Gives before (.ok pair)

theorem Resolved.sees {pair : KeyPair} (resolved : Resolved S e id pair events) :
    Sees (id.getD e.defaultId) pair events := by
  obtain ⟨before, after, rfl, given⟩ := resolved
  apply (gives_resolve.mp given).1.sees.mono
  intro event member
  exact List.mem_append_left after member

/-- A use has ended well: it has resolved this pair, and what it gives is made of it. -/
def Worked (S : Suite) (e : Engine) (id : Option String) (pair : KeyPair) (events : List Event)
    (u : Use S) (result : u.Result) : Prop :=
  ∃ before drawn, events = before ++ drawn ∧ (resolve S e id).run.Gives before (.ok pair) ∧
    (∀ event ∈ drawn, Draws event.1) ∧ u.Makes S e pair drawn result

theorem Worked.resolved {pair : KeyPair} {u : Use S} {result : u.Result}
    (worked : Worked S e id pair events u result) : Resolved S e id pair events := by
  obtain ⟨before, drawn, split, resolved, -⟩ := worked
  exact ⟨before, drawn, split, resolved⟩

theorem worked_of_use {u : Use S} {result : u.Result}
    (given : (u.act e id).run.Gives events (.ok result)) :
    ∃ pair, Worked S e id pair events u result := by
  by_cases allowed : u.Allowed e
  · obtain ⟨finish, same, finishes⟩ := u.act_eq allowed id
    rw [same] at given
    obtain ⟨pair, before, drawn, split, resolved, rest⟩ := Program.gives_bind_ok.mp given
    exact ⟨pair, before, drawn, split, resolved, (finishes.draws pair).gives rest,
      finishes.makes rest⟩
  · rw [u.act_refused allowed] at given
    cases (Program.gives_pure.mp given).2

end KeyService.Engine
