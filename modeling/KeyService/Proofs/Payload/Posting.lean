import KeyService.Proofs.Payload.Crossing
import KeyService.Proofs.Program.Asks
import KeyService.Proofs.Program.Assures
import KeyService.Proofs.Symmetric.Refusal
import KeyService.Proofs.Text.Blank
import KeyService.Proofs.Text.Visible

/-! Posting a text in a session.
A payload travels under a data key of its own, which is wrapped in the key of the session; the
reader has a copy of the session and nothing else. Nothing is asked for it but the time and
random bytes, and as long as the session lives, it does not fail. -/
namespace KeyService.Payload

open Program (Assures Succeeds)

variable {S : Suite} {size : Symmetric.KeySize} {a b s : Exchange.Session} {key : DataKey}
  {text : Bytes} {wrapped payload : String} {now : Int64}

/-- Two copies of a session, which may name different peers. -/
structure Twins (a b : Exchange.Session) : Prop where
  id : b.id = a.id
  key : b.key = a.key
  iv : b.iv = a.iv
  keyLength : b.keyLength = a.keyLength
  expireTime : b.expireTime = a.expireTime

theorem Twins.symm (twins : Twins a b) : Twins b a :=
  ⟨twins.id.symm, twins.key.symm, twins.iv.symm, twins.keyLength.symm, twins.expireTime.symm⟩

theorem Twins.live (twins : Twins a b) (live : a.isExpired now = false) : b.isExpired now = false := by
  rw [Exchange.Session.isExpired, twins.expireTime]
  exact live

theorem Twins.equipped (twins : Twins a b) (equipped : Equipped a size) : Equipped b size :=
  ⟨twins.keyLength ▸ equipped.keyLength, twins.key ▸ equipped.key, twins.iv ▸ equipped.iv⟩

/-- A text as it is posted in a session, with the data key that it is under. -/
structure Posted (S : Suite) (s : Exchange.Session) (size : Symmetric.KeySize) (key : DataKey)
    (text : Bytes) (wrapped payload : String) : Prop where
  wrapped : ∃ whole, (algorithm size).encrypt S s.key s.iv key.bytes = .ok whole ∧
    Base64.standard.encode whole = wrapped
  payload : ∃ whole, (algorithm key.size).encrypt S key.bytes s.iv text = .ok whole ∧
    Base64.standard.encode whole = payload

theorem Posted.unwrap (posted : Posted S a size key text wrapped payload) (inverts : S.AesInverts)
    (twins : Twins a b) (equipped : Equipped b size) (live : b.isExpired now = false) :
    unwrap S now b wrapped = .ok key := by
  obtain ⟨whole, encrypted, rfl⟩ := posted.wrapped
  refine (unwrap_ok equipped live).mpr ⟨whole, ?_, ?_⟩
  · exact Text.trim_eq_self fun c member => (Base64.Form.clean_encode member).1
  · rw [twins.key, twins.iv]
    exact Symmetric.Algorithm.decrypt_encrypt inverts encrypted

theorem Posted.decrypt (posted : Posted S a size key text wrapped payload) (inverts : S.AesInverts)
    (twins : Twins a b) (live : b.isExpired now = false) :
    decrypt S now b key payload = .ok text := by
  obtain ⟨whole, encrypted, rfl⟩ := posted.payload
  refine (decrypt_ok live).mpr ⟨whole, ?_, ?_⟩
  · exact Text.trim_eq_self fun c member => (Base64.Form.clean_encode member).1
  · rw [twins.iv]
    exact Symmetric.Algorithm.decrypt_encrypt inverts encrypted

theorem Posted.visible (posted : Posted S s size key text wrapped payload) :
    Text.Visible wrapped ∧ Text.Visible payload := by
  obtain ⟨⟨whole, -, rfl⟩, whole', -, rfl⟩ := posted
  have known : Base64.standard ∈ [Base64.standard, Base64.urlSafe] := List.mem_cons_self
  exact ⟨Text.visible_encode known whole, Text.visible_encode known whole'⟩

/-- How long the payload of a text is, whatever its key. -/
def postedLength (text : Bytes) : Nat := 4 * ((16 * (text.length / 16 + 1) + 2) / 3)

theorem Posted.length (posted : Posted S s size key text wrapped payload) :
    (Bytes.ofText payload).length = postedLength text := by
  obtain ⟨whole, encrypted, rfl⟩ := posted.payload
  rw [Text.length_encode List.mem_cons_self, Symmetric.Algorithm.length_chained encrypted]
  rfl

/-- What a program is told as long as a session lives: the clock has not passed its end, and who
looks it up finds it. -/
def During (s : Exchange.Session) : Event → Prop
  | ⟨.now, now⟩ => s.isExpired now = false
  | ⟨.findSession id, answer⟩ => id = s.id → answer = .ok s
  | _ => True

/-- Answers of a kind in which the clock has not passed the end of a session. -/
def Within (P : Event → Prop) (s : Exchange.Session) : Prop :=
  ∀ now, P ⟨.now, now⟩ → s.isExpired now = false

variable {P : Event → Prop}

theorem during_within (s : Exchange.Session) : Within (During s) s := fun _ live => live

theorem assures_time (within : Within P s) :
    Assures P Program.time fun now => s.isExpired now = false :=
  Program.assures_put fun now kind => within now kind

/-- Work that does not fail before the end of a session, done at the time that it is. -/
theorem timed_succeeds {ε α β : Type} {work : Int64 → Except ε α} {a : α}
    {f : α → ExceptT ε Program β} {Q : β → Prop} (within : Within P s)
    (done : ∀ now, s.isExpired now = false → work now = .ok a)
    (rest : Succeeds P (f a) Q) : Succeeds P (do
      let a ← liftM (work (← Program.time))
      f a : ExceptT ε Program β) Q := by
  refine Program.succeeds_bind (Program.succeeds_program (assures_time within)) fun now live => ?_
  exact Program.succeeds_except_bind (done now live) rest

theorem draw_succeeds (equipped : Equipped s size) :
    Succeeds P (DataKey.draw s.keyLength) fun _ => True := by
  have known : (Symmetric.KeySize.ofBits s.keyLength).mapError Failure.symmetric = .ok size := by
    rw [equipped.keyLength]
    cases size <;> rfl
  refine Program.succeeds_except_bind known ?_
  intro events r given _
  obtain ⟨bs, rest, -, ended⟩ := Program.gives_ask.mp given
  obtain ⟨-, rfl⟩ := Program.gives_done.mp ended
  exact ⟨_, rfl, trivial⟩

/-- What either side makes of a text that it sends: its wrapped data key, and its payload. -/
def post {γ : Type} (S : Suite) (s : Exchange.Session) (text : Bytes)
    (make : String → String → γ) : ExceptT Failure Program γ := do
  let key ← DataKey.draw s.keyLength
  let wrapped ← liftM (wrap S (← Program.time) s key)
  let payload ← liftM (encrypt S (← Program.time) s key text)
  return make wrapped payload

variable {γ : Type} {make : String → String → γ}

theorem post_succeeds (within : Within P a) (equipped : Equipped s size) (twins : Twins a s) :
    Succeeds P (post S s text make) fun made => ∃ key wrapped payload,
      made = make wrapped payload ∧ Posted S s size key text wrapped payload := by
  refine Program.succeeds_bind (draw_succeeds equipped) fun key _ => ?_
  obtain ⟨inner, wraps⟩ :=
    Symmetric.Algorithm.encrypts_chained (S := S) size equipped.key equipped.iv key.bytes
  obtain ⟨whole, encrypts⟩ :=
    Symmetric.Algorithm.encrypts_chained (S := S) key.size key.length_bytes equipped.iv text
  refine timed_succeeds (a := Base64.standard.encode inner) within ?_ ?_
  · intro now live
    exact (wrap_ok equipped (twins.live live)).mpr ⟨inner, wraps, rfl⟩
  refine timed_succeeds (a := Base64.standard.encode whole) within ?_ ?_
  · intro now live
    exact (encrypt_ok (twins.live live)).mpr ⟨whole, encrypts, rfl⟩
  exact Program.succeeds_pure ⟨key, _, _, rfl, ⟨inner, wraps, rfl⟩, whole, encrypts, rfl⟩

theorem made_of_post {events : List Event} {made : γ}
    (given : (post S s text make).run.Gives events (.ok made)) :
    ∃ wrapped payload, made = make wrapped payload := by
  simp only [post, Program.gives_bind_ok, ↓Program.gives_time_bind,
    ↓Program.gives_except_bind_ok, Program.gives_pure_ok] at given
  obtain ⟨key, _, _, -, -, _, _, -, wrapped, -, _, _, -, payload, -, -, rfl⟩ := given
  exact ⟨wrapped, payload, rfl⟩

/-- The questions of those who send or read a payload: no answer to them changes a store. -/
def Looks : Question → Prop
  | .now | .random _ | .findSession _ => True
  | _ => False

theorem draw_looks (bits : UInt16) : (DataKey.draw bits).run.Asks Looks := by
  refine Program.asks_act_bind (Program.asks_except _) fun _ size _ => ?_
  exact ⟨trivial, fun _ => trivial⟩

/-- Work that is done at the time that it is. -/
theorem timed_looks {ε α β : Type} (work : Int64 → Except ε α) {f : α → ExceptT ε Program β}
    (rest : ∀ a, (f a).run.Asks Looks) : (do
      let a ← liftM (work (← Program.time))
      f a : ExceptT ε Program β).run.Asks Looks := by
  refine Program.asks_act_bind (Program.asks_program (Program.asks_put trivial)) fun _ now _ => ?_
  exact Program.asks_act_bind (Program.asks_except _) fun _ a _ => rest a

theorem post_looks : (post S s text make).run.Asks Looks := by
  refine Program.asks_act_bind (draw_looks _) fun _ key _ => ?_
  refine timed_looks _ fun wrapped => ?_
  exact timed_looks _ fun payload => Program.asks_pure _

end KeyService.Payload
