import KeyService.Engine.Basic
import KeyService.Proofs.Engine.KeyText
import KeyService.Proofs.Program.Asks
import KeyService.Proofs.Program.Trace

/-! Where the pair of an operation comes from.
An operation looks its pair up for itself. There are three ways to a pair: it is there, it
is there by the time that others have left, or it is made and kept. -/
namespace KeyService

/-- A trace has a pair under an id: it was found there, or kept there. -/
def Sees (id : String) (pair : KeyPair) (events : List Event) : Prop :=
  ⟨.findPair id, .ok pair⟩ ∈ events ∨ ⟨.keepPair id pair, .ok ()⟩ ∈ events

theorem Sees.mono {id : String} {pair : KeyPair} {part events : List Event}
    (sees : Sees id pair part) (inside : ∀ e ∈ part, e ∈ events) : Sees id pair events :=
  sees.imp (inside _) (inside _)

namespace Engine

def Misses (id : String) (e : Event) : Prop :=
  ∃ missing, e = ⟨.findPair id, .error (.missing missing)⟩

/-- The traces that lead to a pair under an id. -/
inductive Obtains (S : Suite) (e : Engine) (id : String) (pair : KeyPair) : List Event → Prop where
  | there : Obtains S e id pair [⟨.findPair id, .ok pair⟩]
  | waited {miss : Event} : id = e.defaultId → Misses id miss →
      Obtains S e id pair [miss, ⟨.enter, ()⟩, ⟨.findPair id, .ok pair⟩, ⟨.leave, ()⟩]
  | made {miss miss' : Event} {drawing : List Event} : id = e.defaultId → Misses id miss →
      Misses id miss' → (fresh S e.algorithm).run.Gives drawing (.ok pair) →
      Obtains S e id pair (miss :: ⟨.enter, ()⟩ :: miss' :: drawing ++
        [⟨.keepPair id pair, .ok ()⟩, ⟨.leave, ()⟩])

variable {S : Suite} {e : Engine} {id : Option String} {events : List Event}

theorem gives_fresh_elliptic {pair : KeyPair} :
    (fresh S .elliptic).run.Gives events (.ok pair) ↔
      ∃ seed : RandomBytes 48, events = [⟨.random 48, seed⟩] ∧
        curvePair S (S.curve.secretOf seed.val) = pair := by
  simp only [fresh, Program.gives_bind_ok, Program.gives_program_ok, Program.gives_draw,
    Program.gives_pure_ok]
  constructor
  · rintro ⟨_, _, _, rfl, ⟨seed, rfl, rfl⟩, rfl, same⟩
    exact ⟨seed, rfl, same⟩
  · rintro ⟨seed, rfl, same⟩
    exact ⟨seed.val, _, [], rfl, ⟨seed, rfl, rfl⟩, rfl, same⟩

theorem asks_fresh {P : Question → Prop} (random : ∀ count, P (.random count)) (a : Algorithm) :
    (fresh S a).run.Asks P := by
  have draws (count : Nat) : (Program.draw count).Asks P := Program.asks_draw (random count)
  cases a with
  | elliptic =>
    exact Program.asks_act_bind (Program.asks_program (draws 48)) fun _ _ _ => Program.asks_pure _
  | rsa bits =>
    refine Program.asks_act_bind (Program.asks_program (draws 64)) fun _ seed _ => ?_
    split <;> exact Program.asks_pure _

theorem gives_keep {name : String} {pair : KeyPair} {u : Unit} :
    (keep name pair).run.Gives events (.ok u) ↔ events = [⟨.keepPair name pair, .ok ()⟩] := by
  unfold keep
  simp only [ExceptT.run_mk, Program.gives_bind, Program.gives_setPair, Program.gives_pure]
  constructor
  · rintro ⟨answer, _, _, rfl, rfl, rfl, result⟩
    cases answer with
    | ok _ => rfl
    | error cause => cases result
  · rintro rfl
    exact ⟨.ok (), _, [], rfl, rfl, rfl, rfl⟩

theorem gives_generate {name : String} {pair : KeyPair} :
    (generate S e name).run.Gives events (.ok pair) ↔
      ∃ drawing, events = drawing ++ [⟨.keepPair name pair, .ok ()⟩] ∧
        (fresh S e.algorithm).run.Gives drawing (.ok pair) := by
  unfold generate
  simp only [Program.gives_bind_ok, gives_keep, Program.gives_pure_ok]
  constructor
  · rintro ⟨made, drawing, _, rfl, drawn, _, _, _, rfl, rfl, rfl, rfl⟩
    exact ⟨drawing, by simp, drawn⟩
  · rintro ⟨drawing, rfl, drawn⟩
    exact ⟨pair, drawing, _, rfl, drawn, (), _, [], (List.append_nil _).symm, rfl, rfl, rfl⟩

theorem gives_generateDefault {pair : KeyPair} :
    (generateDefault S e).run.Gives events (.ok pair) ↔
      events = [⟨.enter, ()⟩, ⟨.findPair e.defaultId, .ok pair⟩, ⟨.leave, ()⟩] ∨
      ∃ miss drawing, Misses e.defaultId miss ∧
        (fresh S e.algorithm).run.Gives drawing (.ok pair) ∧
        events = ⟨.enter, ()⟩ :: miss :: drawing ++
          [⟨.keepPair e.defaultId pair, .ok ()⟩, ⟨.leave, ()⟩] := by
  unfold generateDefault
  simp only [ExceptT.run_mk, Program.gives_alone, Program.gives_bind, Program.gives_getPair]
  constructor
  · rintro ⟨_, rfl, found, _, rest, rfl, rfl, given⟩
    split at given
    · obtain ⟨rfl, same⟩ := Program.gives_pure.mp given
      cases same
      exact .inl rfl
    · rename_i missing
      obtain ⟨drawing, rfl, drawn⟩ := gives_generate.mp given
      exact .inr ⟨_, drawing, ⟨missing, rfl⟩, drawn, by simp⟩
    · cases (Program.gives_pure.mp given).2
  · rintro (rfl | ⟨_, drawing, ⟨missing, rfl⟩, drawn, rfl⟩)
    · exact ⟨_, rfl, .ok pair, _, [], rfl, rfl, Program.gives_pure.mpr ⟨rfl, rfl⟩⟩
    · exact ⟨⟨.findPair e.defaultId, .error (.missing missing)⟩ :: drawing ++ [_], by simp,
        .error (.missing missing), [_], _, rfl, rfl, gives_generate.mpr ⟨drawing, rfl, drawn⟩⟩

theorem checkFamily_iff {pair pair' : KeyPair} :
    e.checkFamily pair' = .ok pair ↔ pair' = pair ∧ pair.algorithm = e.algorithm.family := by
  unfold checkFamily
  split
  · rename_i same
    constructor
    · rintro ⟨⟩
      exact ⟨rfl, same⟩
    · rintro ⟨rfl, -⟩
      rfl
  · rename_i differ
    constructor
    · rintro ⟨⟩
    · rintro ⟨rfl, same⟩
      exact absurd same differ

theorem gives_resolve {pair : KeyPair} :
    (resolve S e id).run.Gives events (.ok pair) ↔
      Obtains S e (id.getD e.defaultId) pair events ∧ pair.algorithm = e.algorithm.family := by
  unfold resolve
  simp only [Program.gives_bind_ok, Program.gives_program_ok, Program.gives_except_ok,
    Program.gives_getPair, checkFamily_iff]
  constructor
  · rintro ⟨_, _, _, rfl, ⟨found, _, rest, rfl, rfl, given⟩, rfl, rfl, family⟩
    refine ⟨?_, family⟩
    rw [List.append_nil]
    split at given
    · obtain ⟨rfl, rfl⟩ := Program.gives_pure_ok.mp given
      exact .there
    · split at given
      · rename_i missing isDefault
        rw [isDefault]
        rcases gives_generateDefault.mp given with rfl | ⟨_, drawing, missed, drawn, rfl⟩
        · exact .waited rfl ⟨missing, rfl⟩
        · exact .made rfl ⟨missing, rfl⟩ missed drawn
      · cases (Program.gives_pure.mp given).2
    · cases (Program.gives_pure.mp given).2
  · rintro ⟨obtained, family⟩
    refine ⟨pair, events, [], (List.append_nil _).symm, ?_, rfl, rfl, family⟩
    generalize id.getD e.defaultId = name at obtained
    cases obtained with
    | there => exact ⟨.ok pair, _, [], rfl, rfl, Program.gives_pure_ok.mpr ⟨rfl, rfl⟩⟩
    | waited isDefault missed =>
      subst isDefault
      obtain ⟨missing, rfl⟩ := missed
      refine ⟨.error (.missing missing), [_], _, rfl, rfl, ?_⟩
      simp only [if_pos]
      exact gives_generateDefault.mpr (.inl rfl)
    | made isDefault missed missed' drawn =>
      subst isDefault
      obtain ⟨missing, rfl⟩ := missed
      refine ⟨.error (.missing missing), [_], _, rfl, rfl, ?_⟩
      simp only [if_pos]
      exact gives_generateDefault.mpr (.inr ⟨_, _, missed', drawn, rfl⟩)

theorem Obtains.sees {name : String} {pair : KeyPair} (obtained : Obtains S e name pair events) :
    Sees name pair events := by
  cases obtained with
  | there => exact .inl (by simp)
  | waited _ _ => exact .inl (by simp)
  | made _ _ _ _ => exact .inr (by simp)

/-- An engine of the curve keeps only pairs that are made of a secret key. -/
theorem Obtains.kept (elliptic : e.algorithm = .elliptic) {name name' : String}
    {pair pair' : KeyPair} (obtained : Obtains S e name pair events)
    (member : ⟨.keepPair name' pair', .ok ()⟩ ∈ events) : ∃ secret, pair' = curvePair S secret := by
  cases obtained with
  | there => simp at member
  | waited _ missed =>
    obtain ⟨missing, rfl⟩ := missed
    simp at member
  | made _ missed missed' drawn =>
    obtain ⟨missing, rfl⟩ := missed
    obtain ⟨missing', rfl⟩ := missed'
    rw [elliptic] at drawn
    obtain ⟨seed, rfl, rfl⟩ := gives_fresh_elliptic.mp drawn
    obtain ⟨-, same⟩ : name' = name ∧ pair' = curvePair S (S.curve.secretOf seed.val) := by
      simpa using member
    exact ⟨_, same⟩

theorem gives_publicKey {text : String} :
    (publicKey S e id).run.Gives events (.ok text) ↔
      ∃ pair, (resolve S e id).run.Gives events (.ok pair) ∧ pair.publicKey = text := by
  unfold publicKey
  simp only [Program.gives_bind_ok, Program.gives_pure_ok]
  constructor
  · rintro ⟨pair, _, _, rfl, resolved, rfl, same⟩
    exact ⟨pair, by rwa [List.append_nil], same⟩
  · rintro ⟨pair, resolved, same⟩
    exact ⟨pair, events, [], (List.append_nil _).symm, resolved, rfl, same⟩

theorem gives_agree {peer : S.curve.PublicKey} {shared : Bytes} :
    (agree S e id peer).run.Gives events (.ok shared) ↔
      e.algorithm = .elliptic ∧ ∃ pair secret, (resolve S e id).run.Gives events (.ok pair) ∧
        curveSecret S pair.privateKey = .ok secret ∧ S.curve.agree secret peer = shared := by
  unfold agree
  split
  · rename_i bits isRsa
    rw [isRsa]
    constructor
    · intro given
      cases (Program.gives_pure.mp given).2
    · rintro ⟨⟨⟩, -⟩
  · rename_i elliptic
    simp only [Program.gives_bind_ok, ↓Program.gives_except_bind_ok, Program.gives_pure_ok]
    constructor
    · rintro ⟨pair, _, _, rfl, resolved, secret, read, rfl, same⟩
      exact ⟨elliptic, pair, secret, by simpa using resolved, read, same⟩
    · rintro ⟨-, pair, secret, resolved, read, same⟩
      exact ⟨pair, events, [], (List.append_nil _).symm, resolved, secret, read, rfl, same⟩

theorem gives_sign (elliptic : e.algorithm = .elliptic) {message signature : Bytes} :
    (sign S e id message).run.Gives events (.ok signature) ↔
      ∃ pair secret, (resolve S e id).run.Gives events (.ok pair) ∧
        curveSecret S pair.privateKey = .ok secret ∧ S.curve.sign secret message = signature := by
  unfold sign
  rw [elliptic]
  simp only [Program.gives_bind_ok, ↓Program.gives_except_bind_ok, Program.gives_pure_ok]
  constructor
  · rintro ⟨pair, _, _, rfl, resolved, secret, read, rfl, same⟩
    exact ⟨pair, secret, by simpa using resolved, read, same⟩
  · rintro ⟨pair, secret, resolved, read, same⟩
    exact ⟨pair, events, [], (List.append_nil _).symm, resolved, secret, read, rfl, same⟩

end Engine

end KeyService
