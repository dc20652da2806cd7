import KeyService.Exchange.Error
import KeyService.Exchange.Message
import KeyService.Exchange.Session
import KeyService.KeyPair.Basic
import KeyService.LocalText.Error
import KeyService.LocalText.Record

/-! Programs that use their surroundings.
A program asks for the time, for random bytes, for what a store holds, or for an
answer from the network, and goes on with what it is given. Everything that other
programs may do happens between two such questions, so a run of several programs is
an interleaving of their questions. Programs obey the laws of a monad, and a run of two
in a row is a run of the one and then of the other. -/
namespace KeyService

abbrev RandomBytes (count : Nat) := { bs : Bytes // bs.length = count }

/-- What a program may ask its surroundings. -/
inductive Question where
  | now
  | random (count : Nat)
  | findPair (id : String)
  | keepPair (id : String) (pair : KeyPair)
  /-- Wait until nobody else generates a pair for the same engine. -/
  | enter
  | leave
  | findRecord (appId header : String)
  /-- Keep a record unless there is one; the answer is the one that is there afterwards. -/
  | keepRecord (record : LocalText.Record)
  /-- The session of an id, unless it is unknown or over. -/
  | findSession (id : String)
  | keepSession (session : Exchange.Session)
  | countSessions
  | exchange (url : String) (request : Exchange.Request)
  | fetchKey (url : String)
  /-- A result does not fit into sixty-four bits. A build that checks its arithmetic breaks off here,
  and nobody answers; another one is let go on, with the result wrapped around. -/
  | overflow

abbrev Question.Answer : Question → Type
  | now => Int64
  | random count => RandomBytes count
  | findPair _ => Except KeyPair.Error KeyPair
  | keepPair _ _ => Except KeyPair.Error Unit
  | enter | leave | keepSession _ | overflow => Unit
  | findRecord _ _ => Except LocalText.Error (Option LocalText.Record)
  | keepRecord _ => Except LocalText.Error LocalText.Record
  | findSession _ => Except Exchange.Error Exchange.Session
  | countSessions => Nat
  | exchange _ _ => Except Exchange.Error Exchange.Response
  | fetchKey _ => Except Exchange.Error String

inductive Program (α : Type) where
  | done (result : α)
  | ask (question : Question) (next : question.Answer → Program α)

namespace Program

variable {α β : Type}

protected def bind : Program α → (α → Program β) → Program β
  | .done a, f => f a
  | .ask question next, f => .ask question fun answer => (next answer).bind f

instance : Monad Program where
  pure := .done
  bind := Program.bind

theorem done_bind (a : α) (f : α → Program β) : (Program.done a >>= f) = f a := rfl

theorem ask_bind (question : Question) (next : question.Answer → Program α)
    (f : α → Program β) :
    (Program.ask question next >>= f) = .ask question fun answer => next answer >>= f := rfl

theorem bind_done (p : Program α) : p.bind .done = p := by
  induction p with
  | done a => rfl
  | ask question next ih => exact congrArg (Program.ask question) (funext ih)

theorem bind_bind {γ : Type} (p : Program α) (f : α → Program β) (g : β → Program γ) :
    (p.bind f).bind g = p.bind fun a => (f a).bind g := by
  induction p with
  | done a => rfl
  | ask question next ih => exact congrArg (Program.ask question) (funext ih)

instance : LawfulMonad Program := LawfulMonad.mk' Program bind_done (fun _ _ => rfl) bind_bind

def put (question : Question) : Program question.Answer := .ask question .done

def time : Program Int64 := put .now

def draw (count : Nat) : Program Bytes := .ask (.random count) fun bs => .done bs.val

def getPair (id : String) : Program (Except KeyPair.Error KeyPair) := put (.findPair id)

def setPair (id : String) (pair : KeyPair) : Program (Except KeyPair.Error Unit) :=
  put (.keepPair id pair)

def getRecord (appId header : String) :
    Program (Except LocalText.Error (Option LocalText.Record)) := put (.findRecord appId header)

def setRecord (record : LocalText.Record) : Program (Except LocalText.Error LocalText.Record) :=
  put (.keepRecord record)

def getSession (id : String) : Program (Except Exchange.Error Exchange.Session) :=
  put (.findSession id)

def setSession (session : Exchange.Session) : Program Unit := put (.keepSession session)

def sessionCount : Program Nat := put .countSessions

def send (url : String) (request : Exchange.Request) :
    Program (Except Exchange.Error Exchange.Response) := put (.exchange url request)

def getKey (url : String) : Program (Except Exchange.Error String) := put (.fetchKey url)

/-- The true result of an operation should fit into sixty-four bits. -/
def within (n : Int) : Program Unit :=
  if Int64.minValue.toInt ≤ n ∧ n ≤ Int64.maxValue.toInt then pure () else put .overflow

def alone (work : Program α) : Program α := do
  put .enter
  let a ← work
  put .leave
  return a

end Program

/-- What a program may ask, answered in a monad. Results that do not fit are let pass unless it is said
otherwise. -/
structure Surroundings (m : Type → Type) where
  now : m Int64
  random : (count : Nat) → m (RandomBytes count)
  findPair : String → m (Except KeyPair.Error KeyPair)
  keepPair : String → KeyPair → m (Except KeyPair.Error Unit)
  enter : m Unit
  leave : m Unit
  findRecord : (appId header : String) → m (Except LocalText.Error (Option LocalText.Record))
  keepRecord : LocalText.Record → m (Except LocalText.Error LocalText.Record)
  findSession : String → m (Except Exchange.Error Exchange.Session)
  keepSession : Exchange.Session → m Unit
  countSessions : m Nat
  exchange : String → Exchange.Request → m (Except Exchange.Error Exchange.Response)
  fetchKey : String → m (Except Exchange.Error String)
  overflow : m Unit := by exact pure ()

namespace Surroundings

variable {m : Type → Type}

def answer (w : Surroundings m) : (question : Question) → m question.Answer
  | .now => w.now
  | .random count => w.random count
  | .findPair id => w.findPair id
  | .keepPair id pair => w.keepPair id pair
  | .enter => w.enter
  | .leave => w.leave
  | .findRecord appId header => w.findRecord appId header
  | .keepRecord record => w.keepRecord record
  | .findSession id => w.findSession id
  | .keepSession session => w.keepSession session
  | .countSessions => w.countSessions
  | .exchange url request => w.exchange url request
  | .fetchKey url => w.fetchKey url
  | .overflow => w.overflow

end Surroundings

namespace Program

variable {m : Type → Type} [Monad m] {α β : Type}

def run (w : Surroundings m) : Program α → m α
  | .done a => pure a
  | .ask question next => do (next (← w.answer question)).run w

@[simp] theorem run_pure (w : Surroundings m) (a : α) : (pure a : Program α).run w = pure a := rfl

theorem run_bind [LawfulMonad m] (w : Surroundings m) (p : Program α) (f : α → Program β) :
    (p >>= f).run w = p.run w >>= fun a => (f a).run w := by
  induction p with
  | done a => exact (pure_bind a fun a => (f a).run w).symm
  | ask question next ih =>
    rw [ask_bind]
    simp only [run, bind_assoc]
    exact congrArg (w.answer question >>= ·) (funext ih)

end Program

end KeyService
