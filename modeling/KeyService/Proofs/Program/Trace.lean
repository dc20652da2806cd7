import KeyService.Program

/-! What a program asks, and what it is told.
A trace lists questions with their answers, in order. How far a trace leads a program
depends on nothing else, so what is known of every trace holds in whatever company the
program runs. -/
namespace KeyService

abbrev Event := (question : Question) × question.Answer

namespace Program

variable {α β ε : Type}

/-- After the questions and answers of a trace, a program has `rest` still to do. -/
inductive Leads : Program α → List Event → Program α → Prop where
  | refl (p : Program α) : Leads p [] p
  | ask {question : Question} {next : question.Answer → Program α} {answer : question.Answer}
      {events : List Event} {rest : Program α} :
      Leads (next answer) events rest →
        Leads (.ask question next) (⟨question, answer⟩ :: events) rest

def Gives (p : Program α) (events : List Event) (a : α) : Prop := p.Leads events (.done a)

theorem Leads.snoc {p : Program α} {events : List Event} {question : Question}
    {next : question.Answer → Program α} (led : p.Leads events (.ask question next))
    (answer : question.Answer) : p.Leads (events ++ [⟨question, answer⟩]) (next answer) := by
  generalize target : Program.ask question next = q at led
  induction led with
  | refl p =>
    subst target
    exact .ask (.refl _)
  | ask _ ih => exact .ask (ih target)

theorem leads_append {p rest : Program α} {before after : List Event} :
    p.Leads (before ++ after) rest ↔ ∃ middle, p.Leads before middle ∧ middle.Leads after rest := by
  constructor
  · intro led
    induction before generalizing p with
    | nil => exact ⟨p, .refl p, led⟩
    | cons e before ih =>
      cases led with
      | ask tail =>
        obtain ⟨middle, first, second⟩ := ih tail
        exact ⟨middle, .ask first, second⟩
  · rintro ⟨middle, first, second⟩
    induction first with
    | refl => exact second
    | ask _ ih => exact .ask (ih second)

/-- Before a question is answered, the program stands at it. -/
theorem Leads.stands {p rest : Program α} (before : List Event) {after : List Event}
    {question : Question} {answer : question.Answer}
    (led : p.Leads (before ++ ⟨question, answer⟩ :: after) rest) :
    ∃ next, p.Leads before (.ask question next) := by
  obtain ⟨_, first, second⟩ := leads_append.mp led
  cases second with
  | ask _ => exact ⟨_, first⟩

theorem leads_nil {p rest : Program α} : p.Leads [] rest ↔ p = rest := by
  constructor
  · intro led
    cases led
    rfl
  · rintro rfl
    exact .refl p

theorem leads_snoc {p rest : Program α} {events : List Event} {question : Question}
    {answer : question.Answer} : p.Leads (events ++ [⟨question, answer⟩]) rest ↔
      ∃ next, p.Leads events (.ask question next) ∧ next answer = rest := by
  constructor
  · intro led
    obtain ⟨middle, first, second⟩ := leads_append.mp led
    cases second with
    | ask tail => exact ⟨_, first, leads_nil.mp tail⟩
  · rintro ⟨next, led, rfl⟩
    exact led.snoc answer

theorem gives_done {a b : α} {events : List Event} :
    (Program.done b).Gives events a ↔ events = [] ∧ b = a := by
  constructor
  · intro given
    cases given
    exact ⟨rfl, rfl⟩
  · rintro ⟨rfl, rfl⟩
    exact .refl _

theorem gives_ask {question : Question} {next : question.Answer → Program α} {a : α}
    {events : List Event} :
    (Program.ask question next).Gives events a ↔
      ∃ answer rest, events = ⟨question, answer⟩ :: rest ∧ (next answer).Gives rest a := by
  constructor
  · intro given
    cases given with
    | ask tail => exact ⟨_, _, rfl, tail⟩
  · rintro ⟨answer, rest, rfl, tail⟩
    exact .ask tail

theorem not_leads_of_done {a : α} {question : Question} {next : question.Answer → Program α}
    {events : List Event} : ¬ (Program.done a).Leads events (.ask question next) := by
  intro led
  cases led

theorem leads_ask {question : Question} {next : question.Answer → Program α}
    {answer : question.Answer} {rest : Program α} {events : List Event} :
    (Program.ask question next).Leads (⟨question, answer⟩ :: events) rest ↔
      (next answer).Leads events rest := by
  constructor
  · intro led
    cases led with
    | ask tail => exact tail
  · exact .ask

theorem gives_pure {a b : α} {events : List Event} :
    (pure b : Program α).Gives events a ↔ events = [] ∧ b = a := gives_done

theorem gives_put {question : Question} {a : question.Answer} {events : List Event} :
    (put question).Gives events a ↔ events = [⟨question, a⟩] := by
  simp only [put, gives_ask, gives_done]
  constructor
  · rintro ⟨answer, rest, rfl, rfl, rfl⟩
    rfl
  · rintro rfl
    exact ⟨a, [], rfl, rfl, rfl⟩

theorem asked_of_put {question : Question} {events : List Event} {rest : Program question.Answer}
    (led : (put question).Leads events rest) : ∀ e ∈ events, e.1 = question := by
  intro e member
  cases led with
  | refl => exact absurd member List.not_mem_nil
  | ask tail =>
    cases tail
    rw [List.mem_singleton.mp member]

theorem gives_draw {count : Nat} {bs : Bytes} {events : List Event} :
    (draw count).Gives events bs ↔
      ∃ drawn : RandomBytes count, events = [⟨.random count, drawn⟩] ∧ drawn.val = bs := by
  unfold draw
  rw [gives_ask]
  constructor
  · rintro ⟨drawn, rest, rfl, given⟩
    obtain ⟨rfl, same⟩ := gives_done.mp given
    exact ⟨drawn, rfl, same⟩
  · rintro ⟨drawn, rfl, same⟩
    exact ⟨drawn, [], rfl, gives_done.mpr ⟨rfl, same⟩⟩

theorem gives_getPair {id : String} {found : Except KeyPair.Error KeyPair} {events : List Event} :
    (getPair id).Gives events found ↔ events = [⟨.findPair id, found⟩] := gives_put

theorem gives_setPair {id : String} {pair : KeyPair} {kept : Except KeyPair.Error Unit}
    {events : List Event} :
    (setPair id pair).Gives events kept ↔ events = [⟨.keepPair id pair, kept⟩] := gives_put

theorem gives_getRecord {appId header : String}
    {found : Except LocalText.Error (Option LocalText.Record)} {events : List Event} :
    (getRecord appId header).Gives events found ↔
      events = [⟨.findRecord appId header, found⟩] := gives_put

theorem gives_setRecord {record : LocalText.Record}
    {kept : Except LocalText.Error LocalText.Record} {events : List Event} :
    (setRecord record).Gives events kept ↔ events = [⟨.keepRecord record, kept⟩] := gives_put

theorem gives_setSession {session : Exchange.Session} {u : Unit} {events : List Event} :
    (setSession session).Gives events u ↔ events = [⟨.keepSession session, ()⟩] := gives_put

/-- What is reported of a result. -/
def outside (n : Int) : List Event :=
  if Int64.minValue.toInt ≤ n ∧ n ≤ Int64.maxValue.toInt then [] else [⟨.overflow, ()⟩]

theorem mem_outside {n : Int} {e : Event} (member : e ∈ outside n) : e = ⟨.overflow, ()⟩ := by
  unfold outside at member
  split at member
  · exact absurd member List.not_mem_nil
  · exact List.mem_singleton.mp member

theorem gives_within {n : Int} {u : Unit} {events : List Event} :
    (within n).Gives events u ↔ events = outside n := by
  unfold within outside
  split
  · exact gives_pure.trans (and_iff_left rfl)
  · exact gives_put

theorem gives_send {url : String} {request : Exchange.Request}
    {answer : Except Exchange.Error Exchange.Response} {events : List Event} :
    (send url request).Gives events answer ↔ events = [⟨.exchange url request, answer⟩] := gives_put

/-- A trace of two programs in a row is a trace of the one and then of the other. -/
theorem gives_bind {p : Program α} {f : α → Program β} {b : β} {events : List Event} :
    (p >>= f).Gives events b ↔
      ∃ a before after, events = before ++ after ∧ p.Gives before a ∧ (f a).Gives after b := by
  induction p generalizing events with
  | done a =>
    rw [done_bind]
    constructor
    · intro given
      exact ⟨a, [], events, rfl, .refl _, given⟩
    · rintro ⟨a', before, after, rfl, first, second⟩
      obtain ⟨rfl, rfl⟩ := gives_done.mp first
      exact second
  | ask question next ih =>
    rw [ask_bind, gives_ask]
    constructor
    · rintro ⟨answer, rest, rfl, given⟩
      obtain ⟨a, before, after, rfl, first, second⟩ := (ih answer).mp given
      exact ⟨a, ⟨question, answer⟩ :: before, after, rfl, .ask first, second⟩
    · rintro ⟨a, before, after, rfl, first, second⟩
      obtain ⟨answer, rest, rfl, tail⟩ := gives_ask.mp first
      exact ⟨answer, rest ++ after, rfl, (ih answer).mpr ⟨a, rest, after, rfl, tail, second⟩⟩

/-- Once the first of two programs has come to a result, only the second one goes on. -/
theorem leads_bind_of_gives {p : Program α} {f : α → Program β} {a : α} {before after : List Event}
    {rest : Program β} (given : p.Gives before a) :
    (p >>= f).Leads (before ++ after) rest ↔ (f a).Leads after rest := by
  induction p generalizing before with
  | done b =>
    obtain ⟨rfl, rfl⟩ := gives_done.mp given
    rw [done_bind, List.nil_append]
  | ask question next ih =>
    obtain ⟨answer, others, rfl, tail⟩ := gives_ask.mp given
    rw [ask_bind, List.cons_append, leads_ask, ih answer tail]

/-- What a program does with a result before it ends is not in its trace. -/
theorem gives_bind_pure {p : Program α} {f : α → β} {b : β} {events : List Event} :
    (p >>= fun a => pure (f a)).Gives events b ↔ ∃ a, p.Gives events a ∧ f a = b := by
  rw [gives_bind]
  constructor
  · rintro ⟨a, before, after, rfl, given, ended⟩
    obtain ⟨rfl, same⟩ := gives_pure.mp ended
    exact ⟨a, by rwa [List.append_nil], same⟩
  · rintro ⟨a, given, same⟩
    exact ⟨a, events, [], (List.append_nil _).symm, given, gives_pure.mpr ⟨rfl, same⟩⟩

/-- A trace does not say more than once how a program ends: of two that begin alike, neither goes
on after the other has led to a result. -/
theorem Gives.unique {p : Program α} {events events' more more' : List Event} {a a' : α}
    (given : p.Gives events a) (given' : p.Gives events' a')
    (same : events ++ more = events' ++ more') : events = events' ∧ more = more' ∧ a = a' := by
  induction p generalizing events events' with
  | done b =>
    obtain ⟨rfl, rfl⟩ := gives_done.mp given
    obtain ⟨rfl, rfl⟩ := gives_done.mp given'
    exact ⟨rfl, same, rfl⟩
  | ask question next ih =>
    obtain ⟨answer, rest, rfl, tail⟩ := gives_ask.mp given
    obtain ⟨answer', rest', rfl, tail'⟩ := gives_ask.mp given'
    have parts := List.cons.inj same
    have answers : answer = answer' := eq_of_heq (Sigma.mk.inj parts.1).2
    subst answers
    obtain ⟨rfl, moreEq, resultEq⟩ := ih answer tail tail' parts.2
    exact ⟨rfl, moreEq, resultEq⟩

theorem gives_alone {work : Program α} {a : α} {events : List Event} :
    (alone work).Gives events a ↔
      ∃ middle, events = ⟨.enter, ()⟩ :: middle ++ [⟨.leave, ()⟩] ∧ work.Gives middle a := by
  constructor
  · intro given
    obtain ⟨_, _, _, rfl, entered, given₁⟩ := gives_bind.mp given
    obtain ⟨b, middle, _, rfl, worked, given₂⟩ := gives_bind.mp given₁
    obtain ⟨_, _, _, rfl, left, ended⟩ := gives_bind.mp given₂
    obtain ⟨rfl, rfl⟩ := gives_pure.mp ended
    rw [gives_put.mp entered, gives_put.mp left]
    exact ⟨middle, by simp, worked⟩
  · rintro ⟨middle, rfl, worked⟩
    have left : (put .leave >>= fun _ => pure a).Gives [⟨.leave, ()⟩] a :=
      gives_bind.mpr ⟨(), _, [], (List.append_nil _).symm, gives_put.mpr rfl, .refl _⟩
    exact gives_bind.mpr ⟨(), [_], _, rfl, gives_put.mpr rfl,
      gives_bind.mpr ⟨a, middle, _, rfl, worked, left⟩⟩

theorem run_adapt {ε' : Type} (tell : ε → ε') (x : ExceptT ε Program α) :
    (x.adapt tell).run = do return (← x.run).mapError tell := map_eq_pure_bind _ _

theorem gives_adapt_ok {ε' : Type} {tell : ε → ε'} {x : ExceptT ε Program α} {a : α}
    {events : List Event} :
    (x.adapt tell).run.Gives events (.ok a) ↔ x.run.Gives events (.ok a) := by
  rw [run_adapt, gives_bind_pure]
  constructor
  · rintro ⟨r, given, told⟩
    cases r with
    | ok b => rwa [← Except.ok.inj told]
    | error e => cases told
  · exact fun given => ⟨_, given, rfl⟩

theorem gives_act_bind {x : ExceptT ε Program α} {f : α → ExceptT ε Program β} {r : Except ε β}
    {events : List Event} :
    (x >>= f).run.Gives events r ↔
      (∃ cause, x.run.Gives events (.error cause) ∧ r = .error cause) ∨
      ∃ a before after, events = before ++ after ∧ x.run.Gives before (.ok a) ∧
        (f a).run.Gives after r := by
  rw [ExceptT.run_bind, gives_bind]
  constructor
  · rintro ⟨a | a, before, after, rfl, first, second⟩
    · obtain ⟨rfl, same⟩ := gives_pure.mp second
      exact .inl ⟨a, by rwa [List.append_nil], same.symm⟩
    · exact .inr ⟨a, before, after, rfl, first, second⟩
  · rintro (⟨cause, first, rfl⟩ | ⟨a, before, after, rfl, first, second⟩)
    · exact ⟨.error cause, events, [], (List.append_nil _).symm, first, gives_pure.mpr ⟨rfl, rfl⟩⟩
    · exact ⟨.ok a, before, after, rfl, first, second⟩

theorem gives_bind_ok {x : ExceptT ε Program α} {f : α → ExceptT ε Program β} {b : β}
    {events : List Event} :
    (x >>= f).run.Gives events (.ok b) ↔
      ∃ a before after, events = before ++ after ∧ x.run.Gives before (.ok a) ∧
        (f a).run.Gives after (.ok b) := by
  simp only [gives_act_bind, reduceCtorEq, and_false, exists_false, false_or]

theorem gives_pure_ok {a b : α} {events : List Event} :
    (pure b : ExceptT ε Program α).run.Gives events (.ok a) ↔ events = [] ∧ b = a := by
  rw [ExceptT.run_pure, gives_pure, Except.ok.injEq]

theorem gives_except_ok {x : Except ε α} {a : α} {events : List Event} :
    (liftM x : ExceptT ε Program α).run.Gives events (.ok a) ↔ events = [] ∧ x = .ok a :=
  gives_pure

theorem gives_program {p : Program α} {r : Except ε α} {events : List Event} :
    (liftM p : ExceptT ε Program α).run.Gives events r ↔ ∃ a, p.Gives events a ∧ r = .ok a := by
  change (ExceptT.lift p).run.Gives events r ↔ _
  rw [ExceptT.run_lift, map_eq_pure_bind, gives_bind]
  constructor
  · rintro ⟨a, before, after, rfl, first, second⟩
    obtain ⟨rfl, rfl⟩ := gives_pure.mp second
    exact ⟨a, by rwa [List.append_nil], rfl⟩
  · rintro ⟨a, given, rfl⟩
    exact ⟨a, events, [], (List.append_nil _).symm, given, gives_pure.mpr ⟨rfl, rfl⟩⟩

theorem gives_program_ok {p : Program α} {a : α} {events : List Event} :
    (liftM p : ExceptT ε Program α).run.Gives events (.ok a) ↔ p.Gives events a := by
  simp only [gives_program, Except.ok.injEq, exists_eq_right']

theorem gives_except_bind_ok {x : Except ε α} {f : α → ExceptT ε Program β} {b : β}
    {events : List Event} : (liftM x >>= f : ExceptT ε Program β).run.Gives events (.ok b) ↔
      ∃ a, x = .ok a ∧ (f a).run.Gives events (.ok b) := by
  rw [gives_bind_ok]
  constructor
  · rintro ⟨a, before, after, rfl, first, second⟩
    obtain ⟨rfl, done⟩ := gives_except_ok.mp first
    exact ⟨a, done, second⟩
  · rintro ⟨a, done, second⟩
    exact ⟨a, [], events, rfl, gives_except_ok.mpr ⟨rfl, done⟩, second⟩

theorem gives_program_bind {p : Program α} {f : α → ExceptT ε Program β} {r : Except ε β}
    {events : List Event} : (liftM p >>= f : ExceptT ε Program β).run.Gives events r ↔
      ∃ a before after, events = before ++ after ∧ p.Gives before a ∧ (f a).run.Gives after r := by
  rw [gives_act_bind]
  constructor
  · rintro (⟨_, failed, -⟩ | ⟨a, before, after, rfl, first, second⟩)
    · obtain ⟨_, -, impossible⟩ := gives_program.mp failed
      cases impossible
    · exact ⟨a, before, after, rfl, gives_program_ok.mp first, second⟩
  · rintro ⟨a, before, after, rfl, first, second⟩
    exact .inr ⟨a, before, after, rfl, gives_program_ok.mpr first, second⟩

theorem gives_put_bind {question : Question} {f : question.Answer → ExceptT ε Program β}
    {r : Except ε β} {events : List Event} :
    (liftM (put question) >>= f : ExceptT ε Program β).run.Gives events r ↔
      ∃ answer rest, events = ⟨question, answer⟩ :: rest ∧ (f answer).run.Gives rest r := by
  rw [gives_program_bind]
  constructor
  · rintro ⟨answer, before, after, rfl, first, second⟩
    obtain rfl := gives_put.mp first
    exact ⟨answer, after, rfl, second⟩
  · rintro ⟨answer, rest, rfl, second⟩
    exact ⟨answer, [_], rest, rfl, gives_put.mpr rfl, second⟩

theorem gives_draw_bind {count : Nat} {f : Bytes → ExceptT ε Program β} {r : Except ε β}
    {events : List Event} :
    (liftM (draw count) >>= f : ExceptT ε Program β).run.Gives events r ↔
      ∃ (drawn : RandomBytes count) (rest : List Event), events = ⟨.random count, drawn⟩ :: rest ∧
        (f drawn.val).run.Gives rest r := by
  rw [gives_program_bind]
  constructor
  · rintro ⟨_, before, after, rfl, first, second⟩
    obtain ⟨drawn, rfl, rfl⟩ := gives_draw.mp first
    exact ⟨drawn, after, rfl, second⟩
  · rintro ⟨drawn, rest, rfl, second⟩
    exact ⟨_, [_], rest, rfl, gives_draw.mpr ⟨drawn, rfl, rfl⟩, second⟩

theorem gives_time_bind {f : Int64 → ExceptT ε Program β} {r : Except ε β} {events : List Event} :
    (liftM time >>= f : ExceptT ε Program β).run.Gives events r ↔
      ∃ now rest, events = ⟨.now, now⟩ :: rest ∧ (f now).run.Gives rest r :=
  gives_put_bind

end Program

end KeyService
