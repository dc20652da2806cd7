import KeyService.Proofs.Exchange.Completion
import KeyService.Proofs.LocalText.Race

/-! Whoever loads the keys of a record gets the same keys.
That is so for loaders which race for the record in a directory. A race can be lost, and
then the loser has thrown its own record away. -/
namespace KeyService.LocalText

variable {S : Suite} {ι : Type} [DecidableEq ι]

/-- The keys of a scheme that an application is to load. -/
structure Load where
  appId : String
  secret : Bytes
  scheme : Scheme

namespace Load

def name (l : Load) : String × String := (l.appId, l.scheme.header)

def program (S : Suite) (l : Load) : Program (Except Error Keys) :=
  (Cipher.load S l.appId l.secret l.scheme).run

def loader (S : Suite) (l : Load) : Loader (Except Error Keys) := .asking (l.program S)

end Load

/-- A loader that has ended, and has got keys. -/
def Loader.Has (keys : Keys) (loader : Loader (Except Error Keys)) : Prop :=
  loader = .asking (.done (.ok keys))

namespace Race

variable {α ρ : Type} {w : (question : Question) → StateM ρ question.Answer}
  {loaders : ι → Loader α} {i : ι}

theorem single {d d' : Directory} {loader loader' : Loader α} (stage : loaders i = loader)
    (step : loader.Step d loader' d') : Race loaders d (Function.update loaders i loader') d' :=
  Race.start.step (stage ▸ step)

/-- One loader takes some steps, and goes on. -/
theorem goOn {d d' d'' : Directory} {loader loader' : Loader α}
    (first : Race loaders d (Function.update loaders i loader) d')
    (rest : ∀ loaders' : ι → Loader α, loaders' i = loader →
      Race loaders' d' (Function.update loaders' i loader') d'') :
    Race loaders d (Function.update loaders i loader') d'' := by
  have others := rest (Function.update loaders i loader) (Function.update_self ..)
  rw [Function.update_idem] at others
  exact first.trans others

/-- One loader may finish its work before anybody else takes a step. -/
theorem works_alone {question : Question} {work : FileWork question.Answer}
    {next : question.Answer → Program α} {d : Directory}
    (busy : loaders i = .working question work next) :
    Race loaders d (Function.update loaders i (.asking (next (work.run d).1))) (work.run d).2 := by
  induction work generalizing loaders d with
  | done answer => exact single busy .answers
  | read name after ih => exact goOn (single busy .reads) fun _ going => ih _ going
  | stage content after ih => exact goOn (single busy (.stages (.ok ()))) fun _ going => ih _ going
  | create name content after ih =>
    unfold FileWork.run
    split
    · rename_i created d' done
      exact goOn (single busy (.creates done)) fun _ going => ih _ going
    · rename_i e failed
      exact goOn (single busy (.createFails e)) fun _ going => ih _ going

theorem answer_files {question : Question} {work : FileWork question.Answer}
    (made : files? question = some work) (s : Directory × ρ) :
    (Backend.directory.among w).answer question s = ((work.run s.1).1, (work.run s.1).2, s.2) := by
  cases question with
  | findRecord appId header =>
    obtain rfl := Option.some.inj made
    rfl
  | keepRecord record =>
    obtain rfl := Option.some.inj made
    rfl
  | _ => cases made

theorem answer_idle {question : Question} (idle : files? question = none) (s : Directory × ρ) :
    ((Backend.directory.among w).answer question s).2.1 = s.1 := by
  cases question with
  | findRecord => cases idle
  | keepRecord => cases idle
  | _ => rfl

/-- One loader may ask a question and be answered before anybody else takes a step. -/
theorem asks_alone {question : Question} {next : question.Answer → Program α} (s : Directory × ρ)
    (ready : loaders i = .asking (.ask question next)) :
    Race loaders s.1 (Function.update loaders i
      (.asking (next ((Backend.directory.among w).answer question s).1)))
      ((Backend.directory.among w).answer question s).2.1 := by
  cases made : files? question with
  | none =>
    rw [answer_idle made]
    exact single ready (.told _ made)
  | some work =>
    rw [answer_files made]
    exact goOn (single ready (.opens made)) fun _ busy => works_alone busy

/-- What a program does that has the directory for itself, one loader may do in a race. -/
theorem alone {p rest : Program α} {s s' : Directory × ρ} {events : List Event}
    (answers : (Backend.directory.among w).Answers s events s') (led : p.Leads events rest)
    (ready : loaders i = .asking p) :
    Race loaders s.1 (Function.update loaders i (.asking rest)) s'.1 := by
  induction answers generalizing loaders p with
  | nil s =>
    cases led
    rw [← ready, Function.update_eq_self]
    exact .start
  | @cons s s' s'' question answer events same _ ih =>
    cases led with
    | ask tail =>
      have asked := asks_alone (w := w) s ready
      rw [same] at asked
      exact goOn asked fun _ further => ih tail further

/-- One loader may come as far as to give its record a name, if none was there. -/
theorem stages_alone {r : Record} {next : Except Error Record → Program α} {d : Directory}
    (ready : loaders i = .asking (.ask (.keepRecord r) next))
    (free : Backend.directory.find d r.appId r.markHeader = .ok none) :
    Race loaders d
      (Function.update loaders i (.working (.keepRecord r) (Backend.nameFile r) next)) d := by
  have looked : Backend.ofFile (d.read (Backend.fileName r.appId r.markHeader)) = .ok none := free
  refine goOn (single ready (.opens rfl)) fun _ busy => ?_
  refine goOn (single busy .reads) fun _ found => ?_
  simp only [looked] at found
  exact single found (.stages (.ok ()))

variable {l : Load} {d : Directory}

/-- A loader who finds no record makes one, and is about to give it its name. Whatever record is there
when it does so, it will have the keys of that one. -/
theorem makes_own (w : (question : Question) → StateM ρ question.Answer) (r : ρ)
    (free : Backend.directory.find d l.name.1 l.name.2 = .ok none) :
    ∃ own, own.name = l.name ∧ ∀ first keys, first.unwrap S l.secret = .ok keys →
      ∃ next, next (.ok first) = .done (.ok keys) ∧
        ∀ {loaders : ι → Loader (Except Error Keys)} {i : ι}, loaders i = l.loader S →
          Race loaders d (Function.update loaders i
            (.working (.keepRecord own) (Backend.nameFile own) next)) d := by
  obtain ⟨events, own, -, ⟨d', r'⟩, answers, same, name, -, -, -, gives⟩ :=
    Cipher.load_makes (S := S) (w := w) (s := (d, r)) l.secret free
  obtain rfl : d' = d := same
  have named : own.name = l.name := name
  refine ⟨own, named, fun first keys unwrapped => ?_⟩
  obtain ⟨next, led, ended⟩ := Program.leads_snoc.mp (gives first keys unwrapped)
  refine ⟨next, ended, fun ready => goOn (alone answers led ready) fun _ there => ?_⟩
  exact stages_alone there (by rw [← free, ← named]; rfl)

/-- A loader who finds no record may do everything that there is to do before anybody else takes a
step. Then its record is there. -/
theorem wins (w : (question : Question) → StateM ρ question.Answer) (r : ρ)
    (short : Backend.isFileName l.name)
    (free : Backend.directory.find d l.name.1 l.name.2 = .ok none) :
    ∃ first keys d', first.unwrap S l.secret = .ok keys ∧
      Backend.directory.find d' l.name.1 l.name.2 = .ok (some first) ∧
      ∀ {loaders : ι → Loader (Except Error Keys)} {i : ι}, loaders i = l.loader S →
        Race loaders d (Function.update loaders i (.asking (.done (.ok keys)))) d' := by
  obtain ⟨events, first, keys, ⟨d₁, r₁⟩, answers, same, name, unwrapped, -, -, gives⟩ :=
    Cipher.load_makes (S := S) (w := w) (s := (d, r)) l.secret free
  obtain rfl : d₁ = d := same
  have named : first.name = l.name := name
  obtain ⟨d', kept, -, after⟩ := Backend.directory_keepsFirst.keep_free trivial
    (named ▸ short) (r := first) (by rw [← free, ← named]; rfl)
  have keeping : (Backend.directory.among w).Answers (d₁, r₁) [⟨.keepRecord first, .ok first⟩]
      (d', r₁) := by
    refine Surroundings.answers_single.mpr ?_
    exact congrArg (fun k : Except Error Record × Directory => (k.1, (k.2, r₁))) kept
  refine ⟨first, keys, d', unwrapped, ?_, fun ready => ?_⟩
  · rw [after short, if_pos named.symm]
  · exact alone (answers.append keeping) (gives first keys unwrapped) ready

/-- Of two loaders who find no record, one may be too late to give its own a name. Then it gets the
keys of the other one's. -/
theorem lost {late early : ι} (differ : early ≠ late)
    (w : (question : Question) → StateM ρ question.Answer) (r : ρ)
    (short : Backend.isFileName l.name)
    (free : Backend.directory.find d l.name.1 l.name.2 = .ok none) :
    ∃ between own next final d' keys, Race (fun _ : ι => l.loader S) d between d ∧
      between late = .working (.keepRecord own) (Backend.nameFile own) next ∧
      Race between d final d' ∧ (final early).Has keys ∧ (final late).Has keys := by
  obtain ⟨first, keys, d', unwrapped, found, won⟩ := wins (S := S) (ι := ι) w r short free
  obtain ⟨own, named, prepare⟩ := makes_own (S := S) (ι := ι) w r free
  obtain ⟨next, ended, staged⟩ := prepare first keys unwrapped
  let start : ι → Loader (Except Error Keys) := fun _ => l.loader S
  let between := Function.update start late
    (.working (.keepRecord own) (Backend.nameFile own) next)
  let decided := Function.update between early (.asking (.done (.ok keys)))
  have ready : between early = l.loader S := Function.update_of_ne differ ..
  have busy : decided late = .working (.keepRecord own) (Backend.nameFile own) next :=
    (Function.update_of_ne differ.symm _ between).trans (Function.update_self ..)
  have tooLate := works_alone (d := d') busy
  rw [Backend.nameFile_late (named ▸ short) (by rw [← found, ← named]; rfl), ended] at tooLate
  exact ⟨between, own, next, _, d', keys, staged rfl, Function.update_self ..,
    (won ready).trans tooLate,
    (Function.update_of_ne differ _ decided).trans (Function.update_self ..),
    Function.update_self ..⟩

end Race

theorem Loader.Follows.yields {l : Load} {d : Directory} {loader : Loader (Except Error Keys)}
    {keys : Keys} (follows : loader.Follows (l.program S) d) (has : loader.Has keys) :
    (contents d).Yields S l.appId l.scheme.header l.secret keys := by
  unfold Loader.Has at has
  subst has
  obtain ⟨events, given, known⟩ := follows
  exact Cipher.load_yields given known

/-- All loaders of a record who get keys have those of the one record in its file, however many they
are and in whatever order they take their steps; and a file that is there stays as it is. -/
theorem loads_converge {loads : ι → Load} {between final : ι → Loader (Except Error Keys)}
    {origin middle last : Directory}
    (first : Race (fun i => (loads i).loader S) origin between middle)
    (later : Race between middle final last) :
    middle.Stays last ∧
    (∀ i keys, (final i).Has keys → ∃ content r,
      last.find? (Backend.fileName (loads i).appId (loads i).scheme.header) = some content ∧
      Record.codec.parse content = .ok r ∧ r.unwrap S (loads i).secret = .ok keys) ∧
    ∀ i j keys keys', (final i).Has keys → (final j).Has keys' → (loads i).name = (loads j).name →
      (loads i).secret = (loads j).secret → keys = keys' := by
  have begun : ∀ i, ((loads i).loader S).Follows ((loads i).program S) origin := by
    intro i
    exact ⟨[], .refl _, fun e member => absurd member List.not_mem_nil⟩
  have yields : ∀ i keys, (final i).Has keys →
      (contents last).Yields S (loads i).appId (loads i).scheme.header (loads i).secret keys := by
    intro i keys has
    exact ((first.trans later).follows begun i).yields has
  refine ⟨later.stays, fun i keys has => ?_, fun i j keys keys' has has' names secrets => ?_⟩
  · obtain ⟨r, there, unwrapped⟩ := yields i keys has
    obtain ⟨content, file, parsed⟩ := document_of_contents there
    exact ⟨content, r, file, parsed, unwrapped⟩
  · have mine := yields i keys has
    rw [show (loads i).appId = (loads j).appId from congrArg Prod.fst names,
      show (loads i).scheme.header = (loads j).scheme.header from congrArg Prod.snd names,
      secrets] at mine
    exact mine.unique (yields j keys' has')

/-- A race that was lost. -/
theorem loads_converge_small : ∃ between own next final middle last keys,
    let l : Load := ⟨"app", [1, 2], Scheme.searchable Suite.small⟩
    Race (fun _ : Bool => l.loader Suite.small) .empty between middle ∧
      between true = .working (.keepRecord own) (Backend.nameFile own) next ∧
      Race between middle final last ∧ (final false).Has keys ∧ (final true).Has keys ∧
      ∃ content r, last.find? (Backend.fileName l.appId l.scheme.header) = some content ∧
        Record.codec.parse content = .ok r ∧ r.unwrap Suite.small l.secret = .ok keys := by
  let l : Load := ⟨"app", [1, 2], Scheme.searchable Suite.small⟩
  have short : Backend.isFileName l.name := by
    unfold Backend.isFileName
    decide +kernel
  let loads : Bool → Load := fun _ => l
  obtain ⟨between, own, next, final, last, keys, first, staged, later, early, late⟩ :=
    Race.lost (S := Suite.small) Bool.false_ne_true
      (Exchange.Host.answer KeyPair.Backend.memory Exchange.Small.chance) ⟨0, .empty, .empty⟩
      short (Backend.directory_keepsFirst.find_empty short)
  have first' : Race (fun i => (loads i).loader Suite.small) .empty between .empty := first
  exact ⟨between, own, next, final, _, last, keys, first, staged, later, early, late,
    (loads_converge first' later).2.1 true keys late⟩

end KeyService.LocalText
