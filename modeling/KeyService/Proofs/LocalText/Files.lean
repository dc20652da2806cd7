import KeyService.Proofs.LocalText.Settled
import KeyService.Proofs.Store.Directory

/-! Records in a directory that others work on too.
A record that was found, or that was there after another was to be kept, is in its file from
then on. So what one worker is told remains true, whatever the others do meanwhile. -/
namespace KeyService.LocalText

/-- The records of a directory's documents. -/
def contents (d : Directory) : Contents := fun name =>
  match Backend.ofFile (.ok (d.find? (Backend.fileName name.1 name.2))) with
  | .ok found => found
  | .error _ => none

theorem contents_of_document {d : Directory} (name : String × String) {r : Record}
    {content : Bytes} (file : d.find? (Backend.fileName name.1 name.2) = some content)
    (parsed : Record.codec.parse content = .ok r) : contents d name = some r := by
  simp only [contents, file, Backend.ofFile, parsed]

theorem document_of_contents {d : Directory} {name : String × String} {r : Record}
    (there : contents d name = some r) : ∃ content,
      d.find? (Backend.fileName name.1 name.2) = some content ∧
      Record.codec.parse content = .ok r := by
  unfold contents at there
  cases file : d.find? (Backend.fileName name.1 name.2) with
  | none =>
    rw [file] at there
    cases there
  | some content =>
    refine ⟨content, rfl, ?_⟩
    simp only [file, Backend.ofFile] at there
    cases parsed : Record.codec.parse content with
    | ok record =>
      simp only [parsed, Option.some.injEq] at there
      rw [there]
    | error e =>
      simp only [parsed] at there
      cases there

theorem contents_of_read {d : Directory} (name : String × String) {r : Record}
    (looked : Backend.ofFile (d.read (Backend.fileName name.1 name.2)) = .ok (some r)) :
    contents d name = some r := by
  unfold Directory.read at looked
  split at looked
  · simp only [contents, looked]
  · cases looked

theorem grows_of_stays {d d' : Directory} (stays : d.Stays d') :
    (contents d).Grows (contents d') := by
  intro name r there
  obtain ⟨content, file, parsed⟩ := document_of_contents there
  exact contents_of_document name (stays _ _ file) parsed

/-- An answer that is true of the directory. -/
def Honest (question : Question) (answer : question.Answer) (d : Directory) : Prop :=
  (contents d).Knows ⟨question, answer⟩

theorem Honest.later {question : Question} {answer : question.Answer} {d d' : Directory}
    (stays : d.Stays d') (honest : Honest question answer d) : Honest question answer d' :=
  Contents.Knows.later honest (grows_of_stays stays)

theorem honest_read (appId header : String) (d : Directory) :
    Honest (.findRecord appId header)
      (Backend.ofFile (d.read (Backend.fileName appId header))) d := by
  cases looked : Backend.ofFile (d.read (Backend.fileName appId header)) with
  | error e => trivial
  | ok found =>
    cases found with
    | none => trivial
    | some r => exact contents_of_read (appId, header) looked

theorem findFile_assures (appId header : String) (d : Directory) :
    (Backend.findFile appId header).Assures (Honest (.findRecord appId header)) d :=
  fun d' _ => ⟨honest_read appId header d', fun _ => trivial⟩

theorem takeFirst_assures (record : Record) (d : Directory) :
    (Backend.takeFirst (Backend.fileName record.appId record.markHeader)).Assures
      (Honest (.keepRecord record)) d := by
  intro d' _
  refine ⟨?_, fun e => trivial⟩
  cases looked : Backend.ofFile (d'.read (Backend.fileName record.appId record.markHeader)) with
  | error e =>
    simp only [looked]
    trivial
  | ok found =>
    cases found with
    | none =>
      simp only [looked]
      trivial
    | some r =>
      simp only [looked]
      exact contents_of_read record.name looked

/-- A record that is given its name is there, and if the name is taken, another one is. -/
theorem nameFile_assures (record : Record) (d : Directory) :
    (Backend.nameFile record).Assures (Honest (.keepRecord record)) d := by
  intro d' _
  refine ⟨fun created d'' done => ?_, fun e => trivial⟩
  rcases Directory.create_eq done with ⟨rfl, -, rfl⟩ | ⟨rfl, rfl⟩
  · refine contents_of_document record.name ?_ (parse_pretty record)
    exact (Table.find?_insert ..).trans (if_pos rfl)
  · exact takeFirst_assures record _

theorem keepFile_assures (record : Record) (d : Directory) :
    (Backend.keepFile record).Assures (Honest (.keepRecord record)) d := by
  intro d' _
  refine ⟨?_, fun e => trivial⟩
  cases looked : Backend.ofFile (d'.read (Backend.fileName record.appId record.markHeader)) with
  | error e =>
    simp only [looked]
    trivial
  | ok found =>
    cases found with
    | some r =>
      simp only [looked]
      exact contents_of_read record.name looked
    | none =>
      simp only [looked]
      intro staged
      cases staged with
      | error e => trivial
      | ok => exact nameFile_assures record d'

/-- The work on files that a question makes, if it makes any. -/
def files? : (question : Question) → Option (FileWork question.Answer)
  | .findRecord appId header => some (Backend.findFile appId header)
  | .keepRecord record => some (Backend.keepFile record)
  | _ => none

theorem files?_assures {question : Question} {work : FileWork question.Answer}
    (made : files? question = some work) (d : Directory) : work.Assures (Honest question) d := by
  cases question with
  | findRecord appId header =>
    obtain rfl := Option.some.inj made
    exact findFile_assures appId header d
  | keepRecord record =>
    obtain rfl := Option.some.inj made
    exact keepFile_assures record d
  | _ => cases made

theorem honest_of_idle {question : Question} (idle : files? question = none)
    (answer : question.Answer) (d : Directory) : Honest question answer d := by
  cases question with
  | findRecord => cases idle
  | keepRecord => cases idle
  | _ => trivial

end KeyService.LocalText
