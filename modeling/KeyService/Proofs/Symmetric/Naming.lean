import KeyService.Proofs.Text.Blank
import KeyService.Proofs.Text.Letters
import KeyService.Proofs.Text.Pieces
import KeyService.Symmetric.Algorithm
import Mathlib.Data.Option.Basic

/-! The names of algorithms.
A name is AES, a mode and a padding with slashes between them, in letters of either case and with
white space around; a number of bits goes with it. Exactly these are read, and the name that an
algorithm gives for itself is one of them. -/
namespace KeyService.Symmetric

open Text (Blank Spells Capital upper upper_iff isBlank trim pieces)

namespace KeySize

theorem ofBits?_iff {bits : UInt16} {size : KeySize} :
    ofBits? bits = some size ↔ bits = size.bits := by
  constructor
  · intro known
    unfold ofBits? at known
    split at known
    · obtain rfl := Option.some.inj known
      assumption
    · split at known
      · obtain rfl := Option.some.inj known
        assumption
      · split at known
        · obtain rfl := Option.some.inj known
          assumption
        · cases known
  · rintro rfl
    cases size <;> rfl

end KeySize

def Mode.words : Mode → List String
  | .cbc => ["CBC"]
  | .ecb => ["ECB"]
  | .gcmSiv => ["GCM-SIV", "GCMSIV"]

def Padding.words : Padding → List String
  | .counted => ["PKCS5PADDING", "PKCS7PADDING"]
  | .absent => ["NOPADDING"]

/-- The word in an algorithm's own name. -/
def Mode.title : Mode → String
  | .cbc => "CBC"
  | .ecb => "ECB"
  | .gcmSiv => "GCM-SIV"

def Padding.title : Padding → String
  | .counted => "PKCS5Padding"
  | .absent => "NoPadding"

/-- Capitals that are neither white space nor slashes, and whose small letters are neither. -/
def isPlainWord (word : String) : Bool :=
  word.toList.all fun w => !w.isLower && !isBlank w && w != '/' && !isBlank w.toLower &&
    w.toLower != '/'

theorem plain_aes : isPlainWord "AES" = true := by decide

theorem Mode.plain_words (m : Mode) : ∀ word ∈ m.words, isPlainWord word = true := by
  cases m <;> simp [words] <;> decide

theorem Padding.plain_words (p : Padding) : ∀ word ∈ p.words, isPlainWord word = true := by
  cases p <;> simp [words] <;> decide

theorem capital_of_plain {word : String} (plain : isPlainWord word = true) : Capital word := by
  intro w member
  have fine := List.all_eq_true.mp plain w member
  simp only [Bool.and_eq_true, Bool.not_eq_true'] at fine
  exact fine.1.1.1.1

def Clean (s : String) : Prop := ∀ c ∈ s.toList, isBlank c = false ∧ c ≠ '/'

theorem clean_of_spells {word s : String} (plain : isPlainWord word = true)
    (spells : Spells word s) : Clean s := by
  apply spells.forall (P := fun c => isBlank c = false ∧ c ≠ '/')
  intro w member
  have fine := List.all_eq_true.mp plain w member
  simp only [Bool.and_eq_true, Bool.not_eq_true', bne_iff_ne] at fine
  exact ⟨⟨fine.1.1.1.2, fine.1.1.2⟩, fine.1.2, fine.2⟩

theorem upper_mem_iff {words : List String} (plain : ∀ word ∈ words, isPlainWord word = true)
    {s : String} : upper s ∈ words ↔ ∃ word ∈ words, Spells word s := by
  constructor
  · intro member
    exact ⟨upper s, member, (upper_iff (capital_of_plain (plain _ member))).mp rfl⟩
  · rintro ⟨word, member, spells⟩
    rwa [(upper_iff (capital_of_plain (plain word member))).mpr spells]

theorem Mode.ofName?_iff {s : String} {m : Mode} :
    ofName? (upper s) = some m ↔ ∃ word ∈ m.words, Spells word s := by
  rw [← upper_mem_iff m.plain_words]
  unfold ofName?
  cases m <;> grind [words]

theorem Padding.ofName?_iff {s : String} {p : Padding} :
    ofName? (upper s) = some p ↔ ∃ word ∈ p.words, Spells word s := by
  rw [← upper_mem_iff p.plain_words]
  unfold ofName?
  cases p <;> grind [words]

theorem sameLetters_iff {s : String} : Text.sameLetters s "AES" = true ↔ Spells "AES" s := by
  have capital : upper "AES" = "AES" := by decide
  rw [Text.sameLetters, beq_iff_eq, capital, upper_iff (capital_of_plain plain_aes)]

theorem pieces_clean {before cipher mode padding after : String} (blankBefore : Blank before)
    (blankAfter : Blank after) (cleanCipher : Clean cipher) (cleanMode : Clean mode)
    (cleanPadding : Clean padding) :
    pieces '/' (trim (before ++ (cipher ++ "/" ++ mode ++ "/" ++ padding) ++ after)) =
      [cipher, mode, padding] := by
  have visible : ∀ c ∈ (cipher ++ "/" ++ mode ++ "/" ++ padding).toList, isBlank c = false := by
    intro c member
    simp only [String.toList_append, List.mem_append] at member
    rcases member with (((member | member) | member) | member) | member
    · exact (cleanCipher c member).1
    · obtain rfl : c = '/' := by simpa using member
      decide
    · exact (cleanMode c member).1
    · obtain rfl : c = '/' := by simpa using member
      decide
    · exact (cleanPadding c member).1
  have free : ∀ part ∈ [cipher, mode, padding], '/' ∉ part.toList := by
    intro part member slash
    simp only [List.mem_cons, List.not_mem_nil, or_false] at member
    rcases member with rfl | rfl | rfl
    · exact (cleanCipher _ slash).2 rfl
    · exact (cleanMode _ slash).2 rfl
    · exact (cleanPadding _ slash).2 rfl
  have joined : String.intercalate (String.singleton '/') [cipher, mode, padding] =
      cipher ++ "/" ++ mode ++ "/" ++ padding := rfl
  rw [Text.trim_surrounded blankBefore blankAfter visible, ← joined]
  exact Text.pieces_joined (List.cons_ne_nil _ _) free

namespace Algorithm

/-- A name with a number of bits that stands for an algorithm. A text that is sealed is never
padded, and is not sealed with a key of 192 bits. -/
structure Named (a : Algorithm) (name : String) (bits : UInt16) : Prop where
  bits : bits = a.size.bits
  spelled : ∃ before cipher mode padding after,
    name = before ++ (cipher ++ "/" ++ mode ++ "/" ++ padding) ++ after ∧
    Blank before ∧ Blank after ∧ Spells "AES" cipher ∧
    (∃ word ∈ a.mode.words, Spells word mode) ∧ ∃ word ∈ a.padding.words, Spells word padding
  meaningful : a.mode = .gcmSiv → a.padding = .absent ∧ a.size ≠ .aes192

theorem isMeaningful_iff {a : Algorithm} :
    a.isMeaningful = true ↔ (a.mode = .gcmSiv → a.padding = .absent ∧ a.size ≠ .aes192) := by
  by_cases sealing : a.mode = .gcmSiv
  · simp [isMeaningful, sealing]
  · simp [isMeaningful, sealing]

theorem ofParts?_iff {size : KeySize} {parts : List String} {a : Algorithm} :
    ofParts? size parts = some a ↔ a.size = size ∧ a.isMeaningful = true ∧
      ∃ cipher mode padding, parts = [cipher, mode, padding] ∧ Spells "AES" cipher ∧
        (∃ word ∈ a.mode.words, Spells word mode) ∧
        ∃ word ∈ a.padding.words, Spells word padding := by
  simp only [← sameLetters_iff, ← Mode.ofName?_iff, ← Padding.ofName?_iff]
  constructor
  · intro read
    unfold ofParts? at read
    split at read
    · rename_i cipher mode padding
      simp only [Option.bind_eq_bind, Option.bind_eq_some_iff, Option.guard_eq_some'] at read
      obtain ⟨_, aes, mode', modeRead, padding', paddingRead, _, meaningful, same⟩ := read
      obtain rfl := Option.some.inj same
      exact ⟨rfl, meaningful, cipher, mode, padding, rfl, aes, modeRead, paddingRead⟩
    · cases read
  · rintro ⟨rfl, meaningful, cipher, mode, padding, rfl, aes, modeRead, paddingRead⟩
    simp [ofParts?, aes, modeRead, paddingRead, meaningful]

theorem ofName_eq_ok {name : String} {bits : UInt16} {a : Algorithm} :
    ofName name bits = .ok a ↔ ∃ size, KeySize.ofBits? bits = some size ∧
      ofParts? size (pieces '/' (trim name)) = some a := by
  rw [ofName, KeySize.ofBits]
  cases known : KeySize.ofBits? bits with
  | none => simp [bind, Except.bind]
  | some size =>
    simp only [bind, Except.bind, Option.some.injEq, exists_eq_left']
    cases ofParts? size (pieces '/' (trim name)) with
    | none => simp
    | some read => simp

theorem ofName_iff {name : String} {bits : UInt16} {a : Algorithm} :
    ofName name bits = .ok a ↔ a.Named name bits := by
  simp only [ofName_eq_ok, KeySize.ofBits?_iff, ofParts?_iff, isMeaningful_iff]
  constructor
  · rintro ⟨_, bits, rfl, meaningful, cipher, mode, padding, parts, aes, modeWord, paddingWord⟩
    obtain ⟨before, after, blankBefore, blankAfter, whole⟩ := Text.exists_trim name
    have joined := Text.joined_pieces '/' (trim name)
    rw [parts] at joined
    rw [← joined] at whole
    exact ⟨bits, ⟨before, cipher, mode, padding, after, whole, blankBefore, blankAfter, aes,
      modeWord, paddingWord⟩, meaningful⟩
  · rintro ⟨bits, ⟨before, cipher, mode, padding, after, rfl, blankBefore, blankAfter, aes,
      ⟨modeWord, modeKnown, modeSpelled⟩, ⟨paddingWord, paddingKnown, paddingSpelled⟩⟩, meaningful⟩
    refine ⟨a.size, bits, rfl, meaningful, cipher, mode, padding, ?_, aes,
      ⟨modeWord, modeKnown, modeSpelled⟩, ⟨paddingWord, paddingKnown, paddingSpelled⟩⟩
    exact pieces_clean blankBefore blankAfter (clean_of_spells plain_aes aes)
      (clean_of_spells (a.mode.plain_words _ modeKnown) modeSpelled)
      (clean_of_spells (a.padding.plain_words _ paddingKnown) paddingSpelled)

/-- An algorithm gives its own name without white space, in the first of its words. -/
theorem name_eq {a : Algorithm} (meaningful : a.isMeaningful = true) :
    a.name = "" ++ ("AES" ++ "/" ++ a.mode.title ++ "/" ++ a.padding.title) ++ "" := by
  obtain ⟨mode, padding, size⟩ := a
  cases mode with
  | cbc => cases padding <;> rfl
  | ecb => cases padding <;> rfl
  | gcmSiv =>
    obtain ⟨rfl, -⟩ := isMeaningful_iff.mp meaningful rfl
    rfl

theorem ofName_name {a : Algorithm} (meaningful : a.isMeaningful = true) :
    ofName a.name a.size.bits = .ok a := by
  have blank : Blank "" := by simp [Blank]
  have modeRead : Mode.ofName? (upper a.mode.title) = some a.mode := by
    cases a.mode <;> decide
  have paddingRead : Padding.ofName? (upper a.padding.title) = some a.padding := by
    cases a.padding <;> decide
  apply ofName_iff.mpr
  exact ⟨rfl, ⟨"", "AES", a.mode.title, a.padding.title, "", name_eq meaningful, blank, blank,
    sameLetters_iff.mp (by decide), Mode.ofName?_iff.mp modeRead,
    Padding.ofName?_iff.mp paddingRead⟩, isMeaningful_iff.mp meaningful⟩

theorem ofName_chained {a : Algorithm} (chained : a.mode = .cbc) :
    ofName a.name a.size.bits = .ok a :=
  ofName_name (by simp [isMeaningful, chained])

/-- White space of any kind and letters of either case, and a spelling without the hyphen. -/
example : ofName " aes/GcmSiv/noPadding\u3000" 256 = .ok aes256GcmSiv := by decide

end Algorithm

end KeyService.Symmetric
