import KeyService.Bytes

/-! Bytes that ought to be UTF-8.
Whoever reads a text from bytes that are none has to say where the text breaks off, or
to put a mark in place of what is broken. Both depend on how many bytes belong to one
break: those that a character could still start with, and at least one. -/
namespace KeyService.Utf8

inductive Front where
  | character (width : Nat)
  /-- So many bytes with which a character might have started, and another byte after them. -/
  | broken (width : Nat)
  | unfinished
  deriving DecidableEq, Repr

def continuation : UInt8 × UInt8 := (0x80, 0xBF)

/-- The bounds of the bytes that go on after the first one. The narrower bounds of a second byte
rule out long forms, surrogates, and numbers that are too large. -/
def after? (first : UInt8) : Option (List (UInt8 × UInt8)) :=
  if first < 0x80 then some []
  else if first < 0xC2 then none
  else if first < 0xE0 then some [continuation]
  else if first = 0xE0 then some [(0xA0, 0xBF), continuation]
  else if first = 0xED then some [(0x80, 0x9F), continuation]
  else if first < 0xF0 then some [continuation, continuation]
  else if first = 0xF0 then some [(0x90, 0xBF), continuation, continuation]
  else if first < 0xF4 then some [continuation, continuation, continuation]
  else if first = 0xF4 then some [(0x80, 0x8F), continuation, continuation]
  else none

def goOn (seen : Nat) : List (UInt8 × UInt8) → Bytes → Front
  | [], _ => .character seen
  | _ :: _, [] => .unfinished
  | (low, high) :: bounds, b :: rest =>
    if low ≤ b && b ≤ high then goOn (seen + 1) bounds rest else .broken seen

def front (first : UInt8) (rest : Bytes) : Front :=
  match after? first with
  | none => .broken 1
  | some bounds => goOn 1 bounds rest

structure Break where
  index : Nat
  /-- How many bytes belong to it; there is no number if the text ends inside a character. -/
  width : Option Nat
  deriving DecidableEq, Repr

def Break.message (b : Break) : String :=
  match b.width with
  | some width => "invalid utf-8 sequence of " ++ toString width ++ " bytes from index "
      ++ toString b.index
  | none => "incomplete utf-8 byte sequence from index " ++ toString b.index

def breakFrom (index known : Nat) : Bytes → Option Break
  | [] => none
  | first :: rest =>
    match known with
    | more + 1 => breakFrom (index + 1) more rest
    | 0 =>
      match front first rest with
      | .character width => breakFrom (index + 1) (width - 1) rest
      | .broken width => some ⟨index, some width⟩
      | .unfinished => some ⟨index, none⟩

def read (bs : Bytes) : Except Break String :=
  match Bytes.text? bs with
  | some text => .ok text
  | none => .error ((breakFrom 0 0 bs).getD ⟨0, none⟩)

@[simp] theorem read_ofText (s : String) : read (Bytes.ofText s) = .ok s := by
  simp [read]

def mark : Bytes := [0xEF, 0xBF, 0xBD]

def mend : Bytes → Bytes
  | [] => []
  | first :: rest =>
    match front first rest with
    | .character width => first :: (rest.take (width - 1) ++ mend (rest.drop (width - 1)))
    | .broken width => mark ++ mend (rest.drop (width - 1))
    | .unfinished => mark
termination_by bs => bs.length
decreasing_by
  all_goals
    simp only [List.length_drop, List.length_cons]
    omega

def readMended (bs : Bytes) : String := (Bytes.text? (mend bs)).getD ""

end KeyService.Utf8
