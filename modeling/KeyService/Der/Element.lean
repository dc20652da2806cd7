import KeyService.Bytes

/-! The distinguished encoding of structured documents.
A document is an element: a tag, a length, and so many bytes of content, which for
some tags are elements again. The encoding is distinguished because every document
has one: lengths and numbers are written in as few bytes as possible, and a reader
refuses any other spelling. -/
namespace KeyService.Der

def tagInteger : UInt8 := 0x02
def tagBits : UInt8 := 0x03
def tagOctets : UInt8 := 0x04
def tagNull : UInt8 := 0x05
def tagName : UInt8 := 0x06
def tagSequence : UInt8 := 0x30

/-- Whether a byte is the tag of some element: of a universal type that exists, or of a class
whose numbers are free. Tags of more than one byte are not used. -/
def isTag (b : UInt8) : Bool :=
  b ∈ ([0x01, 0x02, 0x03, 0x04, 0x05, 0x06, 0x09, 0x0A, 0x0C, 0x12, 0x13, 0x14, 0x15, 0x16, 0x17,
    0x18, 0x1A, 0x1E, 0x30, 0x31] : List UInt8) || (0x40 ≤ b && b &&& 0x1F ≠ 0x1F)

def isContext (b : UInt8) : Bool := b &&& 0xE0 = 0xA0

def digits (n : Nat) : Bytes := if n = 0 then [] else Bytes.ofNat (n.log2 / 8 + 1) n

/-- A length: one byte below 128, else the number of its bytes and these. -/
def writeLength (n : Nat) : Bytes :=
  if n < 128 then [UInt8.ofNat n] else UInt8.ofNat (128 + (digits n).length) :: digits n

def write (tag : UInt8) (content : Bytes) : Bytes :=
  tag :: (writeLength content.length ++ content)

/-- A number that is not negative. Its first bit is a sign, so a zero may have to go first. -/
def writeNat (n : Nat) : Bytes :=
  write tagInteger
    (match digits n with
      | [] => [0]
      | b :: rest => if b < 128 then b :: rest else 0 :: b :: rest)

def writeBits (content : Bytes) : Bytes := write tagBits (0 :: content)

abbrev Reader := StateT Bytes Option

def length? : Reader Nat := fun bs =>
  match bs with
  | [] => none
  | b :: rest =>
    if b < 128 then some (b.toNat, rest)
    else
      let count := b.toNat - 128
      let n := Bytes.toNat (rest.take count)
      if 1 ≤ count ∧ count ≤ 4 ∧ writeLength n = b :: rest.take count then
        some (n, rest.drop count)
      else none

def any? : Reader (UInt8 × Bytes) := fun bs =>
  match bs with
  | [] => none
  | tag :: afterTag => do
    let (n, rest) ← length? afterTag
    if isTag tag ∧ (rest.take n).length = n then some ((tag, rest.take n), rest.drop n) else none

def element? (tag : UInt8) : Reader Bytes := do
  let (found, content) ← any?
  if found = tag then pure content else failure

def whole? {α : Type} (r : Reader α) (bs : Bytes) : Option α :=
  match r bs with
  | some (a, []) => some a
  | _ => none

def inside? {α : Type} (tag : UInt8) (r : Reader α) : Reader α := do
  let content ← element? tag
  StateT.lift (whole? r content)

def nat? : Reader Nat := do
  let content ← element? tagInteger
  let n := Bytes.toNat content
  if writeNat n = write tagInteger content then pure n else failure

def bits? : Reader Bytes := do
  match ← element? tagBits with
  | 0 :: content => pure content
  | _ => failure

/-- The element with a given number of the context, if it is there. Elements of lower numbers
before it are passed over. The number stands in the lowest five bits of the tag; `form` is the tag
that the element has to have. -/
def context? {α : Type} (form : UInt8) (r : Bytes → Option α) (bs : Bytes) :
    Option (Option α × Bytes) :=
  match bs.head? with
  | none => some (none, [])
  | some tag =>
    if !isTag tag then none
    else if tag &&& 0xC0 ≠ 0x80 || form &&& 0x1F < tag &&& 0x1F then some (none, bs)
    else if tag &&& 0x1F = form &&& 0x1F then
      match element? form bs with
      | some (content, rest) => (r content).map fun a => (some a, rest)
      | none => none
    else
      match any? bs with
      | some (_, rest) => if rest.length < bs.length then context? form r rest else none
      | none => none
termination_by bs.length

def extensions? (bs : Bytes) : Option (Unit × Bytes) :=
  if bs.isEmpty then some ((), [])
  else
    match any? bs with
    | some ((tag, content), rest) =>
      if isContext tag ∧ (whole? any? content).isSome ∧ rest.length < bs.length then
        extensions? rest
      else none
    | none => none
termination_by bs.length

end KeyService.Der
