import KeyService.Json.Value

/-! Reading JSON from bytes, one expected value at a time.
The reader knows what it expects, and the first fault it meets on its way decides
how the reading fails: the bytes end too early, they are no JSON, or they are JSON
of another kind than expected. A value that nobody asked for is passed over with
less care: its strings may be bytes that are no UTF-8. -/
namespace KeyService.Json

inductive Fault where
  | truncated
  | malformed
  | unfit
  deriving DecidableEq, Repr

abbrev Reader (α : Type) := Bytes → Except Fault (α × Bytes)

def isSpace (b : UInt8) : Bool := b == 0x20 || b == 0x0A || b == 0x09 || b == 0x0D

def skipSpace (bs : Bytes) : Bytes := bs.dropWhile isSpace

def isDigit (b : UInt8) : Bool := 0x30 ≤ b && b ≤ 0x39

def literal : Bytes → Bytes → Except Fault Bytes
  | [], rest => .ok rest
  | _ :: _, [] => .error .truncated
  | expected :: more, b :: rest =>
    if b = expected then literal more rest else .error .malformed

def literalNull : Bytes := [0x75, 0x6C, 0x6C]
def literalTrue : Bytes := [0x72, 0x75, 0x65]
def literalFalse : Bytes := [0x61, 0x6C, 0x73, 0x65]

def hexValue? (b : UInt8) : Option Nat := Bytes.hexValue? (Char.ofNat b.toNat)

def codeUnit? (a b c d : UInt8) : Option Nat := do
  let w ← hexValue? a
  let x ← hexValue? b
  let y ← hexValue? c
  let z ← hexValue? d
  return ((w * 16 + x) * 16 + y) * 16 + z

def isLeading (u : Nat) : Bool := 0xD800 ≤ u && u ≤ 0xDBFF
def isTrailing (u : Nat) : Bool := 0xDC00 ≤ u && u ≤ 0xDFFF

def pairChar (u v : Nat) : Char := Char.ofNat (0x10000 + (u - 0xD800) * 0x400 + (v - 0xDC00))

def plainEscape? (b : UInt8) : Option UInt8 :=
  if b = 0x22 || b = 0x5C || b = 0x2F then some b
  else if b = 0x62 then some 0x08
  else if b = 0x66 then some 0x0C
  else if b = 0x6E then some 0x0A
  else if b = 0x72 then some 0x0D
  else if b = 0x74 then some 0x09
  else none

/-- The bytes of a string after its opening quote, held in reverse in `done`. An
escaped surrogate has to be the first half of an escaped pair. -/
def stringAfter (done : Bytes) : Bytes → Except Fault (Bytes × Bytes)
  | [] => .error .truncated
  | 0x22 :: rest => .ok (done.reverse, rest)
  | 0x5C :: 0x75 :: a :: b :: c :: d :: rest =>
    match codeUnit? a b c d with
    | none => .error .malformed
    | some u =>
      if isTrailing u then .error .malformed
      else if isLeading u then
        match rest with
        | 0x5C :: 0x75 :: e :: f :: g :: h :: rest =>
          match codeUnit? e f g h with
          | some v =>
            if isTrailing v then
              stringAfter ((String.utf8EncodeChar (pairChar u v)).reverse ++ done) rest
            else .error .malformed
          | none => .error .malformed
        | [] | [0x5C] => .error .truncated
        | 0x5C :: 0x75 :: _ => .error .truncated
        | _ => .error .malformed
      else stringAfter ((String.utf8EncodeChar (Char.ofNat u)).reverse ++ done) rest
  | 0x5C :: 0x75 :: _ => .error .truncated
  | [0x5C] => .error .truncated
  | 0x5C :: b :: rest =>
    match plainEscape? b with
    | some e => stringAfter (e :: done) rest
    | none => .error .malformed
  | b :: rest => if b < 0x20 then .error .malformed else stringAfter (b :: done) rest

def textBody : Reader String := fun bs => do
  let (raw, rest) ← stringAfter [] bs
  match Bytes.text? raw with
  | some s => .ok (s, rest)
  | none => .error .malformed

def skipText : Bytes → Except Fault Bytes
  | [] => .error .truncated
  | 0x22 :: rest => .ok rest
  | 0x5C :: 0x75 :: a :: b :: c :: d :: rest =>
    if (codeUnit? a b c d).isSome then skipText rest else .error .malformed
  | 0x5C :: 0x75 :: _ => .error .truncated
  | [0x5C] => .error .truncated
  | 0x5C :: b :: rest => if (plainEscape? b).isSome then skipText rest else .error .malformed
  | b :: rest => if b < 0x20 then .error .malformed else skipText rest

structure Numeral where
  negative : Bool
  digits : Bytes
  fraction : Option Bytes
  exponent : Option (Bool × Bytes)

def digitRun (ended : Fault) (bs : Bytes) : Except Fault (Bytes × Bytes) :=
  match bs with
  | [] => .error ended
  | b :: _ => if isDigit b then .ok (bs.span isDigit) else .error .malformed

/-- A number after its sign; no digit may follow a leading zero. What it means that the
bytes end inside the number depends on whether anybody wants its value. -/
def numeral (ended : Fault) (negative : Bool) (bs : Bytes) : Except Fault (Numeral × Bytes) := do
  let (digits, rest) ← digitRun ended bs
  if digits.length > 1 && digits.head? = some 0x30 then .error .malformed
  else
    let (fraction, rest) ←
      match rest with
      | 0x2E :: rest => (digitRun ended rest).map fun (ds, rest) => (some ds, rest)
      | _ => .ok (none, rest)
    match rest with
    | e :: rest' =>
      if e = 0x65 || e = 0x45 then
        let (minus, rest') :=
          match rest' with
          | 0x2B :: more => (false, more)
          | 0x2D :: more => (true, more)
          | _ => (false, rest')
        let (ds, rest') ← digitRun ended rest'
        .ok (⟨negative, digits, fraction, some (minus, ds)⟩, rest')
      else .ok (⟨negative, digits, fraction, none⟩, rest)
    | [] => .ok (⟨negative, digits, fraction, none⟩, rest)

def digitsValue (ds : Bytes) : Nat := ds.foldl (fun n d => n * 10 + (d.toNat - 48)) 0

namespace Numeral

/-- The whole number that is written, unless it has a point, an exponent or a sign before
zero, or exceeds the sixty-four bits that whole numbers are read with. -/
def whole? (n : Numeral) : Option Int :=
  let v := digitsValue n.digits
  if n.fraction.isSome || n.exponent.isSome then none
  else if n.negative then
    if 0 < v && v ≤ UInt64.size / 2 then some (-(v : Int)) else none
  else if v < UInt64.size then some v
  else none

/-- Whether the number is beyond every floating-point number of sixty-four bits. Leading
zeros aside, more than 310 digits before the point are always too many. -/
def isHuge (n : Numeral) : Bool :=
  let places := (n.fraction.getD []).length
  let mantissa := digitsValue (n.digits ++ n.fraction.getD [])
  let (minus, e) : Bool × Nat :=
    match n.exponent with
    | some (minus, ds) => (minus, digitsValue ds)
    | none => (false, 0)
  if mantissa = 0 || minus then
    decide (mantissa ≥ 1 <<< 1024 * Nat.pow 10 (places + min e n.digits.length))
  else if e > 400 + places then true
  else decide (mantissa * Nat.pow 10 e ≥ (1 <<< 1024 - 1 <<< 970) * Nat.pow 10 places)

end Numeral

inductive Bracket where
  | square
  | curly
  deriving DecidableEq

def skipName (bs : Bytes) : Except Fault Bytes :=
  match skipSpace bs with
  | [] => .error .truncated
  | 0x22 :: rest => do
    let rest ← skipText rest
    match skipSpace rest with
    | [] => .error .truncated
    | 0x3A :: rest => .ok rest
    | _ => .error .malformed
  | _ => .error .malformed

def skipHead (bs : Bytes) : Except Fault (Option Bracket × Bytes) :=
  match skipSpace bs with
  | [] => .error .truncated
  | 0x6E :: rest => (literal literalNull rest).map (none, ·)
  | 0x74 :: rest => (literal literalTrue rest).map (none, ·)
  | 0x66 :: rest => (literal literalFalse rest).map (none, ·)
  | 0x22 :: rest => (skipText rest).map (none, ·)
  | 0x5B :: rest => .ok (some .square, rest)
  | 0x7B :: rest => .ok (some .curly, rest)
  | 0x2D :: rest => (numeral .malformed true rest).map fun r => (none, r.2)
  | b :: rest =>
    if isDigit b then (numeral .malformed false (b :: rest)).map fun r => (none, r.2)
    else .error .malformed

inductive Due where
  | value
  | next
  | first
  deriving DecidableEq

/-- Pass over values until all of the open brackets are closed. Every step takes a byte, so
as many steps as there are bytes are enough. -/
def skipOpen (fuel : Nat) (due : Due) (opened : List Bracket) (bs : Bytes) : Except Fault Bytes :=
  match fuel with
  | 0 => .error .truncated
  | fuel + 1 =>
    match due, opened with
    | .next, [] => .ok bs
    | .first, [] => .ok bs
    | .value, _ => do
      let (head, rest) ← skipHead bs
      match head with
      | none => skipOpen fuel .next opened rest
      | some b => skipOpen fuel .first (b :: opened) rest
    | due, b :: outer =>
      match skipSpace bs, b with
      | [], _ => .error .truncated
      | 0x5D :: rest, .square => skipOpen fuel .next outer rest
      | 0x7D :: rest, .curly => skipOpen fuel .next outer rest
      | c :: rest, b =>
        if due = .next then
          if c = 0x2C then
            match b with
            | .square => skipOpen fuel .value (b :: outer) rest
            | .curly => do skipOpen fuel .value (b :: outer) (← skipName rest)
          else .error .malformed
        else
          match b with
          | .square => skipOpen fuel .value (b :: outer) (c :: rest)
          | .curly => do skipOpen fuel .value (b :: outer) (← skipName (c :: rest))

def skipValue (bs : Bytes) : Except Fault Bytes := skipOpen (2 * bs.length + 2) .value [] bs

/-- The fault of a value that is not of the expected kind. Its text is read as far as its
kind shows, so bytes that are no JSON are told apart from JSON that does not fit. -/
def unfitValue (bs : Bytes) : Fault :=
  let faultOf {α : Type} (r : Except Fault α) : Fault :=
    match r with
    | .error e => e
    | .ok _ => .unfit
  let faultOfNumber (r : Except Fault (Numeral × Bytes)) : Fault :=
    match r with
    | .error e => e
    | .ok (n, _) => if n.isHuge then .malformed else .unfit
  match skipSpace bs with
  | [] => .truncated
  | 0x6E :: rest => faultOf (literal literalNull rest)
  | 0x74 :: rest => faultOf (literal literalTrue rest)
  | 0x66 :: rest => faultOf (literal literalFalse rest)
  | 0x22 :: rest => faultOf (textBody rest)
  | 0x5B :: _ | 0x7B :: _ => .unfit
  | 0x2D :: rest => faultOfNumber (numeral .truncated true rest)
  | b :: rest =>
    if isDigit b then faultOfNumber (numeral .truncated false (b :: rest)) else .malformed

def Reader.text : Reader Json := fun bs =>
  match skipSpace bs with
  | 0x22 :: rest => (textBody rest).map fun (s, rest) => (.text s, rest)
  | bs => .error (unfitValue bs)

def Reader.integer (low high : Int) : Reader Json := fun bs =>
  let accept (r : Except Fault (Numeral × Bytes)) : Except Fault (Json × Bytes) := do
    let (n, rest) ← r
    match n.whole? with
    | some v => if low ≤ v ∧ v ≤ high then .ok (.number v, rest) else .error .unfit
    | none => .error (if n.isHuge then .malformed else .unfit)
  match skipSpace bs with
  | 0x2D :: rest => accept (numeral .truncated true rest)
  | b :: rest =>
    if isDigit b then accept (numeral .truncated false (b :: rest))
    else .error (unfitValue (b :: rest))
  | [] => .error .truncated

def Reader.flag : Reader Json := fun bs =>
  match skipSpace bs with
  | 0x74 :: rest => (literal literalTrue rest).map (.flag true, ·)
  | 0x66 :: rest => (literal literalFalse rest).map (.flag false, ·)
  | bs => .error (unfitValue bs)

def Reader.optional (r : Reader Json) : Reader Json := fun bs =>
  match skipSpace bs with
  | 0x6E :: rest => (literal literalNull rest).map (.null, ·)
  | bs => r bs

/-- A member of a record: how its value is read, whether the member may be absent from an
object (it is null then), and whether it may be left out at the end of an array. -/
structure Field where
  name : String
  read : Reader Json
  mayBeAbsent : Bool
  mayBeLeftOut : Bool

def Field.required (name : String) (read : Reader Json) : Field := ⟨name, read, false, false⟩

/-- The members after the opening bracket, in any order. A member that is no field is passed
over; a field that comes twice does not fit. -/
def members (fields : List Field) (fuel : Nat) (isFirst : Bool) (got : List (String × Json))
    (bs : Bytes) : Except Fault (List (String × Json) × Bytes) :=
  match fuel with
  | 0 => .error .truncated
  | fuel + 1 =>
    let name (bs : Bytes) : Except Fault (List (String × Json) × Bytes) :=
      match skipSpace bs with
      | [] => .error .truncated
      | 0x22 :: rest => do
        let (key, rest) ← textBody rest
        let colon (bs : Bytes) : Except Fault Bytes :=
          match skipSpace bs with
          | [] => .error .truncated
          | 0x3A :: rest => .ok rest
          | _ => .error .malformed
        match fields.find? (·.name = key) with
        | some field =>
          if (got.lookup key).isSome then .error .unfit
          else
            let rest ← colon rest
            let (value, rest) ← field.read rest
            members fields fuel false ((key, value) :: got) rest
        | none =>
          let rest ← colon rest
          let rest ← skipValue rest
          members fields fuel false got rest
      | _ => .error .malformed
    match skipSpace bs with
    | [] => .error .truncated
    | 0x7D :: rest => .ok (got, rest)
    | 0x2C :: rest => if isFirst then .error .malformed else name rest
    | bs => if isFirst then name bs else .error .malformed

def inOrder (got : List (String × Json)) : List Field → Except Fault (List (String × Json))
  | [] => .ok []
  | field :: rest =>
    match got.lookup field.name with
    | some value => do return (field.name, value) :: (← inOrder got rest)
    | none =>
      if field.mayBeAbsent then do return (field.name, .null) :: (← inOrder got rest)
      else .error .unfit

def elements (isFirst : Bool) (bs : Bytes) :
    List Field → Except Fault (List (String × Json) × Bytes)
  | [] =>
    match skipSpace bs with
    | [] => .error .truncated
    | 0x5D :: rest => .ok ([], rest)
    | _ => .error .malformed
  | field :: more =>
    let element (bs : Bytes) : Except Fault (List (String × Json) × Bytes) := do
      let (value, rest) ← field.read bs
      let (others, rest) ← elements false rest more
      return ((field.name, value) :: others, rest)
    match skipSpace bs with
    | [] => .error .truncated
    | 0x5D :: rest =>
      if field.mayBeLeftOut then do
        let (others, rest) ← elements isFirst (0x5D :: rest) more
        return ((field.name, .null) :: others, rest)
      else .error .unfit
    | 0x2C :: rest =>
      if isFirst then element (0x2C :: rest)
      else
        match skipSpace rest with
        | [] => .error .truncated
        | 0x5D :: _ => .error .malformed
        | rest => element rest
    | bs => if isFirst then element bs else .error .malformed

def Reader.record (fields : List Field) : Reader Json := fun bs =>
  match skipSpace bs with
  | 0x7B :: rest => do
    let (got, rest) ← members fields (rest.length + 1) true [] rest
    return (.object (← inOrder got fields), rest)
  | 0x5B :: rest => do
    let (all, rest) ← elements true rest fields
    return (.object all, rest)
  | bs => .error (unfitValue bs)

end KeyService.Json
