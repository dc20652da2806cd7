import KeyService.Text.Blank

/-! Types of content.
A type is two names with a slash between them, and after it parameters, each behind a
semicolon. The second name may end in a plus sign and a suffix, which tells the format
in which the content is written. -/
namespace KeyService.Http

structure MediaType where
  main : String
  sub : String
  suffix : Option String
  deriving DecidableEq, Repr

namespace MediaType

def isNameChar (c : Char) : Bool :=
  c.isAlphanum || c ∈ ['!', '#', '$', '%', '&', '\'', '*', '+', '-', '.', '^', '_', '\x60', '|', '~']

def isQuotedChar (c : Char) : Bool := 31 < c.toNat && c.toNat ≠ 127

inductive Due where
  | parameter
  | name
  | value
  | more
  /-- The first character between quotes, which does not close them. -/
  | quoted
  | closing
  | done

def checkParameters : Due → List Char → Bool
  | .parameter, [] | .value, [] | .more, [] | .done, [] => true
  | .name, [] | .quoted, [] | .closing, [] => false
  | .parameter, c :: rest =>
    if c = ' ' then checkParameters .parameter rest
    else isNameChar c && checkParameters .name rest
  | .name, c :: rest =>
    if c = '=' then checkParameters .value rest else isNameChar c && checkParameters .name rest
  | .value, c :: rest =>
    if c = '"' then checkParameters .quoted rest else isNameChar c && checkParameters .more rest
  | .more, c :: rest =>
    if c = ';' then checkParameters .parameter rest
    else isNameChar c && checkParameters .more rest
  | .quoted, c :: rest => isQuotedChar c && checkParameters .closing rest
  | .closing, c :: rest =>
    if c = '"' then checkParameters .done rest
    else isQuotedChar c && checkParameters .closing rest
  | .done, c :: rest =>
    if c = ';' then checkParameters .parameter rest else c = ' ' && checkParameters .done rest

/-- A second name with its suffix. A plus sign at the very front starts no suffix. -/
def splitSuffix (cs : List Char) : String × Option String :=
  let back := cs.reverse
  let suffix := (back.takeWhile (· ≠ '+')).reverse
  match (back.dropWhile (· ≠ '+')).drop 1 with
  | [] => (String.ofList cs, none)
  | name => (String.ofList name.reverse, some (String.ofList suffix))

def parse? (s : String) : Option MediaType := do
  let cs := (Text.lower s).toList
  let main := cs.takeWhile isNameChar
  match cs.dropWhile isNameChar with
  | '/' :: rest =>
    let sub := rest.takeWhile isNameChar
    let ended : Bool := match rest.dropWhile isNameChar with
      | [] => true
      | ';' :: parameters => sub ≠ [] && checkParameters .parameter parameters
      | _ => false
    guard (main ≠ [] ∧ ended)
    let (name, suffix) := splitSuffix sub
    return ⟨String.ofList main, name, suffix⟩
  | _ => none

def isJson (t : MediaType) : Bool :=
  t.main = "application" && (t.sub = "json" || t.suffix = some "json")

end MediaType

end KeyService.Http
