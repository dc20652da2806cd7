import KeyService.Text.Blank

/-! Targets of requests.
A target is a path with an optional query, an absolute address, a bare authority, or
an asterisk. Only the path and the query matter to this service, but a target that
is broken anywhere is no target. -/
namespace KeyService.Http

structure Uri where
  path : String
  query : Option String
  deriving DecidableEq

namespace Uri

def maxBytes : Nat := 65534

/-- Characters of a path. Whatever is not ASCII may stand unescaped, and so may quotes and braces. -/
def isPathChar (c : Char) : Bool :=
  let n := c.toNat
  n == 0x21 || (0x24 ≤ n && n ≤ 0x3B) || n == 0x3D || (0x40 ≤ n && n ≤ 0x5F) ||
    0x61 ≤ n || c == '"'

def isQueryChar (c : Char) : Bool :=
  let n := c.toNat
  n == 0x21 || (0x24 ≤ n && n ≤ 0x3B) || n == 0x3D || 0x3F ≤ n

def isAuthorityChar (c : Char) : Bool :=
  c.isAlphanum || c ∈ ['!', '$', '&', '\'', '(', ')', '*', '+', ',', '-', '.', ':', ';', '=', '@',
    '[', ']', '_', '~']

def isSchemeChar (c : Char) : Bool := c.isAlphanum || c ∈ ['+', '-', '.', '~']

/-- What has been seen of an authority. Colons and percent signs count since the last sign that
makes what is in front of them a part of its own. -/
structure Seen where
  colons : Nat := 0
  opened : Bool := false
  closed : Bool := false
  percent : Bool := false
  atSign : Bool := false

namespace Seen

def step? (s : Seen) (c : Char) : Option Seen :=
  if c = ':' then
    if s.colons < 8 then some { s with colons := s.colons + 1, atSign := false } else none
  else if c = '[' then
    if s.percent || s.opened then none else some { s with opened := true, atSign := false }
  else if c = ']' then
    if !s.opened || s.closed then none
    else some { s with closed := true, colons := 0, percent := false, atSign := false }
  else if c = '@' then some { s with colons := 0, percent := false, atSign := true }
  else if c = '%' then some { s with percent := true, atSign := false }
  else if isAuthorityChar c then some { s with atSign := false }
  else none

/-- Whether an authority may end here: brackets are closed, a host has at most one colon and no
percent sign, and something follows an at sign. -/
def canEnd (s : Seen) : Bool :=
  s.opened == s.closed && s.colons ≤ 1 && !s.atSign && !s.percent

end Seen

def endsAuthority (c : Char) : Bool := c == '/' || c == '?' || c == '#'

def afterAuthority? (s : Seen) : List Char → Option (List Char)
  | [] => if s.canEnd then some [] else none
  | c :: rest =>
    if endsAuthority c then if s.canEnd then some (c :: rest) else none
    else
      match s.step? c with
      | some s => afterAuthority? s rest
      | none => none

def ofPath? (cs : List Char) : Option Uri :=
  let path := cs.takeWhile fun c => c ≠ '?' && c ≠ '#'
  if !path.all isPathChar then none
  else
    let whole := String.ofList (if path.isEmpty then ['/'] else path)
    match cs.dropWhile fun c => c ≠ '?' && c ≠ '#' with
    | '?' :: rest =>
      let query := rest.takeWhile (· ≠ '#')
      if query.all isQueryChar then some ⟨whole, some (String.ofList query)⟩ else none
    | _ => some ⟨whole, none⟩

/-- Whether a target starts with a scheme, and what follows its two slashes. The two schemes of
the web are known; any other one has at most 64 characters. -/
def afterScheme? (cs : List Char) : Option (Option (List Char)) :=
  if (cs.take 7).map Char.toLower = "http://".toList then some (some (cs.drop 7))
  else if (cs.take 8).map Char.toLower = "https://".toList then some (some (cs.drop 8))
  else
    let scheme := cs.takeWhile isSchemeChar
    match cs.dropWhile isSchemeChar with
    | ':' :: '/' :: '/' :: rest => if 64 < scheme.length then none else some (some rest)
    | _ => some none

def ofAuthority? (cs : List Char) : Option Uri :=
  match afterAuthority? {} cs with
  | some [] => some ⟨"", none⟩
  | _ => none

def ofAddress? (cs : List Char) : Option Uri :=
  match afterScheme? cs with
  | none => none
  | some none => ofAuthority? cs
  | some (some rest) =>
    match afterAuthority? {} rest with
    | some path => if path.length = rest.length then none else ofPath? path
    | none => none

def parse? (s : String) : Option Uri :=
  if maxBytes < s.utf8ByteSize then none
  else
    match s.toList with
    | [] => none
    | ['*'] => some ⟨"*", none⟩
    | '/' :: rest => ofPath? ('/' :: rest)
    | cs => if cs.length = 1 then ofAuthority? cs else ofAddress? cs

end Uri

end KeyService.Http
