import KeyService.Text.Blank

/-! Patterns of paths.
In a pattern a colon and a name stand for the rest of a segment, and an asterisk and a
name for the rest of the path; either stands for at least one character. Where two
patterns fit one path, the one is taken that is literal where they first differ. Two
patterns for which this does not decide cannot be in use together. -/
namespace KeyService.Http

inductive Token where
  | literal (c : Char)
  | segment
  | rest
  deriving DecidableEq, Repr

abbrev Pattern := List Token

namespace Pattern

/-- The tokens of a pattern. Names have at least one character and no signs in them; what stands
for the rest of a path is behind a slash and comes last. -/
def tokens? (last : Char) : List Char → Option Pattern
  | [] => some []
  | c :: cs =>
    if c = ':' then name? .segment 0 cs
    else if c = '*' then if last = '/' then name? .rest 0 cs else none
    else (tokens? c cs).map (.literal c :: ·)
where
  name? (token : Token) (seen : Nat) : List Char → Option Pattern
    | [] => if seen = 0 then none else some [token]
    | c :: cs =>
      if c = '/' then
        if seen = 0 || token = .rest then none
        else (tokens? '/' cs).map fun more => token :: .literal '/' :: more
      else if c = ':' || c = '*' then none
      else name? token (seen + 1) cs

/-- The names of a pattern are counted by letters, and the last letter is not used. -/
def maxNames : Nat := 25

def parse? (s : String) : Option Pattern :=
  match s.toList with
  | '/' :: cs => ((tokens? '/' cs).map (.literal '/' :: ·)).filter (·.count .segment ≤ maxNames)
  | _ => none

def fits : Pattern → List Char → Bool
  | [], path => path.isEmpty
  | .literal c :: more, path =>
    match path with
    | [] => false
    | d :: path => c = d && fits more path
  | .segment :: more, path =>
    !(path.takeWhile (· ≠ '/')).isEmpty && fits more (path.dropWhile (· ≠ '/'))
  | .rest :: _, path => !path.isEmpty

def precedes : Pattern → Pattern → Bool
  | .literal c :: a, .literal d :: b => c = d && precedes a b
  | .segment :: a, .segment :: b => precedes a b
  | .literal _ :: _, .segment :: _ | .literal _ :: _, .rest :: _ => true
  | _, _ => false

/-- Whether no order is given between two patterns that some path fits both. -/
def clashes : Pattern → Pattern → Bool
  | .literal c :: a, .literal d :: b => c = d && clashes a b
  | .segment :: a, .segment :: b => clashes a b
  | .segment :: _, .rest :: _ | .rest :: _, .segment :: _ | .rest :: _, .rest :: _ => true
  | [], [] => true
  | _, _ => false

end Pattern

end KeyService.Http
