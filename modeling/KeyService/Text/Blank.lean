/-! White space and letter case.
White space is the Unicode property of that name. Letter case is a matter of the
twenty-six ASCII letters only: names and headers are compared that way. -/
namespace KeyService.Text

def isBlank (c : Char) : Bool :=
  let n := c.toNat
  (9 ≤ n && n ≤ 13) || n == 0x20 || n == 0x85 || n == 0xA0 || n == 0x1680 ||
    (0x2000 ≤ n && n ≤ 0x200A) || n == 0x2028 || n == 0x2029 || n == 0x202F ||
    n == 0x205F || n == 0x3000

def trim (s : String) : String :=
  String.ofList ((s.toList.dropWhile isBlank).reverse.dropWhile isBlank).reverse

def upper (s : String) : String := String.ofList (s.toList.map Char.toUpper)

def lower (s : String) : String := String.ofList (s.toList.map Char.toLower)

def sameLetters (a b : String) : Bool := upper a == upper b

def pieces (sep : Char) (s : String) : List String := (s.toList.splitOn sep).map String.ofList

def startsWith (s start : String) : Bool := start.toList.isPrefixOf s.toList

def after? (s start : String) : Option String :=
  if startsWith s start then some (String.ofList (s.toList.drop start.toList.length)) else none

def cut? (sep : Char) (s : String) : Option (String × String) :=
  let head := s.toList.takeWhile (· ≠ sep)
  match s.toList.dropWhile (· ≠ sep) with
  | [] => none
  | _ :: rest => some (String.ofList head, String.ofList rest)

end KeyService.Text
