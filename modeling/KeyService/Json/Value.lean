import KeyService.Bytes

/-! The JSON values that the documents of this service are made of, and their
two written forms. Members are written in the order in which they are listed. A
string is written raw except for the quote, the backslash and the control
characters, so every string has one written form. -/
namespace KeyService

inductive Json where
  | null
  | flag (value : Bool)
  | number (value : Int)
  | text (value : String)
  | object (members : List (String × Json))

namespace Json

def escape (c : Char) : List Char :=
  if c = '"' then ['\\', '"']
  else if c = '\\' then ['\\', '\\']
  else if c.toNat = 8 then ['\\', 'b']
  else if c.toNat = 9 then ['\\', 't']
  else if c.toNat = 10 then ['\\', 'n']
  else if c.toNat = 12 then ['\\', 'f']
  else if c.toNat = 13 then ['\\', 'r']
  else if c.toNat < 32 then
    ['\\', 'u', '0', '0', Bytes.hexDigit (c.toNat / 16), Bytes.hexDigit (c.toNat % 16)]
  else [c]

def quote (s : String) : List Char := '"' :: (s.toList.flatMap escape ++ ['"'])

inductive Layout where
  | compact
  | indented (depth : Nat)
  deriving DecidableEq

namespace Layout

def inner : Layout → Layout
  | compact => compact
  | indented d => indented (d + 1)

def lineBreak : Layout → List Char
  | compact => []
  | indented d => '\n' :: List.replicate (2 * d) ' '

def space : Layout → List Char
  | compact => []
  | indented _ => [' ']

end Layout

mutual

def chars (layout : Layout) : Json → List Char
  | .null => "null".toList
  | .flag true => "true".toList
  | .flag false => "false".toList
  | .number n => (toString n).toList
  | .text s => quote s
  | .object [] => "{}".toList
  | .object ((k, v) :: rest) =>
    '{' :: layout.inner.lineBreak ++ (quote k ++ ':' :: layout.inner.space ++ chars layout.inner v)
      ++ moreMembers layout rest

def moreMembers (layout : Layout) : List (String × Json) → List Char
  | [] => layout.lineBreak ++ ['}']
  | (k, v) :: rest =>
    ',' :: layout.inner.lineBreak ++ (quote k ++ ':' :: layout.inner.space ++ chars layout.inner v)
      ++ moreMembers layout rest

end

def print (v : Json) : String := String.ofList (chars .compact v)

def pretty (v : Json) : String := String.ofList (chars (.indented 0) v)

def optionalMember (name : String) (value : Option Json) : List (String × Json) :=
  match value with
  | some v => [(name, v)]
  | none => []

end Json

end KeyService
