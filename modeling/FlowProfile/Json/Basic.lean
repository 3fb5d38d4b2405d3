/-
JSON values and their compact text

A number written with digits alone is a natural number; any other number is kept as it is
written. A text is missing when it was written with half of a surrogate pair, which is
allowed syntax but denotes no text. The compact form has no blanks, and escapes only what
must be escaped.
-/

import FlowProfile.Text.Quoted

namespace FlowProfile

/-- A JSON value. Fields of an object stay in the order in which they are written. -/
inductive Json
  | null
  | bool (value : Bool)
  | nat (value : Nat)
  | number (written : String)
  | str (text : Option String)
  | arr (items : List Json)
  | obj (fields : List (Option String × Json))
  deriving Inhabited

namespace Json

/-- The two lower-case hexadecimal digits of a number below 256. -/
def twoDigits (n : Nat) : List Char :=
  [Nat.digitChar (n / 16), Nat.digitChar (n % 16)]

/-- One character between quotation marks. -/
def escaped (c : Char) : List Char :=
  if c = '"' then ['\\', '"']
  else if c = '\\' then ['\\', '\\']
  else if c = '\x08' then ['\\', 'b']
  else if c = '\t' then ['\\', 't']
  else if c = '\n' then ['\\', 'n']
  else if c = '\x0c' then ['\\', 'f']
  else if c = '\r' then ['\\', 'r']
  else if c.toNat < 0x20 then '\\' :: 'u' :: '0' :: '0' :: twoDigits c.toNat
  else [c]

/-- A text between quotation marks. -/
def quote (text : String) : List Char :=
  '"' :: text.toList.flatMap escaped ++ ['"']

/-- A text that may be missing. What stands for a missing one denotes no text either. -/
def quote? : Option String → List Char
  | some text => quote text
  | none => ['"', '\\', 'u', 'd', '8', '0', '0', '"']

mutual

/-- The compact text of a value, as characters. -/
def chars : Json → List Char
  | null => ['n', 'u', 'l', 'l']
  | bool true => ['t', 'r', 'u', 'e']
  | bool false => ['f', 'a', 'l', 's', 'e']
  | nat value => Nat.toDigits 10 value
  | number written => written.toList
  | str text => quote? text
  | arr [] => ['[', ']']
  | arr (item :: rest) => '[' :: chars item ++ itemsTail rest
  | obj [] => ['\x7b', '\x7d']
  | obj ((key, value) :: rest) => '\x7b' :: quote? key ++ ':' :: chars value ++ fieldsTail rest

/-- The items of an array after the first one, and its end. -/
def itemsTail : List Json → List Char
  | [] => [']']
  | item :: rest => ',' :: chars item ++ itemsTail rest

/-- The fields of an object after the first one, and its end. -/
def fieldsTail : List (Option String × Json) → List Char
  | [] => ['\x7d']
  | (key, value) :: rest => ',' :: quote? key ++ ':' :: chars value ++ fieldsTail rest

end

/-- The compact text of a value. -/
def text (json : Json) : String :=
  String.ofList json.chars

end Json

end FlowProfile
