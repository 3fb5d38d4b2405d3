/-
Quoted text

A text between quotation marks from which every character can be told: the mark itself,
the backslash and the common control characters have a short escape, and a character
without a visible form of its own is written by its number in hexadecimal.
-/

import FlowProfile.Text.Unprintable
import FlowProfile.Text.Extending

namespace FlowProfile.Text

/-- A number in lower-case hexadecimal, without leading zeros. -/
def hexadecimal (n : Nat) : String :=
  String.ofList (Nat.toDigits 16 n)

/-- The name of a character's number, as it stands inside quotation marks. -/
def numbered (c : Char) : List Char :=
  '\\' :: 'u' :: '\x7b' :: Nat.toDigits 16 c.toNat ++ ['\x7d']

/-- One character of a quoted text. A single quotation mark needs no escape here. -/
def escaped (c : Char) : List Char :=
  if c = '\x00' then ['\\', '0']
  else if c = '\t' then ['\\', 't']
  else if c = '\n' then ['\\', 'n']
  else if c = '\r' then ['\\', 'r']
  else if c = '"' then ['\\', '"']
  else if c = '\\' then ['\\', '\\']
  else if isExtending c || isUnprintable c then numbered c
  else [c]

/-- A text between quotation marks. -/
def quoted (text : String) : String :=
  String.ofList ('"' :: text.toList.flatMap escaped ++ ['"'])

end FlowProfile.Text
