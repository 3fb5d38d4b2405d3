/-
The text of a function

A function is printed line by line: its head with the parameters and, if known, how often
it is entered; its notes in the order of their keys; its blocks in layout order,
each with a label, its parameters, its instructions and its end.
-/

import FlowProfile.Func.Basic

namespace FlowProfile

/-- The written form of a list of parameters. -/
def ValueId.texts (params : List ValueId) : String :=
  Text.separated (params.map ValueId.text)

/-- The lines of one block. -/
def Block.lines (label : Counter → String) (id : BlockId) (block : Block) : List String :=
  (block.name.getD "bb" ++ "." ++ toString id ++ "(" ++ ValueId.texts block.params ++ "):") ::
    (block.instrs.map fun instr => "  " ++ instr.text label) ++
      ["  " ++ block.terminator.text]

namespace Func

/-- The first line of a function. -/
def headLine (f : Func) : String :=
  "fn @" ++ f.name ++ "(" ++ ValueId.texts f.params ++ ")" ++
    (match f.entryCount with
      | some count => " !function_entry_count(" ++ toString count.toNat ++ ")"
      | none => "") ++
    " \x7b"

/-- The line of one note. -/
def noteLine (entry : String × Note) : String :=
  "  !" ++ entry.1 ++ " = " ++ entry.2.text

/-- All lines of a function. Counters appear under the given labels. -/
def lines (label : Counter → String) (f : Func) : List String :=
  f.headLine :: f.notes.entries.map noteLine ++
    (f.blocks.toList.zipIdx.flatMap fun (block, id) => block.lines label id) ++ ["\x7d"]

/-- The text of a function: its lines, each with a line end. -/
def text (label : Counter → String) (f : Func) : String :=
  Text.lines (f.lines label)

end Func

end FlowProfile
