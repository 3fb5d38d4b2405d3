/-
Terminators

How a block ends: by returning, by a jump, by a branch on a condition, or not at all. An
edge carries the arguments for the parameters of the block it leads to. A branch may
carry weights, the observed frequencies of its two edges; they never change what runs.
-/

import FlowProfile.Func.Instr

namespace FlowProfile

/-- A way out of a block: where it leads, and the arguments it passes. -/
structure Edge where
  target : BlockId
  args : List Operand
  deriving DecidableEq

/-- The written form of an edge. -/
def Edge.text (edge : Edge) : String :=
  BlockId.text edge.target ++ "(" ++ Operand.texts edge.args ++ ")"

/-- How often each edge of a branch is followed, relative to the other. -/
structure Weights where
  taken : UInt64
  notTaken : UInt64
  deriving DecidableEq

/-- The written form of weights. -/
def Weights.text (weights : Weights) : String :=
  "!branch_weights(" ++ toString weights.taken.toNat ++ ", " ++
    toString weights.notTaken.toNat ++ ")"

/-- The end of a block. -/
inductive Terminator
  | ret (value : Option Operand)
  | jump (edge : Edge)
  | branch (condition : Operand) (whenTrue whenFalse : Edge) (weights : Option Weights)
  | unreachable
  deriving DecidableEq

namespace Terminator

/-- The ways out, in order. -/
def edges : Terminator → List Edge
  | ret _ | unreachable => []
  | jump edge => [edge]
  | branch _ whenTrue whenFalse _ => [whenTrue, whenFalse]

/-- The blocks the ways out lead to, in order. -/
def successors (terminator : Terminator) : List BlockId :=
  terminator.edges.map Edge.target

/-- What the terminator reads, in order. -/
def operands : Terminator → List Operand
  | ret value => value.toList
  | jump edge => edge.args
  | branch condition whenTrue whenFalse _ => condition :: (whenTrue.args ++ whenFalse.args)
  | unreachable => []

/-- The condition of a branch that is decided only when the function runs. -/
def runtimeCondition? : Terminator → Option Operand
  | branch condition _ _ _ => if condition.isConst then none else some condition
  | ret _ | jump _ | unreachable => none

/-- Give a branch new weights. Other terminators have none. -/
def withWeights (weights : Weights) : Terminator → Terminator
  | branch condition whenTrue whenFalse _ => branch condition whenTrue whenFalse (some weights)
  | other => other

/-- Whether the block ends in a branch, on whatever condition. -/
def isBranch : Terminator → Bool
  | branch .. => true
  | ret _ | jump _ | unreachable => false

/-- The written form of a terminator. -/
def text : Terminator → String
  | ret (some value) => "ret " ++ value.text
  | ret none => "ret"
  | jump edge => "br " ++ edge.text
  | branch condition whenTrue whenFalse weights =>
      "condbr " ++ condition.text ++ ", " ++ whenTrue.text ++ ", " ++ whenFalse.text ++
        match weights with
        | some weights => " " ++ weights.text
        | none => ""
  | unreachable => "unreachable"

end Terminator

end FlowProfile
