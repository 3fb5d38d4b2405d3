/-
Frames

The private state of one run of a function: the values defined so far, the block that is
being executed, and what is left of its instructions. Reading a value that was not
defined on the way is an error, and so is writing one that the function never gave out.
-/

import FlowProfile.Error
import FlowProfile.Func.Basic

namespace FlowProfile

/-- The state of one run. -/
structure Frame where
  values : Array (Option Int64)
  block : BlockId
  rest : List Instr

namespace Frame

/-- The value of an operand. -/
def read (frame : Frame) : Operand → Except Error Int64
  | .const constant => .ok constant.value
  | .value id =>
      match frame.values.getD id none with
      | some value => .ok value
      | none => .error (.undefinedValue id frame.block)

/-- The values of operands, in order. -/
def readAll (frame : Frame) : List Operand → Except Error (List Int64)
  | [] => .ok []
  | operand :: rest =>
      match frame.read operand with
      | .error error => .error error
      | .ok value => (frame.readAll rest).map (value :: ·)

/-- Define a value. -/
def write : Frame → ValueId → Int64 → Except Error Frame
  | ⟨values, block, rest⟩, id, value =>
      if id < values.size then .ok ⟨values.setIfInBounds id (some value), block, rest⟩
      else .error (.undefinedValue id block)

/-- Define values in order. -/
def writeAll (frame : Frame) : List (ValueId × Int64) → Except Error Frame
  | [] => .ok frame
  | (id, value) :: rest =>
      match frame.write id value with
      | .error error => .error error
      | .ok frame => frame.writeAll rest

/-- Define the result of an instruction, if it has one. -/
def writeResult (frame : Frame) (result : Option ValueId) (value : Int64) :
    Except Error Frame :=
  match result with
  | some id => frame.write id value
  | none => .ok frame

/-- The frame at the beginning of a run: the arguments are bound to the parameters. -/
def start (f : Func) (args : List Int64) : Except Error Frame :=
  if f.params.length ≠ args.length then
    .error (.functionArity f.name f.params.length args.length)
  else
    match (⟨Array.replicate f.nextValue none, Func.entry, []⟩ : Frame).writeAll
        (f.params.zip args) with
    | .error error => .error error
    | .ok frame =>
        match f.block? Func.entry with
        | none => .error .outOfBounds
        | some block => .ok { frame with rest := block.instrs }

/-- The frame after an edge: its arguments are bound to the parameters of its target. -/
def follow (f : Func) (frame : Frame) (edge : Edge) : Except Error Frame :=
  match f.block? edge.target with
  | none => .error .outOfBounds
  | some block =>
      if block.params.length ≠ edge.args.length then
        .error (.blockArity edge.target block.params.length edge.args.length)
      else
        match frame.readAll edge.args with
        | .error error => .error error
        | .ok incoming =>
            match frame.writeAll (block.params.zip incoming) with
            | .error error => .error error
            | .ok frame => .ok { frame with block := edge.target, rest := block.instrs }

/-- The edge that a branch takes: the first one unless the condition is zero. -/
def chooses (frame : Frame) (condition : Operand) (whenTrue whenFalse : Edge) :
    Except Error Edge :=
  (frame.read condition).map fun value => if value ≠ 0 then whenTrue else whenFalse

/-- What happens at the end of a block: the run goes on in another, or ends. -/
def finishBlock (f : Func) (frame : Frame) : Terminator → Except Error (Frame ⊕ Option Int64)
  | .ret none => .ok (.inr none)
  | .ret (some operand) => (frame.read operand).map fun value => .inr (some value)
  | .jump edge => (frame.follow f edge).map .inl
  | .branch condition whenTrue whenFalse _ =>
      match frame.chooses condition whenTrue whenFalse with
      | .error error => .error error
      | .ok edge => (frame.follow f edge).map .inl
  | .unreachable => .error (.invalid f.name (.reachedUnreachable frame.block))

end Frame

end FlowProfile
