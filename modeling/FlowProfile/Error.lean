/-
Errors

Everything that can go wrong, by cause, with the message of each cause. The causes that
break an agreement between the parties of a compilation are told apart from the others:
after one of them a function must not be compiled further.
-/

import FlowProfile.Func.Terminator

namespace FlowProfile

/-- What is wrong with a note that this library reads. -/
inductive NoteFault
  | notTuple (actual : Note.Kind)
  | wrongLength (expected actual : Nat)
  | tooShort (least actual : Nat)
  | flagNotBoolean (index : Nat) (actual : Note.Kind)
  | thresholdNotInteger (actual : Note.Kind)
  | callbackNotInteger (actual : Note.Kind)
  | argumentNotConstant (index : Nat) (actual : Note.Kind)
  deriving DecidableEq

namespace NoteFault

/-- The reason as it stands in a message. -/
def text : NoteFault → String
  | notTuple actual => "expected a tuple, got " ++ actual.text
  | wrongLength expected actual =>
      "expected " ++ toString expected ++ " entries, got " ++ toString actual
  | tooShort least actual =>
      "expected at least " ++ toString least ++ " entries, got " ++ toString actual
  | flagNotBoolean index actual =>
      "entry " ++ toString index ++ " must be a boolean constant, got " ++ actual.text
  | thresholdNotInteger actual => "threshold must be an integer, got " ++ actual.text
  | callbackNotInteger actual => "callback address must be an integer, got " ++ actual.text
  | argumentNotConstant index actual =>
      "argument " ++ toString index ++ " must be a constant, got " ++ actual.text

end NoteFault

/-- What is wrong with a function. -/
inductive Defect
  | noBlocks
  | entryTakesParameters
  | definedTwice (value : ValueId)
  | outOfRange (value : ValueId)
  | neverDefined (value : ValueId)
  | missingTarget (block target : BlockId)
  | branchToEntry (block : BlockId)
  | edgeArity (block target : BlockId) (args params : Nat)
  | noTerminator (block : BlockId)
  | appendedToTerminated (block : BlockId)
  | terminatedTwice (block : BlockId)
  | allocationWithoutSize (callee : String) (block : BlockId) (index : Nat)
  | reachedUnreachable (block : BlockId)
  deriving DecidableEq

namespace Defect

/-- The defect as it stands in a message, after the name of the function. -/
def text : Defect → String
  | noBlocks => " has no blocks"
  | entryTakesParameters => ": entry block takes parameters"
  | definedTwice value => ": " ++ ValueId.text value ++ " defined twice"
  | outOfRange value => ": " ++ ValueId.text value ++ " out of range"
  | neverDefined value => ": " ++ ValueId.text value ++ " used but never defined"
  | missingTarget block target =>
      ": " ++ BlockId.text block ++ " branches to missing " ++ BlockId.text target
  | branchToEntry block => ": " ++ BlockId.text block ++ " branches to the entry block"
  | edgeArity block target args params =>
      ": edge " ++ BlockId.text block ++ " -> " ++ BlockId.text target ++ " passes " ++
        toString args ++ " arguments to " ++ toString params ++ " parameters"
  | noTerminator block => ": block " ++ BlockId.text block ++ " has no terminator"
  | appendedToTerminated block =>
      ": instruction appended to terminated block " ++ BlockId.text block
  | terminatedTwice block => ": block " ++ BlockId.text block ++ " terminated twice"
  | allocationWithoutSize callee block index =>
      ": allocation call `" ++ callee ++ "` in " ++ BlockId.text block ++
        " has no size argument at index " ++ toString index
  | reachedUnreachable block => ": reached unreachable in " ++ BlockId.text block

end Defect

/-- What is wrong with the settings of the profiler. -/
inductive SettingsFault
  | emptySymbol
  | emptyFragment
  | notBoolean (name value : String)
  deriving DecidableEq

namespace SettingsFault

/-- The fault as it stands in a message. -/
def text : SettingsFault → String
  | emptySymbol => "empty pre-optimization allocation symbol"
  | emptyFragment =>
      "empty post-optimization allocator fragment would match every call"
  | notBoolean name value => name ++ ": expected a boolean, got `" ++ value ++ "`"

end SettingsFault

/-- The cause of a failure. `rejected` is an optimizer's refusal in its own words,
`outOfBounds` a block, an instruction or a slot that is not there, and `endless` a loop that
does not come to its end. -/
inductive Error
  | malformedNote (function key : String) (fault : NoteFault)
  | shapeMismatch (function : String) (slots blocks : Nat) (stage : Stage)
  | invalid (function : String) (defect : Defect)
  | rejected (reason : String)
  | unknownSymbol (name : String)
  | unknownAddress (code : UInt64)
  | undefinedValue (value : ValueId) (block : BlockId)
  | divisionByZero
  | stepLimitExceeded (limit : Nat)
  | functionArity (function : String) (expected actual : Nat)
  | blockArity (block : BlockId) (expected actual : Nat)
  | settings (fault : SettingsFault)
  | file
  | document
  | outOfBounds
  | endless
  deriving DecidableEq

namespace Error

/-- How many arguments something took and how many it got. -/
def arityText (target : String) (expected actual : Nat) : String :=
  "ExecError: " ++ target ++ " expects " ++ toString expected ++ " arguments, got " ++
    toString actual

/-- The message of a failure. -/
def message : Error → String
  | malformedNote function key fault =>
      "MalformedAnnotation: `" ++ key ++ "` on `" ++ function ++ "`: " ++ fault.text
  | shapeMismatch function slots blocks stage =>
      "ShapeMismatch: `" ++ function ++ "` has " ++ toString slots ++ " branch slots but " ++
        toString blocks ++ " blocks (" ++ stage.text ++ ")"
  | invalid function defect => "InvalidIr: `" ++ function ++ "`" ++ defect.text
  | rejected reason => "InvalidIr: " ++ reason
  | unknownSymbol name => "ExecError: unknown symbol `" ++ name ++ "`"
  | unknownAddress code =>
      "ExecError: unknown callee address 0x" ++ Text.hexadecimal code.toNat
  | undefinedValue value block =>
      "ExecError: " ++ ValueId.text value ++ " used before definition in " ++ BlockId.text block
  | divisionByZero => "ExecError: division by zero"
  | stepLimitExceeded limit => "ExecError: step limit of " ++ toString limit ++ " exceeded"
  | functionArity function expected actual => arityText ("@" ++ function) expected actual
  | blockArity block expected actual => arityText (BlockId.text block) expected actual
  | settings fault => "ConfigError: " ++ fault.text
  | file => "IOError: the file cannot be written"
  | document => "JsonError: the text is not such a document"
  | outOfBounds => "index out of bounds"
  | endless => "endless loop"

/-- Whether the failure breaks an agreement that the whole compilation relies on. -/
def isContractViolation : Error → Bool
  | malformedNote .. | shapeMismatch .. | invalid .. | rejected _ => true
  | _ => false

end Error

end FlowProfile
