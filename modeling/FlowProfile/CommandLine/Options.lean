/-
Options

The command line is a list of options in any order; there are no other arguments. A switch
stands alone, an option with a value has it after an equals sign or as the next argument.
Each may be given once, except for the one that asks for more messages. Short options may
share a dash. The reading stops at the first thing that is wrong, or that asks for the
version or for help instead.
-/

import FlowProfile.Text.Numeral

namespace FlowProfile

/-- What the command line asks for. -/
structure Options where
  profileCalls : Bool := false
  profileBranches : Bool := false
  profileAllocations : Bool := false
  forceCalls : Bool := false
  forceBranches : Bool := false
  forceAllocations : Bool := false
  reporterThreshold : Option Int64 := none
  applyFeedback : Bool := false
  threads : Nat := 4
  iterations : Nat := 100
  tripCount : Int64 := 16
  printCode : Bool := false
  dump : Option String := none
  activeOnly : Bool := false
  verbosity : Nat := 0
  deriving DecidableEq

namespace Options

/-- Why the reading of a command line stopped early. -/
inductive Stop
  | misuse
  | version
  | help
  deriving DecidableEq, Repr

/-- The options without a value. -/
inductive Switch
  | profileCalls
  | profileBranches
  | profileAllocations
  | forceCalls
  | forceBranches
  | forceAllocations
  | applyFeedback
  | printCode
  | activeOnly
  deriving DecidableEq

/-- The options with a value. -/
inductive Valued
  | reporterThreshold
  | threads
  | iterations
  | tripCount
  | dump
  deriving DecidableEq

/-- Everything an argument can ask for. -/
inductive Request
  | switch (switch : Switch)
  | valued (valued : Valued)
  | verbose
  | version
  | help
  deriving DecidableEq

/-- The requests by their long names. -/
def longNames : List (String × Request) :=
  [("profile-calls", .switch .profileCalls),
    ("profile-branches", .switch .profileBranches),
    ("profile-allocations", .switch .profileAllocations),
    ("force-calls", .switch .forceCalls),
    ("force-branches", .switch .forceBranches),
    ("force-allocations", .switch .forceAllocations),
    ("reporter-threshold", .valued .reporterThreshold),
    ("apply-pgo", .switch .applyFeedback),
    ("threads", .valued .threads),
    ("iterations", .valued .iterations),
    ("trip-count", .valued .tripCount),
    ("print-ir", .switch .printCode),
    ("dump", .valued .dump),
    ("active-only", .switch .activeOnly),
    ("verbose", .verbose),
    ("version", .version),
    ("help", .help)]

/-- The requests by their short names. -/
def shortNames : List (Char × Request) :=
  [('t', .valued .threads), ('i', .valued .iterations), ('v', .verbose), ('V', .version),
    ('h', .help)]

/-- The options read so far, and which of them must not be given again. -/
structure State where
  options : Options
  given : List Request

/-- Note that an option is given, unless it was given before. -/
def State.claim (state : State) (request : Request) : Except Stop State :=
  if state.given.contains request then .error .misuse
  else .ok { state with given := request :: state.given }

/-- Turn a switch on. -/
def setSwitch (options : Options) : Switch → Options
  | .profileCalls => { options with profileCalls := true }
  | .profileBranches => { options with profileBranches := true }
  | .profileAllocations => { options with profileAllocations := true }
  | .forceCalls => { options with forceCalls := true }
  | .forceBranches => { options with forceBranches := true }
  | .forceAllocations => { options with forceAllocations := true }
  | .applyFeedback => { options with applyFeedback := true }
  | .printCode => { options with printCode := true }
  | .activeOnly => { options with activeOnly := true }

/-- Give an option its value, if the value is one for it. -/
def setValue (options : Options) (value : String) : Valued → Option Options
  | .reporterThreshold =>
      (Text.word? value).map fun n => { options with reporterThreshold := some n }
  | .threads => (Text.count? value).map fun n => { options with threads := n }
  | .iterations => (Text.count? value).map fun n => { options with iterations := n }
  | .tripCount => (Text.word? value).map fun n => { options with tripCount := n }
  | .dump => if value = "" then none else some { options with dump := some value }

/-- Carry out a request that has no value. -/
def State.apply (state : State) : Request → Except Stop State
  | .switch switch =>
      (state.claim (.switch switch)).map fun state =>
        { state with options := setSwitch state.options switch }
  | .verbose =>
      .ok { state with options := { state.options with verbosity := state.options.verbosity + 1 } }
  | .version => .error .version
  | .help => .error .help
  | .valued _ => .error .misuse

/-- Carry out a request with its value. -/
def State.applyValue (state : State) (value : String) : Request → Except Stop State
  | .valued valued => do
      let state ← state.claim (.valued valued)
      match setValue state.options value valued with
      | some options => return { state with options }
      | none => throw .misuse
  | .switch _ | .verbose | .version | .help => .error .misuse

/-- What one argument amounts to: the options after it, or an option that still needs its
value. -/
inductive Reading
  | done (state : State)
  | wanting (state : State) (valued : Valued)

/-- Carry out a request, with the value if one is attached. -/
def State.take (state : State) (request : Request) (attached : Option String) :
    Except Stop Reading :=
  match request, attached with
  | .valued valued, none => .ok (.wanting state valued)
  | _, none => (state.apply request).map .done
  | _, some value => (state.applyValue value request).map .done

/-- Read an argument that begins with two dashes, given what follows them. -/
def State.readLong (state : State) (text : List Char) : Except Stop Reading :=
  let name := text.takeWhile (· ≠ '=')
  let attached :=
    match text.dropWhile (· ≠ '=') with
    | [] => none
    | _ :: value => some (String.ofList value)
  match longNames.lookup (String.ofList name) with
  | some request => state.take request attached
  | none => .error .misuse

/-- Read an argument that begins with one dash, given what follows it. What follows the
name of an option with a value is the value; an equals sign before it is left out. -/
def State.readShort (state : State) : List Char → Except Stop Reading
  | [] => .ok (.done state)
  | c :: rest =>
      match shortNames.lookup c with
      | none => .error .misuse
      | some (.valued valued) =>
          match rest with
          | [] => state.take (.valued valued) none
          | '=' :: value => state.take (.valued valued) (some (String.ofList value))
          | value => state.take (.valued valued) (some (String.ofList value))
      | some request =>
          match state.apply request with
          | .error stop => .error stop
          | .ok state => state.readShort rest

/-- Read one argument. -/
def State.readArgument (state : State) (argument : String) : Except Stop Reading :=
  match argument.toList with
  | '-' :: '-' :: name => state.readLong name
  | ['-'] => .error .misuse
  | '-' :: letters => state.readShort letters
  | _ => .error .misuse

/-- Whether an argument can be the value of the option before it. -/
def canBeValue (argument : String) : Bool :=
  argument == "-" || argument.toList.head? != some '-'

/-- Read the arguments in order. Two dashes alone end the options, and nothing may follow
them. -/
def State.readAll (state : State) : List String → Except Stop State
  | [] => .ok state
  | argument :: rest =>
      if argument = "--" then if rest.isEmpty then .ok state else .error .misuse
      else
        match state.readArgument argument with
        | .error stop => .error stop
        | .ok (.done state) => state.readAll rest
        | .ok (.wanting state valued) =>
            match rest with
            | [] => .error .misuse
            | value :: rest =>
                if canBeValue value then
                  match state.applyValue value (.valued valued) with
                  | .error stop => .error stop
                  | .ok state => state.readAll rest
                else .error .misuse

/-- The options of a command line. -/
def parse (arguments : List String) : Except Stop Options :=
  ((⟨{}, []⟩ : State).readAll arguments).map State.options

end Options

end FlowProfile
