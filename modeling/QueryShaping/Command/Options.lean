/-!
# The command line

The command has one subcommand, `compile`, with options for the input, the output and the layout.
Before the subcommand stands at most a switch for verbose messages, which a variable of the
environment can also set.

## What this module delivers

- `Invocation.ofArgs`: what a list of arguments asks for. The arguments are looked at one by one, and
  the first that has no meaning where it stands refuses the whole.
-/

set_option autoImplicit false

namespace QueryShaping

/-- The options of the subcommand. -/
structure Options where
  input : Option String
  output : Option String
  pretty : Bool
  deriving DecidableEq, Repr

/-- What the arguments ask for. -/
inductive Invocation where
  | refused
  | version
  | help
  | compile (verbose : Bool) (options : Options)
  deriving DecidableEq, Repr

/-! ## Options of the subcommand -/

namespace Options

/-- The options before any argument. -/
def initial : Options := ⟨none, none, false⟩

/-- What the arguments of the subcommand ask for. -/
inductive Outcome where
  | refused
  | help
  | done (options : Options)
  deriving DecidableEq, Repr

/-- Whether an argument looks like an option, and so is no value of the option before it. -/
def looksLikeOption (arg : String) : Bool := arg.startsWith "-" && arg != "-"

/-- Sets the input, once and to a path that is not empty. -/
def setInput (o : Options) (path : String) : Option Options :=
  if o.input.isSome || path.isEmpty then none else some { o with input := some path }

/-- Sets the output, once and to a path that is not empty. -/
def setOutput (o : Options) (path : String) : Option Options :=
  if o.output.isSome || path.isEmpty then none else some { o with output := some path }

/-- Asks for the pretty layout, once. -/
def setPretty (o : Options) : Option Options :=
  if o.pretty then none else some { o with pretty := true }

/-- How an argument is read. -/
inductive Step where
  /-- It sets an option, unless that option refuses it. -/
  | sets (after : Option Options)
  /-- Its option takes the next argument as value. -/
  | takesNext (set : String → Option Options)
  | help
  /-- No options follow. -/
  | last
  | unknown

/-- The rest of an argument after what it starts with. -/
def after? (start : List Char) (arg : String) : Option String :=
  if start.isPrefixOf arg.toList then some (String.ofList (arg.toList.drop start.length))
  else none

/-- The value that is attached to a short option; an equals sign before it is left out. -/
def attached (value : String) : String :=
  match value.toList with
  | '=' :: rest => String.ofList rest
  | _ => value

/-- Reads an argument that starts with one dash. -/
def readShort (o : Options) : List Char → Step
  | 'i' :: [] => .takesNext o.setInput
  | 'i' :: value => .sets (o.setInput (attached (String.ofList value)))
  | 'o' :: [] => .takesNext o.setOutput
  | 'o' :: value => .sets (o.setOutput (attached (String.ofList value)))
  | 'h' :: _ => .help
  | _ => .unknown

/-- Reads an argument that starts with two dashes. -/
def readLong (o : Options) (name : String) : Step :=
  if name = "" then .last
  else if name = "help" then .help
  else if name = "pretty" then .sets o.setPretty
  else if name = "input" then .takesNext o.setInput
  else if name = "output" then .takesNext o.setOutput
  else
    match after? ['i', 'n', 'p', 'u', 't', '='] name,
        after? ['o', 'u', 't', 'p', 'u', 't', '='] name with
    | some value, _ => .sets (o.setInput value)
    | none, some value => .sets (o.setOutput value)
    | none, none => .unknown

/-- Reads an argument. -/
def readArg (o : Options) (arg : String) : Step :=
  match arg.toList with
  | '-' :: '-' :: name => readLong o (String.ofList name)
  | '-' :: letters => readShort o letters
  | _ => .unknown

/-- Reads the arguments of the subcommand. -/
def ofArgs (o : Options) : List String → Outcome
  | [] => .done o
  | [arg] =>
    match o.readArg arg with
    | .sets (some o) => .done o
    | .help => .help
    | .last => .done o
    | _ => .refused
  | arg :: next :: rest =>
    match o.readArg arg with
    | .sets (some o) => ofArgs o (next :: rest)
    | .takesNext set =>
      if looksLikeOption next then .refused
      else
        match set next with
        | some o => ofArgs o rest
        | none => .refused
    | .help => .help
    | _ => .refused

end Options

/-! ## Arguments -/

namespace Invocation

/-- The value of the variable of the environment; `none` where it is neither true nor false. -/
def verboseOf? : Option String → Option Bool
  | none => some false
  | some value =>
    if value = "true" then some true
    else if value = "false" then some false
    else none

/-- The subcommand with its arguments. The variable counts only where the switch is not given. -/
def ofSubcommand (setting : Option String) (switched : Bool) (args : List String) : Invocation :=
  match Options.ofArgs .initial args with
  | .refused => .refused
  | .help => .help
  | .done options =>
    match if switched then some true else verboseOf? setting with
    | some verbose => .compile verbose options
    | none => .refused

/-- The letters after one dash: switches, until one asks for the version or for help. The result
tells whether the verbose switch is set now, or what is asked for. -/
def readSwitches (switched : Bool) : List Char → Except Invocation Bool
  | [] => .ok switched
  | 'v' :: rest => if switched then .error .refused else readSwitches true rest
  | 'V' :: _ => .error .version
  | 'h' :: _ => .error .help
  | _ => .error .refused

/-- An argument before the subcommand that is no subcommand. -/
def readSwitch (switched : Bool) (arg : String) : Except Invocation Bool :=
  if arg = "--verbose" then if switched then .error .refused else .ok true
  else if arg = "--version" then .error .version
  else if arg = "--help" then .error .help
  else
    match arg.toList with
    | '-' :: c :: rest => readSwitches switched (c :: rest)
    | _ => .error .refused

/-- The subcommand that gives help, on the command or on a subcommand. -/
def ofHelp : List String → Invocation
  | [] => .help
  | topic :: _ => if topic = "compile" ∨ topic = "help" then .help else .refused

/-- Reads the arguments from the place before the subcommand on. -/
def ofArgsFrom (setting : Option String) (switched : Bool) : List String → Invocation
  | [] => .refused
  | arg :: rest =>
    if arg = "compile" then ofSubcommand setting switched rest
    else if arg = "help" then ofHelp rest
    else
      match readSwitch switched arg with
      | .ok switched => ofArgsFrom setting switched rest
      | .error invocation => invocation

/-- What the arguments of the command ask for, given the variable of the environment. -/
def ofArgs (setting : Option String) (args : List String) : Invocation :=
  ofArgsFrom setting false args

end Invocation

end QueryShaping
