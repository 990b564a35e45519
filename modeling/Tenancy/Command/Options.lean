/-!
# Options on a command line

Options are read from left to right. A long option is written `--name`, a short one `-n`; short ones
may share one dash. An option with a value takes it from behind an equals sign, from the rest of the
short options, or from the next argument if that does not look like an option. After `--` nothing is
an option any more.
-/

set_option autoImplicit false

namespace Tenancy.Command

/-- What an option takes. -/
inductive Arity where
  /-- Nothing, and it may be given once. -/
  | switch
  /-- Nothing, and it may be repeated. -/
  | count
  /-- A value that is acceptable; the option may be given once. -/
  | value (accepts : String → Bool)

/-- An option that a command knows. -/
structure OptionSpec where
  long : String
  short : Option Char
  arity : Arity

/-- Why arguments do not make up a command. -/
inductive UsageError where
  /-- The user asked for help. -/
  | help
  /-- The user asked for the version. -/
  | version
  /-- There are no arguments at all. -/
  | nothing
  | invalid (message : String)
  deriving DecidableEq, Repr, Inhabited

/-- The arguments that were read. -/
structure Arguments where
  /-- Options by their long names, with their values. -/
  options : List (String × String)
  operands : List String
  deriving DecidableEq, Repr, Inhabited

namespace Arguments

/-- Nothing has been read. -/
def empty : Arguments := ⟨[], []⟩

/-- Whether an option was given. -/
def has (a : Arguments) (long : String) : Bool := a.options.any fun o => o.1 = long

/-- The value of an option. -/
def value? (a : Arguments) (long : String) : Option String :=
  (a.options.find? fun o => o.1 = long).map Prod.snd

/-- How often an option was given. -/
def count (a : Arguments) (long : String) : Nat := a.options.countP fun o => o.1 = long

end Arguments

/-- What a command accepts. -/
structure ArgumentSpec where
  options : List OptionSpec
  /-- The most operands, and which of them are acceptable. -/
  operands : Nat
  acceptsOperand : String → Bool

namespace ArgumentSpec

/-- The error for an argument that is out of place. -/
def unexpected (argument : String) : UsageError :=
  .invalid s!"unexpected argument '{argument}' found"

/-- Adds an option. -/
def addOption (a : Arguments) (o : OptionSpec) (value : String) : Except UsageError Arguments :=
  let added : Arguments := { a with options := a.options ++ [(o.long, value)] }
  match o.arity with
  | .count => .ok added
  | .switch =>
    if a.has o.long then
      .error (.invalid s!"the argument '--{o.long}' cannot be used multiple times")
    else .ok added
  | .value accepts =>
    if a.has o.long then
      .error (.invalid s!"the argument '--{o.long}' cannot be used multiple times")
    else if accepts value then .ok added
    else .error (.invalid s!"invalid value '{value}' for '--{o.long}'")

/-- Adds an operand. -/
def addOperand (s : ArgumentSpec) (a : Arguments) (operand : String) :
    Except UsageError Arguments :=
  if s.operands ≤ a.operands.length then .error (unexpected operand)
  else if s.acceptsOperand operand then .ok { a with operands := a.operands ++ [operand] }
  else .error (.invalid s!"invalid value '{operand}'")

/-- Adds operands one after the other. -/
def addOperands (s : ArgumentSpec) : Arguments → List String → Except UsageError Arguments
  | a, [] => .ok a
  | a, operand :: rest => do
    let a ← s.addOperand a operand
    addOperands s a rest

/-- Whether an argument looks like an option. -/
def looksLikeOption (argument : String) : Bool :=
  match argument.toList with
  | '-' :: _ :: _ => true
  | _ => false

/-- Splits an argument behind `--` at the first equals sign. -/
def splitValue (cs : List Char) : String × Option String :=
  let name := cs.takeWhile (· != '=')
  match cs.drop name.length with
  | [] => (String.ofList name, none)
  | _ :: value => (String.ofList name, some (String.ofList value))

/-- The value of an option whose value stands behind a short option, the equals sign left out. -/
def attached : List Char → String
  | '=' :: rest => String.ofList rest
  | rest => String.ofList rest

/-- What reading one argument comes to: the arguments so far and the option that still needs its
value. -/
abbrev Step := Arguments × Option OptionSpec

/-- Reads a long option. -/
def readLong (s : ArgumentSpec) (a : Arguments) (cs : List Char) : Except UsageError Step :=
  let (name, value) := splitValue cs
  if name = "help" && value.isNone then .error .help
  else match s.options.find? fun o => o.long = name with
    | none => .error (unexpected s!"--{name}")
    | some o =>
      match o.arity, value with
      | .value _, some v => do return (← addOption a o v, none)
      | .value _, none => .ok (a, some o)
      | _, some v => .error (.invalid s!"unexpected value '{v}' for '--{name}'")
      | _, none => do return (← addOption a o "", none)

/-- Reads short options that share one dash. -/
def readShort (s : ArgumentSpec) : Arguments → List Char → Except UsageError Step
  | a, [] => .ok (a, none)
  | a, c :: rest =>
    if c = 'h' then .error .help
    else match s.options.find? fun o => o.short = some c with
      | none => .error (unexpected s!"-{c}")
      | some o =>
        match o.arity, rest with
        | .value _, [] => .ok (a, some o)
        | .value _, _ => do return (← addOption a o (attached rest), none)
        | _, _ => do
          let a ← addOption a o ""
          readShort s a rest

/-- Reads one argument that looks like an option. -/
def readOption (s : ArgumentSpec) (a : Arguments) (argument : String) : Except UsageError Step :=
  match argument.toList with
  | '-' :: '-' :: cs => s.readLong a cs
  | '-' :: cs => s.readShort a cs
  | _ => .ok (a, none)

/-- Reads arguments from left to right; `pending` is the option that still needs its value. -/
def readFrom (s : ArgumentSpec) :
    Arguments → Option OptionSpec → List String → Except UsageError Arguments
  | a, none, [] => .ok a
  | _, some o, [] => .error (.invalid s!"a value is required for '--{o.long}'")
  | a, some o, argument :: rest =>
    if looksLikeOption argument then .error (.invalid s!"a value is required for '--{o.long}'")
    else do
      let a ← addOption a o argument
      readFrom s a none rest
  | a, none, argument :: rest =>
    -- Behind two dashes even an argument that starts with one is an operand.
    if argument = "--" then s.addOperands a rest
    else if looksLikeOption argument then do
      let (a, pending) ← s.readOption a argument
      readFrom s a pending rest
    else do
      let a ← s.addOperand a argument
      readFrom s a none rest

/-- Reads all arguments of a command. -/
def read (s : ArgumentSpec) (arguments : List String) : Except UsageError Arguments :=
  s.readFrom .empty none arguments

end ArgumentSpec

end Tenancy.Command
