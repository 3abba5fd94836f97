/-
  SearchGateway.CommandLine.Arguments

  The arguments of the program.
-/

namespace SearchGateway.CommandLine

/-- What the program is asked to do. -/
inductive Command where
  /-- Serve the gateway, with settings from a file. -/
  | serve (config : String)
  /-- Translate query text, which is read from the input where none is given. -/
  | translate (query : Option String)
  /-- Validate a search of a collection, which is read from the input. -/
  | validate (collection : String)
  deriving DecidableEq, Repr

/-- What some arguments mean. -/
inductive Invocation where
  | run (command : Command)
  | version
  | help
  /-- The arguments break the rules. -/
  | invalid
  deriving DecidableEq, Repr

/-- The settings file that is read where none is named. -/
def defaultConfig : String := "./crmgate.json"

/-- Why arguments ask for no command. -/
inductive Refusal where
  | help
  /-- The arguments break the rules. -/
  | invalid
  deriving DecidableEq, Repr

/-! ## The arguments of a command -/

/-- What a command takes. -/
structure Signature where
  /-- The name of its option, if it has one. -/
  option : Option String := none
  /-- Whether the value of the option may be empty. -/
  allowsEmpty : Bool := true
  /-- How many operands it takes at most. -/
  operands : Nat := 0

/-- The option and the operands that have been read. -/
structure Parsed where
  option : Option String := none
  operands : List String := []
  deriving DecidableEq, Repr

/-- Whether an argument begins like an option.  A dash alone is an operand. -/
def isOptionLike (argument : String) : Bool :=
  argument.startsWith "-" && argument != "-"

/-- Whether an argument asks for help, by its name or as the first of some letters. -/
def asksHelp (argument : String) : Bool :=
  argument == "--help" || argument.startsWith "-h"

/-- The text after a name and an equals sign. -/
def attached? (name argument : String) : Option String :=
  let beginning := (name ++ "=").toList
  if beginning.isPrefixOf argument.toList then
    some (String.ofList (argument.toList.drop beginning.length))
  else none

namespace Signature

/-- Takes an operand. -/
def takeOperand (signature : Signature) (parsed : Parsed) (operand : String) :
    Except Refusal Parsed :=
  if parsed.operands.length < signature.operands then
    .ok { parsed with operands := parsed.operands ++ [operand] }
  else .error .invalid

/-- Takes the value of the option, which may be given once. -/
def takeValue (signature : Signature) (parsed : Parsed) (value : String) : Except Refusal Parsed :=
  if parsed.option.isSome || value.isEmpty && !signature.allowsEmpty then .error .invalid
  else .ok { parsed with option := some value }

/-- Reads the arguments of a command one after the other, up to the first that asks for help or
    breaks the rules.  The value of an option is attached to its name, or it is the next argument and
    does not begin like an option.  After two dashes there are operands only. -/
def read (signature : Signature) (parsed : Parsed) : List String → Except Refusal Parsed
  | [] => .ok parsed
  | "--" :: rest => rest.foldlM signature.takeOperand parsed
  | argument :: rest =>
    if asksHelp argument then .error .help
    else if !isOptionLike argument then do
      let parsed ← signature.takeOperand parsed argument
      read signature parsed rest
    else
      match signature.option.bind (attached? · argument) with
      | some value => do
        let parsed ← signature.takeValue parsed value
        read signature parsed rest
      | none =>
        if signature.option != some argument then .error .invalid
        else
          match rest with
          | [] => .error .invalid
          | value :: rest =>
            if isOptionLike value then .error .invalid
            else do
              let parsed ← signature.takeValue parsed value
              read signature parsed rest

end Signature

/-! ## Commands -/

/-- The names of the commands. -/
def commandNames : List String :=
  ["serve", "translate", "validate", "help"]

/-- What the arguments of the help command ask for: at most one command may be named. -/
def help : List String → Refusal
  | [] => .help
  | [name] => if commandNames.contains name then .help else .invalid
  | _ => .invalid

/-- The command with a name and its arguments. -/
def command (name : String) (arguments : List String) : Except Refusal Command :=
  match name with
  | "serve" => do
    let parsed ← Signature.read { option := some "--config", allowsEmpty := false } {} arguments
    return .serve (parsed.option.getD defaultConfig)
  | "translate" => do
    let parsed ← Signature.read { option := some "--query" } {} arguments
    return .translate parsed.option
  | "validate" => do
    let parsed ← Signature.read { operands := 1 } {} arguments
    match parsed.operands with
    | [collection] => return .validate collection
    | _ => throw .invalid
  | "help" => throw (help arguments)
  | _ => throw .invalid

/-- What the arguments of the program mean.  The first of them settles whether a command is asked
    for. -/
def Invocation.ofArguments : List String → Invocation
  | [] => .invalid
  | name :: arguments =>
    if name = "--version" || name.startsWith "-V" then .version
    else if asksHelp name then .help
    else
      match command name arguments with
      | .ok command => .run command
      | .error .help => .help
      | .error .invalid => .invalid

end SearchGateway.CommandLine
