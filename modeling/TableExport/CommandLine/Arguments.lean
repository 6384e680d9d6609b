/-!
# Command line arguments

The program has the commands `render` and `targets`, and answers for its version and its usage. A third command, which
writes completions for shells, is left out: its output is made by the reader of the command line alone.

Arguments are looked at from left to right: the first one that cannot stand where it does makes the whole line invalid,
and a question for the usage or the version is answered where it comes up.

The value of an option stands behind an equals sign, directly behind the letter of a short option, or in the argument
that follows, which then does not look like an option itself.

- `Command` is what the program is asked to do.
- `parseArguments` finds out.
-/

namespace TableExport.CommandLine

/-- What is to be rendered, and how. -/
structure RenderRequest where
  config : String := "tabula.toml"
  /-- The targets that are asked for; none stand for all. -/
  targets : List String := []
  /-- Nothing is written. -/
  dryRun : Bool := false
deriving Repr, DecidableEq

/-- What the program is asked to do. -/
inductive Command where
  | render (request : RenderRequest)
  | targets
  | version
  | usage
deriving Repr, DecidableEq

/-- A rendering request that is being read. -/
structure RenderPart where
  config : Option String := none
  targets : List String := []
  dryRun : Bool := false

/-- The request of a part; the configuration file has a default. -/
def RenderPart.finish (p : RenderPart) : RenderRequest where
  config := p.config.getD "tabula.toml"
  targets := p.targets
  dryRun := p.dryRun

/-- An option that has a value. -/
inductive ValueOption where
  | config
  | target

/-- Takes the value of an option; the configuration file is named once, and its name is not empty. -/
def RenderPart.take (p : RenderPart) : ValueOption → String → Option RenderPart
  | .config, value => if p.config.isSome || value.isEmpty then none else some { p with config := some value }
  | .target, value => some { p with targets := p.targets ++ [value] }

/-- How an argument of the `render` command reads. -/
inductive Argument where
  /-- An option, and its value if that is part of the argument. -/
  | option (which : ValueOption) (value : Option String)
  | dryRun
  | help
  /-- The mark behind which nothing is an option. -/
  | endOfOptions
  | other

/-- The argument looks like an option: a minus sign comes first, and something follows. -/
def looksLikeOption (arg : String) : Bool :=
  match arg.toList with
  | '-' :: _ :: _ => true
  | _ => false

/-- How a long option reads: a name, and a value behind an equals sign. -/
def longOption (body : List Char) : Argument :=
  let name := String.ofList (body.takeWhile (· ≠ '='))
  let value := if body.contains '=' then some (String.ofList ((body.dropWhile (· ≠ '=')).drop 1)) else none
  if name = "config" then .option .config value
  else if name = "target" then .option .target value
  else if value.isSome then .other
  else if name = "dry-run" then .dryRun
  else if name = "help" then .help
  else .other

/-- The value directly behind the letter of a short option; an equals sign in front of it does not count. -/
def attachedValue (rest : List Char) : Option String :=
  match rest with
  | [] => none
  | c :: s => some (String.ofList (if c = '=' then s else c :: s))

/-- How an argument reads. -/
def readArgument (arg : String) : Argument :=
  match arg.toList with
  | ['-', '-'] => .endOfOptions
  | '-' :: '-' :: body => longOption body
  | '-' :: letter :: rest =>
    if letter = 'c' then .option .config (attachedValue rest)
    else if letter = 't' then .option .target (attachedValue rest)
    else if letter = 'h' then .help
    else .other
  | _ => .other

/-- Reads the arguments behind the word `render`. -/
def readRender (p : RenderPart) : List String → Option Command
  | [] => some (.render p.finish)
  | arg :: args =>
    match readArgument arg with
    | .option which (some value) => do readRender (← p.take which value) args
    | .option which none =>
      match args with
      | [] => none
      | value :: args => if looksLikeOption value then none else do readRender (← p.take which value) args
    | .dryRun => if p.dryRun then none else readRender { p with dryRun := true } args
    | .help => some .usage
    | .endOfOptions => if args.isEmpty then some (.render p.finish) else none
    | .other => none

/-- Reads the arguments behind the word `targets`. -/
def readTargets : List String → Option Command
  | [] => some .targets
  | arg :: args =>
    match readArgument arg with
    | .help => some .usage
    | .endOfOptions => if args.isEmpty then some .targets else none
    | _ => none

/-- The words that name a command. -/
def commandNames : List String := ["render", "targets", "help"]

/-- Reads the arguments of the program; none means that they are not valid. -/
def parseArguments : List String → Option Command
  | [] => none
  | arg :: args =>
    if arg = "render" then readRender {} args
    else if arg = "targets" then readTargets args
    else if arg = "help" then
      if args.isEmpty || (args.length = 1 && args.all commandNames.contains) then some .usage else none
    else if arg = "--version" || arg.toList.take 2 = ['-', 'V'] then some .version
    else if arg = "--help" || arg.toList.take 2 = ['-', 'h'] then some .usage
    else none

end TableExport.CommandLine
