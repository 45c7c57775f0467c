import PathQuery.Command.Settings
/-!
# Arguments of the command line

The program takes one command with its arguments. Options stand before or behind the query, in any
order and each at most once:

* the value of an option follows it as an argument of its own, which may not start with a dash
  unless it is one, or in the same argument behind `=`; behind a letter also without `=`,
* letters may be joined behind one dash, of which only the last may take a value,
* behind `--` everything is a query.

Arguments are read from left to right. The first that is not understood ends reading, and so does
a request for help or for the version.
-/
namespace PathQuery.CommandLine

/-- Whether an argument starts with a dash and is not only that. -/
def looksLikeOption (argument : String) : Bool :=
  match argument.toList with
  | '-' :: _ :: _ => true
  | _ => false

/-- The option with a name among those allowed. -/
def ofLong? (allowed : List Flag) (name : String) : Option Flag :=
  allowed.find? fun flag => flag.long == name

/-- The option with a letter among those allowed. -/
def ofShort? (allowed : List Flag) (letter : Char) : Option Flag :=
  allowed.find? fun flag => flag.short? == some letter

/-- What an argument with options has left open. -/
inductive Pending where
  /-- Nothing. -/
  | settled (settings : Settings)
  /-- The value of an option, which the next argument is. -/
  | valueOf (flag : Flag) (settings : Settings)

/-- Reads an option given by its name, with a value behind `=` or without one. -/
def readLong (allowed : List Flag) (s : Settings) (argument : List Char) : Except Stop Pending :=
  let name := argument.takeWhile (· != '=')
  match ofLong? allowed (String.ofList name), argument.drop name.length with
  | none, _ => .error .usage
  | some flag, [] =>
    if flag.takesValue then .ok (.valueOf flag s) else (s.set flag "").map .settled
  | some flag, _ :: value =>
    if flag.takesValue then (s.set flag (String.ofList value)).map .settled else .error .usage

/-- Reads options given by their letters. -/
def readShort (allowed : List Flag) (s : Settings) : List Char → Except Stop Pending
  | [] => .ok (.settled s)
  | letter :: rest =>
    match ofShort? allowed letter with
    | none => .error .usage
    | some flag =>
      if flag.takesValue then
        match rest with
        | [] => .ok (.valueOf flag s)
        | '=' :: value => (s.set flag (String.ofList value)).map .settled
        | value => (s.set flag (String.ofList value)).map .settled
      else
        match s.set flag "" with
        | .ok s => readShort allowed s rest
        | .error stop => .error stop

/-- What an argument is by its look. -/
inductive Look where
  /-- Ends the options. -/
  | separator
  /-- An option given by its name. -/
  | long (text : List Char)
  /-- Options given by their letters. -/
  | short (letters : List Char)
  /-- Anything else. -/
  | plain

/-- The look of an argument. -/
def look (argument : String) : Look :=
  match argument.toList with
  | ['-', '-'] => .separator
  | '-' :: '-' :: text => .long text
  | '-' :: letter :: letters => .short (letter :: letters)
  | _ => .plain

/-- What the program is asked to do. -/
inductive Command where
  /-- Evaluate a query. -/
  | eval
  /-- Describe a query. -/
  | explain
  /-- Tell how the program is used. -/
  | help
deriving DecidableEq, Repr

namespace Command

/-- The command with a name, if there is one. -/
def ofName? (name : String) : Option Command :=
  if name = "eval" then some .eval
  else if name = "explain" then some .explain
  else if name = "help" then some .help
  else none

/-- The options allowed before a command is named, and behind each. -/
def flags : Option Command → List Flag
  | none => [.logLevel, .help, .version]
  | some .eval => [.logLevel, .input, .pretty, .syntaxOnly, .outputKind, .help]
  | some .explain => [.logLevel, .help]
  | some .help => []

end Command

/-- What the arguments read so far came to. -/
structure Progress where
  /-- The command, once it is named. -/
  command : Option Command
  /-- What was set, since the command was named. -/
  settings : Settings
  /-- The option whose value has to come next. -/
  awaiting : Option Flag
  /-- Whether the options are over. -/
  separated : Bool
deriving DecidableEq, Repr

namespace Progress

/-- Before the first argument. -/
def start : Progress := ⟨none, {}, none, false⟩

/-- Reads an argument that is no option: the name of the command, then its query. -/
def plain (p : Progress) (argument : String) : Except Stop Progress :=
  match p.command with
  | none =>
    match Command.ofName? argument, p.separated with
    | some command, false => .ok { start with command := some command }
    | _, _ => .error .usage
  | some _ => (p.settings.setQuery argument).map fun s => { p with settings := s }

/-- Goes on behind an argument with options. -/
def settle (p : Progress) : Pending → Progress
  | .settled s => { p with settings := s, awaiting := none }
  | .valueOf flag s => { p with settings := s, awaiting := some flag }

/-- Reads one argument more. -/
def step (p : Progress) (argument : String) : Except Stop Progress :=
  match p.awaiting with
  | some flag =>
    if looksLikeOption argument then .error .usage
    else (p.settings.set flag argument).map fun s => p.settle (.settled s)
  | none =>
    if p.command = some .help then
      if (Command.ofName? argument).isSome then p.plain argument else .error .usage
    else if p.separated then p.plain argument
    else
      match look argument with
      | .separator => .ok { p with separated := true }
      | .long text => (readLong (Command.flags p.command) p.settings text).map p.settle
      | .short letters => (readShort (Command.flags p.command) p.settings letters).map p.settle
      | .plain => p.plain argument

end Progress

/-- What the program is asked to do, with all it needs for that. -/
inductive Invocation where
  /-- Evaluate a query; the input is none when it has to be read. -/
  | eval (options : EvalOptions)
  /-- Describe a query. -/
  | explain (query : String)
deriving DecidableEq, Repr

/-- What all arguments together ask for. -/
def Progress.finish (p : Progress) : Except Stop Invocation :=
  match p.awaiting, p.command, p.settings.query with
  | none, some .help, _ => .error .help
  | none, some .eval, some query =>
    .ok (.eval ⟨query, p.settings.input, p.settings.pretty, p.settings.syntaxOnly,
      p.settings.outputKind⟩)
  | none, some .explain, some query => .ok (.explain query)
  | _, _, _ => .error .usage

/-- What some arguments ask for. -/
def Invocation.ofArguments (arguments : List String) : Except Stop Invocation :=
  match arguments.foldlM Progress.step Progress.start with
  | .ok p => p.finish
  | .error stop => .error stop

end PathQuery.CommandLine
