import NetAudit.Number.Natural

/-!
# Arguments of the command line

An argument is an option or a word. An option has a long name after two hyphens and perhaps a letter
after one; it is a switch, or it has a value, which follows in the same argument or in the next one.
No option may be given twice, and only a lone hyphen among the arguments that begin with one can be
a value of its own. A switch that has a letter puts an end to all else, so what follows the letter
in its argument is not looked at.

`Invocation.ofArguments?` says what the arguments ask for, if they make sense.
-/

namespace NetAudit.Command

/-- What the value of an option has to be. -/
inductive ValueForm where
  | text
  /-- The name of a file, which is not empty. -/
  | file
  /-- A number below a bound. -/
  | number (bound : Nat)
  /-- A number below a bound, which may be written as minus zero. -/
  | integer (bound : Nat)
deriving DecidableEq, Repr

/-- The number below `bound` that a text stands for, which may be written as minus zero. -/
def integer? (bound : Nat) (s : String) : Option Nat :=
  match s.toList with
  | '-' :: ds => Number.digits? 1 ds
  | cs => Number.natural? bound cs

/-- The text is a value of the form. -/
def ValueForm.admits : ValueForm → String → Bool
  | text, _ => true
  | file, s => s ≠ ""
  | number bound, s => (Number.natural? bound s.toList).isSome
  | integer bound, s => (integer? bound s).isSome

/-- An option. -/
structure OptionSpec where
  name : String
  letter : Option Char
  /-- The form of its value, unless it is a switch. -/
  form : Option ValueForm
deriving DecidableEq, Repr

/-- Options that were given, with their values. -/
abbrev Given := List (String × String)

/-- What one argument is. -/
inductive Argument where
  | switch (name : String)
  | valued (option : OptionSpec) (value : String)
  /-- An option whose value is the next argument. -/
  | awaiting (option : OptionSpec)
  | word (s : String)
  | unknown
deriving DecidableEq, Repr

namespace Argument

/-- The texts before and after the first equals sign. -/
def cutEquals (cs : List Char) : List Char × Option (List Char) :=
  match cs.dropWhile (· != '=') with
  | [] => (cs, none)
  | _ :: value => (cs.takeWhile (· != '='), some value)

/-- An option with the value that stands in its argument, if one does. -/
def ofOption (option : Option OptionSpec) (value : Option (List Char)) : Argument :=
  match option with
  | none => unknown
  | some o =>
    match o.form, value with
    | none, none => switch o.name
    | none, some _ => unknown
    | some _, none => awaiting o
    | some _, some value => valued o (String.ofList value)

/-- The value that stands after the letter of an option, with or without an equals sign. -/
def afterLetter : List Char → Option (List Char)
  | [] => none
  | '=' :: value => some value
  | value => some value

/-- What an argument is among the given options. -/
def ofText (options : List OptionSpec) (s : String) : Argument :=
  match s.toList with
  | '-' :: '-' :: rest =>
    let (name, value) := cutEquals rest
    ofOption (options.find? fun o => o.name.toList = name) value
  | '-' :: letter :: rest =>
    match options.find? fun o => o.letter = some letter with
    | none => unknown
    | some o => if o.form.isNone then switch o.name else ofOption (some o) (afterLetter rest)
  | _ => word s

end Argument

/-- An argument can be the value of the option before it. -/
def canBeValue (s : String) : Bool := s = "-" || s.toList.head? ≠ some '-'

/-- How reading options ends. -/
inductive Scanned where
  /-- The arguments make no sense. -/
  | refused
  /-- All arguments are options. -/
  | finished (given : Given)
  /-- A word was met, and these arguments come after it. -/
  | word (given : Given) (s : String) (rest : List String)
  /-- A switch that puts an end to all else. -/
  | final (name : String)
deriving DecidableEq

/-- Put down the value of an option. -/
def putDown (given : Given) (o : OptionSpec) (value : String) : Option Given :=
  if (given.lookup o.name).isSome || !o.form.all (·.admits value) then none
  else some (given ++ [(o.name, value)])

/-- Read options up to the first word. `finals` are the switches that put an end to all else, and
`awaited` is the option whose value comes next. -/
def scan (options : List OptionSpec) (finals : List String) (awaited : Option OptionSpec)
    (given : Given) : List String → Scanned
  | [] => if awaited.isSome then .refused else .finished given
  | a :: rest =>
    match awaited with
    | some o =>
      if !canBeValue a then .refused
      else
        match putDown given o a with
        | some given => scan options finals none given rest
        | none => .refused
    | none =>
      if a = "--" then if rest.isEmpty then .finished given else .refused
      else
        match Argument.ofText options a with
        | .word s => .word given s rest
        | .unknown => .refused
        | .awaiting o => scan options finals (some o) given rest
        | .valued o value =>
          match putDown given o value with
          | some given => scan options finals none given rest
          | none => .refused
        | .switch name =>
          if name ∈ finals then .final name
          else if (given.lookup name).isSome then .refused
          else scan options finals none (given ++ [(name, "")]) rest

/-! ### The options of the program -/

def configOption : OptionSpec := ⟨"config", some 'c', some .file⟩
def helpOption : OptionSpec := ⟨"help", some 'h', none⟩
def versionOption : OptionSpec := ⟨"version", some 'V', none⟩

/-- The options before a command. -/
def programOptions : List OptionSpec := [configOption, helpOption, versionOption]

/-- The options of a run. -/
def runOptions : List OptionSpec := [
  configOption, helpOption,
  ⟨"snapshot", some 's', some .file⟩,
  ⟨"start", none, some .text⟩,
  ⟨"end", none, some .text⟩,
  ⟨"iterations", none, some (.integer Number.indexBound)⟩,
  ⟨"limit", none, some (.number Number.countBound)⟩,
  ⟨"text", none, none⟩,
  ⟨"dashboard", none, none⟩]

/-- The options of a check. -/
def checkOptions : List OptionSpec :=
  [configOption, helpOption, ⟨"measurement", some 'm', some .file⟩]

/-! ### What is asked for -/

/-- What a run over a snapshot is to do. -/
structure RunCommand where
  snapshot : String
  start : Option String
  stop : Option String
  iterations : Nat
  limit : Option Nat
  /-- Print the report as a text. -/
  asText : Bool
  /-- Print the dashboards too. -/
  withDashboard : Bool
deriving DecidableEq, Repr

/-- What the arguments ask for. -/
inductive Invocation where
  | run (config : Option String) (command : RunCommand)
  | check (config : Option String) (measurement : String)
  | version
  | help
deriving DecidableEq, Repr

namespace Invocation

/-- The run with the given options. -/
def runOf? (config : Option String) (given : Given) : Option Invocation := do
  let snapshot ← given.lookup "snapshot"
  return run config {
    snapshot
    start := given.lookup "start"
    stop := given.lookup "end"
    iterations := ((given.lookup "iterations").bind (integer? Number.indexBound)).getD 1
    limit := (given.lookup "limit").bind fun s => Number.natural? Number.countBound s.toList
    asText := (given.lookup "text").isSome
    withDashboard := (given.lookup "dashboard").isSome }

/-- The check with the given options. -/
def checkOf? (config : Option String) (given : Given) : Option Invocation :=
  (given.lookup "measurement").map (check config)

/-- A command, which takes no words, with its options. The configuration may be named before the
command or after it. -/
def ofCommand? (options : List OptionSpec) (build : Option String → Given → Option Invocation)
    (config : Option String) (arguments : List String) : Option Invocation :=
  match scan options ["help"] none [] arguments with
  | .finished given => build ((given.lookup "config").or config) given
  | .final _ => some help
  | .refused | .word _ _ _ => none

/-- The help on a command, or on all. -/
def helpOf? : List String → Option Invocation
  | [] => some help
  | [command] => if command ∈ ["run", "check", "help"] then some help else none
  | _ => none

/-- What the arguments ask for; nothing if they make no sense. -/
def ofArguments? (arguments : List String) : Option Invocation :=
  match scan programOptions ["help", "version"] none [] arguments with
  | .final name => some (if name = "version" then version else help)
  | .word given command rest =>
    let config := given.lookup "config"
    if command = "run" then ofCommand? runOptions runOf? config rest
    else if command = "check" then ofCommand? checkOptions checkOf? config rest
    else if command = "help" then helpOf? rest
    else none
  | .refused | .finished _ => none

end Invocation

end NetAudit.Command
