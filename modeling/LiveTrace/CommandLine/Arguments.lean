import LiveTrace.Number.Digits
import LiveTrace.Number.Power

/-
  The arguments of the command line. They are read from left to right, and the first thing
  that is wrong or asks for help decides; what is missing or in conflict shows at the end. The
  value of an option follows it, or stands behind an equals sign; `--` ends the options.
-/
namespace LiveTrace.CommandLine

/-- What a submission is made of. -/
structure Input where
  sources : List String
  /-- The evaluation code itself. -/
  code : Option String := none
  /-- The file with the evaluation code. -/
  codeFile : Option String := none
  references : List String := []
  options : String := ""
  deriving DecidableEq, Repr

/-- What can be done. -/
inductive Command where
  | run (input : Input) (pretty : Bool)
  /-- The interval is in milliseconds. -/
  | watch (input : Input) (interval : Nat)
  /-- The age is in seconds. -/
  | cleanup (maxAge : Nat)
  deriving DecidableEq, Repr

structure Invocation where
  config : Option String
  command : Command
  deriving DecidableEq, Repr

/-- What arguments come to when nothing is to be done. -/
inductive Reply where
  | help
  | version
  | misuse
  deriving DecidableEq, Repr

inductive Subcommand where
  | run | watch | cleanup
  deriving DecidableEq, Repr

def Subcommand.name : Subcommand → String
  | run => "run"
  | watch => "watch"
  | cleanup => "cleanup"

def Subcommand.ofName? (name : String) : Option Subcommand :=
  [run, watch, cleanup].find? (·.name == name)

inductive Setting where
  | config | code | codeFile | reference | options | pretty | interval | maxAge
  deriving DecidableEq, Repr

namespace Setting

def name : Setting → String
  | config => "config"
  | code => "eval"
  | codeFile => "eval-file"
  | reference => "reference"
  | options => "options"
  | pretty => "pretty"
  | interval => "interval-ms"
  | maxAge => "max-age-secs"

/-- Whether a value belongs to it. -/
def takesValue : Setting → Bool
  | pretty => false
  | _ => true

/-- Whether what follows it is its value, whatever it looks like. -/
def takesAnything : Setting → Bool
  | options => true
  | _ => false

/-- Whether it can be given more than once. -/
def isRepeatable : Setting → Bool
  | reference => true
  | _ => false

end Setting

/-- A number of sixty-four bits. -/
def count? (value : String) : Option Nat := Number.unsigned? (Number.pow2 64) value.toList

/-- Whether a value is one that a setting can have: a path is not empty, a number is one. -/
def Setting.accepts (s : Setting) (value : String) : Bool :=
  match s with
  | .config | .codeFile | .reference => !value.isEmpty
  | .interval | .maxAge => (count? value).isSome
  | .code | .options | .pretty => true

/-- The settings of a subcommand. -/
def Subcommand.settings : Subcommand → List Setting
  | .run => [.config, .code, .codeFile, .reference, .options, .pretty]
  | .watch => [.config, .code, .codeFile, .reference, .options, .interval]
  | .cleanup => [.config, .maxAge]

/-- Whether a subcommand is about sources. -/
def Subcommand.takesSources : Subcommand → Bool
  | .cleanup => false
  | _ => true

/-- What was given to a subcommand so far. -/
structure Given where
  sources : List String := []
  values : List (Setting × String) := []
  deriving DecidableEq, Repr

namespace Given

/-- One more value of a setting. -/
def give (g : Given) (s : Setting) (value : String) : Except Reply Given :=
  if s.accepts value && (s.isRepeatable || !g.values.any (·.1 == s)) then
    .ok { g with values := g.values ++ [(s, value)] }
  else .error .misuse

/-- One more source. -/
def addSource (g : Given) (sub : Subcommand) (path : String) : Except Reply Given :=
  if sub.takesSources && !path.isEmpty then .ok { g with sources := g.sources ++ [path] }
  else .error .misuse

/-- The values of a setting. -/
def all (g : Given) (s : Setting) : List String :=
  g.values.filterMap fun v => if v.1 == s then some v.2 else none

def value? (g : Given) (s : Setting) : Option String := (g.all s).head?

/-- The number that a setting has as its value. -/
def number? (g : Given) (s : Setting) : Option Nat := (g.value? s).bind count?

/-- What the submission is made of. There has to be a source, and the code stands in one place. -/
def input (g : Given) : Except Reply Input :=
  if g.sources.isEmpty then .error .misuse
  else if (g.value? .code).isSome && (g.value? .codeFile).isSome then .error .misuse
  else .ok
    { sources := g.sources
      code := g.value? .code
      codeFile := g.value? .codeFile
      references := g.all .reference
      options := (g.value? .options).getD "" }

/-- What a subcommand is to do. -/
def command (g : Given) : Subcommand → Except Reply Command
  | .run => g.input.map fun i => .run i (g.value? .pretty).isSome
  | .watch => g.input.map fun i => .watch i ((g.number? .interval).getD 300)
  | .cleanup => .ok (.cleanup ((g.number? .maxAge).getD 0))

end Given

/-- What an argument looks like. -/
inductive Shape where
  /-- A name behind two dashes, and a value behind an equals sign. -/
  | long (name : String) (value : Option String)
  /-- A letter behind one dash. -/
  | short (letter : Char)
  /-- Two dashes. -/
  | dashes
  /-- No option. A single dash is none either. -/
  | word
  deriving DecidableEq, Repr

def Shape.of (arg : String) : Shape :=
  match arg.toList with
  | ['-', '-'] => .dashes
  | '-' :: '-' :: rest =>
    .long (String.ofList (rest.takeWhile (· != '='))) <|
      match rest.dropWhile (· != '=') with
      | _ :: value => some (String.ofList value)
      | [] => none
  | '-' :: letter :: _ => .short letter
  | _ => .word

/-- What is given in the arguments of a subcommand. -/
def scan (sub : Subcommand) (g : Given) : List String → Except Reply Given
  | [] => .ok g
  | arg :: rest =>
    match Shape.of arg with
    | .dashes => rest.foldlM (fun g path => g.addSource sub path) g
    | .word => do scan sub (← g.addSource sub arg) rest
    | .short letter => .error (if letter == 'h' then .help else .misuse)
    | .long "help" none => .error .help
    | .long name attached =>
      match sub.settings.find? (·.name == name) with
      | none => .error .misuse
      | some s =>
        match s.takesValue, attached with
        | false, some _ => .error .misuse
        | false, none => do scan sub (← g.give s "") rest
        | true, some value => do scan sub (← g.give s value) rest
        | true, none =>
          match rest with
          | [] => .error .misuse
          | value :: rest =>
            if s.takesAnything || Shape.of value == .word then do
              scan sub (← g.give s value) rest
            else .error .misuse

/-- The configuration file given before the subcommand, if at most one was and it has a name. -/
def settled : List String → Except Reply (Option String)
  | [] => .ok none
  | [path] => if path.isEmpty then .error .misuse else .ok (some path)
  | _ => .error .misuse

/-- What is said when help is asked for by name. -/
def helpOn : List String → Reply
  | [] => .help
  | [name] => if name == "help" || (Subcommand.ofName? name).isSome then .help else .misuse
  | _ => .misuse

/-- The invocation that arguments stand for, after the configuration files `configs`. The last
of these is not looked at before the next argument that is no subcommand. A file given to the
subcommand counts more. -/
def parseAfter (configs : List String) : List String → Except Reply Invocation
  | [] => .error .misuse
  | "help" :: rest => .error (helpOn rest)
  | arg :: rest =>
    match Shape.of arg with
    | .dashes => .error .misuse
    | .word =>
      match Subcommand.ofName? arg with
      | none => .error .misuse
      | some sub => do
        let g ← scan sub {} rest
        let command ← g.command sub
        let outer ← settled configs
        return ⟨(g.value? .config).or outer, command⟩
    | .short letter => do
      let _ ← settled configs
      .error (if letter == 'h' then .help else if letter == 'V' then .version else .misuse)
    | .long "help" none => do
      let _ ← settled configs
      .error .help
    | .long "version" none => do
      let _ ← settled configs
      .error .version
    | .long "config" (some path) => do
      let _ ← settled (configs ++ [path])
      parseAfter (configs ++ [path]) rest
    | .long "config" none => do
      let _ ← settled configs
      match rest with
      | [] => .error .misuse
      | path :: rest =>
        if Shape.of path == .word then parseAfter (configs ++ [path]) rest else .error .misuse
    | .long _ _ => .error .misuse

def parse (args : List String) : Except Reply Invocation := parseAfter [] args

end LiveTrace.CommandLine
