/-
**Reading the command line.**

The words of a command line are taken one after another, and the first one that is wrong, or that
asks for help or for the version, decides.  Options are spelled out behind two dashes, some have a
letter behind one; behind two dashes alone everything is a path.  What is not given may be set in
the environment.

Main definitions:

* `Command` — what there is to do;
* `Request` — what a command line asks for;
* `Environment` — what is set besides the command line;
* `Request.ofArguments` — what a list of words asks for.
-/

import CaptureConfig.Document.Form
import CaptureConfig.Resolution.Materials

set_option relaxedAutoImplicit false
set_option autoImplicit false

namespace CaptureConfig

/-- What there is to do. -/
inductive Command where
  /-- Say whether a property file can be resolved. -/
  | check (path : Path) (instanceId : Option String) (plain : Bool)
  /-- Print the document of a property file, or write it with its materials. -/
  | render (path : Path) (instanceId : Option String) (root : Path) (form : Config.Form)
      (write : Bool)
  /-- Write a sample property file. -/
  | init (path : Path)
  deriving DecidableEq, Repr

/-- What a command line asks for. -/
inductive Request where
  | command (c : Command)
  | version
  | help
  | misuse
  deriving DecidableEq, Repr

/-- What is set besides the command line. -/
structure Environment where
  instanceId : Option String
  configRoot : Option String
  logFilter : Option String
  deriving DecidableEq, Repr, Inhabited

/-- The property file of a command without a path. -/
def Command.defaultPath : String := "pcap-api.yml"

namespace Arguments

/-! ### Words -/

/-- A word of a command line. -/
inductive Word where
  /-- Two dashes: no options follow. -/
  | noMoreOptions
  /-- An option, with the value behind its equals sign. -/
  | option (name : String) (attached : Option String)
  /-- Letters of options. -/
  | letters (letters : List Char)
  | plain (text : String)
  deriving DecidableEq, Repr

/-- An option behind its two dashes. -/
def optionWord (cs : List Char) : Word :=
  let name := String.ofList (cs.takeWhile (· != '='))
  match cs.dropWhile (· != '=') with
  | [] => .option name none
  | _ :: value => .option name (some (String.ofList value))

/-- The kind of a word.  A single dash is a plain word. -/
def Word.ofText (s : String) : Word :=
  match s.toList with
  | ['-', '-'] => .noMoreOptions
  | '-' :: '-' :: name => optionWord name
  | '-' :: c :: cs => .letters (c :: cs)
  | _ => .plain s

/-! ### Options -/

/-- The options. -/
inductive Switch where
  | instanceId
  | configRoot
  | plain
  | json
  | write
  | help
  | version
  deriving DecidableEq, Repr

namespace Switch

/-- The name of an option. -/
def name : Switch → String
  | .instanceId => "instance-id"
  | .configRoot => "config-root"
  | .plain => "plain"
  | .json => "json"
  | .write => "write"
  | .help => "help"
  | .version => "version"

/-- The letter of an option. -/
def letter? : Switch → Option Char
  | .plain => some 'p'
  | .help => some 'h'
  | .version => some 'V'
  | _ => none

/-- The option needs a value. -/
def needsValue : Switch → Bool
  | .instanceId => true
  | .configRoot => true
  | _ => false

/-- The option can have the value: a root cannot be empty. -/
def allows (s : Switch) (value : String) : Bool := s != .configRoot || value != ""

end Switch

/-- What has been given so far. -/
structure Given where
  path : Option String
  values : List (Switch × String)
  flags : List Switch
  deriving DecidableEq, Repr

/-- Why the words are not read to their end. -/
inductive Stop where
  | help
  | version
  | misuse
  deriving DecidableEq, Repr

/-- What a command line asks for that is not read to its end. -/
def Stop.request : Stop → Request
  | .help => .help
  | .version => .version
  | .misuse => .misuse

namespace Given

/-- Nothing. -/
def nothing : Given := ⟨none, [], []⟩

/-- One more option without a value.  None may be repeated. -/
def setFlag (g : Given) : Switch → Except Stop Given
  | .help => .error .help
  | .version => .error .version
  | s => if s ∈ g.flags then .error .misuse else .ok { g with flags := s :: g.flags }

/-- One more option with a value.  None may be repeated. -/
def setValue (g : Given) (s : Switch) (value : String) : Except Stop Given :=
  if (g.values.lookup s).isSome || ! s.allows value then .error .misuse
  else .ok { g with values := (s, value) :: g.values }

/-- The path.  There is only one, and it cannot be empty. -/
def setPath (g : Given) (path : String) : Except Stop Given :=
  if g.path.isSome || path == "" then .error .misuse else .ok { g with path := some path }

/-- Options by their letters. -/
def setLetters (options : List Switch) (g : Given) : List Char → Except Stop Given
  | [] => .ok g
  | c :: rest =>
      match options.find? (·.letter? == some c) with
      | none => .error .misuse
      | some s => do setLetters options (← g.setFlag s) rest

/-- Paths. -/
def setPaths (g : Given) : List String → Except Stop Given
  | [] => .ok g
  | p :: rest => do (← g.setPath p).setPaths rest

end Given

/-- A word that can be the value of the option before it. -/
def isValue (s : String) : Bool :=
  match Word.ofText s with
  | .plain _ => true
  | _ => false

/-- **What words give**, with the options that there are. -/
def scan (options : List Switch) : List String → Given → Except Stop Given
  | [], g => .ok g
  | word :: rest, g =>
      match Word.ofText word with
      | .noMoreOptions => g.setPaths rest
      | .plain p => do scan options rest (← g.setPath p)
      | .letters cs => do scan options rest (← g.setLetters options cs)
      | .option name attached =>
          match options.find? (·.name == name) with
          | none => .error .misuse
          | some s =>
              match s.needsValue, attached, rest with
              | true, some value, rest => do scan options rest (← g.setValue s value)
              | true, none, value :: rest' =>
                  if isValue value then do scan options rest' (← g.setValue s value)
                  else .error .misuse
              | true, none, [] => .error .misuse
              | false, some _, _ => .error .misuse
              | false, none, rest => do scan options rest (← g.setFlag s)

/-! ### Commands -/

/-- The kinds of commands. -/
inductive Kind where
  | check
  | render
  | init
  deriving DecidableEq, Repr

namespace Kind

/-- The kind of command that a word names. -/
def ofName? : String → Option Kind
  | "check" => some .check
  | "render" => some .render
  | "init" => some .init
  | _ => none

/-- The options of a command. -/
def options : Kind → List Switch
  | .check => [.instanceId, .plain, .help]
  | .render => [.instanceId, .configRoot, .json, .write, .help]
  | .init => [.help]

/-- The root of the configuration: the given one, else the one of the environment, else the usual
one. -/
def root (g : Given) (env : Environment) : Except Stop Path :=
  match g.values.lookup .configRoot <|> env.configRoot with
  | none => .ok Material.defaultRoot
  | some text =>
      if Switch.allows .configRoot text then .ok (Path.ofString text) else .error .misuse

/-- The command that has been given. -/
def command (kind : Kind) (g : Given) (env : Environment) : Except Stop Command :=
  let path := Path.ofString (g.path.getD Command.defaultPath)
  let instanceId := g.values.lookup .instanceId <|> env.instanceId
  match kind with
  | .check => .ok (.check path instanceId (g.flags.contains .plain))
  | .render => (root g env).map fun r =>
      .render path instanceId r (if g.flags.contains .json then .json else .yaml)
        (g.flags.contains .write)
  | .init => .ok (.init path)

/-- What the words behind the name of a command ask for. -/
def request (kind : Kind) (words : List String) (env : Environment) : Request :=
  match (scan kind.options words .nothing).bind fun g => kind.command g env with
  | .ok c => .command c
  | .error stop => stop.request

end Kind

/-- What the words behind a plain first word ask for. -/
def namedRequest (name : String) (words : List String) (env : Environment) : Request :=
  match Kind.ofName? name with
  | some kind => kind.request words env
  | none => if name == "help" && words.all fun w => (Kind.ofName? w).isSome then .help else .misuse

end Arguments

open Arguments in
/-- **What a command line asks for.** -/
def Request.ofArguments (words : List String) (env : Environment) : Request :=
  match words with
  | [] => .misuse
  | first :: rest =>
      match Word.ofText first with
      | .plain name => namedRequest name rest env
      | _ =>
          match scan [.help, .version] words .nothing with
          | .ok _ => .misuse
          | .error stop => stop.request

end CaptureConfig
