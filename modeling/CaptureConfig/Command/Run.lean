/-
**Running commands.**

A command does its work on a file system and leaves a transcript.

Main definitions:

* `Problem` — why a command fails, with the cause behind it;
* `Command.check`, `Command.render`, `Command.init` — the commands;
* `Command.run` — any of them;
* `Request.run` — what a command line asks for.
-/

import CaptureConfig.Command.Arguments
import CaptureConfig.Command.Sample
import CaptureConfig.Command.Transcript
import CaptureConfig.Loading

set_option relaxedAutoImplicit false
set_option autoImplicit false

namespace CaptureConfig

/-! ### Problems -/

/-- Why a command fails: in a few words, and the cause behind them. -/
structure Problem where
  message : String
  cause : Option String
  deriving DecidableEq, Repr

/-- A failure as a problem. -/
def Failure.problem (f : Failure) : Problem := ⟨f.message, f.cause?⟩

/-- A sample that is not written as a problem. -/
def Sample.Failure.problem (f : Sample.Failure) : Problem := ⟨f.message, f.cause?⟩

/-- A problem with its cause. -/
def Problem.text (p : Problem) : String :=
  match p.cause with
  | none => p.message
  | some cause => p.message ++ ": " ++ cause

/-- A command fails. -/
def Event.failed (p : Problem) : Event where
  level := .error
  target := "pcap_api_conf"
  message := "pcap-api-conf failed"
  fields := [("error", .text p.message)]

/-- The transcript of a command that fails after some events. -/
def Transcript.failed (events : List Event) (p : Problem) : Transcript where
  exit := 1
  output := ""
  notices := Transcript.logs (events ++ [Event.failed p]) ++ [.text ("error: " ++ p.text ++ "\n")]

/-! ### Lines -/

/-- Lines, each with a break behind it. -/
def linesText (lines : List String) : String := String.join (lines.map (· ++ "\n"))

/-- A warning is logged by a part of the program. -/
def Event.warned (target : String) (w : Warning) : Event where
  level := .warn
  target := target
  message := w.message
  fields := [("property", .text w.property)]

namespace Command

/-! ### Checking -/

/-- The part of the program that checks. -/
def checkTarget : String := "pcap_api_conf_core::cli::conf::check"

/-- What is said of a configuration. -/
def summary (o : Outcome) : List String :=
  ["✔ Properties resolved successfully",
   "✔ id " ++ o.config.id,
   "✔ listening on port " ++ Digits.text o.config.port.toNat ++ " (" ++
     (if o.config.tls.isSome then "TLS" else "plain TCP") ++ ")",
   "✔ ip restriction " ++ (if o.config.enableIpRestriction then "enabled" else "disabled"),
   "✔ " ++ Digits.text o.materials.files.length ++ " material files"]

/-- What is said of a failure, and what can be done about it. -/
def complaint (f : Failure) (plain : Bool) : String :=
  linesText ((if plain then [f.message] else ["", "  × " ++ f.message]) ++
    (f.hint.map fun h => ["", h]).getD [])

/-- The transcript of a check. -/
def checkTranscript (plain : Bool) (t : Traced Outcome) : Transcript :=
  match t.result with
  | .ok o =>
      { exit := 0
        output := linesText (summary o ++ if plain then o.report.plainLines else o.report.styledLines)
        notices := Transcript.logs (t.events ++ o.report.warnings.map (Event.warned checkTarget)) }
  | .error failure =>
      { exit := 1
        output := ""
        notices := Transcript.logs t.events ++ [.text (complaint failure plain)] }

section

variable {m : Type → Type} [Monad m] [FileSystem m]

/-- **Saying whether a property file can be resolved**, below the usual root. -/
def checkFile (path : Path) (instanceId : Option String) (plain : Bool) : m Transcript := do
  let t ← Outcome.load path instanceId Material.defaultRoot
  pure (checkTranscript plain t)

/-! ### Rendering -/

/-- The part of the program that renders. -/
def renderTarget : String := "pcap_api_conf_core::cli::conf::render"

/-- A configuration has been written. -/
def wrote (root : Path) (files : Nat) : Event where
  level := .info
  target := renderTarget
  message := "wrote pcap-api configuration"
  fields := [("root", .text root.display), ("files", .number files)]

/-- The transcript of printing a document. -/
def printed (events : List Event) (document : Except Failure String) : Transcript :=
  match document with
  | .ok s => ⟨0, Text.trimEnd s ++ "\n", Transcript.logs events⟩
  | .error failure => Transcript.failed events failure.problem

/-- The transcript of writing a document and its materials. -/
def written (events : List Event) (root : Path) (t : Traced (List Path)) : Transcript :=
  match t.result with
  | .ok paths => ⟨0, "", Transcript.logs (events ++ t.events ++ [wrote root paths.length])⟩
  | .error failure => Transcript.failed (events ++ t.events) failure.problem

/-- **Printing the document of a property file, or writing it with its materials.** -/
def renderFile (path : Path) (instanceId : Option String) (root : Path) (form : Config.Form)
    (write : Bool) : m Transcript := do
  let t ← Outcome.load path instanceId root
  match t.result with
  | .error failure => pure (Transcript.failed t.events failure.problem)
  | .ok o => do
      let events := t.events ++ o.report.warnings.map (Event.warned renderTarget)
      if write then do
        let w ← o.write form root
        pure (written events root w)
      else pure (printed events (o.config.text form))

/-! ### Starting -/

/-- **Writing a sample property file.** -/
def initFile (path : Path) : m Transcript := do
  match ← Sample.write path with
  | .ok () => pure ⟨0, "✔ wrote " ++ path.display ++ "\n", []⟩
  | .error failure => pure (Transcript.failed [] failure.problem)

/-- **Any of the commands.** -/
def run : Command → m Transcript
  | .check path instanceId plain => checkFile path instanceId plain
  | .render path instanceId root form write => renderFile path instanceId root form write
  | .init path => initFile path

end

end Command

/-! ### Command lines -/

/-- The name of the program. -/
def programName : String := "pcap-api-conf"

/-- The version of the program. -/
def programVersion : String := "0.1.0"

/-- How the program is used. -/
def usage : String := linesText
  ["Resolve pcap-api deployment properties into the service configuration",
   "",
   "Usage: pcap-api-conf <COMMAND>",
   "",
   "Commands:",
   "  check   Validate properties and exit",
   "  render  Print resolved configuration",
   "  init    Write a sample property file",
   "  help    Print this message or the help of the given subcommand(s)",
   "",
   "Options:",
   "  -h, --help     Print help",
   "  -V, --version  Print version"]

/-- **What a command line asks for.**  A wrong one has the exit status two. -/
def Request.run {m : Type → Type} [Monad m] [FileSystem m] (filter : LogFilter) :
    Request → m Transcript
  | .command c => do pure ((← c.run).filtered filter)
  | .version => pure ⟨0, programName ++ " " ++ programVersion ++ "\n", []⟩
  | .help => pure ⟨0, usage, []⟩
  | .misuse => pure ⟨2, "", [.text usage]⟩

/-- **A command line**, with what is set besides it. -/
def runArguments {m : Type → Type} [Monad m] [FileSystem m] (words : List String)
    (env : Environment) : m Transcript :=
  (Request.ofArguments words env).run (LogFilter.ofText env.logFilter)

end CaptureConfig
