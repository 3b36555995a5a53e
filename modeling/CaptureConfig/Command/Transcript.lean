/-
**What a command says.**

A command prints to the standard output, and beside it logs events and prints complaints.  In the
end it has an exit status.

Main definitions:

* `Notice` — a logged event or a complaint;
* `Transcript` — all that a command says;
* `Event.line` — an event as a line of a log;
* `Transcript.filtered` — the events that a filter lets pass.
-/

import CaptureConfig.Command.LogFilter
import CaptureConfig.Json.Printer

set_option relaxedAutoImplicit false
set_option autoImplicit false

namespace CaptureConfig

/-- What a command says beside its output. -/
inductive Notice where
  | logged (event : Event)
  | text (s : String)
  deriving DecidableEq, Repr

/-- All that a command says. -/
structure Transcript where
  exit : Nat
  output : String
  notices : List Notice
  deriving DecidableEq, Repr

/-- The name of a level. -/
def Level.name : Level → String
  | .trace => "TRACE"
  | .debug => "DEBUG"
  | .info => "INFO"
  | .warn => "WARN"
  | .error => "ERROR"

/-- The content of a field in strict notation. -/
def Event.Field.json : Event.Field → Json
  | .text s => .text s
  | .number n => .number n
  | .flag b => .bool b

namespace Event

/-- What a log says of an event: its level, its message and its fields. -/
def entries (e : Event) : List (String × Json) :=
  [("level", .text e.level.name), ("message", .text e.message)] ++
    e.fields.map fun (name, field) => (name, field.json)

/-- A key and its value. -/
def entryText (entry : String × Json) : String := (Json.text entry.1).print ++ ":" ++ entry.2.print

/-- **An event as a line of a log**, with the part of the program at its end.  No value has parts,
so none is broken into lines. -/
def line (e : Event) : String :=
  "\x7b" ++ ",".intercalate ((e.entries ++ [("target", Json.text e.target)]).map entryText) ++ "\x7d"

end Event

namespace Transcript

/-- The notices of events. -/
def logs (events : List Event) : List Notice := events.map .logged

/-- A notice that a filter lets pass. -/
def passes (f : LogFilter) : Notice → Bool
  | .logged e => f.passes e
  | .text _ => true

/-- **A transcript with the events that a filter lets pass.** -/
def filtered (f : LogFilter) (t : Transcript) : Transcript :=
  { t with notices := t.notices.filter (passes f) }

end Transcript

end CaptureConfig
