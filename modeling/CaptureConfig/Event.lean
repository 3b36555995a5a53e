/-
**Events.**

While a configuration is resolved the steps tell what they do.  An event has a level, the part of
the program that it comes from, a message and named fields.  A traced result is a result together
with the events that led to it, in order; a failure keeps the events before it.

Main definitions:

* `Event` — what a step tells;
* `Traced` — a result with its events;
* `Traced.bind` — one step after another.

Main results:

* `Traced.events_bind_ok`, `Traced.events_bind_error` — the events of two steps.
-/

import CaptureConfig.Failure

set_option relaxedAutoImplicit false
set_option autoImplicit false

namespace CaptureConfig

/-- How much an event matters. -/
inductive Level where
  | trace
  | debug
  | info
  | warn
  | error
  deriving DecidableEq, Repr

/-- Where a level stands among the others. -/
def Level.rank : Level → Nat
  | .trace => 5
  | .debug => 4
  | .info => 3
  | .warn => 2
  | .error => 1

/-- The content of a field. -/
inductive Event.Field where
  | text (s : String)
  | number (n : Nat)
  | flag (b : Bool)
  deriving DecidableEq, Repr

/-- What a step tells. -/
structure Event where
  level : Level
  /-- The part of the program that tells it. -/
  target : String
  message : String
  fields : List (String × Event.Field)
  deriving DecidableEq, Repr

/-- The text of a field. -/
def Event.Field.toString : Event.Field → String
  | .text s => s
  | .number n => Digits.text n
  | .flag b => if b then "true" else "false"

/-- A result together with the events that led to it. -/
structure Traced (α : Type) where
  events : List Event
  result : Except Failure α
  deriving Repr

namespace Traced

variable {α β : Type}

/-- A result without events. -/
def quiet (r : Except Failure α) : Traced α := ⟨[], r⟩

/-- An event and nothing else. -/
def tell (e : Event) : Traced Unit := ⟨[e], .ok ()⟩

/-- One step after another; a failure ends them. -/
def bind (t : Traced α) (f : α → Traced β) : Traced β :=
  match t.result with
  | .ok a => ⟨t.events ++ (f a).events, (f a).result⟩
  | .error e => ⟨t.events, .error e⟩

instance : Monad Traced where
  pure a := quiet (.ok a)
  bind := bind

theorem events_bind_ok {t : Traced α} {a : α} (h : t.result = .ok a) (f : α → Traced β) :
    (t.bind f).events = t.events ++ (f a).events := by
  simp [bind, h]

theorem events_bind_error {t : Traced α} {e : Failure} (h : t.result = .error e)
    (f : α → Traced β) : (t.bind f).events = t.events := by
  simp [bind, h]

end Traced

end CaptureConfig
