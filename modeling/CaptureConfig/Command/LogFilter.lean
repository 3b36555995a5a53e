/-
**Which events are logged.**

A filter is a list of directives between commas.  A directive names parts of the program by the
beginning of their names, and the least level that is logged for them; of several that fit an
event the one with the longest name counts.

Main definitions:

* `LogFilter` — a filter;
* `LogFilter.ofText` — the filter that a text asks for;
* `LogFilter.passes` — the events that are logged.
-/

import CaptureConfig.Event
import CaptureConfig.Text.Blank

set_option relaxedAutoImplicit false
set_option autoImplicit false

namespace CaptureConfig

/-- How much is logged of a part of the program: the rank of the least level, none at zero. -/
structure Directive where
  /-- The beginning of the names of the parts; the empty one fits all. -/
  target : String
  rank : Nat
  deriving DecidableEq, Repr

/-- A filter: directives in the order in which they are given. -/
structure LogFilter where
  directives : List Directive
  deriving DecidableEq, Repr

namespace Directive

/-- The rank that a number asks for. -/
def rankOfNumber? (cs : List Char) : Option Nat :=
  let digits := match cs with
    | '+' :: rest => rest
    | _ => cs
  (Digits.whole? 10 digits).filter (· ≤ 5)

/-- The rank that a word asks for, whatever the case of its letters. -/
def rankOfWord? (word : String) : Option Nat :=
  match Text.lowerAscii word with
  | "off" => some 0
  | "error" => some 1
  | "warn" => some 2
  | "info" => some 3
  | "debug" => some 4
  | "trace" => some 5
  | _ => none

/-- The rank that a level asks for. -/
def rank? (cs : List Char) : Option Nat :=
  rankOfNumber? cs <|> rankOfWord? (String.ofList cs)

/-- The rank of everything. -/
def allRanks : Nat := 5

/-- The rank behind an equals sign; nothing there asks for everything. -/
def attachedRank? (cs : List Char) : Option Nat := if cs.isEmpty then some allRanks else rank? cs

/-- A character with which a directive can start. -/
def canStart (c : Char) : Bool :=
  c.isAlphanum || c == '-' || c == ':' || c == '_' || 0x80 ≤ c.toNat

/-- What a directive about spans has behind its bracket: nothing, or a level. -/
def isAfterSpan : List Char → Bool
  | [] => true
  | '=' :: level => (attachedRank? level).isSome
  | _ => false

/-- **The directives that a piece of a filter is**: one, or none if it is about spans, which no
event is in. -/
def ofChars? (cs : List Char) : Option (List Directive) :=
  let name := cs.takeWhile fun c => c != '=' && c != '['
  if ! (cs.head?.any fun c => canStart c || c == '[') then none
  else match cs.dropWhile fun c => c != '=' && c != '[' with
    | '=' :: level => (attachedRank? level).map fun rank => [⟨String.ofList name, rank⟩]
    | '[' :: span =>
        match span.dropWhile (· != ']') with
        | ']' :: behind => if isAfterSpan behind then some [] else none
        | _ => none
    | _ =>
        match rank? name with
        | some rank => some [⟨"", rank⟩]
        | none => some [⟨String.ofList name, allRanks⟩]

/-- The directive fits an event. -/
def fits (d : Directive) (e : Event) : Bool := d.target.toList.isPrefixOf e.target.toList

end Directive

namespace LogFilter

/-- A filter that logs a level, and what matters more, of everything. -/
def upTo (level : Level) : LogFilter := ⟨[⟨"", level.rank⟩]⟩

/-- The filter that a text is.  A text without directives logs errors. -/
def ofText? (s : String) : Option LogFilter :=
  match (s.splitOn ",").filter (· != "") with
  | [] => some (upTo .error)
  | pieces => (pieces.mapM fun p => Directive.ofChars? (Text.trim p).toList).map fun ds => ⟨ds.flatten⟩

/-- **The filter that a text asks for.**  No text, and one that is no filter, ask for the usual
one. -/
def ofText (s : Option String) : LogFilter := (s.bind ofText?).getD (upTo .info)

/-- The better one of two directives that fit: the one with the longer name, else the later. -/
def prefer (a b : Directive) : Directive := if b.target.length < a.target.length then a else b

/-- The directive that counts for an event. -/
def directive? (f : LogFilter) (e : Event) : Option Directive :=
  match f.directives.filter (·.fits e) with
  | [] => none
  | d :: rest => some (rest.foldl prefer d)

/-- **The events that are logged.** -/
def passes (f : LogFilter) (e : Event) : Bool :=
  (f.directive? e).any fun d => e.level.rank ≤ d.rank

end LogFilter

end CaptureConfig
