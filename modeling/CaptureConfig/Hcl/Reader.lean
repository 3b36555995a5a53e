/-
**Reading expressions.**

Every function takes a text and leaves what is behind the part that it has read.  The first flag
says whether lines may end between the parts of an expression, as they may inside brackets.

Main definitions:

* `Hcl.number?` — a number;
* `Hcl.operator?` — an operator between two expressions;
* `Hcl.expr` — the expression at the front of a text.
-/

import CaptureConfig.Hcl.Expr
import CaptureConfig.Hcl.Template

set_option relaxedAutoImplicit false
set_option autoImplicit false

namespace CaptureConfig

namespace Hcl

/-! ### Numbers -/

/-- Digits, at least one. -/
def digits? (cs : List Char) : Option (List Char × List Char) :=
  match Digits.span 10 cs with
  | ([], _) => none
  | found => some found

/-- A power of ten behind its mark. -/
def power? : List Char → Option (Int × List Char)
  | [] => none
  | c :: rest =>
      if c = 'e' ∨ c = 'E' then
        let (sign, rest) := match rest with
          | '-' :: rest => (-1, rest)
          | '+' :: rest => (1, rest)
          | rest => ((1 : Int), rest)
        (digits? rest).map fun (ds, rest) => (sign * Digits.toNat 10 ds, rest)
      else none

/-- The digits behind a point. -/
def places? : List Char → Option (List Char × List Char)
  | '.' :: rest => digits? rest
  | _ => none

/-- The bounds of a whole number that comes from one with a point. -/
def clampWhole (i : Int) : Int := max (- (Nat.pow 2 63 : Int)) (min i (Nat.pow 2 63 - 1 : Int))

/-- A number with a point; if it is whole, it counts as a whole one, within bounds. -/
def ofFloat : Binary64 → Expr
  | .finite s m e =>
      let (n, d) := Binary64.toRatio m e
      if n % d = 0 then .int (clampWhole (if s then - (n / d : Nat) else (n / d : Nat)))
      else .float (.finite s m e)
  | f => .float f

/-- **A number**: with a point or a power, or whole and of at most 64 bits. -/
def number? (cs : List Char) : Option (Expr × List Char) := do
  let (whole, rest) ← digits? cs
  let (places, behindPlaces) := (places? rest).getD ([], rest)
  match if places.isEmpty then power? rest else some ((power? behindPlaces).getD (0, behindPlaces))
  with
  | some (power, rest) =>
      let f := Binary64.ofDecimal false (Digits.toNat 10 (whole ++ places)) (power - places.length)
      if f.isFinite then pure (ofFloat f, rest) else none
  | none =>
      let n := Digits.toNat 10 whole
      if n < Nat.pow 2 64 then pure (.int n, rest) else none

/-- A number with its sign turned, which takes a bit of the 64. -/
def negated : Expr → Expr
  | .int i => .int ((- i).bmod (Nat.pow 2 64))
  | .float f => .float f.neg
  | e => e

/-! ### Operators -/

/-- **An operator between two expressions.** -/
def operator? : List Char → Option (String × List Char)
  | '=' :: '=' :: rest => some ("==", rest)
  | '!' :: '=' :: rest => some ("!=", rest)
  | '<' :: '=' :: rest => some ("<=", rest)
  | '>' :: '=' :: rest => some (">=", rest)
  | '&' :: '&' :: rest => some ("&&", rest)
  | '|' :: '|' :: rest => some ("||", rest)
  | '/' :: c :: rest => if c = '/' ∨ c = '*' then none else some ("/", c :: rest)
  | '<' :: rest => some ("<", rest)
  | '>' :: rest => some (">", rest)
  | '+' :: rest => some ("+", rest)
  | '-' :: rest => some ("-", rest)
  | '*' :: rest => some ("*", rest)
  | '%' :: rest => some ("%", rest)
  | _ => none

/-- What is behind a given text, if it stands in front. -/
def behindText (text : String) (cs : List Char) : Option (List Char) :=
  if text.toList.isPrefixOf cs then some (cs.drop text.length) else none

/-- What is behind a given word, if it stands in front and ends there. -/
def behindWord (word : String) (cs : List Char) : Option (List Char) :=
  (behindText word cs).filter fun rest => ! rest.head?.any isNameChar

/-- The names before a call, with two colons between them, behind a first one. -/
def namespaced : (fuel : Nat) → (name : List Char) → List Char → List Char × List Char
  | 0, name, cs => (name, cs)
  | fuel + 1, name, cs =>
      match behindText "::" cs with
      | none => (name, cs)
      | some rest =>
          match name? rest with
          | none => (name, cs)
          | some (n, rest) => namespaced fuel (name ++ "::".toList ++ n) rest

/-- The kinds of parts of a template that have an end of their own. -/
inductive Open where
  | condition (elseSeen : Bool)
  | loop
  deriving DecidableEq

/-- A list of texts with commas between them. -/
def commas (texts : List String) : String := ", ".intercalate texts

/-- The marks around a part of a template. -/
def part (mark : String) (stripBefore stripBehind : Bool) (source : String) : String :=
  mark ++ "\x7b" ++ (if stripBefore then "~" else "") ++ source ++
    (if stripBehind then "~" else "") ++ "\x7d"

/-- A tilde, if there is one. -/
def tilde : List Char → Bool × List Char
  | '~' :: rest => (true, rest)
  | cs => (false, cs)

/-- The end of a part of a template, and whether the blanks behind it are to be dropped. -/
def partEnd? (cs : List Char) : Option (Bool × List Char) :=
  match tilde (skipBlanks true cs) with
  | (strip, '\x7d' :: rest) => some (strip, rest)
  | _ => none

/-- The variables of a loop and the word behind them. -/
def loopNames? (cs : List Char) : Option (String × List Char) := do
  let (n, rest) ← name? (skipBlanks true cs)
  let first := String.ofList n
  let (names, rest) ← match skipBlanks true rest with
    | ',' :: rest => do
        let (m, rest) ← name? (skipBlanks true rest)
        pure (commas [first, String.ofList m], rest)
    | rest => pure (first, rest)
  pure (names, ← behindWord "in" (skipBlanks true rest))

/-- Fuel for a text: between two characters a reader takes at most eight steps. -/
def fuelFor (cs : List Char) : Nat := 8 * (cs.length + 2)

mutual

/-- **The expression at the front of a text.** -/
def expr : (fuel : Nat) → (acrossLines : Bool) → List Char → Option (Expr × List Char)
  | 0, _, _ => none
  | fuel + 1, acrossLines, cs => do
      let (e, rest) ← operand fuel acrossLines cs
      match skipBlanks acrossLines rest with
      | '?' :: behind => do
          let (yes, behind) ← expr fuel acrossLines (skipBlanks acrossLines behind)
          match skipBlanks acrossLines behind with
          | ':' :: behind => do
              let (no, behind) ← expr fuel acrossLines (skipBlanks acrossLines behind)
              pure (.formula (e.print ++ " ? " ++ yes.print ++ " : " ++ no.print), behind)
          | _ => none
      | behind =>
          match operator? behind with
          | none => pure (e, rest)
          | some (op, behind) => do
              let (f, behind) ← expr fuel acrossLines (skipBlanks acrossLines behind)
              pure (.formula (e.print ++ " " ++ op ++ " " ++ f.print), behind)

/-- An expression without operators but signs in front of it. -/
def operand : (fuel : Nat) → (acrossLines : Bool) → List Char → Option (Expr × List Char)
  | 0, _, _ => none
  | fuel + 1, acrossLines, '!' :: rest => do
      let (e, rest) ← operand fuel acrossLines (skipBlanks acrossLines rest)
      pure (.formula ("!" ++ e.print), rest)
  | fuel + 1, acrossLines, '-' :: rest =>
      match number? (skipBlanks acrossLines rest) with
      | some (n, rest) => some (negated n, rest)
      | none => do
          let (e, rest) ← operand fuel acrossLines (skipBlanks acrossLines rest)
          pure (.formula ("-" ++ e.print), rest)
  | fuel + 1, _, cs => do
      let (e, rest) ← term fuel cs
      let (path, rest) ← traversal fuel rest
      pure (if path.isEmpty then e else .formula (e.print ++ path), rest)

/-- The steps behind a term: attributes, indices and splats. -/
def traversal : (fuel : Nat) → List Char → Option (String × List Char)
  | 0, _ => none
  | fuel + 1, '.' :: '*' :: rest => (traversal fuel rest).map fun (p, rest) => (".*" ++ p, rest)
  | fuel + 1, '.' :: rest => do
      let (n, rest) ← name? rest <|> digits? rest
      let (p, rest) ← traversal fuel rest
      pure ("." ++ String.ofList n ++ p, rest)
  | fuel + 1, '[' :: rest =>
      match skipBlanks true rest with
      | '*' :: behind => do
          let behind ← behindText "]" (skipBlanks true behind)
          let (p, rest) ← traversal fuel behind
          pure ("[*]" ++ p, rest)
      | behind => do
          let (e, behind) ← expr fuel true behind
          let behind ← behindText "]" (skipBlanks true behind)
          let (p, rest) ← traversal fuel behind
          pure ("[" ++ e.print ++ "]" ++ p, rest)
  | _ + 1, cs => some ("", cs)

/-- An expression that its first character tells. -/
def term : (fuel : Nat) → List Char → Option (Expr × List Char)
  | 0, _ => none
  | _, [] => none
  | fuel + 1, '"' :: rest => do
      let (read, written, isTemplate, rest) ← template fuel true [] rest
      pure (if isTemplate then .template (String.ofList written) else .text (String.ofList read),
        rest)
  | fuel + 1, '<' :: '<' :: rest => do
      let (content, rest) ← heredoc? rest
      let (_, written, _, _) ← template fuel false [] content
      pure (.template (String.ofList written), rest)
  | fuel + 1, '(' :: rest => do
      let (e, rest) ← expr fuel true (skipBlanks true rest)
      pure (.parens e, ← behindText ")" (skipBlanks true rest))
  | fuel + 1, '[' :: rest =>
      match behindWord "for" (skipBlanks true rest) with
      | some rest => do
          let (source, rest) ← loop fuel rest
          pure (.formula ("[" ++ source ++ "]"), ← behindText "]" (skipBlanks true rest))
      | none => do
          let (items, rest) ← itemsUntil fuel ']' rest
          pure (.array items, rest)
  | fuel + 1, '\x7b' :: rest =>
      match behindWord "for" (skipBlanks true rest) with
      | some rest => do
          let (source, rest) ← loop fuel rest
          pure (.formula ("\x7b" ++ source ++ "\x7d"), ← behindText "\x7d" (skipBlanks true rest))
      | none => do
          let (entries, rest) ← entriesUntil fuel [] rest
          pure (.object entries, rest)
  | fuel + 1, c :: rest =>
      if Digits.isDigit 10 c then number? (c :: rest)
      else do
        let (n, rest) ← name? (c :: rest)
        let (n, rest) := namespaced rest.length n rest
        let word := String.ofList n
        match rest with
        | '(' :: rest => do
            let (source, rest) ← arguments fuel rest
            pure (.formula (word ++ "(" ++ source ++ ")"), rest)
        | rest =>
            if word = "null" then pure (.null, rest)
            else if word = "true" then pure (.bool true, rest)
            else if word = "false" then pure (.bool false, rest)
            else pure (.formula word, rest)

/-- Items with commas between them, up to a bracket. -/
def itemsUntil : (fuel : Nat) → (bracket : Char) → List Char → Option (List Expr × List Char)
  | 0, _, _ => none
  | fuel + 1, bracket, cs =>
      match skipBlanks true cs with
      | [] => none
      | c :: rest =>
          if c = bracket then some ([], rest)
          else do
            let (e, rest) ← expr fuel true (c :: rest)
            match skipBlanks true rest with
            | ',' :: rest => do
                let (es, rest) ← itemsUntil fuel bracket rest
                pure (e :: es, rest)
            | d :: rest => if d = bracket then pure ([e], rest) else none
            | [] => none

/-- The arguments of a call, up to its closing bracket; the last one may be spread. -/
def arguments : (fuel : Nat) → List Char → Option (String × List Char)
  | 0, _ => none
  | fuel + 1, cs =>
      match skipBlanks true cs with
      | ')' :: rest => some ("", rest)
      | cs => do
          let (e, rest) ← expr fuel true cs
          match skipBlanks true rest with
          | ',' :: rest => do
              let (source, rest) ← arguments fuel rest
              pure (if source.isEmpty then e.print else commas [e.print, source], rest)
          | ')' :: rest => pure (e.print, rest)
          | rest => do
              let rest ← behindText "..." rest
              pure (e.print ++ "...", ← behindText ")" (skipBlanks true rest))

/-- The entries of an object, up to its closing bracket, behind others.  A key must not be repeated
in the same spelling. -/
def entriesUntil :
    (fuel : Nat) → (before : List (Expr × Expr)) → List Char → Option (List (Expr × Expr) × List Char)
  | 0, _, _ => none
  | fuel + 1, before, cs =>
      match skipBlanks true cs with
      | '\x7d' :: rest => some (before, rest)
      | cs => do
          let (k, rest) ← key fuel cs
          let rest ← match skipBlanks false rest with
            | '=' :: rest => some rest
            | ':' :: rest => some rest
            | _ => none
          let (e, rest) ← expr fuel false (skipBlanks false rest)
          if before.any fun (k', _) => k'.print == k.print then none
          else
            let entries := before ++ [(k, e)]
            match skipBlanks false rest with
            | '\x7d' :: rest => pure (entries, rest)
            | ',' :: rest => entriesUntil fuel entries rest
            | rest => do entriesUntil fuel entries (← break? (skipLineComment rest))

/-- The key of an entry: a name, or an expression. -/
def key : (fuel : Nat) → List Char → Option (Expr × List Char)
  | 0, _ => none
  | fuel + 1, cs =>
      match name? cs with
      | none => expr fuel false cs
      | some (n, rest) =>
          match skipBlanks false rest with
          | '=' :: '=' :: _ => expr fuel false cs
          | '=' :: _ => some (.name (String.ofList n), rest)
          | ':' :: ':' :: _ => expr fuel false cs
          | ':' :: _ => some (.name (String.ofList n), rest)
          | _ => expr fuel false cs

/-- A loop in brackets behind its word, up to the closing bracket. -/
def loop : (fuel : Nat) → List Char → Option (String × List Char)
  | 0, _ => none
  | fuel + 1, cs => do
      let (names, rest) ← loopNames? cs
      let (collection, rest) ← expr fuel true (skipBlanks true rest)
      let rest ← behindText ":" (skipBlanks true rest)
      let (value, rest) ← expr fuel true (skipBlanks true rest)
      let (value, rest) ← match behindText "=>" (skipBlanks true rest) with
        | none => pure (value.print, rest)
        | some rest => do
            let (e, rest) ← expr fuel true (skipBlanks true rest)
            pure (value.print ++ " => " ++ e.print, rest)
      let (value, rest) := match behindText "..." (skipBlanks true rest) with
        | none => (value, rest)
        | some rest => (value ++ "...", rest)
      let (value, rest) ← match behindWord "if" (skipBlanks true rest) with
        | none => pure (value, rest)
        | some rest => do
            let (e, rest) ← expr fuel true (skipBlanks true rest)
            pure (value ++ " if " ++ e.print, rest)
      pure ("for " ++ names ++ " in " ++ collection.print ++ " : " ++ value, rest)

/-- The rest of a template: what is read, what is written, whether it has parts to be filled in,
and the text behind it.  `opened` are the parts that still need their ends. -/
def template : (fuel : Nat) → (inQuotes : Bool) → (opened : List Open) → List Char →
    Option (List Char × List Char × Bool × List Char)
  | 0, _, _, _ => none
  | fuel + 1, inQuotes, opened, cs =>
      match piece inQuotes cs with
      | .wrong => none
      | .closed rest => if opened.isEmpty then some ([], [], false, rest) else none
      | .ended => if opened.isEmpty && ! inQuotes then some ([], [], false, []) else none
      | .chars read written rest => do
          let (r, w, isTemplate, rest) ← template fuel inQuotes opened rest
          pure (read ++ r, written ++ w, isTemplate, rest)
      | .interpolation rest => do
          let (stripBefore, rest) := tilde rest
          let (e, rest) ← expr fuel true (skipBlanks true rest)
          let (stripBehind, rest) ← partEnd? rest
          let (_, w, _, rest) ← template fuel inQuotes opened rest
          pure ([], (part "$" stripBefore stripBehind e.print).toList ++ w, true, rest)
      | .directive rest => do
          let (stripBefore, rest) := tilde rest
          let (source, opened, rest) ← directive fuel opened (skipBlanks true rest)
          let (stripBehind, rest) ← partEnd? rest
          let (_, w, _, rest) ← template fuel inQuotes opened rest
          pure ([], (part "%" stripBefore stripBehind (" " ++ source ++ " ")).toList ++ w, true,
            rest)

/-- A directive of a template, and the parts that need their ends behind it. -/
def directive : (fuel : Nat) → (opened : List Open) → List Char →
    Option (String × List Open × List Char)
  | 0, _, _ => none
  | fuel + 1, opened, cs =>
      match behindWord "if" cs, behindWord "for" cs with
      | some rest, _ => do
          let (e, rest) ← expr fuel true (skipBlanks true rest)
          pure ("if " ++ e.print, .condition false :: opened, rest)
      | _, some rest => do
          let (names, rest) ← loopNames? rest
          let (e, rest) ← expr fuel true (skipBlanks true rest)
          pure ("for " ++ names ++ " in " ++ e.print, .loop :: opened, rest)
      | none, none =>
          match opened, behindWord "else" cs, behindWord "endif" cs, behindWord "endfor" cs with
          | .condition false :: outer, some rest, _, _ => some ("else", .condition true :: outer, rest)
          | .condition _ :: outer, _, some rest, _ => some ("endif", outer, rest)
          | .loop :: outer, _, _, some rest => some ("endfor", outer, rest)
          | _, _, _, _ => none

end

end Hcl

end CaptureConfig
