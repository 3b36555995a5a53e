/-
**A document written in blocks.**

Each entry of a block stands on a line of its own; the entries of an inner block stand two columns
further in, below its key.

Main definitions:

* `Yaml.entryChars` — the entries of a block;
* `Yaml.print` — the text of a document.
-/

import CaptureConfig.Document.Doc
import CaptureConfig.Yaml.Style

set_option relaxedAutoImplicit false
set_option autoImplicit false

namespace CaptureConfig

namespace Yaml

mutual

/-- What stands behind a key in a given column and its colon, up to the end of the line. -/
def valueChars (column : Nat) : Doc → List Char
  | .text s =>
      ' ' :: (scalarChars (column + 2) s ++ if endsLine s then [] else ['\n'])
  | .number n => ' ' :: (Digits.ofNat n ++ ['\n'])
  | .flag b => ' ' :: ((if b then "true".toList else "false".toList) ++ ['\n'])
  | .block [] => " \x7b\x7d\n".toList
  | .block (e :: rest) => '\n' :: entryChars (column + 2) (e :: rest)

/-- The entries of a block that stands in a given column. -/
def entryChars (column : Nat) : List (String × Doc) → List Char
  | [] => []
  | (k, d) :: rest =>
      indentChars column ++ scalarChars (column + 2) k ++ ':' :: valueChars column d ++
        entryChars column rest

end

/-- **The text of a document.** -/
def print : Doc → String
  | .block [] => "\x7b\x7d\n"
  | .block entries => String.ofList (entryChars 0 entries)
  | .text s => String.ofList (scalarChars 2 s ++ if endsLine s then [] else ['\n'])
  | .number n => String.ofList (Digits.ofNat n ++ ['\n'])
  | .flag b => if b then "true\n" else "false\n"

end Yaml

end CaptureConfig
