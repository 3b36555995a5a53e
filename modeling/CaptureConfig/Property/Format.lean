/-
**Notations of property files.**

The notation of a property file is told by its extension alone.

Main definitions:

* `Format` — the notations;
* `Format.ofPath?` — the notation of a path.
-/

import CaptureConfig.Path
import CaptureConfig.Text.Blank

set_option relaxedAutoImplicit false
set_option autoImplicit false

namespace CaptureConfig

/-- The notations of property files. -/
inductive Format where
  | yaml
  | json
  | hcl
  deriving DecidableEq, Repr

namespace Format

/-- The name of a notation. -/
def name : Format → String
  | .yaml => "Yaml"
  | .json => "Json"
  | .hcl => "Hcl"

/-- The notation of an extension, whatever its letters' case. -/
def ofExtension? (ext : String) : Option Format :=
  match Text.lowerAscii ext with
  | "yml" => some .yaml
  | "yaml" => some .yaml
  | "json" => some .json
  | "hcl" => some .hcl
  | _ => none

/-- **The notation of a path.** -/
def ofPath? (p : Path) : Option Format := (p.extension?.bind Utf8.decode?).bind ofExtension?

end Format

end CaptureConfig
