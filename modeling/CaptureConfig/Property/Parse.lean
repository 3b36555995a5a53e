/-
**Reading property files.**

Main definitions:

* `PropertyFile.ofText` — the property file that a text is in a notation.
-/

import CaptureConfig.Hcl.Body
import CaptureConfig.Json.Reader
import CaptureConfig.Property.Format
import CaptureConfig.Property.Schema
import CaptureConfig.Yaml.Alias

set_option relaxedAutoImplicit false
set_option autoImplicit false

namespace CaptureConfig

/-- **The property file that a text is in a notation.** -/
def PropertyFile.ofText (format : Format) (s : String) : Except Fault PropertyFile :=
  match format with
  | .yaml => Yaml.read Properties.Reading.file s
  | .json => Json.read Properties.Reading.file s
  | .hcl => Hcl.read Properties.Reading.file s

end CaptureConfig
