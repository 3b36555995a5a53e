/-
**The document as a text.**

A configuration document has two notations.  Each can be written and read back.

Main definitions:

* `Config.Form` — the notations of a document;
* `Config.text` — a document as a text;
* `Config.ofText` — the document that a text is.
-/

import CaptureConfig.Document.Schema
import CaptureConfig.Json.Reader
import CaptureConfig.Yaml.Alias
import CaptureConfig.Yaml.Printer

set_option relaxedAutoImplicit false
set_option autoImplicit false

namespace CaptureConfig

namespace Config

/-- The notations of a document. -/
inductive Form where
  | yaml
  | json
  deriving DecidableEq, Repr

/-- The name of the file with a document. -/
def Form.fileName : Form → String
  | .yaml => "pcap-api.yml"
  | .json => "pcap-api.json"

/-- Nested blocks as a text. -/
def Form.print : Form → Doc → String
  | .yaml, d => Yaml.print d
  | .json, d => d.toJson.print

/-- **A document as a text.** -/
def text (form : Form) (c : Config) : Except Failure String := c.toDoc.map form.print

/-- **The document that a text is.** -/
def ofText (form : Form) (s : String) : Except Fault Config :=
  match form with
  | .yaml => Yaml.read Reading.config s
  | .json => Json.read Reading.config s

end Config

end CaptureConfig
