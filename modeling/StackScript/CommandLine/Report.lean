import StackScript.CommandLine.Arguments
import StackScript.Session.Operations

/-!
# Reports of written containers

The report of a written container is its path, or an object with the path, the script and
the fields of the header, one to a line and in the order of their keys.
-/

namespace StackScript.Report

/-- A character inside a quoted text: quotation marks, backslashes and control characters
are escaped. -/
def escape (c : Char) : String :=
  match c with
  | '"' => "\\\""
  | '\\' => "\\\\"
  | '\x08' => "\\b"
  | '\t' => "\\t"
  | '\n' => "\\n"
  | '\x0c' => "\\f"
  | '\r' => "\\r"
  | c => if c.toNat < 32 then "\\u" ++ Fingerprint.hex 4 c.toNat else String.singleton c

/-- A text in quotation marks. -/
def quoted (s : String) : String :=
  "\"" ++ String.join (s.toList.map escape) ++ "\""

/-- The fields of a report with their keys. -/
def fields (script : Path) (c : WrittenContainer) : List (String × String) :=
  [("container", quoted c.path.text), ("source", quoted script.text),
    ("source_mtime", Word.natText c.header.mtime.toNat),
    ("source_size", Word.natText c.header.size.toNat)]

/-- An object, one field to a line. -/
def object (fields : List (String × String)) : String :=
  "\x7b\n" ++ ",\n".intercalate (fields.map fun f => "  " ++ quoted f.1 ++ ": " ++ f.2) ++ "\n\x7d"

/-- The report of a container of a script. -/
def render (script : Path) (c : WrittenContainer) : ReportFormat → String
  | .text => c.path.text
  | .json => object (fields script c)

end StackScript.Report
