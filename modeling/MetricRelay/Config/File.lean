import MetricRelay.Disk.Basic
import MetricRelay.Failure

/-!
# Configuration files

Main definition:

- `Config.load`: the configuration in a file.
-/

namespace MetricRelay.Config

/-- The text of a file, or why there is none. -/
def fileText (disk : Disk) (path : String) : Except String String :=
  let noText : Except String String := .error "its content is not a text"
  match disk.look path with
  | .error fault => .error fault.message
  | .ok .directory => .error DiskFault.isDirectory.message
  | .ok (.database _) => noText
  | .ok (.file content) =>
    match Utf8.decode? content with
    | some text => .ok text
    | none => noText

/-- The configuration that the text of a file states. -/
def load {α : Type} (parse : String → Outcome α) (disk : Disk) (path : String) : Outcome α :=
  match fileText disk path with
  | .ok text => parse text
  | .error why => .error (.internal ("read config " ++ path ++ " failed: " ++ why))

end MetricRelay.Config
