import Pipeline.Config.Basic
import Pipeline.Error.Config
import Pipeline.Toml.Decode
import Pipeline.Yaml.Decode

/-!
# Loading configurations

The ending of a file's name says which document format it holds.
-/

namespace Pipeline

/-- The document formats of configuration files. -/
inductive DocumentFormat
  | yaml
  | toml
  deriving DecidableEq, Repr

/-- The last name of a path; `.` and slashes at its end do not count. -/
def fileNameOf? (path : String) : Option String :=
  match (Files.namesOf path).getLast? with
  | some name => if name = ".." ∨ name = "." then none else some name
  | none => none

/-- The ending of a file name: what stands after its last point, unless the name
starts with that point. -/
def extensionOf? (name : String) : Option String :=
  match (name.splitOn ".").reverse with
  | ending :: before :: rest => if rest = [] ∧ before = "" then none else some ending
  | _ => none

/-- The format that a path's ending says. -/
def DocumentFormat.ofPath? (path : String) : Option DocumentFormat :=
  match (fileNameOf? path).bind extensionOf? with
  | none => none
  | some ending =>
    let ending := ending.map Char.toLower
    if ending = "yaml" ∨ ending = "yml" then some .yaml
    else if ending = "toml" then some .toml
    else none

namespace PipelineConfig

/-- Read a configuration from a TOML document. -/
def ofToml (text : String) : Except ConfigError PipelineConfig :=
  match (Toml.Node.parse? text).map (PipelineConfig.decode Toml.Node.format) with
  | some (.ok c) => .ok c
  | _ => .error .toml

/-- Read a configuration from a YAML document. -/
def ofYaml (text : String) : Except ConfigError PipelineConfig :=
  match Yaml.decodeText? (PipelineConfig.decode Yaml.format) text with
  | some c => .ok c
  | none => .error .yaml

/-- Read a configuration from a text in a document format. -/
def ofText : DocumentFormat → String → Except ConfigError PipelineConfig
  | .yaml, text => ofYaml text
  | .toml, text => ofToml text

/-- Read a configuration from a file. -/
def load (fs : Files) (path : String) : Except ConfigError PipelineConfig :=
  match DocumentFormat.ofPath? path with
  | none => .error (.unsupportedFormat path)
  | some format =>
    match fs.read path with
    | .ok text => ofText format text
    | .error fault => .error (.file path fault)

end PipelineConfig

end Pipeline
