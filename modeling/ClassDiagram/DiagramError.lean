import ClassDiagram.ModelError
import ClassDiagram.Notation.Diagnostic
import ClassDiagram.Route.Basic

/-! Everything that can go wrong between a project file and its outputs. -/

namespace ClassDiagram

inductive ProjectFault where
  | malformed
  | duplicateKey (key : String)
  | unknownKey (key : String)
  | blankName
  deriving DecidableEq, Repr

def ProjectFault.text : ProjectFault → String
  | .malformed => "invalid project file"
  | .duplicateKey key => "duplicate entity key `" ++ key ++ "`"
  | .unknownKey key => "unknown entity key `" ++ key ++ "`"
  | .blankName => "project name must not be empty"

inductive SettingsFault where
  | malformed
  | missingFile (path : String)
  deriving DecidableEq, Repr

def SettingsFault.text : SettingsFault → String
  | .malformed => "Failed to parse TOML configuration"
  | .missingFile path => "Missing configuration file: " ++ path

inductive DiagramError where
  | files
  | parse (error : Notation.ParseError) (source : String)
  | model (error : ModelError)
  | route (error : RouteError)
  | settings (fault : SettingsFault)
  | project (fault : ProjectFault)
  deriving DecidableEq, Repr

namespace DiagramError

def message : DiagramError → String
  | .files => "I/O error"
  | .parse error _ => error.message
  | .model error => "Model error: " ++ error.message
  | .route error => "Route error: " ++ error.message
  | .settings fault => "Configuration error: " ++ fault.text
  | .project fault => "Project error: " ++ fault.text

end DiagramError

end ClassDiagram
