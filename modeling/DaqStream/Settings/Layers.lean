import DaqStream.Settings.Reading
import DaqStream.Settings.Variables
import DaqStream.Toml.Document

/-!
# Layers of settings

Settings come from a document, over which the variables are laid; what neither mentions has
its default.
-/

namespace DaqStream.Settings

/-- The settings of a document, if there is one, and of the environment. -/
def load? (document : Option String) (environment : Environment) : Option Settings := do
  let entries ← match document with
    | some text => Toml.parse? text
    | none => some []
  ofValue? false ((Value.ofToml (.table entries)).overlay (.ofEnvironment environment))

end DaqStream.Settings
