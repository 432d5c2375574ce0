import MailScreen.Config.Reader
import MailScreen.Config.Valid
import MailScreen.Toml.Reader

/-!
# Configuration files

Model of `Config.from_toml`.

`Config.ofToml` reads the text of a configuration file and refuses one that is not well formed, one
with a value of the wrong type, and settings that cannot be used.
-/

namespace MailScreen.Config

/-- Reads the text of a configuration file. -/
def ofToml (text : String) : Except Error Config :=
  match (Toml.ofText? text).bind ofSetting? with
  | none => .error ⟨.configuration, "Failed to parse config"⟩
  | some c => c.check.map fun _ => c

end MailScreen.Config
