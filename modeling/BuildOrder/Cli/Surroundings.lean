import BuildOrder.Cli.Run
import BuildOrder.Ignore.Walk
import BuildOrder.Toml.Config

/-! What a run depends on where files are a tree and configurations are TOML documents. -/
namespace BuildOrder.Cli

/-- `userRules` is the ignore file of the user. -/
def Environment.ofTree (tree : FileTree) (userRules : List UInt8) (formatVariable : Option String)
    (time : String) : Environment where
  files := tree.files
  walk := Ignore.walk tree userRules
  readConfig := Config.ofToml
  formatVariable
  time

end BuildOrder.Cli
