import BuildOrder.Dialect
import BuildOrder.FileSystem
import BuildOrder.Text.Utf8

/-! Configuration: a document and an environment variable. -/
namespace BuildOrder

/-- How an order is printed. -/
inductive OutputFormat where
  | text
  | json
  deriving DecidableEq

structure Config where
  extensions : Extensions := {}
  format : OutputFormat := .text
  deriving DecidableEq

inductive ConfigError where
  | unreadable (path reason : String)
  | invalid (path reason : String)
  deriving DecidableEq

def ConfigError.message : ConfigError → String
  | unreadable path _ => "Failed to read config " ++ path
  | invalid path _ => "Invalid config " ++ path

def ConfigError.reason : ConfigError → String
  | unreadable _ reason => reason
  | invalid _ reason => reason

/-- What a text is read as: a configuration, or what is wrong with it. -/
abbrev ConfigReader := List Char → Except String Config

namespace Config

def formatOfName : String → Option OutputFormat
  | "text" => some .text
  | "json" => some .json
  | _ => none

/-- The configuration in a file. -/
def load (read : ConfigReader) (fs : FileSystem) (path : String) : Except ConfigError Config := do
  let bytes ← (fs.read path).mapError fun e => .unreadable path e.message
  match Text.Utf8.decode? bytes with
  | none => throw (.unreadable path Text.Utf8.malformedMessage)
  | some text =>
    match read text with
    | .ok config => return config
    | .error reason => throw (.invalid path reason)

def fileName : String := "srcorder.toml"

/-- The value of the environment variable, where it names a format, overrides the format. -/
def override (config : Config) (formatVariable : Option String) : Config :=
  match (formatVariable.map Text.lower).bind formatOfName with
  | some format => { config with format }
  | none => config

/-- The configuration in the file asked for, or in the usual file of a directory if there is one. -/
def find (read : ConfigReader) (fs : FileSystem) (explicit : Option String) (directory : String)
    (formatVariable : Option String) : Except ConfigError Config := do
  let usual := Path.join directory fileName
  let config ← match explicit with
    | some path => load read fs path
    | none => if fs.isFile usual then load read fs usual else pure {}
  return config.override formatVariable

end Config
end BuildOrder
