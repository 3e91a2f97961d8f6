import BuildOrder.Config
import BuildOrder.Toml.Document

/-! Configurations in TOML documents. -/
namespace BuildOrder.Config

open Toml (Value Entries)

/-- The fields of a section: of a table by their names, of an array by their order. A moment counts
as a table without known fields. -/
def sectionFields (names : List String) : Value → Option Entries
  | .table _ entries => some entries
  | .array items => some (names.zip items)
  | .tables elements => some (names.zip (elements.map (.table .header)))
  | .moment _ => some []
  | _ => none

/-- The value of a field, with a default for a missing one. -/
def field {α : Type} (entries : Entries) (name : String) (default : α)
    (read : Value → Option α) : Option α :=
  match entries.lookup name with
  | none => some default
  | some value => read value

def stringOf : Value → Option String
  | .string s => some s
  | _ => none

def stringsOf : Value → Option (List String)
  | .array items => items.mapM stringOf
  | _ => none

/-- A format is given by its name, alone or as the only key of a table that gives it nothing. -/
def formatOf : Value → Option OutputFormat
  | .string name => formatOfName name
  | .table _ [(name, .array [])] => formatOfName name
  | .table _ [(name, .table _ [])] => formatOfName name
  | _ => none

def extensionsOf (value : Value) : Option Extensions := do
  let entries ← sectionFields ["module", "include"] value
  let standard : Extensions := {}
  let modules ← field entries "module" standard.modules stringsOf
  let includes ← field entries "include" standard.includes stringsOf
  return { modules, includes }

def outputFormatOf (value : Value) : Option OutputFormat := do
  field (← sectionFields ["format"] value) "format" .text formatOf

/-- Unknown keys are passed over. -/
def ofEntries (entries : Entries) : Option Config := do
  let extensions ← field entries "extensions" {} extensionsOf
  let format ← field entries "output" .text outputFormatOf
  return { extensions, format }

/-- The configuration that a document tells. -/
def ofToml : ConfigReader := fun text =>
  match (Toml.parse text).bind ofEntries with
  | some config => .ok config
  | none => .error "TOML parse error"

end BuildOrder.Config
