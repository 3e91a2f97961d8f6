import BuildOrder.Dialect

/-! The commands of the command line. -/
namespace BuildOrder.Cli

/-- What both commands are given. -/
structure Input where
  paths : List String
  /-- The dialect of all files; without one each file tells its own. -/
  dialect : Option Dialect
  config : Option String
  quiet : Bool
  deriving DecidableEq

inductive Command where
  | order (input : Input) (json : Bool)
  | graph (input : Input)
  deriving DecidableEq

end BuildOrder.Cli
