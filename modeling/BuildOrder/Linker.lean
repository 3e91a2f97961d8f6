import BuildOrder.Graph.Basic
import BuildOrder.Registry
import BuildOrder.Symbols.File
import BuildOrder.Warning

/-! Linking: what files require becomes edges to the files that provide it. -/
namespace BuildOrder

/-- A linked graph and the warnings raised on the way. -/
structure Analysis where
  graph : Graph
  warnings : List Warning
  deriving DecidableEq

/-- Files collected so far. No requirement is resolved before all files are known, since a provider
may come after a file that needs it. -/
structure Linker where
  graph : Graph := {}
  registry : Registry := {}
  /-- The symbols that each file requires. -/
  requirements : List (String × List String) := []
  warnings : List Warning := []
  deriving DecidableEq

namespace Linker

def warn (l : Linker) (w : Warning) : Linker :=
  { l with warnings := l.warnings ++ [w] }

/-- Makes `path` the provider of a symbol, with a warning where it displaces another file. -/
def provide (path : String) (l : Linker) (symbol : String) : Linker :=
  let (registry, displaced) := l.registry.register symbol path
  let l := { l with registry }
  match displaced with
  | some previous => l.warn (.duplicateProvider symbol previous path)
  | none => l

def insert (l : Linker) (path : String) (symbols : Symbols) : Linker :=
  let l := { l with graph := (l.graph.addNode path).1 }
  let l := symbols.provides.foldl (provide path) l
  { l with requirements := l.requirements ++ [(path, symbols.requires)] }

/-- Adds a file with known symbols. A path that is there already is only warned about. -/
def addSymbols (l : Linker) (path : String) (symbols : Symbols) : Linker :=
  if (l.graph.find? path).isSome then l.warn (.duplicateInput path) else l.insert path symbols

/-- Adds a file from disk. One that cannot be read has no symbols. -/
def addFile (fs : FileSystem) (dialect : Dialect) (l : Linker) (path : String) : Linker :=
  if (l.graph.find? path).isSome then l.warn (.duplicateInput path)
  else
    match Symbols.ofFile fs dialect path with
    | .ok symbols => l.insert path symbols
    | .error e => (l.warn (.unreadable path e.message)).insert path {}

/-- The nodes that provide what `path` requires. A symbol that no file provides, or the file itself,
leads to none. -/
def resolve (l : Linker) (path : String) : List String → Except Warning (List Nat)
  | [] => .ok []
  | symbol :: rest =>
    match l.registry.provider? symbol with
    | none => l.resolve path rest
    | some provider =>
      if provider = path then l.resolve path rest
      else
        match l.graph.find? provider with
        | some id => (l.resolve path rest).map (id :: ·)
        | none => .error (.missingNode path symbol provider)

/-- Adds the edges of one node; none if one of its providers is missing. -/
def linkNode (l : Linker) (id : Nat) : Linker :=
  let path := l.graph.nameOf id
  match l.requirements.lookup path with
  | none => l
  | some required =>
    match l.resolve path required with
    | .ok prerequisites =>
      { l with graph := prerequisites.foldl (fun g p => (g.addDependency id p).1) l.graph }
    | .error w => l.warn w

def link (l : Linker) : Analysis :=
  let linked := l.graph.ids.foldl linkNode l
  ⟨linked.graph, linked.warnings⟩

end Linker

def Analysis.ofFiles (fs : FileSystem) (dialect : Dialect) (paths : List String) : Analysis :=
  (paths.foldl (Linker.addFile fs dialect) {}).link

end BuildOrder
