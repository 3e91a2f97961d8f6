import BuildOrder.Toml.Statement

/-! TOML documents. -/
namespace BuildOrder.Toml

/-- A document under way: its root table and the path of the header that holds. -/
structure Document where
  root : Entries := []
  current : List String := []

namespace Document

def add (doc : Document) : Statement → Option Document
  | .blank => some doc
  | .keyValue path value => do
    let root ← Entries.modifyAt (Entries.insert · path value) doc.root doc.current
    return { doc with root }
  | .header path => do
    let last ← path.getLast?
    let root ← Entries.modifyAt (Entries.openTable last) doc.root path.dropLast
    return { root, current := path }
  | .elementHeader path => do
    let last ← path.getLast?
    let root ← Entries.modifyAt (Entries.openElement last) doc.root path.dropLast
    return { root, current := path }

end Document

/-- The root table of a text. A byte order mark may stand before it. -/
def parse (text : List Char) : Option Entries := do
  let body := match text with
    | '\uFEFF' :: rest => rest
    | _ => text
  let doc ← (← statements body).foldlM Document.add {}
  return doc.root

end BuildOrder.Toml
