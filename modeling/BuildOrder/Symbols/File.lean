import BuildOrder.FileSystem
import BuildOrder.Symbols.Extract
import BuildOrder.Text.Utf8

/-! The symbols of files on disk. -/
namespace BuildOrder

/-- The text of a file with U+FFFD for malformed bytes. -/
def FileSystem.readText (fs : FileSystem) (path : String) : Except ReadError (List Char) :=
  (fs.read path).map Text.Utf8.decodeLossy

def Symbols.ofFile (fs : FileSystem) (dialect : Dialect) (path : String) :
    Except ReadError Symbols :=
  (fs.readText path).map (Symbols.ofText dialect ((Path.fileName? path).getD ""))

end BuildOrder
