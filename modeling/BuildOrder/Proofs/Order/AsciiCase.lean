import BuildOrder.Proofs.Order.Files
import BuildOrder.Proofs.Symbols.AsciiCase

/-! Build orders do not depend on the case of the ASCII letters in files, whether or not these are
well-formed text. -/
namespace BuildOrder
open Text

/-- The same files with small ASCII letters only. The files at a path differ only in the case of
ASCII letters if they agree in this. -/
def FileSystem.uncased (fs : FileSystem) : FileSystem :=
  { fs with read := fun path => (fs.read path).map (List.map Utf8.lowerByte) }

theorem FileSystem.readText_uncased (fs : FileSystem) (path : String) :
    (fs.uncased.readText path).map (List.map Char.toLower) =
      (fs.readText path).map (List.map Char.toLower) := by
  have hread : fs.uncased.read path = (fs.read path).map (List.map Utf8.lowerByte) := rfl
  rw [readText, readText, hread]
  cases fs.read path with
  | error e => rfl
  | ok bytes => exact congrArg Except.ok (Utf8.decodeLossy_map_lowerByte bytes)

theorem Symbols.ofFile_uncased (fs : FileSystem) (dialect : Dialect) (path : String) :
    Symbols.ofFile fs.uncased dialect path = Symbols.ofFile fs dialect path := by
  have hlower : ∀ fs' : FileSystem, Symbols.ofFile fs' dialect path =
      ((fs'.readText path).map (List.map Char.toLower)).map
        (Symbols.ofText dialect ((Path.fileName? path).getD "")) := by
    intro fs'
    rw [Symbols.ofFile]
    cases fs'.readText path with
    | error e => rfl
    | ok text => exact congrArg Except.ok (Symbols.ofText_map_toLower dialect _ text).symm
  rw [hlower, hlower, FileSystem.readText_uncased]

/-- Of the files only their symbols matter. -/
theorem orderFiles_congr {fs fs' : FileSystem} {dialect : Dialect} {paths : List String}
    (h : ∀ path ∈ paths, Symbols.ofFile fs dialect path = Symbols.ofFile fs' dialect path) :
    orderFiles fs dialect paths = orderFiles fs' dialect paths := by
  have hadd : ∀ l, ∀ path ∈ paths,
      Linker.addFile fs dialect l path = Linker.addFile fs' dialect l path := by
    intro l path hpath
    rw [Linker.addFile, Linker.addFile, h path hpath]
  rw [orderFiles, orderFiles, Analysis.ofFiles, Analysis.ofFiles, List.foldl_ext _ _ _ hadd]

/-- Files that differ only in the case of ASCII letters have the same build order and the same
warnings, or the same error. -/
theorem orderFiles_of_uncased_eq {fs fs' : FileSystem} {paths : List String}
    (h : ∀ path ∈ paths, fs.uncased.read path = fs'.uncased.read path) (dialect : Dialect) :
    orderFiles fs dialect paths = orderFiles fs' dialect paths := by
  refine orderFiles_congr fun path hpath => ?_
  have hread : fs.uncased.readText path = fs'.uncased.readText path :=
    congrArg (Except.map Utf8.decodeLossy) (h path hpath)
  calc Symbols.ofFile fs dialect path
      = Symbols.ofFile fs.uncased dialect path := (Symbols.ofFile_uncased fs dialect path).symm
    _ = Symbols.ofFile fs'.uncased dialect path := by rw [Symbols.ofFile, Symbols.ofFile, hread]
    _ = Symbols.ofFile fs' dialect path := Symbols.ofFile_uncased fs' dialect path

/-- Keywords and names in any case, next to bytes that are no text. -/
theorem orderFiles_of_uncased_eq_malformed :
    let bytes (text : String) : List UInt8 := text.toUTF8.data.toList
    let fs : FileTree := ⟨[("main.f90", .file (.ok (bytes "use grid"))),
      ("grid.f90", .file (.ok ([0xE2, 0x82, 0x0A] ++ bytes "module grid")))], []⟩
    let fs' : FileTree := ⟨[("main.f90", .file (.ok (bytes "USE Grid"))),
      ("grid.f90", .file (.ok ([0xE2, 0x82, 0x0A] ++ bytes "Module gRID")))], []⟩
    (∀ path ∈ ["main.f90", "grid.f90"],
      fs.files.uncased.read path = fs'.files.uncased.read path) ∧
    orderFiles fs.files .modules ["main.f90", "grid.f90"] =
      orderFiles fs'.files .modules ["main.f90", "grid.f90"] ∧
    orderFiles fs.files .modules ["main.f90", "grid.f90"] = .ok ⟨["grid.f90", "main.f90"], []⟩ := by
  intro bytes fs fs'
  have h : ∀ path ∈ ["main.f90", "grid.f90"],
      fs.files.uncased.read path = fs'.files.uncased.read path := by
    simp only [List.forall_mem_cons]
    exact ⟨rfl, rfl, List.forall_mem_nil _⟩
  exact ⟨h, orderFiles_of_uncased_eq h _, by decide +kernel⟩

end BuildOrder
