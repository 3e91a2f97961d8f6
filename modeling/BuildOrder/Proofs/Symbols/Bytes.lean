import BuildOrder.FileTree
import BuildOrder.Proofs.Symbols.Lines
import BuildOrder.Proofs.Text.Line
import BuildOrder.Proofs.Text.Utf8
import BuildOrder.Symbols.File

/-! The symbols of a file are those of the parts between its line feeds, each read as a file of its
own. Malformed bytes matter only to the part that they are in. -/
namespace BuildOrder
open Text Utf8

/-- What is found in the lines of a file is found in the parts between its line feeds. -/
theorem flatMap_lines_decodeLossy {α : Type} {f : List Char → List α} (hnil : f [] = [])
    (hreturn : ∀ line, f (line ++ ['\r']) = f line) (bytes : List UInt8) :
    ((bytes.splitOn 0x0A).flatMap fun part => (lines (decodeLossy part)).flatMap f) =
      (lines (decodeLossy bytes)).flatMap f := by
  refine flatMap_splitOn (fun before after => ?_) bytes
  simp only [flatMap_lines hnil hreturn]
  rw [decodeLossy_lineFeed, List.splitOn_append_cons_self, List.flatMap_append]

namespace Symbols

theorem ofLine_append_return (dialect : Dialect) (stem : String) (line : List Char) :
    ofLine dialect stem (line ++ ['\r']) = ofLine dialect stem line := by
  have hblank : isBlank '\r' = true := rfl
  have hwords : words (line ++ ['\r']) = words line :=
    (words_append_blank hblank line []).trans (List.append_nil _)
  rw [ofLine, ofLine, hwords]

theorem ofText_decodeLossy (dialect : Dialect) (fileName : String) (bytes : List UInt8) :
    ofText dialect fileName (decodeLossy bytes) = collect
      ((bytes.splitOn 0x0A).map fun part => ofText dialect fileName (decodeLossy part)) := by
  let stem := upper ((Path.stem? fileName).getD "")
  -- Both lists of symbols come from the lines in the same way.
  have hselect : ∀ select : Symbols → List String, select {} = [] →
      ((lines (decodeLossy bytes)).flatMap fun line =>
          select (ofLine dialect stem line)).eraseDups =
        ((bytes.splitOn 0x0A).flatMap fun part => ((lines (decodeLossy part)).flatMap fun line =>
          select (ofLine dialect stem line)).eraseDups).eraseDups := by
    intro select hnone
    have hreturn : ∀ line,
        select (ofLine dialect stem (line ++ ['\r'])) = select (ofLine dialect stem line) :=
      fun line => by rw [ofLine_append_return]
    rw [eraseDups_flatMap_eraseDups, flatMap_lines_decodeLossy hnone hreturn]
  have hprovides := hselect (·.provides) rfl
  have hrequires := hselect (·.requires) rfl
  simp only [collect, List.flatMap_map, provides_ofText, requires_ofText]
  rw [← hprovides, ← hrequires, ← provides_ofText, ← requires_ofText]

end Symbols

/-- A path and the bytes of the file there. -/
structure StoredFile where
  fs : FileSystem
  path : String
  bytes : List UInt8
  read_eq : fs.read path = .ok bytes

namespace StoredFile

def fileName (file : StoredFile) : String :=
  (Path.fileName? file.path).getD ""

def symbols (file : StoredFile) (dialect : Dialect) : Symbols :=
  .ofText dialect file.fileName (decodeLossy file.bytes)

theorem ofFile_eq (file : StoredFile) (dialect : Dialect) :
    Symbols.ofFile file.fs dialect file.path = .ok (file.symbols dialect) := by
  rw [Symbols.ofFile, FileSystem.readText, file.read_eq]
  rfl

/-- The parts of `file` between its line feeds are files of the same name. -/
structure CutInto (file : StoredFile) (parts : List StoredFile) : Prop where
  fileName_eq : ∀ part ∈ parts, part.fileName = file.fileName
  bytes_eq : parts.map (·.bytes) = file.bytes.splitOn 0x0A

theorem CutInto.symbols_eq {file : StoredFile} {parts : List StoredFile} (h : file.CutInto parts)
    (dialect : Dialect) : file.symbols dialect = .collect (parts.map (·.symbols dialect)) := by
  have hparts : parts.map (·.symbols dialect) =
      parts.map fun part => .ofText dialect file.fileName (decodeLossy part.bytes) := by
    refine List.map_congr_left fun part hpart => ?_
    rw [symbols, h.fileName_eq part hpart]
  rw [hparts, symbols, Symbols.ofText_decodeLossy, ← h.bytes_eq, List.map_map]
  rfl

end StoredFile

/-- A file has the symbols of its parts between line feeds, each at its first occurrence. Other
bytes in one part, well-formed or not, leave what is found in all other parts. -/
theorem Symbols.ofFile_of_cutInto (dialect : Dialect) {file : StoredFile} {parts : List StoredFile}
    (h : file.CutInto parts) : ∃ own : StoredFile → Symbols,
      (∀ stored : StoredFile, ofFile stored.fs dialect stored.path = .ok (own stored)) ∧
      own file = collect (parts.map own) ∧
      ∀ i part' (file' : StoredFile), file'.CutInto (parts.set i part') →
        own file' = collect ((parts.map own).set i (own part')) := by
  refine ⟨(·.symbols dialect), fun stored => stored.ofFile_eq dialect, h.symbols_eq dialect, ?_⟩
  intro i part' file' h'
  rw [← List.map_set]
  exact h'.symbols_eq dialect

/-- The line feed stands in the place of the last byte of a character, and then behind it. -/
theorem Symbols.ofFile_of_cutInto_truncated :
    let stored (bytes : List UInt8) : StoredFile :=
      ⟨(⟨[("a.f", .file (.ok bytes))], []⟩ : FileTree).files, "a.f", bytes, rfl⟩
    let torn := [0x75, 0x73, 0x65, 0x20, 0xE2, 0x82]
    let next := [0x75, 0x73, 0x65, 0x20, 0x62]
    (stored (torn ++ 0x0A :: next)).CutInto [stored torn, stored next] ∧
    (stored (torn ++ 0xAC :: 0x0A :: next)).CutInto [stored (torn ++ [0xAC]), stored next] ∧
    ∃ own : StoredFile → Symbols,
      (∀ file : StoredFile, ofFile file.fs .modules file.path = .ok (own file)) ∧
      own (stored (torn ++ 0x0A :: next)) = collect [own (stored torn), own (stored next)] ∧
      own (stored (torn ++ 0xAC :: 0x0A :: next)) =
        collect [own (stored (torn ++ [0xAC])), own (stored next)] := by
  intro stored torn next
  have htorn : (stored (torn ++ 0x0A :: next)).CutInto [stored torn, stored next] :=
    ⟨by simp [stored, StoredFile.fileName], by decide +kernel⟩
  have hmended : (stored (torn ++ 0xAC :: 0x0A :: next)).CutInto
      ([stored torn, stored next].set 0 (stored (torn ++ [0xAC]))) :=
    ⟨by simp [stored, StoredFile.fileName], by decide +kernel⟩
  obtain ⟨own, hread, hown, hset⟩ := ofFile_of_cutInto .modules htorn
  exact ⟨htorn, hmended, own, hread, hown, hset 0 _ _ hmended⟩

end BuildOrder
