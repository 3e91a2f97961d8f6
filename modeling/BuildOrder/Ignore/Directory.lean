import BuildOrder.FileTree
import BuildOrder.Ignore.Rule

/-! The ignore files that a directory brings with it. -/
namespace BuildOrder.Ignore

/-- What is wrong with the rules of a directory. -/
inductive RuleDefect where
  | inFile (path : String) (defect : Defect)
  /-- A link to a repository cannot be read. -/
  | inLink (path : String) (cause : String)
  deriving DecidableEq

def RuleDefect.message : RuleDefect → String
  | inFile path defect => defect.message path
  | inLink path cause => path ++ ": " ++ cause

namespace Repository

/-- The first line of a link, if it has any. -/
def linkText (path : String) (bytes : List UInt8) : Except RuleDefect (Option (List Char)) :=
  let line := bytes.takeWhile (· ≠ '\n'.toUInt8)
  match Text.Utf8.decode? (bytes.take (line.length + 1)) with
  | some text => .ok (Text.lines text).head?
  | none => .error (.inLink path Text.Utf8.malformedMessage)

/-- The text in the place of a repository that links to another place. -/
def target? (link : List Char) : Option String :=
  let start := "gitdir: ".toList
  if start.isPrefixOf link then some (String.ofList (link.drop start.length)) else none

/-- What a repository shares with others is where its own link tells. -/
def shared (tree : FileTree) (repository : String) : Except RuleDefect (Option String) := do
  let path := Path.join repository "commondir"
  match tree.lookup path with
  | .error _ | .ok (_, .file (.error _)) => return none
  | .ok (_, .directory _) => throw (.inLink path ReadError.isDirectory.message)
  | .ok (_, .file (.ok bytes)) =>
    return (← linkText path bytes).map fun link =>
      if link.head? = some '.' then Path.join repository (String.ofList link)
      else String.ofList link

/-- The repository of a directory, or what it links to. Links start from the current directory. -/
def find (tree : FileTree) (directory : String) : Except RuleDefect (Option String) := do
  let path := Path.join directory ".git"
  match tree.lookup path with
  | .error _ | .ok (_, .directory _) => return some path
  | .ok (_, .file (.error e)) => throw (.inLink path e.message)
  | .ok (_, .file (.ok bytes)) =>
    match (← linkText path bytes).bind target? with
    | some repository => shared tree repository
    | none => return none

/-- The ignore file within a repository. -/
def excludeFile (repository : String) : String :=
  Path.join repository "info/exclude"

end Repository

/-- The rules that a directory brings with it. -/
structure RuleDirectory where
  path : String
  plain : RuleFile
  git : RuleFile
  repository : RuleFile
  /-- The rules that a user has for all directories. -/
  user : RuleFile
  defects : List RuleDefect
  deriving DecidableEq

namespace RuleDirectory

/-- The kinds of ignore files. One in front goes before the others at any depth. -/
def kinds : List (RuleDirectory → RuleFile) :=
  [plain, git, repository, user]

def ruleFileAt (tree : FileTree) (path : String) : RuleFile × List RuleDefect :=
  match tree.read path with
  | .ok bytes =>
    let file := RuleFile.parse bytes
    (file, file.defects.map (.inFile path))
  | .error _ => (.empty, [])

/-- A directory without a repository has no rules from there. -/
def repositoryRules (tree : FileTree) (directory : String) : RuleFile × List RuleDefect :=
  match Repository.find tree directory with
  | .ok (some repository) => ruleFileAt tree (Repository.excludeFile repository)
  | .ok none => (.empty, [])
  | .error defect => (.empty, [defect])

def read (tree : FileTree) (path : String) : RuleDirectory :=
  let (plain, plainDefects) := ruleFileAt tree (Path.join path ".ignore")
  let (git, gitDefects) := ruleFileAt tree (Path.join path ".gitignore")
  let (repository, repositoryDefects) := repositoryRules tree path
  ⟨path, plain, git, repository, .empty, plainDefects ++ gitDefects ++ repositoryDefects⟩

/-- The rules of a user are in force in all directories; what is wrong with them is passed over. -/
def ofUser (bytes : List UInt8) : RuleDirectory :=
  ⟨"", .empty, .empty, .empty, RuleFile.parse bytes, []⟩

def hasRules (directory : RuleDirectory) : Bool :=
  kinds.any fun kind => !(kind directory).rules.isEmpty

/-- A path as the rules of a directory see it. -/
def view (directory : RuleDirectory) (path : List Char) : List UInt8 :=
  (Path.relativeTo directory.path.toList path).flatMap String.utf8EncodeChar

end RuleDirectory
end BuildOrder.Ignore
