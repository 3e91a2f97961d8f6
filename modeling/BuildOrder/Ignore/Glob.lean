import BuildOrder.Ignore.Pattern

/-! Globs: the text form of patterns for slash-separated paths. -/
namespace BuildOrder.Ignore

/-- Why a text is no glob. -/
inductive GlobError where
  | invalidRange (low high : Char)
  | danglingEscape
  | unopenedAlternates
  | unclosedAlternates
  deriving DecidableEq

def GlobError.message : GlobError → String
  | invalidRange low high => "invalid range; '" ++ low.toString ++ "' > '" ++ high.toString ++ "'"
  | danglingEscape => "dangling '\\'"
  | unopenedAlternates =>
    "unopened alternate group; missing '\x7b' (maybe escape '\x7d' with '[\x7d]'?)"
  | unclosedAlternates =>
    "unclosed alternate group; missing '\x7d' (maybe escape '\x7b' with '[\x7b]'?)"

/-- A piece of a glob. A run of directories takes its slashes with it, so the piece tells where in
the glob the run stands. -/
inductive Glob.Token where
  | literal (c : Char)
  /-- Any bytes within a path component. -/
  | star
  | plain (pattern : Pattern)
  /-- Any directories, at the beginning. -/
  | directoriesFirst
  /-- A slash, with any directories after it, before more. -/
  | directoriesBetween
  /-- A slash and anything below. -/
  | directoriesLast
  deriving DecidableEq

structure Glob where
  tokens : List Glob.Token
  deriving DecidableEq

namespace Glob

def Token.pattern : Token → Pattern
  | literal c => Pattern.ofBytes (String.utf8EncodeChar c)
  | star => .many .exceptSlash
  | plain p => p
  | directoriesFirst =>
    .group (.either (.optional .slash) (.seq (.many .any) (.one .slash)))
  | directoriesBetween =>
    .group (.either (.one .slash) (.seq (.one .slash) (.seq (.many .any) (.one .slash))))
  | directoriesLast => .seq (.one .slash) (.many .any)

def patternOf (tokens : List Token) : Pattern :=
  Pattern.concat (tokens.map Token.pattern)

/-- The double star alone matches every path. -/
def pattern (glob : Glob) : Pattern :=
  if glob.tokens = [.directoriesFirst] then .many .any else patternOf glob.tokens

/-- The character ranges of a class from the range `low`-`high` on. A dash between two characters
stretches the range before it, and a dash at the end stands for itself. -/
def rangesFrom (low high : Char) : List Char → Except GlobError (List (Char × Char))
  | [] => .ok [(low, high)]
  | ['-'] => .ok [(low, high), ('-', '-')]
  | '-' :: c :: rest => if c < low then .error (.invalidRange low c) else rangesFrom low c rest
  | c :: rest => (rangesFrom c c rest).map ((low, high) :: ·)

/-- Classes are sets of bytes: only the inner ends of the encodings of two bounds span a range. -/
def byteRanges (range : Char × Char) : List (UInt8 × UInt8) :=
  let single (b : UInt8) := (b, b)
  let low := String.utf8EncodeChar range.1
  let high := String.utf8EncodeChar range.2
  if range.1 = range.2 then low.map single
  else low.dropLast.map single ++ [(low.getLast?.getD 0, high.head?.getD 0)] ++ high.tail.map single

/-- A class as it is written. -/
structure ClassText where
  negated : Bool
  members : List Char
  /-- What follows the closing bracket, if there is one. -/
  after? : Option (List Char)

/-- Takes the class after an opening bracket. A closing bracket that comes first is a member. -/
def classText (cs : List Char) : ClassText :=
  let negated := cs.head? = some '!' || cs.head? = some '^'
  match if negated then cs.tail else cs with
  | [] => ⟨negated, [], none⟩
  | c :: rest =>
    ⟨negated, c :: rest.takeWhile (· ≠ ']'), (rest.dropWhile (· ≠ ']')).tail?⟩

theorem length_tail?_le {α : Type} {xs ys : List α} (h : xs.tail? = some ys) :
    ys.length ≤ xs.length := by
  cases xs with
  | nil => simp at h
  | cons x xs =>
    simp only [List.tail?_cons, Option.some.injEq] at h
    simp [h]

theorem length_le_of_after? {cs after : List Char} (h : (classText cs).after? = some after) :
    after.length ≤ cs.length := by
  have hbody : ∀ body : List Char, body.length ≤ cs.length → ∀ c rest, body = c :: rest →
      (rest.dropWhile (· ≠ ']')).tail? = some after → after.length ≤ cs.length := by
    intro body hle c rest heq htail
    have h1 := length_tail?_le htail
    have h2 := (List.dropWhile_sublist (p := (· ≠ ']')) (l := rest)).length_le
    simp only [heq, List.length_cons] at hle
    omega
  unfold classText at h
  dsimp only at h
  split at h
  · simp at h
  · rename_i c rest heq
    refine hbody _ ?_ c rest heq h
    split <;> simp

def classToken (negated : Bool) : List Char → Except GlobError Token
  | [] => .ok (.plain .empty)
  | c :: members =>
    (rangesFrom c c members).map fun ranges =>
      .plain (.one (.ranges negated (ranges.flatMap byteRanges)))

/-- An open group: the tokens before it and its finished alternatives. -/
structure Group where
  before : List Token
  finished : List Pattern

/-- What has been read of a glob. -/
structure Reading where
  previous : Option Char := none
  tokens : List Token := []
  groups : List Group := []
  /-- Set after an opening bracket without a closing one: from then on brackets are plain. -/
  plainBrackets : Bool := false

namespace Reading

def push (r : Reading) (last : Char) (token : Token) : Reading :=
  { r with tokens := r.tokens ++ [token], previous := some last }

/-- Reads a double star with any directories: the token before it, a slash, becomes part of it. -/
def pushDirectories (r : Reading) (last : Char) (token : Token) : Reading :=
  let merged := match r.tokens.getLast? with
    | some .directoriesFirst => Token.directoriesFirst
    | some .directoriesLast => Token.directoriesLast
    | _ => token
  { r with tokens := r.tokens.dropLast ++ [merged], previous := some last }

/-- Whether a double star here begins a path component. -/
def beginsComponent (r : Reading) : Bool :=
  r.previous = some '/' ||
    (!r.groups.isEmpty && (r.previous = some ',' || r.previous = some '\x7b'))

/-- Whether the character ends an alternative of an open group. -/
def endsAlternative (r : Reading) (c : Char) : Bool :=
  !r.groups.isEmpty && (c = ',' || c = '\x7d')

/-- Takes an opening bracket that is never closed for itself, and every later one too. -/
def openBracket (r : Reading) : Reading :=
  let r := r.push '[' (.literal '[')
  { r with plainBrackets := true }

def openGroup (r : Reading) : Reading :=
  { r with previous := some '\x7b', tokens := [], groups := ⟨r.tokens, []⟩ :: r.groups }

/-- Outside groups a comma is plain. -/
def comma (r : Reading) : Reading :=
  match r.groups with
  | [] => r.push ',' (.literal ',')
  | ⟨before, finished⟩ :: outer =>
    let groups := ⟨before, finished ++ [patternOf r.tokens]⟩ :: outer
    { r with previous := some ',', tokens := [], groups }

def closeGroup (r : Reading) : Except GlobError Reading :=
  match r.groups with
  | [] => .error .unopenedAlternates
  | ⟨before, finished⟩ :: outer =>
    let group := Token.plain (.alternatives (finished ++ [patternOf r.tokens]))
    .ok { r with previous := some '\x7d', tokens := before ++ [group], groups := outer }

/-- Takes a double star before `rest`, with the slash after it if it stands for directories. -/
def doubleStar (r : Reading) (rest : List Char) : Reading × List Char :=
  let stars := (r.push '*' .star).push '*' .star
  match r.tokens.isEmpty, r.beginsComponent, rest with
  | true, _, [] => (r.push '*' .directoriesFirst, [])
  | true, _, '/' :: more => (r.push '/' .directoriesFirst, more)
  | false, true, [] => (r.pushDirectories '*' .directoriesLast, [])
  | false, true, '/' :: more => (r.pushDirectories '/' .directoriesBetween, more)
  | false, true, c :: _ =>
    if r.endsAlternative c then (r.pushDirectories '*' .directoriesLast, rest) else (stars, rest)
  | _, _, _ => (stars, rest)

theorem length_doubleStar_le (r : Reading) (rest : List Char) :
    (r.doubleStar rest).2.length ≤ rest.length := by
  unfold doubleStar
  dsimp only
  split <;> try split
  all_goals simp

def read (r : Reading) (cs : List Char) : Except GlobError Reading := do
  match cs with
  | [] => .ok r
  | '?' :: rest => (r.push '?' (.plain (.one .exceptSlash))).read rest
  | '*' :: '*' :: rest =>
    have := length_doubleStar_le r rest
    (r.doubleStar rest).1.read (r.doubleStar rest).2
  | '*' :: rest => (r.push '*' .star).read rest
  | '[' :: rest =>
    if r.plainBrackets then (r.push '[' (.literal '[')).read rest
    else
      let token ← classToken (classText rest).negated (classText rest).members
      match h : (classText rest).after? with
      | some after =>
        have := length_le_of_after? h
        (r.push ']' token).read after
      | none => r.openBracket.read rest
  | '\x7b' :: rest => r.openGroup.read rest
  | '\x7d' :: rest => (← r.closeGroup).read rest
  | ',' :: rest => r.comma.read rest
  | '\\' :: [] => .error .danglingEscape
  | '\\' :: c :: rest => (r.push c (.literal c)).read rest
  | c :: rest => (r.push c (.literal c)).read rest
termination_by cs.length
decreasing_by all_goals (simp only [List.length_cons]; omega)

end Reading

def parse (text : List Char) : Except GlobError Glob := do
  let r ← Reading.read {} text
  if r.groups.isEmpty then .ok ⟨r.tokens⟩ else .error .unclosedAlternates

end Glob
end BuildOrder.Ignore
