/-!
A tree of files with links. A path is a list of names. Following a path goes from directory to
directory; a link is replaced by the names that it stands for, as seen from the directory that holds
it. Where a path leads is again a path, without links, `.` and `..`. `walk` is the one way through
the tree: reading a place, listing it and putting something there all begin with it.
-/

namespace EnvKernel.Build

/-- What a name in a directory stands for. -/
inductive Node where
  | file
  | directory
  /-- Another way to the place that the text leads to. -/
  | link (target : String)
deriving DecidableEq, Repr

/-- The names on the way from the root of the tree. -/
abbrev Path := List String

/-- A tree: the node at each path. The root is a directory and is not listed. -/
structure FileTree where
  nodes : List (Path × Node) := []
deriving Repr

/-- Why a path is of no use. -/
inductive PathError where
  | notFound
  | notDirectory
  | isDirectory
  | nameTooLong
  | tooManyLinks
deriving DecidableEq, Repr

namespace PathError

/-- The number of the error. -/
def number : PathError → Nat
  | notFound => 2
  | notDirectory => 20
  | isDirectory => 21
  | nameTooLong => 36
  | tooManyLinks => 40

/-- The name of the kind of error. -/
def kind : PathError → String
  | notFound => "NotFound"
  | notDirectory => "NotADirectory"
  | isDirectory => "IsADirectory"
  | nameTooLong => "InvalidFilename"
  | tooManyLinks => "FilesystemLoop"

/-- The text of the error without its number. -/
def description : PathError → String
  | notFound => "No such file or directory"
  | notDirectory => "Not a directory"
  | isDirectory => "Is a directory"
  | nameTooLong => "File name too long"
  | tooManyLinks => "Too many levels of symbolic links"

/-- The text of the error, with its number. -/
def message (e : PathError) : String := e.description ++ " (os error " ++ toString e.number ++ ")"

/-- The error with all that is known of it. -/
def details (e : PathError) : String :=
  "Os \x7b code: " ++ toString e.number ++ ", kind: " ++ e.kind ++ ", message: \"" ++ e.description ++
    "\" \x7d"

end PathError

/-- How many links are followed on the way along one path. -/
def maxLinks : Nat := 40

/-- How many bytes a name in a directory has at most. -/
def maxNameBytes : Nat := 255

/-- How many bytes the text of a path has at most. -/
def maxPathBytes : Nat := 4095

/-- The names of a path written as text. A slash at the end asks for a directory, as `.` does. -/
def pathNames (text : String) : Path :=
  (text.splitOn "/").filter (· != "") ++ if text.endsWith "/" then ["."] else []

namespace FileTree

/-- The node at a path that holds no links. -/
def node? (t : FileTree) (path : Path) : Option Node :=
  if path = [] then some .directory else (t.nodes.find? (·.1 == path)).map (·.2)

/-- The path leads to a directory and may go on there. -/
def enter (t : FileTree) (place : Path) : Except PathError Unit :=
  if t.node? place = some .directory then .ok () else .error .notDirectory

/-- Where the names lead from `place`, with `links` links to follow at most. The last name may stand for
nothing yet. Nothing is known about what lies outside of the tree, so a link that leads out of it leads
nowhere. -/
def walk (t : FileTree) (links : Nat) (place : Path) : Path → Except PathError Path
  | [] => .ok place
  | name :: rest =>
    match t.enter place with
    | .error e => .error e
    | .ok () =>
      if name = "." then t.walk links place rest
      else if name = ".." then
        if place = [] then .error .notFound else t.walk links place.dropLast rest
      else if maxNameBytes < name.utf8ByteSize then .error .nameTooLong
      else
        match t.node? (place ++ [name]) with
        | none => if rest = [] then .ok (place ++ [name]) else .error .notFound
        | some (.link target) =>
          match links with
          | 0 => .error .tooManyLinks
          | links + 1 =>
            if target.startsWith "/" ∨ target = "" then .error .notFound
            else t.walk links place (pathNames target ++ rest)
        | some _ => t.walk links (place ++ [name]) rest
termination_by path => (links, path.length)

/-- The place that the names lead to from the root, where something has to be. -/
def follow (t : FileTree) (path : Path) : Except PathError Path := do
  let place ← t.walk maxLinks [] path
  if (t.node? place).isSome then .ok place else .error .notFound

/-- Where a path written as text leads from the root, whose own path takes `before` bytes. -/
def resolve (t : FileTree) (before : Nat) (text : String) : Except PathError Path :=
  if maxPathBytes < before + text.utf8ByteSize then .error .nameTooLong
  else t.follow (pathNames text)

/-- The names in the directory at a path without links. -/
def names (t : FileTree) (directory : Path) : List String :=
  t.nodes.filterMap fun (path, _) =>
    if path.dropLast = directory then path.getLast? else none

/-- The path leads to a file. -/
def isFile (t : FileTree) (place : Path) : Bool := t.node? place == some .file

/-- A file can be written where the path leads, be it there already or not. -/
def checkWritable (t : FileTree) (path : Path) : Except PathError Unit := do
  let place ← t.walk maxLinks [] path
  if t.node? place = some .directory then .error .isDirectory else .ok ()

/-! ### Putting something into a tree

What a path already leads to stays as it is, and what has no directory to go to is left out. -/

/-- Puts a node at a path that holds no links. -/
def add (t : FileTree) (place : Path) (node : Node) : FileTree :=
  if (t.node? place).isSome then t else { nodes := t.nodes ++ [(place, node)] }

/-- Puts a node under the last name of the path, into the directory that the other names lead to. -/
def addNamed (t : FileTree) (path : Path) (node : Node) : FileTree :=
  match path.getLast?, t.follow path.dropLast with
  | some name, .ok place =>
    if name = "." ∨ name = ".." ∨ maxNameBytes < name.utf8ByteSize ∨
        t.node? place ≠ some .directory then t
    else t.add (place ++ [name]) node
  | _, _ => t

/-- Puts a node where the path leads. A file goes to where a link leads, a link goes into its place
beside what is there, and a directory comes with the directories on the way to it. -/
def put (t : FileTree) (path : Path) (node : Node) : FileTree :=
  match node with
  | .file =>
    match t.walk maxLinks [] path with
    | .ok place => t.add place .file
    | .error _ => t
  | .directory =>
    (List.range path.length).foldl (fun t i => t.addNamed (path.take (i + 1)) .directory) t
  | .link _ => t.addNamed path node

end FileTree

end EnvKernel.Build
