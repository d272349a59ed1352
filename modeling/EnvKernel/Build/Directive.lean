import EnvKernel.Build.FileTree
import EnvKernel.Text.Blank
import EnvKernel.Text.Quoted

/-!
The build scripts. A script prints directives for the build tool, one per line, and the kernel's
script also writes the table of the programs that are built into the kernel: every file of one
directory, by ascending names, each with the place that its name leads to.
-/

namespace EnvKernel.Build

/-- Why a script gives up. -/
inductive BuildError where
  /-- A variable that the build tool always sets is not there. -/
  | notSet (name : String)
  /-- The directory of the programs cannot be read. -/
  | unreadable (directory : String) (reason : PathError)
  /-- The table of the programs cannot be written. -/
  | unwritable (reason : PathError)
deriving DecidableEq, Repr

/-- The variable with the directory of the programs. -/
def programsVariable : String := "KSPACE_PROGRAMS"

/-- The text of the error. -/
def BuildError.message : BuildError → String
  | notSet name => "cargo sets " ++ name ++ ": NotPresent"
  | unreadable directory reason =>
    "cannot read " ++ programsVariable ++ " (" ++ directory ++ "): " ++ reason.message
  | unwritable reason => "failed to write the program table: " ++ reason.details

/-- What a script did: the lines that it printed, the table that it wrote, and why it gave up. -/
structure Outcome where
  printed : List String
  programs : Option String := none
  error : Option BuildError := none
deriving DecidableEq, Repr

/-- What the kernel's script finds around it. -/
structure Surroundings where
  /-- The path of the root of the tree, as text. -/
  root : String
  tree : FileTree := {}
  /-- The directory of the programs below the root, if it is set. -/
  programs : Option String := none
  target : Option String := none
  profile : Option String := none
  /-- The date and time of the build. -/
  date : String
  /-- What the build tool and the compiler print when asked for their version. A tool that cannot be
  run prints nothing at all. -/
  buildTool : Option ByteArray := none
  compiler : Option ByteArray := none
  /-- There is a directory to write the table to. -/
  hasOutput : Bool := true

/-- The directory that the entries of a tree are made in. -/
def entryDirectory : String := "images"

/-- The directory that the table of programs is written to. -/
def outputDirectory : String := "out"

/-- The name of the file with the table of programs. -/
def tableName : String := "programs.rs"

/-- The tree around a script, after the entries were made in turn. -/
def layTree (entries : List (String × Node)) : FileTree :=
  let bare : FileTree := { nodes := [([entryDirectory], .directory), ([outputDirectory], .directory)] }
  entries.foldl (fun t (name, node) => t.put (entryDirectory :: pathNames name) node) bare

/-- A program: its name and the path of its file. -/
structure Program where
  name : String
  path : String
deriving DecidableEq, Repr

/-- The version that a tool prints, without the blanks around it. -/
def toolVersion (name : String) (output : Option ByteArray) : String :=
  match output.bind String.fromUTF8? with
  | some text => Text.trimBlank text
  | none => name ++ " (unknown version)"

/-- A path below the root as text. -/
def pathText (root : String) (path : Path) : String := String.intercalate "/" (root :: path)

/-- The path of a name in a directory, as text. -/
def childText (directory name : String) : String :=
  if directory = "" ∨ directory.endsWith "/" then directory ++ name else directory ++ "/" ++ name

/-- Where a path below the root leads. -/
def placeOf (root : String) (tree : FileTree) (path : String) : Except PathError Path :=
  tree.resolve (root.utf8ByteSize + 1) path

/-- The programs in the directory that a path leads to: the names there that lead to files. Each name is
followed from the root again, so the links on the way to the directory count for it as well. -/
def programsAt (root : String) (tree : FileTree) (path : String) : Except PathError (List Program) := do
  let directory ← placeOf root tree path
  tree.enter directory
  let found := (tree.names directory).filterMap fun name =>
    match placeOf root tree (childText path name) with
    | .ok place =>
      if tree.isFile place then some { name, path := pathText root place : Program } else none
    | .error _ => none
  return found.mergeSort fun a b => decide (a.name ≤ b.name)

/-- The directive that runs the script again when a file changes. -/
def rerunIfChanged (path : String) : String := "cargo:rerun-if-changed=" ++ path

/-- The directive that gives a variable to the program that is built. -/
def setVariable (name value : String) : String := "cargo:rustc-env=" ++ name ++ "=" ++ value

/-- The table of programs, each a name and the bytes of a file. -/
def programTable (programs : List Program) : String :=
  let row := fun p : Program =>
    "    (" ++ Text.quote p.name ++ ", include_bytes!(" ++ Text.quote p.path ++ ")),\n"
  "pub static PROGRAMS: &[(&str, &[u8])] = &[\n" ++ String.join (programs.map row) ++ "];\n"

/-- The directives that do not depend on the programs. -/
def fixedDirectives (s : Surroundings) : List String :=
  [rerunIfChanged "build.rs",
    "cargo:rerun-if-env-changed=" ++ programsVariable,
    setVariable "BUILD_TARGET" (s.target.getD ""),
    setVariable "BUILD_DATE" s.date,
    setVariable "PROFILE" (s.profile.getD ""),
    setVariable "CARGO_VERSION" (toolVersion "cargo" s.buildTool),
    setVariable "RUSTC_VERSION" (toolVersion "rustc" s.compiler)]

/-- Writes the table of the programs behind what was printed before, and has the script run again when one
of their files changes. -/
def writeTable (tree : FileTree) (printed : List String) (programs : List Program) : Outcome :=
  match tree.checkWritable [outputDirectory, tableName] with
  | .error e => { printed, error := some (.unwritable e) }
  | .ok () =>
    { printed := printed ++ programs.map fun p => rerunIfChanged p.path
      programs := some (programTable programs) }

/-- The kernel's script. -/
def kernelScript (s : Surroundings) : Outcome :=
  let printed := fixedDirectives s
  if s.hasOutput then
    match s.programs with
    | none => writeTable s.tree printed []
    | some directory =>
      let shown := s.root ++ "/" ++ directory
      let printed := printed ++ [rerunIfChanged shown]
      match programsAt s.root s.tree directory with
      | .error e => { printed, error := some (.unreadable shown e) }
      | .ok programs => writeTable s.tree printed programs
  else { printed, error := some (.notSet "OUT_DIR") }

/-- The script of a program, which is linked as its directory says. -/
def programScript (directory : Option String) : Outcome :=
  match directory with
  | none => { printed := [], error := some (.notSet "CARGO_MANIFEST_DIR") }
  | some directory =>
    { printed := [rerunIfChanged "link.ld", "cargo:rustc-link-arg=-T" ++ directory ++ "/link.ld"] }

end EnvKernel.Build
