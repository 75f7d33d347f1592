namespace SchemaGraph

/-!
# Files

A folder is known by the place where one stands, by the files that are known anywhere, and
by directories that hold none.  A place is the list of steps that lead to it from the root.
A path is followed step by step, and every place on the way has to be a directory, also
that in front of a step upward.

* `Folder.find`  — what a path leads to, or why it leads nowhere
* `Folder.write` — writes a file; directories that are missing are made
* `FilePath`     — a path without needless steps
* `isFileName`   — whether a name is a single step
-/

/-- A place, by the steps that lead there from the root. -/
abbrev FilePlace := List String

/-- A file: where it is and what it holds. -/
structure File where
  place : FilePlace
  text : String
deriving DecidableEq, Repr

/-- What is at a place. -/
inductive FileEntry where
  | file (text : String)
  | directory
deriving DecidableEq, Repr

/-- Why a path leads nowhere, or why nothing can be written to it. -/
inductive Obstacle where
  | missing
  | fileExists
  | notDirectory
  | isDirectory
  /-- A step or the whole path is longer than a path may be. -/
  | tooLong
  /-- The path holds the character that ends a path. -/
  | nullCharacter
deriving DecidableEq, Repr

/-! ### Paths -/

/-- Parts of a text between slashes. -/
def splitSlashes : List Char → List (List Char)
  | [] => [[]]
  | c :: rest =>
    if c = '/' then [] :: splitSlashes rest
    else
      match splitSlashes rest with
      -- Never the case: there is always a part.
      | [] => [[c]]
      | part :: parts => (c :: part) :: parts

/-- The parts of a path between slashes. -/
def pathParts (path : String) : List String := (splitSlashes path.toList).map String.ofList

/-- The steps of a path; empty steps and those to the same place do not count. -/
def pathSteps (path : String) : List String :=
  (pathParts path).filter fun s => s ≠ "" ∧ s ≠ "."

/-- The path of steps. -/
def pathText (steps : List String) : String := "/".intercalate steps

/-- Whether a path begins at the root. -/
def isAbsolute (path : String) : Bool := path.toList.head? = some '/'

/-- A path without needless steps. -/
structure FilePath where
  /-- The slashes in front: none, one, or the two that some systems tell from one. -/
  root : String := ""
  steps : List String
deriving DecidableEq, Repr

namespace FilePath

/-- The path that a text spells. -/
def ofText (path : String) : FilePath where
  root :=
    match (path.toList.takeWhile (· = '/')).length with
    | 0 => ""
    -- Three slashes or more are one again.
    | 2 => "//"
    | _ => "/"
  steps := pathSteps path

/-- The shortest text of a path. -/
def text (p : FilePath) : String :=
  if p.root = "" ∧ p.steps = [] then "." else p.root ++ pathText p.steps

/-- The path without its last step. -/
def parent (p : FilePath) : FilePath := { p with steps := p.steps.dropLast }

/-- The path with a further step. -/
def child (p : FilePath) (name : String) : FilePath := { p with steps := p.steps ++ [name] }

end FilePath

/-- Goes further from a place, whose last step comes first; above the root is the root. -/
def climb : List String → List String → FilePlace
  | done, [] => done.reverse
  | done, step :: rest => if step = ".." then climb done.tail rest else climb (step :: done) rest

/-- Whether a name is a single step of a path, and not one to the same place or upward. -/
def isFileName (name : String) : Bool :=
  name ≠ "" && name ≠ "." && name ≠ ".." && name.toList.all (· ≠ '/')

/-! ### Folders -/

/-- A place to stand, the known files, and directories that hold none. -/
structure Folder where
  here : FilePlace := []
  files : List File := []
  directories : List FilePlace := []

instance : Inhabited Folder := ⟨{}⟩

namespace Folder

/-- Where a path leads if all of it is there: from the root if it begins with a slash, else
    from here. -/
def place (folder : Folder) (path : String) : FilePlace :=
  climb (if isAbsolute path then [] else folder.here.reverse) (pathSteps path)

/-- Whether a place is a directory: it holds something, or is here or above. -/
def isDirectoryAt (folder : Folder) (place : FilePlace) : Bool :=
  place.isPrefixOf folder.here
    || folder.directories.any (place.isPrefixOf ·)
    || folder.files.any fun f => place ≠ f.place && place.isPrefixOf f.place

/-- What is at a place. -/
def entry? (folder : Folder) (place : FilePlace) : Option FileEntry :=
  match folder.files.find? fun f => f.place = place with
  | some f => some (.file f.text)
  | none => if folder.isDirectoryAt place then some .directory else none

/-- The most bytes of a step. -/
def longestStep : Nat := 255

/-- The most bytes of a path. -/
def longestPath : Nat := 4095

/-- Goes further from a place.  A step leads out of a directory only. -/
def walk (folder : Folder) : FilePlace → List String → Except Obstacle FilePlace
  | place, [] => .ok place
  | place, step :: rest =>
    match folder.entry? place with
    | none => .error .missing
    -- Also for a step upward, or to the same place.
    | some (.file _) => .error .notDirectory
    | some .directory =>
      if step = "." then folder.walk place rest
      else if step = ".." then folder.walk place.dropLast rest
      else if longestStep < step.utf8ByteSize then .error .tooLong
      else folder.walk (place ++ [step]) rest

/-- The steps that a path really takes: an empty step is none, but a slash at the end asks
    for a directory. -/
def stepsTaken (path : String) : List String :=
  let parts := pathParts path
  let steps := parts.filter (· ≠ "")
  -- A step to the same place asks for a directory.
  if parts.getLast? = some "" then steps ++ ["."] else steps

/-- The place that a path leads to; what is there is not looked at. -/
def follow (folder : Folder) (path : String) : Except Obstacle FilePlace :=
  if path.toList.contains '\x00' then .error .nullCharacter
  else if path = "" then .error .missing
  else if longestPath < path.utf8ByteSize then .error .tooLong
  else folder.walk (if isAbsolute path then [] else folder.here) (stepsTaken path)

/-- What a path leads to. -/
def find (folder : Folder) (path : String) : Except Obstacle FileEntry := do
  let place ← folder.follow path
  match folder.entry? place with
  | some e => .ok e
  | none => .error .missing

/-- What a path leads to, if anything.  A path that is too long to be looked up is an
    obstacle. -/
def look (folder : Folder) (path : FilePath) : Except Obstacle (Option FileEntry) :=
  match folder.find path.text with
  | .ok e => .ok (some e)
  | .error .tooLong => .error .tooLong
  | .error _ => .ok none

/-- The path from here to a place below. -/
def relative? (folder : Folder) (place : FilePlace) : Option String :=
  if folder.here.isPrefixOf place then some (pathText (place.drop folder.here.length)) else none

/-! ### Writing -/

/-- Makes one directory. -/
def makeDirectory (folder : Folder) (path : FilePath) : Except Obstacle Folder := do
  let place ← folder.follow path.text
  match folder.entry? place with
  | some _ => .error .fileExists
  | none => .ok { folder with directories := folder.directories ++ [place] }

/-- Makes a directory unless it is there; what is there has to be one. -/
def ensureDirectory (folder : Folder) (path : FilePath) : Except Obstacle Folder :=
  match folder.makeDirectory path with
  | .ok made => .ok made
  | .error e =>
    -- It may be there under a path that leads elsewhere on the way.
    match folder.find path.text with
    | .ok .directory => .ok folder
    | _ => .error e

/-- Makes the directories of a path, whose steps are given from the last to the first.  The
    path that something stands in the way of is reported. -/
def makeDirectories (folder : Folder) (root : String) :
    List String → Except (Obstacle × FilePath) Folder
  | [] => .ok folder
  | step :: above => do
    let path : FilePath := ⟨root, (step :: above).reverse⟩
    let blocked := fun (o : Obstacle) => (o, path)
    match folder.ensureDirectory path with
    | .ok made => .ok made
    -- Only what is missing above is made, from the outermost on.
    | .error .missing =>
      let folder ← folder.makeDirectories root above
      (folder.ensureDirectory path).mapError blocked
    | .error e => .error (blocked e)

/-- The folder with a text in the file at a place. -/
def put (folder : Folder) (file : File) : Folder :=
  { folder with files := folder.files.filter (fun f => f.place ≠ file.place) ++ [file] }

/-- Writes a file.  Directories that are missing are made. -/
def write (folder : Folder) (path : FilePath) (text : String) :
    Except (Obstacle × FilePath) (File × Folder) := do
  let folder ← folder.makeDirectories path.root path.parent.steps.reverse
  let blocked := fun (o : Obstacle) => (o, path)
  let place ← (folder.follow path.text).mapError blocked
  -- A directory in place of the file is found only now, when those above have been made.
  if folder.isDirectoryAt place then .error (blocked .isDirectory)
  else
    let file : File := ⟨place, text⟩
    .ok (file, folder.put file)

end Folder

end SchemaGraph
