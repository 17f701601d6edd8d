import StackScript.Files.Program
import StackScript.Number.Word

/-!
# File trees in memory

A file tree has a node for every place below the root: a file with its content and its
modification time, or a directory.  A place is the list of names that leads to it from the
root.  There are no links, so every place has one name.

A path is walked segment by segment, from the root or from the current directory.  Every
segment needs a directory to be looked up in; `.` and the empty segment stay in it, and
`..` goes back to the one above, which for the root is the root itself.  A slash behind
the last name therefore asks for a directory.

`answer` carries out the requests of a program.
-/

namespace StackScript

/-- A place in a tree: the names that lead to it from the root. -/
abbrev Place := List Path.Segment

/-- What is at a place. -/
inductive Node where
  /-- A file. -/
  | file (content : List UInt8) (mtime : Int)
  /-- A directory. -/
  | dir
  deriving DecidableEq, Repr

/-- Files and directories. -/
structure FileTree where
  /-- What is at which place below the root. -/
  nodes : List (Place × Node)
  /-- The current directory. -/
  current : Place
  deriving DecidableEq, Repr

namespace FileTree

/-- A tree with nothing in it but its current directory and those above. -/
def empty (current : Place) : FileTree where
  nodes := (List.range current.length).map fun n => (current.take (n + 1), .dir)
  current := current

/-! ## Places -/

/-- What is at a place.  The root is always there. -/
def node? (t : FileTree) (place : Place) : Option Node :=
  if place = [] then some .dir else t.nodes.lookup place

/-- Whether a place is a directory. -/
def isDirAt (t : FileTree) (place : Place) : Bool :=
  t.node? place == some .dir

/-- Nothing is left at a place. -/
def erase (t : FileTree) (place : Place) : FileTree :=
  { t with nodes := t.nodes.filter fun e => e.1 != place }

/-- Put a node at a place, instead of what is there. -/
def set (t : FileTree) (place : Place) (n : Node) : FileTree :=
  { t with nodes := (place, n) :: (t.erase place).nodes }

/-- A place must be a directory for the walk to go on. -/
def requireDir (t : FileTree) (place : Place) : Except FileError Unit :=
  match t.node? place with
  | none => .error .notFound
  | some (.file _ _) => .error .notDirectory
  | some .dir => .ok ()

/-- The longest name, in bytes. -/
def nameLimit : Nat := 255

/-- The longest path, in bytes. -/
def pathLimit : Nat := 4095

/-- A name must not be too long. -/
def requireName (s : Path.Segment) : Except FileError Unit :=
  if nameLimit < (String.ofList s).utf8ByteSize then .error .nameTooLong else .ok ()

/-! ## Walking along a path -/

/-- Look up one segment in a directory. -/
def enter (t : FileTree) (here : Place) (s : Path.Segment) : Except FileError Place := do
  t.requireDir here
  if s = [] ∨ s = ['.'] then
    return here
  else if s = ['.', '.'] then
    return here.dropLast
  else
    requireName s
    return here ++ [s]

/-- Look up one segment after the other. -/
def walk (t : FileTree) (here : Place) : List Path.Segment → Except FileError Place
  | [] => .ok here
  | s :: ss => do
      let here ← t.enter here s
      t.walk here ss

/-- Where the walk along a path starts. -/
def start (t : FileTree) (p : Path) : Place :=
  if p.isRooted then [] else t.current

/-- A path must have characters, but not too many, and none that ends it early. -/
def requirePath (p : Path) : Except FileError Unit :=
  if p.text.toList.contains '\x00' then .error .nulInPath
  else if p.text = "" then .error .notFound
  else if pathLimit < p.text.utf8ByteSize then .error .nameTooLong
  else .ok ()

/-- The place that a path leads to; there need not be anything. -/
def resolve (t : FileTree) (p : Path) : Except FileError Place := do
  requirePath p
  t.walk (t.start p) p.segments

/-- What a path leads to. -/
def find (t : FileTree) (p : Path) : Except FileError Node := do
  let place ← t.resolve p
  match t.node? place with
  | some n => return n
  | none => .error .notFound

/-- Whether a path leads to a file. -/
def isFile (t : FileTree) (p : Path) : Bool :=
  match t.find p with
  | .ok (.file _ _) => true
  | _ => false

/-- Whether a path leads to a directory. -/
def isDir (t : FileTree) (p : Path) : Bool :=
  match t.find p with
  | .ok .dir => true
  | _ => false

/-- Where something is to be made or moved to. -/
inductive Target where
  /-- Under a name in a directory; the flag says whether a slash follows. -/
  | named (place : Place) (slash : Bool)
  /-- The path does not end with a name. -/
  | unnamed

/-- Where a path says that something is to be made. -/
def target (t : FileTree) (p : Path) : Except FileError Target := do
  requirePath p
  let segments := p.segments
  match (segments.reverse.dropWhile (· = [])) with
  | [] => return .unnamed
  | last :: before =>
      let dir ← t.walk (t.start p) before.reverse
      t.requireDir dir
      if last = ['.'] ∨ last = ['.', '.'] then
        return .unnamed
      else
        requireName last
        return .named (dir ++ [last]) (segments.getLast? == some [])

/-! ## Operations -/

/-- The content of a file. -/
def read (t : FileTree) (p : Path) : Except FileError (List UInt8) := do
  match ← t.find p with
  | .file content _ => return content
  | .dir => .error .isDirectory

/-- Time and size of a file; those of directories are of no interest. -/
def stat (t : FileTree) (p : Path) : Except FileError FileStat := do
  match ← t.find p with
  | .file content mtime => return ⟨mtime, content.length⟩
  | .dir => return ⟨0, 0⟩

/-- Make a directory. -/
def createDir (t : FileTree) (p : Path) : Except FileError FileTree := do
  match ← t.target p with
  | .unnamed => .error .alreadyExists
  | .named place _ =>
      match t.node? place with
      | some _ => .error .alreadyExists
      | none => return t.set place .dir

/-- Make a directory; one that is there already will do. -/
def ensureDir (t : FileTree) (p : Path) : Except FileError FileTree :=
  match t.createDir p with
  | .ok t => .ok t
  | .error e => if t.isDir p then .ok t else .error e

/-- Make the first of some directories.  The others are the ones above it, and they are made
first where they are missing. -/
def createDirsAlong (t : FileTree) : List Path → Except FileError Unit × FileTree
  | [] => (.ok (), t)
  | p :: above =>
      if p.text = "" then
        (.ok (), t)
      else
        match t.ensureDir p with
        | .ok t => (.ok (), t)
        | .error .notFound =>
            match t.createDirsAlong above with
            | (.error e, t) => (.error e, t)
            | (.ok (), t) =>
                match t.ensureDir p with
                | .ok t => (.ok (), t)
                | .error e => (.error e, t)
        | .error e => (.error e, t)

/-- Make a directory and all that are missing above it. -/
def createDirs (t : FileTree) (p : Path) : Except FileError Unit × FileTree :=
  t.createDirsAlong p.ancestors

/-- The names of temporary files. -/
def tempName (n : Nat) : Path.Segment :=
  let digits := Word.digits n
  ".tmp".toList ++ List.replicate (6 - digits.length) '0' ++ digits

/-- A name that nothing in a directory has.  There are fewer nodes than names to choose from. -/
def freshName (t : FileTree) (dir : Place) : Path.Segment :=
  match (List.range (t.nodes.length + 1)).find? fun n => (t.node? (dir ++ [tempName n])).isNone with
  | some n => tempName n
  | none => tempName 0

/-- Make an empty file where there is nothing yet. -/
def createNew (t : FileTree) (p : Path) : Except FileError Unit × FileTree :=
  match t.resolve p with
  | .error e => (.error e, t)
  | .ok place =>
      match t.node? place with
      | some _ => (.error .alreadyExists, t)
      | none => (.ok (), t.set place (.file [] 0))

/-- Make a temporary file. -/
def createTemp (t : FileTree) (dir : Path) : Except FileError TempFile × FileTree :=
  match t.resolve dir with
  | .error e => (.error e, t)
  | .ok place =>
      match t.requireDir place with
      | .error e => (.error e, t)
      | .ok () =>
          let path := dir.join ⟨String.ofList (t.freshName place)⟩
          match t.createNew path with
          | (.error e, t) => (.error e, t)
          | (.ok (), t) => (.ok ⟨path⟩, t)

/-- Write a temporary file. -/
def writeTemp (t : FileTree) (f : TempFile) (content : List UInt8) :
    Except FileError Unit × FileTree :=
  match t.resolve f.path with
  | .error e => (.error e, t)
  | .ok place => (.ok (), t.set place (.file content 0))

/-- Where a path says that a file is to be moved. -/
def moveTarget (t : FileTree) (p : Path) : Except FileError Place := do
  if p.text.toList.contains '\x00' then
    .error .invalidArgument
  else
    match ← t.target p with
    | .unnamed => .error .busy
    | .named _ true => .error .notDirectory
    | .named place false => if t.isDirAt place then .error .isDirectory else return place

/-- Move a temporary file. -/
def moveTemp (t : FileTree) (f : TempFile) (p : Path) : Except FileError Unit × FileTree :=
  match t.resolve f.path with
  | .error e => (.error e, t)
  | .ok source =>
      match t.node? source, t.moveTarget p with
      | none, _ => (.error .notFound, t)
      | some _, .error e => (.error e, t)
      | some n, .ok place => (.ok (), (t.erase source).set place n)

/-- Remove a temporary file. -/
def dropTemp (t : FileTree) (f : TempFile) : FileTree :=
  match t.resolve f.path with
  | .error _ => t
  | .ok place => t.erase place

/-- Carry out a request. -/
def answer : (op : FileOp) → FileTree → op.Reply × FileTree
  | .read p, t => (t.read p, t)
  | .stat p, t => (t.stat p, t)
  | .isFile p, t => (t.isFile p, t)
  | .createDirs p, t => t.createDirs p
  | .createTemp dir, t => t.createTemp dir
  | .writeTemp f content, t => t.writeTemp f content
  | .syncTemp _, t => (.ok (), t)
  | .moveTemp f p, t => t.moveTemp f p
  | .dropTemp f, t => ((), t.dropTemp f)

/-! ## Filling and listing a tree -/

/-- Put a file with a modification time into the tree, and make the directories above it. -/
def putFile (t : FileTree) (p : Path) (content : List UInt8) (mtime : Int) : FileTree :=
  let t := match p.parent? with
    | some dir => (t.createDirs dir).2
    | none => t
  match t.resolve p with
  | .ok place => t.set place (.file content mtime)
  | .error _ => t

/-- The places below the current directory, as relative paths in order; a directory ends in
a slash. -/
def listing (t : FileTree) : List String :=
  let below (e : Place × Node) : Option String :=
    if t.current.isPrefixOf e.1 && e.1 != t.current then
      let name := Path.unsplit (e.1.drop t.current.length)
      some (String.ofList (if e.2 = .dir then name ++ ['/'] else name))
    else
      none
  (t.nodes.filterMap below).mergeSort fun a b => decide (a ≤ b)

/-! ## What is at a place afterwards -/

theorem node?_set_self (t : FileTree) {place : Place} (h : place ≠ []) (n : Node) :
    (t.set place n).node? place = some n := by
  simp [node?, set, h]

theorem lookup_filter_of_ne {place other : Place} (h : other ≠ place) (l : List (Place × Node)) :
    (l.filter fun e => e.1 != place).lookup other = l.lookup other := by
  induction l with
  | nil => rfl
  | cons e l ih =>
    obtain ⟨q, n⟩ := e
    by_cases hq : q = place
    · subst hq
      simp [List.lookup_cons, beq_false_of_ne h, ih]
    · simp [hq, List.lookup_cons, ih]

theorem node?_erase_of_ne (t : FileTree) {place other : Place} (h : other ≠ place) :
    (t.erase place).node? other = t.node? other := by
  simp only [node?, erase, lookup_filter_of_ne h]

theorem node?_set_of_ne (t : FileTree) {place other : Place} (h : other ≠ place) (n : Node) :
    (t.set place n).node? other = t.node? other := by
  have hb : (other == place) = false := beq_false_of_ne h
  simp only [node?, set, erase, List.lookup_cons, hb, lookup_filter_of_ne h]

end FileTree

end StackScript
