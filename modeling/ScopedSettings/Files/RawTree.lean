/-
A tree of files and directories.

Directories and files are known by number: a directory by what it holds and the
directory it lies in, so that a path is followed one step at a time, and a file
by its bytes, so that a file that is open keeps its identity when it is renamed.
A name may stand for a directory or a file that stands under other names too, as
hard links do, and symbolic links where they are followed. A symbolic link that
leads nowhere, or from the sibling of a file to the file itself, is not in a tree.
The operations are those a store needs, each one indivisible, and each fails
for the reasons a file system has: for what stands in the tree, or because the
system refuses it (`Refusals`), for a permission that is missing, for want of
room, or because the device fails. What is refused stays so while a tree changes.
-/
import ScopedSettings.Files.Path

namespace ScopedSettings.Files

/-- Why the system refuses an operation, by its message. -/
structure Fault where
  message : String
  deriving DecidableEq, Repr

def Fault.permissionDenied : Fault :=
  ⟨"Permission denied (os error 13)"⟩

def Fault.ioError : Fault :=
  ⟨"Input/output error (os error 5)"⟩

def Fault.noSpaceLeft : Fault :=
  ⟨"No space left on device (os error 28)"⟩

/-- Why an operation fails. -/
inductive Failure
  | notFound
  | busy
  | alreadyExists
  | notDirectory
  | isDirectory
  | nameTooLong
  | zeroInName
  | notText
  | refused (f : Fault)
  deriving DecidableEq, Repr

def Failure.message : Failure → String
  | .notFound => "No such file or directory (os error 2)"
  | .busy => "Device or resource busy (os error 16)"
  | .alreadyExists => "File exists (os error 17)"
  | .notDirectory => "Not a directory (os error 20)"
  | .isDirectory => "Is a directory (os error 21)"
  | .nameTooLong => "File name too long (os error 36)"
  | .zeroInName => "file name contained an unexpected NUL byte"
  | .notText => "stream did not contain valid UTF-8"
  | .refused f => f.message

abbrev DirectoryId := Nat

abbrev FileId := Nat

/-- A name in a directory. -/
structure Place where
  directory : DirectoryId
  name : String
  deriving DecidableEq, Repr

/-- What the system refuses in a tree, and why. -/
structure Refusals where
  /-- Looking a name up in a directory. -/
  search : DirectoryId → Option Fault := fun _ => none
  /-- Giving a directory a name, or taking one from it. -/
  change : DirectoryId → Option Fault := fun _ => none
  /-- Giving a file the name at a place, be it taken or not, where the directories can be
  changed. -/
  replace : Place → Option Fault := fun _ => none
  /-- Opening a directory. -/
  list : DirectoryId → Option Fault := fun _ => none
  /-- Opening a file to read it, or reading it. -/
  read : FileId → Option Fault := fun _ => none
  /-- Opening a file that is there to write to it. -/
  write : FileId → Option Fault := fun _ => none
  /-- Writing bytes to an open file: how many are written, if that is not all of them, and why
  the others are not. -/
  put : ByteArray → Option (Nat × Fault) := fun _ => none
  /-- Flushing a file. -/
  flush : Option Fault := none
  /-- Flushing a directory. -/
  flushDirectory : DirectoryId → Option Fault := fun _ => none

def Refusals.none : Refusals := {}

/-- What is done where nothing is refused. -/
def unlessRefused (f? : Option Fault) (answer : Except Failure α) : Except Failure α :=
  match f? with
  | some f => .error (.refused f)
  | none => answer

@[simp] theorem unlessRefused_none (answer : Except Failure α) :
    unlessRefused none answer = answer := rfl

@[simp] theorem unlessRefused_some (f : Fault) (answer : Except Failure α) :
    unlessRefused (some f) answer = .error (.refused f) := rfl

theorem unlessRefused_eq_ok_iff {f? : Option Fault} {answer : Except Failure α} {a : α} :
    unlessRefused f? answer = .ok a ↔ f? = none ∧ answer = .ok a := by
  cases f? <;> simp

/-- What a name stands for. -/
inductive Node
  | directory (id : DirectoryId)
  | file (id : FileId)
  deriving DecidableEq, Repr

/-- A directory: the one it lies in, and what its names stand for. -/
structure Directory where
  parent : DirectoryId
  entries : List (String × Node) := []

namespace Directory

def find? (d : Directory) (name : String) : Option Node :=
  (d.entries.find? fun e => e.1 == name).map Prod.snd

def without (d : Directory) (name : String) : Directory :=
  { d with entries := d.entries.filter fun e => !(e.1 == name) }

/-- The directory with a name that stands for a node. -/
def holding (d : Directory) (name : String) (n : Node) : Directory :=
  { d with entries := (name, n) :: (d.without name).entries }

@[simp] theorem find?_without_self (d : Directory) (name : String) :
    (d.without name).find? name = none := by
  simp [find?, without]

@[simp] theorem find?_without_other (d : Directory) {name other : String} (h : other ≠ name) :
    (d.without name).find? other = d.find? other := by
  unfold find? without
  congr 1
  induction d.entries with
  | nil => rfl
  | cons e es ih =>
    by_cases he : e.1 = name
    · simp [he, ih, Ne.symm h]
    · simp [he, List.find?_cons, ih]

@[simp] theorem find?_holding_self (d : Directory) (name : String) (n : Node) :
    (d.holding name n).find? name = some n := by
  simp [find?, holding]

@[simp] theorem find?_holding_other (d : Directory) {name other : String} (h : other ≠ name)
    (n : Node) : (d.holding name n).find? other = d.find? other := by
  rw [← find?_without_other d h]
  simp [find?, holding, Ne.symm h]

end Directory

/-- A tree of files, and the directory that relative paths start from. -/
structure RawTree where
  /-- The directories by number; the first is the root, which lies in itself. -/
  directories : Array Directory := #[⟨0, []⟩]
  /-- What the files hold, by number. -/
  contents : Array ByteArray := #[]
  here : DirectoryId := 0
  refusals : Refusals := {}

namespace RawTree

def root : DirectoryId := 0

def directory (t : RawTree) (id : DirectoryId) : Directory :=
  (t.directories[id]?).getD ⟨root, []⟩

def node? (t : RawTree) (p : Place) : Option Node :=
  (t.directory p.directory).find? p.name

def content (t : RawTree) (id : FileId) : ByteArray :=
  (t.contents[id]?).getD .empty

def putNode (t : RawTree) (p : Place) (n : Node) : RawTree :=
  { t with directories := t.directories.modify p.directory fun d => d.holding p.name n }

def dropNode (t : RawTree) (p : Place) : RawTree :=
  { t with directories := t.directories.modify p.directory fun d => d.without p.name }

def putContent (t : RawTree) (id : FileId) (bytes : ByteArray) : RawTree :=
  { t with contents := t.contents.setIfInBounds id bytes }

/-- The tree with a new empty directory at a place. -/
def addDirectory (t : RawTree) (p : Place) : RawTree :=
  { t with directories := t.directories.push ⟨p.directory, []⟩ }.putNode p
    (.directory t.directories.size)

def addFile (t : RawTree) (p : Place) : RawTree :=
  { t with contents := t.contents.push .empty }.putNode p (.file t.contents.size)

/-- The tree of one empty directory, from which relative paths start. -/
def workspace : RawTree :=
  { ({} : RawTree).addDirectory ⟨root, "work"⟩ with here := 1 }

theorem node?_modify (t : RawTree) (p q : Place) (f : Directory → Directory) :
    ({ t with directories := t.directories.modify p.directory f } : RawTree).node? q =
      if q.directory = p.directory ∧ p.directory < t.directories.size then
        (f (t.directory q.directory)).find? q.name
      else t.node? q := by
  unfold node? directory
  by_cases hq : q.directory = p.directory
  · by_cases hp : p.directory < t.directories.size
    · simp [hq, hp, Array.getElem_modify]
    · simp [hq, hp]
  · simp [hq, Array.getElem?_modify, Ne.symm hq]

theorem node?_putNode_self (t : RawTree) {p : Place} (h : p.directory < t.directories.size)
    (n : Node) : (t.putNode p n).node? p = some n := by
  simp [putNode, node?_modify, h]

theorem node?_dropNode_self (t : RawTree) {p : Place} (h : p.directory < t.directories.size) :
    (t.dropNode p).node? p = none := by
  simp [dropNode, node?_modify, h]

@[simp] theorem node?_putNode_other (t : RawTree) {p q : Place} (h : q ≠ p) (n : Node) :
    (t.putNode p n).node? q = t.node? q := by
  rw [putNode, node?_modify]
  split
  · rename_i hd
    have hn : q.name ≠ p.name := fun hn => h (by cases p; cases q; simp_all)
    simp [node?, hn]
  · rfl

@[simp] theorem node?_dropNode_other (t : RawTree) {p q : Place} (h : q ≠ p) :
    (t.dropNode p).node? q = t.node? q := by
  rw [dropNode, node?_modify]
  split
  · rename_i hd
    have hn : q.name ≠ p.name := fun hn => h (by cases p; cases q; simp_all)
    simp [node?, hn]
  · rfl

@[simp] theorem node?_putContent (t : RawTree) (id : FileId) (bytes : ByteArray) (p : Place) :
    (t.putContent id bytes).node? p = t.node? p := rfl

theorem content_putContent_self (t : RawTree) {id : FileId} (h : id < t.contents.size)
    (bytes : ByteArray) : (t.putContent id bytes).content id = bytes := by
  simp [content, putContent, h]

/-! ## Resolving paths -/

/-- The longest name a directory can hold, in bytes. -/
def longestName : Nat := 255

/-- The longest path, in bytes. -/
def longestPath : Nat := 4095

/-- Where a name leads from a directory: to a directory, if it can be followed. -/
def step (t : RawTree) (d : DirectoryId) (name : String) : Except Failure DirectoryId :=
  unlessRefused (t.refusals.search d) <|
    if name == "." then .ok d
    else if name == ".." then .ok (t.directory d).parent
    else if name.utf8ByteSize > longestName then .error .nameTooLong
    else
      match t.node? ⟨d, name⟩ with
      | none => .error .notFound
      | some (.file _) => .error .notDirectory
      | some (.directory e) => .ok e

/-- The directory that names lead to from a directory, one after another. -/
def walk (t : RawTree) (d : DirectoryId) : List String → Except Failure DirectoryId
  | [] => .ok d
  | name :: rest =>
    match t.step d name with
    | .error f => .error f
    | .ok d => t.walk d rest

/-- Where a path leads: to a directory by `.`, by `..` or by no name at all, or to a
name in a directory, which may stand for something or nothing. -/
inductive Target
  | directory (id : DirectoryId)
  | name (p : Place)
  deriving DecidableEq, Repr

def at? (t : RawTree) : Target → Option Node
  | .directory id => some (.directory id)
  | .name p => t.node? p

/-- Where the last name of a path leads from the directory before it. -/
def lastStep (t : RawTree) (d : DirectoryId) (last : String) : Except Failure Target :=
  unlessRefused (t.refusals.search d) <|
    if last == "." then .ok (.directory d)
    else if last == ".." then .ok (.directory (t.directory d).parent)
    else if last.utf8ByteSize > longestName then .error .nameTooLong
    else .ok (.name ⟨d, last⟩)

/-- Where a path leads, its directories resolved. -/
def resolve (t : RawTree) (path : String) : Except Failure Target :=
  if path.toList.contains '\x00' then .error .zeroInName
  else if path.utf8ByteSize > longestPath then .error .nameTooLong
  else if path.isEmpty then .error .notFound
  else
    let start := if isAbsolute path then root else t.here
    match (names path).reverse with
    | [] => .ok (.directory start)
    | last :: before =>
      match t.walk start before.reverse with
      | .error f => .error f
      | .ok d => t.lastStep d last

/-! ## Operations -/

def textOf (bytes : ByteArray) : Except Failure String :=
  match String.fromUTF8? bytes with
  | some s => .ok s
  | none => .error .notText

def readBytes (t : RawTree) (path : String) : Except Failure ByteArray :=
  match t.resolve path with
  | .error f => .error f
  | .ok target =>
    match t.at? target with
    | none => .error .notFound
    | some (.directory d) => unlessRefused (t.refusals.list d) (.error .isDirectory)
    | some (.file id) =>
      if asksDirectory path then .error .notDirectory
      else unlessRefused (t.refusals.read id) (.ok (t.content id))

def readText (t : RawTree) (path : String) : Except Failure String := do
  textOf (← t.readBytes path)

def makeDirectory (t : RawTree) (path : String) : Except Failure Unit × RawTree :=
  match t.resolve path with
  | .error f => (.error f, t)
  | .ok (.directory _) => (.error .alreadyExists, t)
  | .ok (.name p) =>
    match t.node? p, t.refusals.change p.directory with
    | some _, _ => (.error .alreadyExists, t)
    | none, some f => (.error (.refused f), t)
    | none, none => (.ok (), t.addDirectory p)

/-- Does a path lead to a directory? -/
def isDirectory (t : RawTree) (path : String) : Bool :=
  match t.resolve path with
  | .ok target =>
    match t.at? target with
    | some (.directory _) => true
    | _ => false
  | .error _ => false

/-- Makes a directory, after the directories it is to lie in; a directory that is
there already will do. The paths tried are at most `fuel`. -/
def makeDirectoriesFrom (t : RawTree) (path : String) : Nat → Except Failure Unit × RawTree
  | 0 => (.error .notFound, t)
  | fuel + 1 =>
    match t.makeDirectory path with
    | (.ok (), t) => (.ok (), t)
    | (.error .notFound, t) =>
      match t.makeDirectoriesFrom (parent path) fuel with
      | (.error f, t) => (.error f, t)
      | (.ok (), t) =>
        match t.makeDirectory path with
        | (.ok (), t) => (.ok (), t)
        | (.error f, t) => if t.isDirectory path then (.ok (), t) else (.error f, t)
    | (.error f, t) => if t.isDirectory path then (.ok (), t) else (.error f, t)

/-- Makes a directory and those it lies in, as far as they are missing. -/
def makeDirectories (t : RawTree) (path : String) : Except Failure Unit × RawTree :=
  t.makeDirectoriesFrom path (path.length + 1)

/-- Opens an empty file for writing: a new one, or one that is there and loses
what it held. -/
def create (t : RawTree) (path : String) : Except Failure FileId × RawTree :=
  match t.resolve path with
  | .error f => (.error f, t)
  | .ok (.directory _) => (.error .isDirectory, t)
  | .ok (.name p) =>
    if asksDirectory path then (.error .isDirectory, t)
    else
      match t.node? p with
      | some (.directory _) => (.error .isDirectory, t)
      | some (.file id) =>
        match t.refusals.write id with
        | some f => (.error (.refused f), t)
        | none => (.ok id, t.putContent id .empty)
      | none =>
        match t.refusals.change p.directory with
        | some f => (.error (.refused f), t)
        | none => (.ok t.contents.size, t.addFile p)

/-- The tree with bytes at the start of a file, over what it holds there. -/
def overwrite (t : RawTree) (id : FileId) (bytes : ByteArray) : RawTree :=
  let old := t.content id
  t.putContent id (bytes ++ old.extract bytes.size old.size)

/-- Writes bytes at the start of an open file. Where that is refused not all of them are
written. -/
def write (t : RawTree) (id : FileId) (bytes : ByteArray) : Except Failure Unit × RawTree :=
  match t.refusals.put bytes with
  | some (n, f) => (.error (.refused f), t.overwrite id (bytes.extract 0 (min n (bytes.size - 1))))
  | none => (.ok (), t.overwrite id bytes)

/-- Flushes an open file. -/
def sync (t : RawTree) (_ : FileId) : Except Failure Unit :=
  unlessRefused t.refusals.flush (.ok ())

/-- Opens a directory, or what else a path leads to, and flushes it. -/
def syncDirectory (t : RawTree) (path : String) : Except Failure Unit :=
  match t.resolve path with
  | .error f => .error f
  | .ok target =>
    match t.at? target with
    | none => .error .notFound
    | some (.directory d) =>
      unlessRefused (t.refusals.list d) (unlessRefused (t.refusals.flushDirectory d) (.ok ()))
    | some (.file id) =>
      if asksDirectory path then .error .notDirectory
      else unlessRefused (t.refusals.read id) (t.sync id)

/-- Gives a file another name, in place of the file that has it. Both paths are
followed before anything else is looked at. Where both names are the file's already
it keeps both, and no directory is changed. -/
def rename (t : RawTree) (source target : String) : Except Failure Unit × RawTree :=
  match t.resolve source, t.resolve target with
  | .error f, _ => (.error f, t)
  | .ok _, .error f => (.error f, t)
  | .ok (.name p), .ok (.name q) =>
    match t.node? p with
    | none => (.error .notFound, t)
    | some (.directory _) => (.error .isDirectory, t)
    | some (.file id) =>
      if asksDirectory target then (.error .notDirectory, t)
      else if t.node? q = some (.file id) then (.ok (), t)
      else
        match (t.refusals.change p.directory).or (t.refusals.change q.directory) with
        | some f => (.error (.refused f), t)
        | none =>
          match t.node? q with
          | some (.directory _) => (.error .isDirectory, t)
          | _ =>
            match t.refusals.replace q with
            | some f => (.error (.refused f), t)
            | none => (.ok (), (t.dropNode p).putNode q (.file id))
  | .ok _, .ok _ => (.error .busy, t)

def remove (t : RawTree) (path : String) : Except Failure Unit × RawTree :=
  match t.resolve path with
  | .error f => (.error f, t)
  | .ok (.directory _) => (.error .isDirectory, t)
  | .ok (.name p) =>
    match t.node? p with
    | none => (.error .notFound, t)
    | some (.directory _) => (.error .isDirectory, t)
    | some (.file _) =>
      if asksDirectory path then (.error .notDirectory, t)
      else
        match t.refusals.change p.directory with
        | some f => (.error (.refused f), t)
        | none => (.ok (), t.dropNode p)

/-- The names in a directory, in order. -/
def list (t : RawTree) (path : String) : Except Failure (List String) :=
  match t.resolve path with
  | .error f => .error f
  | .ok target =>
    match t.at? target with
    | none => .error .notFound
    | some (.file _) => .error .notDirectory
    | some (.directory d) =>
      unlessRefused (t.refusals.list d)
        (.ok (((t.directory d).entries.map Prod.fst).mergeSort fun a b => a ≤ b))

/-- Puts a file of the given bytes at a path, with the directories it lies in. -/
def putFile (t : RawTree) (path : String) (bytes : ByteArray) : Except Failure Unit × RawTree :=
  match t.makeDirectories (parent path) with
  | (.error f, t) => (.error f, t)
  | (.ok (), t) =>
    match t.create path with
    | (.error f, t) => (.error f, t)
    | (.ok id, t) => t.write id bytes

end RawTree
end ScopedSettings.Files
