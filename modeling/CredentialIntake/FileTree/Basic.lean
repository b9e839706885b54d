import CredentialIntake.Bytes
import CredentialIntake.FileTree.Fault
import CredentialIntake.Path
import Std.Data.ExtTreeMap

/-!
# File trees

The files and directories that credentials are kept in, as one map from
locations to nodes. A location is the list of names from the working directory
down; locations outside of it begin with `/` or with as many `..` as it takes.

A path is followed name by name: every name but the last must be that of an
existing directory, `.` stays, `..` goes up, and no name may have more than 255
bytes. A path that ends with a slash asks for a directory.

All files belong to the one who works on the tree, and the owner's permission
bits say whether a file can be read and whether one that is there can be opened
for writing. Removing and renaming do not depend on them.
-/

namespace CredentialIntake

/-- A regular file: its permission bits and its content. -/
structure File where
  mode : Nat
  content : Bytes
  deriving DecidableEq

namespace File

/-- Whether the owner may read the file. -/
def isReadable (file : File) : Bool := file.mode.testBit 8

/-- Whether the owner may open the file for writing. -/
def isWritable (file : File) : Bool := file.mode.testBit 7

end File

inductive Node where
  | directory
  | file (file : File)
  deriving DecidableEq

/-- Names from the working directory down. -/
abbrev Location := List String

namespace Location

/-- The working directory, the directories above it and the root of all, which
are there whatever a tree holds. -/
def isAnchor (place : Location) : Bool := place.all (· == "..") || place == ["/"]

def parent (place : Location) : Location :=
  if place = ["/"] then place
  else if place.all (· == "..") then ".." :: place
  else place.dropLast

def ofStart (path : Path) : Location := if path.isAbsolute then ["/"] else []

/-- The location as a path text. -/
def toText (place : Location) : String := "/".intercalate place

end Location

/-- What a path leads to: a directory that is there, or a name in one that may
or may not be taken. -/
inductive Place where
  | folder (place : Location)
  | entry (folder : Location) (name : String)
  deriving DecidableEq

structure FileTree where
  nodes : Std.ExtTreeMap Location Node

namespace FileTree

def empty : FileTree := ⟨∅⟩

/-- The most bytes a name can have. -/
def nameLimit : Nat := 255

def node? (tree : FileTree) (place : Location) : Option Node :=
  if place.isAnchor then some .directory else tree.nodes[place]?

def insert (tree : FileTree) (place : Location) (node : Node) : FileTree :=
  ⟨tree.nodes.insert place node⟩

def erase (tree : FileTree) (place : Location) : FileTree := ⟨tree.nodes.erase place⟩

/-! ## Following paths -/

/-- Follows names from a directory. -/
def follow (tree : FileTree) (place : Location) : List String → Except FileFault Place
  | [] => .ok (.folder place)
  | name :: rest =>
    if name = "." then follow tree place rest
    else if name = ".." then follow tree (Location.parent place) rest
    else if nameLimit < name.utf8ByteSize then .error .nameTooLong
    else if rest.isEmpty then .ok (.entry place name)
    else match tree.node? (place ++ [name]) with
      | none => .error .notFound
      | some (.file _) => .error .notDirectory
      | some .directory => follow tree (place ++ [name]) rest

/-- Where a path leads. -/
def resolve (tree : FileTree) (path : Path) : Except FileFault Place :=
  if '\x00' ∈ path.text.toList then .error .nulByte
  else if path.text.isEmpty then .error .notFound
  else tree.follow (Location.ofStart path) path.names

/-- What is at a path. -/
def stat (tree : FileTree) (path : Path) : Except FileFault Node :=
  match tree.resolve path with
  | .error fault => .error fault
  | .ok (.folder _) => .ok .directory
  | .ok (.entry folder name) =>
    match tree.node? (folder ++ [name]) with
    | none => .error .notFound
    | some .directory => .ok .directory
    | some (.file file) =>
      if path.endsWithSlash then .error .notDirectory else .ok (.file file)

def contains (tree : FileTree) (path : Path) : Bool := (tree.stat path).isOk

def isFile (tree : FileTree) (path : Path) : Bool :=
  match tree.stat path with
  | .ok (.file _) => true
  | _ => false

/-- The file at a path. -/
def read (tree : FileTree) (path : Path) : Except FileFault File :=
  match tree.stat path with
  | .error fault => .error fault
  | .ok .directory => .error .isDirectory
  | .ok (.file file) => if file.isReadable then .ok file else .error .permissionDenied

/-- The content of the file at a path, as a text. -/
def readText (tree : FileTree) (path : Path) : Except FileFault String :=
  match tree.read path with
  | .error fault => .error fault
  | .ok file =>
    match Bytes.toText? file.content with
    | some text => .ok text
    | none => .error .notText

/-! ## Changing files -/

/-- Opens a file for writing and empties it. A file that is there keeps its
mode, one that is not is created with `mode`. -/
def create (tree : FileTree) (path : Path) (mode : Nat) : Except FileFault FileTree :=
  match tree.resolve path with
  | .error fault => .error fault
  | .ok (.folder _) => .error .isDirectory
  | .ok (.entry folder name) =>
    if path.endsWithSlash then .error .isDirectory
    else match tree.node? (folder ++ [name]) with
      | some .directory => .error .isDirectory
      | some (.file file) =>
        if file.isWritable then
          .ok (tree.insert (folder ++ [name]) (.file { file with content := [] }))
        else .error .permissionDenied
      | none => .ok (tree.insert (folder ++ [name]) (.file ⟨mode, []⟩))

/-- The location of the file at a path, with the file. -/
def locate (tree : FileTree) (path : Path) : Except FileFault (Location × File) :=
  match tree.resolve path with
  | .error fault => .error fault
  | .ok (.folder _) => .error .isDirectory
  | .ok (.entry folder name) =>
    match tree.node? (folder ++ [name]) with
    | none => .error .notFound
    | some .directory => .error .isDirectory
    | some (.file file) =>
      if path.endsWithSlash then .error .notDirectory else .ok (folder ++ [name], file)

/-- Changes the file at a path. -/
def modify (tree : FileTree) (path : Path) (change : File → File) : Except FileFault FileTree :=
  (tree.locate path).map fun (place, file) => tree.insert place (.file (change file))

/-- Removes the file at a path. A directory is not removed. -/
def remove (tree : FileTree) (path : Path) : Except FileFault FileTree :=
  (tree.locate path).map fun (place, _) => tree.erase place

/-- Moves a file to another path in one step, in place of the file that may be
there. -/
def rename (tree : FileTree) (source target : Path) : Except FileFault FileTree :=
  match tree.locate source with
  | .error fault => .error fault
  | .ok (place, file) =>
    match tree.resolve target with
    | .error fault => .error fault
    | .ok (.folder _) => .error .isDirectory
    | .ok (.entry folder name) =>
      match tree.node? (folder ++ [name]) with
      | some .directory => .error .isDirectory
      | _ =>
        if target.endsWithSlash then .error .notDirectory
        else .ok ((tree.erase place).insert (folder ++ [name]) (.file file))

end FileTree

end CredentialIntake
