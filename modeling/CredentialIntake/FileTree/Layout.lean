import CredentialIntake.FileTree.Basic

/-!
# Laying out and listing file trees

What an administrator does to a tree, making directories with their parents,
placing files, removing whole directories, and the listing of all that is below
the working directory. What cannot be made or placed fails; what is not there
need not be removed.
-/

namespace CredentialIntake

/-- What can be seen of a node: the content of a file only if it may be read. -/
def Node.visible : Node → Node
  | file found => file (if found.isReadable then found else { found with content := [] })
  | directory => directory

namespace FileTree

/-- Makes the directories that are missing along the names, from `place` on. -/
def makeAlong (tree : FileTree) (place : Location) : List String → Except FileFault FileTree
  | [] => .ok tree
  | name :: rest =>
    if name = "." then makeAlong tree place rest
    else if name = ".." then makeAlong tree (Location.parent place) rest
    else if nameLimit < name.utf8ByteSize then .error .nameTooLong
    else match tree.node? (place ++ [name]) with
      | some (.file _) => .error .notDirectory
      | some .directory => makeAlong tree (place ++ [name]) rest
      | none => makeAlong (tree.insert (place ++ [name]) .directory) (place ++ [name]) rest

/-- Makes a directory and its parents. A path that ends with `.` names the inside
of a directory, which therefore has to be there; only its parents are made. -/
def makeDirectories (tree : FileTree) (path : Path) : Except FileFault FileTree :=
  if '\x00' ∈ path.text.toList then .error .nulByte
  else if path.names.getLast? = some "." then do
    let inside := path.names.reverse.dropWhile (· = ".")
    let tree ← tree.makeAlong (Location.ofStart path) (inside.drop 1).reverse
    match ← tree.stat path with
    | .directory => return tree
    | .file _ => throw .notDirectory
  else tree.makeAlong (Location.ofStart path) path.names

/-- Places a file, with the directories above it. -/
def place (tree : FileTree) (path : Path) (file : File) : Except FileFault FileTree :=
  if '\x00' ∈ path.text.toList then .error .nulByte
  else do
    let tree ← tree.makeAlong (Location.ofStart path) path.names.dropLast
    let tree ← tree.create path file.mode
    tree.modify path fun _ => file

/-- Removes a file, or a directory with everything in it. A path that leads
nowhere, or asks for a directory where there is a file, removes nothing. -/
def removeAll (tree : FileTree) (path : Path) : FileTree :=
  match tree.resolve path, tree.stat path with
  | .ok (.entry folder name), .ok _ =>
    ⟨tree.nodes.filter fun place _ => !(folder ++ [name]).isPrefixOf place⟩
  | _, _ => tree

/-- Whether a location is below the working directory. -/
def isBelow (place : Location) : Bool :=
  match place with
  | [] => false
  | name :: _ => name ≠ "/" && name ≠ ".."

/-- Everything below the working directory, by path text. -/
def listing (tree : FileTree) : List (String × Node) :=
  let below := tree.nodes.toList.filter fun (place, _) => isBelow place
  (below.map fun (place, node) => (place.toText, node.visible)).mergeSort fun left right =>
    decide (left.1 ≤ right.1)

end FileTree

end CredentialIntake
