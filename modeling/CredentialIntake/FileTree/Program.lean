import CredentialIntake.FileTree.Basic

/-!
# File programs

A program on files, as the sequence of single steps the file system sees: it
reads, it changes one thing, and what it does next depends on whether that went
well. Running it to the end gives its result and the tree it leaves; stopping it
after any number of steps gives the tree that a crash, or a reader who looks in
between, would find.
-/

namespace CredentialIntake

/-- One step that may change the tree. -/
inductive FileChange where
  /-- Opens a file for writing, emptying it or creating it with the mode. -/
  | create (path : Path) (mode : Nat)
  /-- Writes a piece behind what the file opened at a path holds. -/
  | append (path : Path) (piece : Bytes)
  | sync (path : Path)
  | setMode (path : Path) (mode : Nat)
  | remove (path : Path)
  | rename (source target : Path)

def FileChange.apply (tree : FileTree) : FileChange → Except FileFault FileTree
  | .create path mode => tree.create path mode
  | .append path piece =>
    tree.modify path fun file => { file with content := file.content ++ piece }
  | .sync path => (tree.locate path).map fun _ => tree
  | .setMode path mode => tree.modify path fun file => { file with mode }
  | .remove path => tree.remove path
  | .rename source target => tree.rename source target

inductive FileProgram (α : Type) where
  | done (result : α)
  | read (path : Path) (next : Except FileFault File → FileProgram α)
  | change (change : FileChange) (next : Except FileFault Unit → FileProgram α)

namespace FileProgram

def bind {α β : Type} : FileProgram α → (α → FileProgram β) → FileProgram β
  | .done result, continuation => continuation result
  | .read path next, continuation => .read path fun found => (next found).bind continuation
  | .change step next, continuation =>
    .change step fun outcome => (next outcome).bind continuation

instance : Monad FileProgram where
  pure := .done
  bind := bind

/-- Reads the file at a path. -/
def readFile (path : Path) : FileProgram (Except FileFault File) := .read path .done

/-- Does one step. -/
def attempt (step : FileChange) : FileProgram (Except FileFault Unit) := .change step .done

/-- Runs a program to its end. -/
def run {α : Type} : FileProgram α → FileTree → α × FileTree
  | .done result, tree => (result, tree)
  | .read path next, tree => (next (tree.read path)).run tree
  | .change step next, tree =>
    match step.apply tree with
    | .ok changed => (next (.ok ())).run changed
    | .error fault => (next (.error fault)).run tree

/-- The tree after the first `steps` steps of a program. -/
def treeAfter {α : Type} : (steps : Nat) → FileProgram α → FileTree → FileTree
  | 0, _, tree => tree
  | _, .done _, tree => tree
  | steps + 1, .read path next, tree => treeAfter steps (next (tree.read path)) tree
  | steps + 1, .change step next, tree =>
    match step.apply tree with
    | .ok changed => treeAfter steps (next (.ok ())) changed
    | .error fault => treeAfter steps (next (.error fault)) tree

theorem run_bind {α β : Type} (program : FileProgram α) (next : α → FileProgram β)
    (tree : FileTree) :
    (program >>= next).run tree =
      (next (program.run tree).1).run (program.run tree).2 := by
  change (program.bind next).run tree = _
  induction program generalizing tree with
  | done result => rfl
  | read path continuation ih => exact ih _ _
  | change step continuation ih =>
    simp only [bind, run]
    split
    · exact ih _ _
    · exact ih _ _

/-! ## Writing whole contents -/

/-- How a content is handed to the file system piece by piece; no byte is lost
or added. -/
structure Pieces where
  cut : Bytes → List Bytes
  flatten_cut : ∀ content, (cut content).flatten = content

/-- All in one piece. -/
def Pieces.whole : Pieces := ⟨fun content => [content], by simp⟩

/-- Appends pieces one after the other, up to the first that fails. -/
def appendAll (path : Path) : List Bytes → FileProgram (Except FileFault Unit)
  | [] => .done (.ok ())
  | piece :: rest => do
    match ← attempt (.append path piece) with
    | .ok () => appendAll path rest
    | .error fault => return .error fault

/-- Makes the file at a path hold exactly the content. -/
def write (pieces : Pieces) (path : Path) (mode : Nat) (content : Bytes) :
    FileProgram (Except FileFault Unit) := do
  match ← attempt (.create path mode) with
  | .error fault => return .error fault
  | .ok () =>
    match ← appendAll path (pieces.cut content) with
    | .error fault => return .error fault
    | .ok () => attempt (.sync path)

/-- Copies a file with its mode. -/
def copy (pieces : Pieces) (source target : Path) : FileProgram (Except FileFault Unit) := do
  match ← readFile source with
  | .error fault => return .error fault
  | .ok file =>
    match ← attempt (.create target file.mode) with
    | .error fault => return .error fault
    | .ok () =>
      match ← appendAll target (pieces.cut file.content) with
      | .error fault => return .error fault
      | .ok () => attempt (.setMode target file.mode)

end FileProgram

end CredentialIntake
