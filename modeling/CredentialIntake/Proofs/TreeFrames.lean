import CredentialIntake.Proofs.Resolution

/-!
# What a change of files leaves alone

Changing files never changes which locations are directories, and so no path
comes to lead elsewhere.  Two trees that agree on directories, and on everything
outside a set of locations, therefore answer alike whoever reads a path that
leads outside of that set.
-/

namespace CredentialIntake.FileTree

open CredentialIntake.Path

/-! ## Trees with the same directories -/

/-- The same locations are directories. -/
def SameFolders (before after : FileTree) : Prop :=
  ∀ place, after.node? place = some .directory ↔ before.node? place = some .directory

namespace SameFolders

theorem refl (tree : FileTree) : SameFolders tree tree := fun _ => Iff.rfl

theorem symm {before after : FileTree} (hsame : SameFolders before after) :
    SameFolders after before := fun place => (hsame place).symm

theorem trans {first second third : FileTree} (hleft : SameFolders first second)
    (hright : SameFolders second third) : SameFolders first third :=
  fun place => (hright place).trans (hleft place)

variable {before after : FileTree}

private theorem enter_mono (hsame : SameFolders before after) {names : List String}
    {place location : Location} (henter : before.enter place names = .ok location) :
    after.enter place names = .ok location := by
  induction names generalizing place with
  | nil => exact henter
  | cons name rest ih =>
      rw [enter] at henter ⊢
      split at henter
      · next hhere => rw [if_pos hhere]; exact ih henter
      next hhere =>
        rw [if_neg hhere]
        split at henter
        · next habove => rw [if_pos habove]; exact ih henter
        next habove =>
          rw [if_neg habove]
          split at henter
          · cases henter
          next hsize =>
            rw [if_neg hsize]
            split at henter
            · cases henter
            · cases henter
            · next hnode => rw [(hsame _).2 hnode]; exact ih henter

theorem enter_eq_ok_iff (hsame : SameFolders before after) {names : List String}
    {place location : Location} :
    after.enter place names = .ok location ↔ before.enter place names = .ok location :=
  ⟨hsame.symm.enter_mono, hsame.enter_mono⟩

theorem folderAt_eq_ok_iff (hsame : SameFolders before after) {path : Path}
    {location : Location} :
    after.folderAt path = .ok location ↔ before.folderAt path = .ok location := by
  rw [folderAt, folderAt]
  split
  · simp
  · exact hsame.enter_eq_ok_iff

private theorem resolve_mono (hsame : SameFolders before after) {path : Path} {found : Place}
    (hresolve : before.resolve path = .ok found) : after.resolve path = .ok found := by
  rw [resolve] at hresolve ⊢
  split at hresolve
  · cases hresolve
  next hnul =>
    rw [if_neg hnul]
    split at hresolve
    · cases hresolve
    next hempty =>
      rw [if_neg hempty]
      rcases List.eq_nil_or_concat path.names with hnames | ⟨names, name, hnames⟩
      · rw [hnames] at hresolve ⊢
        exact hresolve
      · rw [hnames, List.concat_eq_append, follow_append_singleton] at hresolve ⊢
        cases henter : before.enter (Location.ofStart path) names with
        | error fault => rw [henter] at hresolve; cases hresolve
        | ok location => rw [henter] at hresolve; rw [hsame.enter_mono henter]; exact hresolve

/-- Where a path leads depends on the directories only. -/
theorem resolve_eq_ok_iff (hsame : SameFolders before after) {path : Path} {found : Place} :
    after.resolve path = .ok found ↔ before.resolve path = .ok found :=
  ⟨hsame.symm.resolve_mono, hsame.resolve_mono⟩

theorem target?_eq (hsame : SameFolders before after) (path : Path) :
    after.target? path = before.target? path := by
  ext place
  rw [target?_eq_some_iff, target?_eq_some_iff]
  simp only [hsame.resolve_eq_ok_iff]

end SameFolders

/-! ## Reading files by their locations -/

theorem locate_eq_ok_iff {tree : FileTree} {path : Path} {place : Location} {file : File} :
    tree.locate path = .ok (place, file) ↔
      tree.target? path = some place ∧ tree.node? place = some (.file file) ∧
        path.endsWithSlash = false := by
  rw [locate, target?]
  cases tree.resolve path with
  | error fault => simp
  | ok found =>
      cases found with
      | folder location => simp
      | entry folder name =>
          simp only [Option.some.injEq]
          constructor
          · intro hlocate
            split at hlocate
            · cases hlocate
            · cases hlocate
            next hnode =>
              split at hlocate
              · cases hlocate
              next hslash =>
                cases hlocate
                exact ⟨rfl, hnode, by simpa using hslash⟩
          · rintro ⟨rfl, hnode, hslash⟩
            rw [hnode]
            simp [hslash]

theorem read_eq_ok_iff {tree : FileTree} {path : Path} {file : File} :
    tree.read path = .ok file ↔
      (∃ place, tree.locate path = .ok (place, file)) ∧ file.isReadable = true := by
  rw [read, stat, locate]
  cases tree.resolve path with
  | error fault => simp
  | ok found =>
      cases found with
      | folder location => simp
      | entry folder name =>
          cases hnode : tree.node? (folder ++ [name]) with
          | none => simp [hnode]
          | some node =>
              cases node with
              | directory => simp [hnode]
              | file found =>
                  by_cases hslash : path.endsWithSlash = true
                  · simp [hnode, hslash]
                  by_cases hreadable : found.isReadable = true
                  · simp only [hnode, hslash, hreadable, Bool.false_eq_true, if_false, if_true,
                      Except.ok.injEq, Prod.mk.injEq, exists_eq_left']
                    constructor
                    · rintro rfl
                      exact ⟨rfl, hreadable⟩
                    · exact And.left
                  · simp only [hnode, hslash, hreadable, Bool.false_eq_true, if_false,
                      Except.ok.injEq, Prod.mk.injEq, exists_eq_left', reduceCtorEq, false_iff]
                    rintro ⟨rfl, hfile⟩
                    exact hreadable hfile

/-- A path leads to a readable file with the content. -/
def Holds (tree : FileTree) (path : Path) (content : Bytes) : Prop :=
  ∃ file, tree.read path = .ok file ∧ file.content = content

theorem Holds.unique {tree : FileTree} {path : Path} {left right : Bytes}
    (hleft : tree.Holds path left) (hright : tree.Holds path right) : left = right := by
  obtain ⟨file, hread, rfl⟩ := hleft
  obtain ⟨other, hother, rfl⟩ := hright
  rw [hread] at hother
  cases hother
  rfl

/-! ## Trees that agree outside of some locations -/

/-- The trees have the same directories, and differ at most in the files at the
locations. -/
structure AgreesOutside (places : Set Location) (before after : FileTree) : Prop where
  folders : SameFolders before after
  elsewhere : ∀ place, place ∉ places → after.nodes[place]? = before.nodes[place]?

namespace AgreesOutside

theorem refl (places : Set Location) (tree : FileTree) : AgreesOutside places tree tree :=
  ⟨SameFolders.refl tree, fun _ _ => rfl⟩

theorem trans {places : Set Location} {first second third : FileTree}
    (hleft : AgreesOutside places first second) (hright : AgreesOutside places second third) :
    AgreesOutside places first third where
  folders := hleft.folders.trans hright.folders
  elsewhere := fun place hplace =>
    (hright.elsewhere place hplace).trans (hleft.elsewhere place hplace)

theorem mono {places larger : Set Location} {before after : FileTree}
    (hagrees : AgreesOutside places before after) (hsubset : places ⊆ larger) :
    AgreesOutside larger before after where
  folders := hagrees.folders
  elsewhere := fun place hplace => hagrees.elsewhere place fun hmem => hplace (hsubset hmem)

variable {places : Set Location} {before after : FileTree}

theorem node?_eq (hagrees : AgreesOutside places before after) {place : Location}
    (hplace : place ∉ places) : after.node? place = before.node? place := by
  rw [node?, node?, hagrees.elsewhere place hplace]

/-- A file whose location is left alone is read as before. -/
theorem read_eq_ok (hagrees : AgreesOutside places before after) {path : Path}
    {file : File} (hread : before.read path = .ok file)
    (houtside : ∀ place, before.target? path = some place → place ∉ places) :
    after.read path = .ok file := by
  rw [read_eq_ok_iff] at hread ⊢
  obtain ⟨⟨place, hlocate⟩, hreadable⟩ := hread
  obtain ⟨htarget, hnode, hslash⟩ := locate_eq_ok_iff.1 hlocate
  refine ⟨⟨place, locate_eq_ok_iff.2 ⟨?_, ?_, hslash⟩⟩, hreadable⟩
  · rw [hagrees.folders.target?_eq, htarget]
  · rw [hagrees.node?_eq (houtside place htarget), hnode]

theorem holds (hagrees : AgreesOutside places before after) {path : Path} {content : Bytes}
    (hholds : before.Holds path content)
    (houtside : ∀ place, before.target? path = some place → place ∉ places) :
    after.Holds path content := by
  obtain ⟨file, hread, hcontent⟩ := hholds
  exact ⟨file, hagrees.read_eq_ok hread houtside, hcontent⟩

end AgreesOutside

/-! ## Putting and removing files -/

@[simp]
theorem nodes_insert (tree : FileTree) (place other : Location) (node : Node) :
    (tree.insert place node).nodes[other]? =
      if place = other then some node else tree.nodes[other]? := by
  simp [insert, Std.ExtTreeMap.getElem?_insert]

@[simp]
theorem nodes_erase (tree : FileTree) (place other : Location) :
    (tree.erase place).nodes[other]? =
      if place = other then none else tree.nodes[other]? := by
  simp [erase, Std.ExtTreeMap.getElem?_erase]

@[ext]
theorem ext_nodes {left right : FileTree}
    (hnodes : ∀ place : Location, left.nodes[place]? = right.nodes[place]?) : left = right := by
  cases left
  cases right
  congr
  exact Std.ExtTreeMap.ext_getElem? hnodes

theorem node?_of_not_isAnchor {tree : FileTree} {place : Location}
    (hanchor : place.isAnchor = false) : tree.node? place = tree.nodes[place]? := by
  simp [node?, hanchor]

theorem not_isAnchor_of_node?_ne {tree : FileTree} {place : Location}
    (hnode : tree.node? place ≠ some .directory) : place.isAnchor = false := by
  rw [node?] at hnode
  by_contra hanchor
  simp_all

theorem node?_insert {tree : FileTree} {place : Location}
    (hnode : tree.node? place ≠ some .directory) (node : Node) (other : Location) :
    (tree.insert place node).node? other =
      if place = other then some node else tree.node? other := by
  have hanchor := not_isAnchor_of_node?_ne hnode
  by_cases heq : place = other
  · subst heq
    simp [node?, hanchor]
  · simp [node?, heq]

theorem node?_erase {tree : FileTree} {place : Location}
    (hnode : tree.node? place ≠ some .directory) (other : Location) :
    (tree.erase place).node? other = if place = other then none else tree.node? other := by
  have hanchor := not_isAnchor_of_node?_ne hnode
  by_cases heq : place = other
  · subst heq
    simp [node?, hanchor]
  · simp [node?, heq]

theorem agreesOutside_insert {tree : FileTree} {place : Location}
    (hnode : tree.node? place ≠ some .directory) (file : File) :
    AgreesOutside {place} tree (tree.insert place (.file file)) where
  folders := fun other => by
    rw [node?_insert hnode]
    by_cases heq : place = other
    · subst heq
      simp [hnode]
    · simp [heq]
  elsewhere := fun other hother => by
    rw [nodes_insert, if_neg (Ne.symm hother)]

theorem agreesOutside_erase {tree : FileTree} {place : Location}
    (hnode : tree.node? place ≠ some .directory) :
    AgreesOutside {place} tree (tree.erase place) where
  folders := fun other => by
    rw [node?_erase hnode]
    by_cases heq : place = other
    · subst heq
      simp [hnode]
    · simp [heq]
  elsewhere := fun other hother => by
    rw [nodes_erase, if_neg (Ne.symm hother)]

end CredentialIntake.FileTree
