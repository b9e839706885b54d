import CredentialIntake.Proofs.EffectiveSettings
import CredentialIntake.Proofs.FileSteps
import CredentialIntake.Proofs.TextForms

/-!
# Local tokens

The credentials of a kind in a trust domain are found by joining two settings,
and the token an entry serves by itself is the last of its SciTokens.  That one
is used or none is: if it is missing nothing is said, if it is there but is no
readable text this is reported, and in neither case does an earlier one step in.
-/

namespace CredentialIntake

/-! ## Files as texts -/

namespace Bytes

theorem toText?_eq_some_iff {bytes : Bytes} {text : String} :
    toText? bytes = some text ↔ bytes = ofText text := by
  rw [toText?, String.fromUTF8?, ofText]
  constructor
  · intro hread
    split at hread
    next hvalid =>
      obtain rfl := Option.some.inj hread
      rfl
    next => cases hread
  · rintro rfl
    exact dif_pos text.isValidUTF8

end Bytes

namespace FileTree

/-- Why what is at a path cannot be read as a text. -/
inductive Unusable (tree : FileTree) (path : Path) : FileFault → Prop where
  | directory : tree.stat path = .ok .directory → Unusable tree path .isDirectory
  | unreadable {file : File} : tree.stat path = .ok (.file file) → file.isReadable = false →
      Unusable tree path .permissionDenied
  | notText {file : File} : tree.stat path = .ok (.file file) → file.isReadable = true →
      (∀ text, file.content ≠ Bytes.ofText text) → Unusable tree path .notText

variable {tree : FileTree} {path : Path} {fault : FileFault} {text : String}

/-- There is nothing at a path, or no text, or a text. -/
theorem missing_or_unusable_or_holds (tree : FileTree) (path : Path) :
    (∃ fault, tree.stat path = .error fault) ∨ (∃ fault, Unusable tree path fault) ∨
      ∃ text, tree.Holds path (Bytes.ofText text) := by
  cases hstat : tree.stat path with
  | error fault => exact Or.inl ⟨fault, rfl⟩
  | ok node =>
    right
    cases node with
    | directory => exact Or.inl ⟨_, .directory hstat⟩
    | file file =>
      cases hreadable : file.isReadable with
      | false => exact Or.inl ⟨_, .unreadable hstat hreadable⟩
      | true =>
        by_cases htext : ∃ text, file.content = Bytes.ofText text
        · obtain ⟨text, hcontent⟩ := htext
          refine Or.inr ⟨text, file, ?_, hcontent⟩
          simp [read, hstat, hreadable]
        · rw [not_exists] at htext
          exact Or.inl ⟨_, .notText hstat hreadable htext⟩

theorem contains_of_missing (hmissing : tree.stat path = .error fault) :
    tree.contains path = false := by
  rw [contains, hmissing]
  rfl

theorem contains_of_stat {node : Node} (hstat : tree.stat path = .ok node) :
    tree.contains path = true := by
  rw [contains, hstat]
  rfl

theorem Unusable.contains (hunusable : Unusable tree path fault) : tree.contains path = true := by
  cases hunusable with
  | directory hstat => exact contains_of_stat hstat
  | unreadable hstat => exact contains_of_stat hstat
  | notText hstat => exact contains_of_stat hstat

theorem Unusable.readText (hunusable : Unusable tree path fault) :
    tree.readText path = .error fault := by
  cases hunusable with
  | directory hstat => simp [FileTree.readText, read, hstat]
  | unreadable hstat hreadable => simp [FileTree.readText, read, hstat, hreadable]
  | @notText file hstat hreadable hcontent =>
    have hnone : Bytes.toText? file.content = none := by
      rw [Option.eq_none_iff_forall_ne_some]
      intro text htext
      exact hcontent text (Bytes.toText?_eq_some_iff.1 htext)
    simp [FileTree.readText, read, hstat, hreadable, hnone]

theorem contains_of_holds {content : Bytes} (hholds : tree.Holds path content) :
    tree.contains path = true := by
  obtain ⟨file, hread, -⟩ := hholds
  exact contains_of_stat (stat_of_read hread)

theorem readText_of_holds (hholds : tree.Holds path (Bytes.ofText text)) :
    tree.readText path = .ok text := by
  obtain ⟨file, hread, hcontent⟩ := hholds
  simp only [readText, hread, Bytes.toText?_eq_some_iff.2 hcontent]

end FileTree

namespace EntryDescriptor

open FileTree Text

/-! ## Credentials of a kind in a trust domain -/

/-- The settings that count make the credential one of this kind and put it into
this trust domain. -/
structure IsConfiguredFor (descriptor : EntryDescriptor) (kind : CredentialKind)
    (trustDomain name : String) : Prop where
  type : descriptor.HasType name kind.text
  trustDomain : descriptor.HasTrustDomain name trustDomain

section Names

variable (descriptor : EntryDescriptor) (kind : CredentialKind) (trustDomain : String)

theorem mem_credentialsFor_iff (name : String) :
    name ∈ descriptor.credentialsFor kind trustDomain ↔
      descriptor.IsConfiguredFor kind trustDomain name := by
  rw [credentialsFor]
  cases htypes : descriptor.types with
  | none => exact iff_of_false List.not_mem_nil fun hname => not_gives htypes hname.type
  | some types =>
    cases hdomains : descriptor.trustDomains with
    | none => exact iff_of_false List.not_mem_nil fun hname => not_gives hdomains hname.trustDomain
    | some domains =>
      dsimp only
      constructor
      · intro hmem
        obtain ⟨⟨found, type⟩, hfound, rfl⟩ := List.mem_map.1 hmem
        obtain ⟨hentry, htest⟩ := List.mem_filter.1 hfound
        obtain ⟨rfl, hdomain⟩ : type = kind.text ∧ domains[found]? = some trustDomain := by
          simpa using htest
        exact ⟨(gives_iff htypes).2 (Std.ExtTreeMap.mem_toList_iff_getElem?_eq_some.1 hentry),
          (gives_iff hdomains).2 hdomain⟩
      · intro hname
        have hentry : (name, kind.text) ∈ types.toList :=
          Std.ExtTreeMap.mem_toList_iff_getElem?_eq_some.2 ((gives_iff htypes).1 hname.type)
        have hdomain : domains[name]? = some trustDomain :=
          (gives_iff hdomains).1 hname.trustDomain
        exact List.mem_map.2 ⟨_, List.mem_filter.2 ⟨hentry, by simp [hdomain]⟩, rfl⟩

theorem pairwise_credentialsFor :
    (descriptor.credentialsFor kind trustDomain).Pairwise (· < ·) := by
  rw [credentialsFor]
  cases descriptor.types with
  | none => exact .nil
  | some types =>
    cases descriptor.trustDomains with
    | none => exact .nil
    | some domains => exact ((pairwise_toList types).filter _).map _ fun _ _ hlt => hlt

theorem credentialsFor_eq_nil
    (habsent : (∀ types, ¬ Counts descriptor.entry.types descriptor.frontend.types types) ∨
      ∀ domains, ¬ Counts descriptor.entry.trustDomains descriptor.frontend.trustDomains domains) :
    descriptor.credentialsFor kind trustDomain = [] := by
  rw [List.eq_nil_iff_forall_not_mem]
  intro name hmem
  have hname := (mem_credentialsFor_iff descriptor kind trustDomain name).1 hmem
  rcases habsent with htypes | hdomains
  · exact not_gives (effective_eq_none htypes) hname.type
  · exact not_gives (effective_eq_none hdomains) hname.trustDomain

/-- In ascending order the last name is the greatest. -/
theorem isGreatest_of_getLast? {names : List String} {name : String}
    (hordered : names.Pairwise (· < ·)) (hlast : names.getLast? = some name) :
    IsGreatest {other | other ∈ names} name := by
  obtain ⟨before, rfl⟩ := List.getLast?_eq_some_iff.1 hlast
  refine ⟨by simp, ?_⟩
  intro other hother
  rcases List.mem_append.1 hother with hbefore | hsame
  · exact (List.pairwise_append.1 hordered).2.2 other hbefore name (by simp) |>.le
  · exact (List.mem_singleton.1 hsame).le

/-- The credential of a kind in a trust domain that comes last in the order of names. -/
def IsLastFor (descriptor : EntryDescriptor) (kind : CredentialKind) (trustDomain name : String) :
    Prop :=
  IsGreatest {other | descriptor.IsConfiguredFor kind trustDomain other} name

theorem getLast?_credentialsFor_eq_some_iff (name : String) :
    (descriptor.credentialsFor kind trustDomain).getLast? = some name ↔
      descriptor.IsLastFor kind trustDomain name := by
  have hnames : {other | other ∈ descriptor.credentialsFor kind trustDomain} =
      {other | descriptor.IsConfiguredFor kind trustDomain other} := by
    ext other
    exact mem_credentialsFor_iff descriptor kind trustDomain other
  have hordered := pairwise_credentialsFor descriptor kind trustDomain
  rw [IsLastFor, ← hnames]
  constructor
  · exact isGreatest_of_getLast? hordered
  · intro hgreatest
    have hne : descriptor.credentialsFor kind trustDomain ≠ [] :=
      List.ne_nil_of_mem hgreatest.1
    have hlast := List.getLast?_eq_some_getLast hne
    rw [hlast, (isGreatest_of_getLast? hordered hlast).unique hgreatest]

end Names

/-! ## The token an entry serves -/

/-- The token served for a trust domain, and what is reported besides. -/
inductive LocalToken (descriptor : EntryDescriptor) (tree : FileTree) (trustDomain : String) :
    Option String × List Event → Prop where
  | unmatched : (∀ name, ¬ descriptor.IsConfiguredFor .sciToken trustDomain name) →
      LocalToken descriptor tree trustDomain (none, [])
  | missing {name : String} {fault : FileFault} :
      descriptor.IsLastFor .sciToken trustDomain name → tree.stat ⟨name⟩ = .error fault →
      LocalToken descriptor tree trustDomain (none, [])
  | unusable {name : String} {fault : FileFault} :
      descriptor.IsLastFor .sciToken trustDomain name → Unusable tree ⟨name⟩ fault →
      LocalToken descriptor tree trustDomain (none, [.tokenUnreadable ⟨name⟩ fault])
  | usable {name text token : String} :
      descriptor.IsLastFor .sciToken trustDomain name → tree.Holds ⟨name⟩ (Bytes.ofText text) →
      IsTrimOf token text → LocalToken descriptor tree trustDomain (some token, [])

section Token

variable {descriptor : EntryDescriptor} {tree : FileTree} {trustDomain : String}

theorem localToken_of_isLastFor {name : String}
    (hlast : descriptor.IsLastFor .sciToken trustDomain name) :
    descriptor.localToken tree trustDomain =
      if tree.contains ⟨name⟩ then
        match tree.readText ⟨name⟩ with
        | .ok text => (some (trim text), [])
        | .error fault => (none, [.tokenUnreadable ⟨name⟩ fault])
      else (none, []) := by
  have hgreatest := (getLast?_credentialsFor_eq_some_iff descriptor _ trustDomain name).2 hlast
  by_cases hthere : tree.contains ⟨name⟩ = true
  · cases hread : tree.readText ⟨name⟩ with
    | ok text => simp [localToken, hgreatest, hthere, hread]
    | error fault => simp [localToken, hgreatest, hthere, hread]
  · simp [localToken, hgreatest, hthere]

theorem LocalToken.eq {outcome : Option String × List Event}
    (htoken : LocalToken descriptor tree trustDomain outcome) :
    descriptor.localToken tree trustDomain = outcome := by
  cases htoken with
  | unmatched hnone =>
    have hnil : descriptor.credentialsFor .sciToken trustDomain = [] := by
      rw [List.eq_nil_iff_forall_not_mem]
      intro name hmem
      exact hnone name ((mem_credentialsFor_iff descriptor _ trustDomain name).1 hmem)
    rw [localToken, hnil]
    rfl
  | missing hlast hmissing =>
    rw [localToken_of_isLastFor hlast, contains_of_missing hmissing]
    rfl
  | unusable hlast hunusable =>
    rw [localToken_of_isLastFor hlast, hunusable.contains, hunusable.readText]
    rfl
  | usable hlast hholds htrim =>
    rw [localToken_of_isLastFor hlast, contains_of_holds hholds, readText_of_holds hholds,
      htrim.eq_trim]
    rfl

variable (descriptor tree trustDomain) in
theorem exists_localToken : ∃ outcome, LocalToken descriptor tree trustDomain outcome := by
  cases hlast : (descriptor.credentialsFor .sciToken trustDomain).getLast? with
  | none =>
    refine ⟨_, .unmatched fun name hname => ?_⟩
    have hmem := (mem_credentialsFor_iff descriptor _ trustDomain name).2 hname
    rw [List.getLast?_eq_none_iff.1 hlast] at hmem
    cases hmem
  | some name =>
    rw [getLast?_credentialsFor_eq_some_iff] at hlast
    rcases missing_or_unusable_or_holds tree ⟨name⟩ with
      ⟨fault, hmissing⟩ | ⟨fault, hunusable⟩ | ⟨text, hholds⟩
    · exact ⟨_, .missing hlast hmissing⟩
    · exact ⟨_, .unusable hlast hunusable⟩
    · exact ⟨_, .usable hlast hholds (isTrimOf_trim text)⟩

theorem localToken_eq_iff {outcome : Option String × List Event} :
    descriptor.localToken tree trustDomain = outcome ↔
      LocalToken descriptor tree trustDomain outcome := by
  constructor
  · rintro rfl
    obtain ⟨other, hother⟩ := exists_localToken descriptor tree trustDomain
    rwa [hother.eq]
  · exact LocalToken.eq

end Token

/-- The names listed for a kind and a trust domain are those that the two settings
that count agree on, in ascending order, and none where one of these settings is
absent.  The local token is the trimmed text of the last SciToken listed, and of
no other one; where that is no readable text there is no token, and an error is
reported if there is something else at the path. -/
theorem localToken_is_of_last (descriptor : EntryDescriptor) (tree : FileTree)
    (trustDomain : String) :
    (∀ kind, (descriptor.credentialsFor kind trustDomain).Pairwise (· < ·) ∧
      (∀ name, name ∈ descriptor.credentialsFor kind trustDomain ↔
        descriptor.IsConfiguredFor kind trustDomain name) ∧
      ((∀ types, ¬ Counts descriptor.entry.types descriptor.frontend.types types) ∨
          (∀ domains, ¬ Counts descriptor.entry.trustDomains descriptor.frontend.trustDomains
            domains) →
        descriptor.credentialsFor kind trustDomain = [])) ∧
    (∀ outcome, descriptor.localToken tree trustDomain = outcome ↔
      LocalToken descriptor tree trustDomain outcome) ∧
    ∀ event ∈ (descriptor.localToken tree trustDomain).2, event.level = .error := by
  refine ⟨?_, fun outcome => localToken_eq_iff, ?_⟩
  · intro kind
    exact ⟨pairwise_credentialsFor descriptor kind trustDomain,
      mem_credentialsFor_iff descriptor kind trustDomain,
      credentialsFor_eq_nil descriptor kind trustDomain⟩
  · obtain ⟨outcome, htoken⟩ := exists_localToken descriptor tree trustDomain
    rw [htoken.eq]
    intro event hevent
    cases htoken with
    | unmatched => cases hevent
    | missing => cases hevent
    | unusable => rw [List.mem_singleton.1 hevent]; rfl
    | usable => cases hevent

/-- The token of `b` cannot be read and that of `a` could be; types and trust
domains come from different levels. -/
example :
    let descriptor : EntryDescriptor :=
      { entry := { types := some (.ofList [("a", "scitoken"), ("b", "scitoken")])
                   trustDomains := some ∅ }
        frontend := { trustDomains := some (.ofList [("a", "osg"), ("b", "osg"), ("c", "osg")]) } }
    let tree := (FileTree.empty.insert ["a"] (.file ⟨0o600, Bytes.ofText " token "⟩)).insert ["b"]
      .directory
    descriptor.credentialsFor .sciToken "osg" = ["a", "b"] ∧
      descriptor.localToken tree "osg" = (none, [.tokenUnreadable ⟨"b"⟩ .isDirectory]) := by
  decide +kernel

end EntryDescriptor

end CredentialIntake
