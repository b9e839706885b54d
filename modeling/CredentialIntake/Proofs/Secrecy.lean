import CredentialIntake.Proofs.BatchRuns
import CredentialIntake.Proofs.FreshFiles
import CredentialIntake.Proofs.SealedPlans

/-!
# Material stays out of answers and reports

Whoever sees the answer to a request, what is reported about it and the counters
learns nothing about the material of its credentials, as long as each of its files
is a new one.  A file that is there is another matter: whether the store replaces
it tells whether it held the material already.  That matters within one request
too, when two of its paths lead to one file.
-/

namespace CredentialIntake.Intake

open Store
open FileTree

/-- The paths of the files a request asks for, raw and compressed. -/
def targetsOf (factory : Factory) (directoryOf : String → Path) (ad : ClassAd) : List Path :=
  (writesOf factory directoryOf ad).map (·.path)

/-- Two ways of carrying out a request that only the files it asks for tell apart. -/
structure EndsAlike (places : Set Location) (left right : Except IntakeError Report × Store) :
    Prop where
  answer : left.1 = right.1
  log : left.2.log = right.2.log
  counters : left.2.counters = right.2.counters
  tree : FileTree.EqualButContents places left.2.tree right.2.tree

section Runs

variable {left right : FactoryKey} {policy : FrontendPolicy} {store : Store} {ad : ClassAd}

/-- Two decided requests end alike if their writes do. -/
private theorem endsAlike_of_written {leftFactory rightFactory : Factory} {report : Report}
    {writes others : List FileWrite} {places : Set Location}
    (hleft : (Plan.ofRequest leftFactory store.directoryOf ad).decision = .ok (report, writes))
    (hright : (Plan.ofRequest rightFactory store.directoryOf ad).decision = .ok (report, others))
    (hresult :
      ((begin store (Plan.ofRequest leftFactory store.directoryOf ad)).writeAll writes).1 =
        ((begin store (Plan.ofRequest rightFactory store.directoryOf ad)).writeAll others).1)
    (hequal : Store.EqualButContents places
      ((begin store (Plan.ofRequest leftFactory store.directoryOf ad)).writeAll writes).2
      ((begin store (Plan.ofRequest rightFactory store.directoryOf ad)).writeAll others).2) :
    EndsAlike places (process leftFactory store ad) (process rightFactory store ad) := by
  cases hrun : (begin store (Plan.ofRequest leftFactory store.directoryOf ad)).writeAll writes with
  | mk result after =>
      cases hother : (begin store (Plan.ofRequest rightFactory store.directoryOf ad)).writeAll
          others with
      | mk otherResult otherAfter =>
          rw [hrun, hother] at hresult hequal
          obtain rfl : result = otherResult := hresult
          cases result with
          | ok done =>
              rw [process_of_written hleft hrun, process_of_written hright hother]
              exact ⟨rfl, hequal.log, hequal.counters, hequal.tree⟩
          | error error =>
              rw [process_of_stopped hleft hrun, process_of_stopped hright hother]
              refine ⟨rfl, ?_, hequal.counters, hequal.tree⟩
              exact congrArg (· ++ [.requestAborted (ad.get? ClassAd.clientName) error]) hequal.log

/-- With keys that agree in everything but the material, a request that asks for new
files only gets one answer, is reported in one way and counted in one way, and the
trees it leaves differ at most in what these files hold. -/
theorem endsAlike_of_fresh (left right : FactoryKey) (policy : FrontendPolicy) (store : Store)
    (ad : ClassAd) (hkeys : UnwrapAlike ad left right)
    (hfresh : Fresh store.tree (targetsOf ⟨some left, policy⟩ store.directoryOf ad)) :
    EndsAlike
      (store.tree.placesAt {path | path ∈ targetsOf ⟨some left, policy⟩ store.directoryOf ad})
      (process ⟨some left, policy⟩ store ad) (process ⟨some right, policy⟩ store ad) := by
  obtain ⟨hskipped, hdecisions⟩ :=
    Plan.cases_of_outline_eq (outline_ofRequest_eq hkeys policy store.directoryOf)
  have hbegin : begin store (Plan.ofRequest ⟨some left, policy⟩ store.directoryOf ad) =
      begin store (Plan.ofRequest ⟨some right, policy⟩ store.directoryOf ad) := by
    rw [begin, begin, hskipped]
  rcases hdecisions with
    ⟨error, hleft, hright⟩ | ⟨report, writes, others, hleft, hright, hpaths⟩
  · rw [process_of_refused hleft, process_of_refused hright, hbegin]
    exact ⟨rfl, rfl, rfl, .refl _ _⟩
  · have htargets : targetsOf ⟨some left, policy⟩ store.directoryOf ad =
        writes.map (·.path) := by
      rw [targetsOf, writesOf, hleft]
    rw [htargets] at hfresh ⊢
    have hstart : Store.EqualButContents
        (store.tree.placesAt {path | path ∈ writes.map (·.path)})
        (begin store (Plan.ofRequest ⟨some left, policy⟩ store.directoryOf ad))
        (begin store (Plan.ofRequest ⟨some right, policy⟩ store.directoryOf ad)) := by
      rw [hbegin]
      exact ⟨.refl _ _, rfl, rfl⟩
    obtain ⟨hresult, hequal⟩ := hstart.writeAll hpaths hfresh
      fun write hwrite place hplace => ⟨write.path, List.mem_map_of_mem hwrite, hplace⟩
    exact endsAlike_of_written hleft hright hresult hequal

end Runs

/-! ## Two keys to try -/

namespace Trial

/-- The trial key, but for one ciphertext that stands for the compressed form of
another credential's material. -/
def echoingKey : SymmetricKey where
  decrypt? ciphertext :=
    if ciphertext = "echo" then some (compressedLine (Bytes.ofText "proxy"))
    else symmetricKey.decrypt? ciphertext

/-- A factory key that opens every key code to one key. -/
def opening (key : SymmetricKey) : FactoryKey := ⟨fun _ => some key⟩

/-- A policy with two users, the second under the given name. -/
def policyNaming (other : String) : FrontendPolicy where
  identityOf? := fun _ => some "frontend"
  usernameOf? := fun _ securityClass => some (if securityClass = "class" then "u" else other)

def factoryNaming (other : String) (key : SymmetricKey) : Factory :=
  ⟨some (opening key), policyNaming other⟩

/-- A store with directories for two users. -/
def sharedStore : Store where
  directoryOf := { config with proxiesDir := ⟨"p"⟩, glideinName := "g" }.credentialDir
  tree := FileTree.empty
    |>.insert ["p"] .directory
    |>.insert ["p", "user_u"] .directory
    |>.insert ["p", "user_u", "glidein_g"] .directory
    |>.insert ["p", "user_v"] .directory
    |>.insert ["p", "user_v", "glidein_g"] .directory

/-- Two credentials, of which the second has the name of the first one's compressed
file. -/
def echoingAd : ClassAd :=
  ad "c" [("1", "proxy", "class"), ("1_compressed", "echo", "other")]

private theorem credentialIds_echoingAd : echoingAd.credentialIds = ["1", "1_compressed"] := by
  decide +kernel

private theorem decrypt?_echoingKey {ciphertext : String} (hne : ciphertext ≠ "echo") :
    symmetricKey.decrypt? ciphertext = echoingKey.decrypt? ciphertext :=
  (if_neg hne).symm

theorem unwrapAlike_echoing :
    UnwrapAlike echoingAd (opening symmetricKey) (opening echoingKey) := by
  intro code _
  refine .some ⟨?_, ?_, ?_, ?_⟩
  · intro name ciphertext _
    by_cases heq : ciphertext = "echo"
    · subst heq
      rfl
    · rw [decrypt?_echoingKey heq]
  · intro ciphertext hvalue
    have hclaimed : echoingAd.get? ClassAd.claimedIdentity = some "frontend" := by decide +kernel
    cases hclaimed.symm.trans hvalue
    exact decrypt?_echoingKey (by decide)
  · intro ciphertext hvalue
    have hname : echoingAd.get? ClassAd.securityName = some "name" := by decide +kernel
    cases hname.symm.trans hvalue
    exact decrypt?_echoingKey (by decide)
  · intro id ciphertext hvalue
    have hid : id ∈ echoingAd.credentialIds :=
      ClassAd.mem_credentialIds_iff.2 (by rw [hvalue]; rfl)
    have hclasses : echoingAd.get? (ClassAd.securityClassKey "1") = some "class" ∧
        echoingAd.get? (ClassAd.securityClassKey "1_compressed") = some "other" := by
      decide +kernel
    rw [credentialIds_echoingAd] at hid
    rcases List.mem_pair.1 hid with rfl | rfl
    · cases hclasses.1.symm.trans hvalue
      exact decrypt?_echoingKey (by decide)
    · cases hclasses.2.symm.trans hvalue
      exact decrypt?_echoingKey (by decide)

end Trial

/-- Paths that lead to different places, if anywhere, are fresh once nothing is at
them. -/
private theorem fresh_of_target?_ne {tree : FileTree} {paths : List Path}
    (habsent : ∀ path ∈ paths, tree.contains path = false)
    (htargets : paths.Pairwise fun left right => tree.target? left ≠ tree.target? right) :
    Fresh tree paths where
  absent := habsent
  apart := htargets.imp fun hne _ hleft hright => hne (hleft.trans hright.symm)

/-- Where the two credentials have directories of their own, four files are made
with either key. -/
theorem endsAlike_of_fresh_echoing :
    UnwrapAlike Trial.echoingAd (Trial.opening Trial.symmetricKey)
        (Trial.opening Trial.echoingKey) ∧
      Fresh Trial.sharedStore.tree
        (targetsOf (Trial.factoryNaming "v" Trial.symmetricKey) Trial.sharedStore.directoryOf
          Trial.echoingAd) ∧
      (process (Trial.factoryNaming "v" Trial.symmetricKey) Trial.sharedStore
        Trial.echoingAd).2.counters = ⟨4, 0, 0, 0⟩ ∧
      EndsAlike
        (Trial.sharedStore.tree.placesAt {path | path ∈
          targetsOf (Trial.factoryNaming "v" Trial.symmetricKey) Trial.sharedStore.directoryOf
            Trial.echoingAd})
        (process (Trial.factoryNaming "v" Trial.symmetricKey) Trial.sharedStore Trial.echoingAd)
        (process (Trial.factoryNaming "v" Trial.echoingKey) Trial.sharedStore
          Trial.echoingAd) := by
  have hfresh : Fresh Trial.sharedStore.tree
      (targetsOf (Trial.factoryNaming "v" Trial.symmetricKey) Trial.sharedStore.directoryOf
        Trial.echoingAd) :=
    fresh_of_target?_ne (by decide +kernel) (by decide +kernel)
  exact ⟨Trial.unwrapAlike_echoing, hfresh, by decide +kernel,
    endsAlike_of_fresh _ _ _ _ _ Trial.unwrapAlike_echoing hfresh⟩

/-! ## Two paths of one file -/

/-- Every request for files that are not there yet, under paths that differ, hides
its material. -/
def IsAlwaysHidden : Prop :=
  ∀ left right policy store ad, UnwrapAlike ad left right →
    (∀ path ∈ targetsOf ⟨some left, policy⟩ store.directoryOf ad,
      store.tree.contains path = false) →
    (targetsOf ⟨some left, policy⟩ store.directoryOf ad).Pairwise
      (fun path other => path.components ≠ other.components) →
    EndsAlike
      (store.tree.placesAt {path | path ∈ targetsOf ⟨some left, policy⟩ store.directoryOf ad})
      (process ⟨some left, policy⟩ store ad) (process ⟨some right, policy⟩ store ad)

/-- Two paths can differ and lead to one file.  Then the second write to it tells
whether the two contents are the same. -/
theorem not_isAlwaysHidden : ¬ IsAlwaysHidden := by
  intro halways
  have hends : EndsAlike _
      (process (Trial.factoryNaming "u/../user_u" Trial.symmetricKey) Trial.sharedStore
        Trial.echoingAd)
      (process (Trial.factoryNaming "u/../user_u" Trial.echoingKey) Trial.sharedStore
        Trial.echoingAd) :=
    halways _ _ _ _ _ Trial.unwrapAlike_echoing (by decide +kernel) (by decide +kernel)
  have hcounters : (process (Trial.factoryNaming "u/../user_u" Trial.symmetricKey)
      Trial.sharedStore Trial.echoingAd).2.counters = ⟨3, 1, 0, 0⟩ := by decide +kernel
  have hechoed : (process (Trial.factoryNaming "u/../user_u" Trial.echoingKey)
      Trial.sharedStore Trial.echoingAd).2.counters = ⟨3, 0, 1, 0⟩ := by decide +kernel
  have hsame := hends.counters
  rw [hcounters, hechoed] at hsame
  exact absurd hsame (by decide)

end CredentialIntake.Intake
