import CredentialIntake.Proofs.Base64Forms
import CredentialIntake.Proofs.Renewals
import CredentialIntake.Proofs.StoredBlocks

/-!
# Lines of the compressed form

Beside the material of a credential its compressed form is kept, one line that
assigns the base64 of a gzip member.  The line holds exactly the material: whoever
reads it gets the material back, whichever blocks the member consists of, and no
other material has the same line.
-/

namespace CredentialIntake.Store

open FileTree

/-- A byte that can stand in a line of ASCII text and is no blank. -/
def IsPrintable (code : UInt8) : Prop := 32 < code ∧ code < 127

/-- What a line of the compressed form has to be: the lead, then the base64 of a gzip
member of the material and nothing else. -/
def IsCompressedLine (material line : Bytes) : Prop :=
  ∃ member symbols, line = compressedLead ++ symbols ∧
    Base64.IsBase64 member symbols ∧ Gzip.IsMember material member

variable {material line : Bytes}

/-! ## What is written -/

theorem isCompressedLine_compressedLine (material : Bytes) :
    IsCompressedLine material (compressedLine material) :=
  ⟨Gzip.member material, compress material, rfl,
    Base64.isBase64_encode (Gzip.member material), Gzip.isMember_member material⟩

private theorem isPrintable_symbols : ∀ code ∈ Base64.alphabet ++ [Base64.padding],
    IsPrintable code := by
  unfold IsPrintable
  decide +kernel

private theorem isPrintable_compressedLead : ∀ code ∈ compressedLead, IsPrintable code := by
  unfold IsPrintable
  decide +kernel

private theorem isPrintable_encode {bytes : Bytes} {code : UInt8}
    (hcode : code ∈ Base64.encode bytes) : IsPrintable code := by
  apply isPrintable_symbols
  rcases Base64.mem_alphabet_or_eq_padding hcode with hsymbol | rfl
  · exact List.mem_append_left _ hsymbol
  · exact List.mem_append_right _ (List.mem_singleton_self _)

theorem IsCompressedLine.isPrintable (hline : IsCompressedLine material line) :
    ∀ code ∈ line, IsPrintable code := by
  obtain ⟨member, symbols, rfl, hsymbols, -⟩ := hline
  intro code hcode
  rcases List.mem_append.1 hcode with hlead | hsymbol
  · exact isPrintable_compressedLead code hlead
  · rw [Base64.isBase64_iff.1 hsymbols] at hsymbol
    exact isPrintable_encode hsymbol

/-! ## What is read -/

/-- The material comes out of every line that has the form. -/
theorem IsCompressedLine.read (hline : IsCompressedLine material line) :
    ∃ member, readCompressedLine? line = some (member, material) := by
  obtain ⟨member, symbols, rfl, hsymbols, hmember⟩ := hline
  refine ⟨member, ?_⟩
  have hlead : compressedLead.isPrefixOf? (compressedLead ++ symbols) = some symbols :=
    List.isPrefixOf?_eq_some_iff_append_eq.2 rfl
  have hdecode : Base64.decode? symbols = some member := by
    rw [Base64.isBase64_iff.1 hsymbols, Base64.decode?_encode]
  rw [readCompressedLine?, hlead, Option.bind_some, decompress?, hdecode, Option.bind_eq_bind,
    Option.bind_some, hmember.read?_eq]
  rfl

theorem IsCompressedLine.material_unique {other : Bytes} (hline : IsCompressedLine material line)
    (hother : IsCompressedLine other line) : material = other := by
  obtain ⟨member, hread⟩ := hline.read
  obtain ⟨otherMember, hreadOther⟩ := hother.read
  exact congrArg Prod.snd (Option.some.inj (hread.symm.trans hreadOther))

/-! ## What is kept -/

private theorem holds_of_keep {store : Store} {deposit : Deposit} {files : CredentialFiles}
    (hkept : (store.keep deposit).1 = .ok files) :
    (store.keep deposit).2.tree.Holds files.raw deposit.material ∧
      (store.keep deposit).2.tree.Holds files.compressed (compressedLine deposit.material) := by
  obtain ⟨found, hfound, hraw, hcompressed⟩ := renews_of_keep hkept
  obtain rfl : files = found := Except.ok.inj (hkept.symm.trans hfound)
  exact ⟨hraw, hcompressed⟩

/-- **Compressing loses nothing.**  Of every material the compressed form is the base64
of exactly one gzip member, in printable ASCII without a line break, and it is read
back.  When a deposit is kept, one such line stands beside its raw file.  A line that
has the form, whichever blocks its member consists of, gives the material of the raw
file; so deposits with different material never have equal compressed files. -/
theorem compressed_form_keeps_material :
    (∀ material,
      Base64.IsBase64 (Gzip.member material) (compress material) ∧
        (∀ code ∈ compress material, IsPrintable code) ∧
        Base64.decode? (compress material) = some (Gzip.member material) ∧
        Gzip.IsMember material (Gzip.member material) ∧
        Gzip.read? (Gzip.member material) = some material) ∧
    (∀ material line, IsCompressedLine material line →
      (∀ code ∈ line, IsPrintable code) ∧
        ∃ member, readCompressedLine? line = some (member, material)) ∧
    (∀ (store : Store) deposit files, (store.keep deposit).1 = .ok files →
      (store.keep deposit).2.tree.Holds files.raw deposit.material ∧
        ∃ line, (store.keep deposit).2.tree.Holds files.compressed line ∧
          IsCompressedLine deposit.material line) ∧
    (∀ (store other : Store) deposit renewed files found line,
      (store.keep deposit).1 = .ok files → (other.keep renewed).1 = .ok found →
      (store.keep deposit).2.tree.Holds files.compressed line →
      (other.keep renewed).2.tree.Holds found.compressed line →
      deposit.material = renewed.material) := by
  refine ⟨?_, ?_, ?_, ?_⟩
  · intro material
    have hmember := Gzip.isMember_member material
    exact ⟨Base64.isBase64_encode _, fun code hcode => isPrintable_encode hcode,
      Base64.decode?_encode _, hmember, hmember.read?_eq⟩
  · intro material line hline
    exact ⟨hline.isPrintable, hline.read⟩
  · intro store deposit files hkept
    obtain ⟨hraw, hcompressed⟩ := holds_of_keep hkept
    exact ⟨hraw, _, hcompressed, isCompressedLine_compressedLine deposit.material⟩
  · intro store other deposit renewed files found line hkept hrenewed hline hother
    have hfirst := hline.unique (holds_of_keep hkept).2
    have hsecond := hother.unique (holds_of_keep hrenewed).2
    have hshared : IsCompressedLine renewed.material line := by
      rw [hsecond]
      exact isCompressedLine_compressedLine renewed.material
    rw [hfirst] at hshared
    exact (isCompressedLine_compressedLine deposit.material).material_unique hshared

/-- A deposit that is kept has its line. -/
theorem compressed_form_keeps_material_trial :
    (Store.trial.keep ⟨"user", "client", "1", [1]⟩).1 =
        .ok ⟨⟨"users/credential_client_1"⟩, ⟨"users/credential_client_1_compressed"⟩⟩ ∧
      ∃ line, (Store.trial.keep ⟨"user", "client", "1", [1]⟩).2.tree.Holds
          ⟨"users/credential_client_1_compressed"⟩ line ∧ IsCompressedLine [1] line := by
  have hkept : (Store.trial.keep ⟨"user", "client", "1", [1]⟩).1 =
      .ok ⟨⟨"users/credential_client_1"⟩, ⟨"users/credential_client_1_compressed"⟩⟩ := by
    decide +kernel
  exact ⟨hkept, (compressed_form_keeps_material.2.2.1 _ _ _ hkept).2⟩

end CredentialIntake.Store
