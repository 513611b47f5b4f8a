import LiveExec32.Signature.Directories
import LiveExec32.MachO.Acceptance
import LiveExec32.MachO.Layout
import Mathlib.Data.List.TakeDrop

/-! # A re-signed slice keeps a valid signature

Every blob of the new signature is a transformed CodeDirectory, a blob that the source keeps, or one
that the donor lends (`Origin`). The signature reads back as these blobs, and the pages that the
code slots cover end before the signature begins, so they are copied unchanged (`resigned_valid`).
-/

namespace LiveExec32.Signature

open MachO List SignatureView Except Bytes

/-! ## What is packed -/

/-- A blob as it is packed. -/
def BlobView.packed (b : BlobView) : MutableBlob := ⟨b.type, b.data⟩

variable {b : BlobView}

/-- A blob with its own description is seen again as it was. -/
theorem BlobView.WellFormed.view_packed (h : b.WellFormed) : b.packed.view = b := by
  obtain ⟨type, magic, data⟩ := b
  have hmagic := h.magic_eq
  simp only at hmagic
  rw [hmagic]
  rfl

variable {sources : List BlobView} {type : ℕ}

section

variable {digests : Digests} {heap : ℕ → Bool} {isIOS17 : Bool} {slice : Slice} {donor : Donor}
  {teamIdentifier : CString}

/-- Where a packed blob comes from. -/
inductive Origin (digests : Digests) (heap : ℕ → Bool) (isIOS17 : Bool) (slice : Slice)
    (donor : Donor) (teamIdentifier : CString) (sources : List BlobView) (b : MutableBlob) : Prop
  | directory (s : BlobView) (hs : s ∈ sources) (hdirectory : isCodeDirectory s.type = true)
      (htype : b.type = s.type)
      (hdata : createTransformedCodeDirectory digests heap isIOS17 s donor teamIdentifier slice.size
        slice.codeSignatureOffset = .ok b.data)
  | kept (s : BlobView) (hs : s ∈ sources) (hdirectory : isCodeDirectory s.type = false)
      (hreplaced : isReplaced s.type = false) (heq : b = s.packed)
  | lent (d : BlobView) (hd : d ∈ donor.blobs) (heq : b = d.packed)

theorem Origin.mono {sources' : List BlobView} (hle : ∀ s ∈ sources, s ∈ sources')
    {b : MutableBlob} (h : Origin digests heap isIOS17 slice donor teamIdentifier sources b) :
    Origin digests heap isIOS17 slice donor teamIdentifier sources' b := by
  cases h with
  | directory s hs hdirectory htype hdata => exact .directory s (hle s hs) hdirectory htype hdata
  | kept s hs hdirectory hreplaced heq => exact .kept s (hle s hs) hdirectory hreplaced heq
  | lent d hd heq => exact .lent d hd heq

/-- What a source blob leaves in the list. -/
structure SourceKept (sources : List BlobView) (blobs : List MutableBlob) : Prop where
  directory : ∀ s ∈ sources, isCodeDirectory s.type = true → ∃ b ∈ blobs, b.type = s.type
  kept : ∀ s ∈ sources, isCodeDirectory s.type = false → isReplaced s.type = false →
    s.packed ∈ blobs

variable {blobs : List MutableBlob}

theorem SourceKept.cons {s : BlobView} {rest : List BlobView} {added : List MutableBlob}
    (h : SourceKept rest added) (hle : ∀ b ∈ added, b ∈ blobs)
    (hdirectory : isCodeDirectory s.type → ∃ b ∈ blobs, b.type = s.type)
    (hkept : isCodeDirectory s.type = false → isReplaced s.type = false → s.packed ∈ blobs) :
    SourceKept (s :: rest) blobs := by
  refine ⟨forall_mem_cons.mpr ⟨hdirectory, fun s' hs' hyes => ?_⟩,
    forall_mem_cons.mpr ⟨hkept, fun s' hs' hno hreplaced => hle _ (h.kept s' hs' hno hreplaced)⟩⟩
  obtain ⟨b, hb, htype⟩ := h.directory s' hs' hyes
  exact ⟨b, hle b hb, htype⟩

theorem appendBlob_eq_ok {blobs' : List MutableBlob} {data : List UInt8}
    (h : appendBlob blobs type data = .ok blobs') : blobs' = blobs ++ [⟨type, data⟩] := by
  obtain ⟨-, h⟩ := ensure_bind_eq_ok.mp h
  exact (ok.inj h).symm

variable {before : List MutableBlob}

/-- The loop over the blobs of the source. -/
theorem appendSourceBlobs_spec
    (h : appendSourceBlobs digests heap isIOS17 slice donor teamIdentifier sources before
      = .ok blobs) :
    ∃ added, blobs = before ++ added ∧ SourceKept sources added ∧
      ∀ b ∈ added, Origin digests heap isIOS17 slice donor teamIdentifier sources b := by
  induction sources generalizing before with
  | nil =>
    cases h
    exact ⟨[], (append_nil _).symm, ⟨by simp, by simp⟩, by simp⟩
  | cons s _ ih =>
    rw [appendSourceBlobs] at h
    split at h
    next hdirectory =>
      obtain ⟨data, hdata, h⟩ := bind_eq_ok.mp h
      obtain ⟨next, happend, h⟩ := bind_eq_ok.mp h
      obtain rfl := appendBlob_eq_ok happend
      obtain ⟨added, rfl, hkept, horigin⟩ := ih h
      refine ⟨⟨s.type, data⟩ :: added, by simp, hkept.cons (fun _ => mem_cons_of_mem _)
        (fun _ => ⟨_, mem_cons_self, rfl⟩) fun hno => ?_, forall_mem_cons.mpr
          ⟨.directory s mem_cons_self hdirectory rfl hdata, fun b hb => ?_⟩⟩
      · cases hdirectory.symm.trans hno
      · exact (horigin b hb).mono fun _ => mem_cons_of_mem _
    next hno =>
      rw [Bool.not_eq_true] at hno
      have hother : ¬ isCodeDirectory s.type := by simp [hno]
      split at h
      next hreplaced =>
        rw [Bool.not_eq_true'] at hreplaced
        obtain ⟨next, happend, h⟩ := bind_eq_ok.mp h
        obtain rfl := appendBlob_eq_ok happend
        obtain ⟨added, rfl, hkept, horigin⟩ := ih h
        refine ⟨s.packed :: added, by simp [BlobView.packed], hkept.cons
          (fun _ => mem_cons_of_mem _) (fun hyes => absurd hyes hother)
          (fun _ _ => mem_cons_self), forall_mem_cons.mpr
            ⟨.kept s mem_cons_self hno hreplaced rfl, fun b hb => ?_⟩⟩
        exact (horigin b hb).mono fun _ => mem_cons_of_mem _
      next hreplaced =>
        obtain ⟨added, rfl, hkept, horigin⟩ := ih h
        refine ⟨added, rfl, hkept.cons (fun _ hb => hb) (fun hyes => absurd hyes hother)
          (fun _ hkeep => ?_), fun b hb => (horigin b hb).mono fun _ => mem_cons_of_mem _⟩
        exact absurd hkeep (by simpa using hreplaced)

theorem appendDonorBlobs_spec {lent : List BlobView}
    (h : appendDonorBlobs lent before = .ok blobs) :
    blobs = before ++ lent.map BlobView.packed := by
  induction lent generalizing before with
  | nil => rw [← ok.inj h, map_nil, append_nil]
  | cons _ _ ih =>
    obtain ⟨next, happend, h⟩ := bind_eq_ok.mp h
    obtain rfl := appendBlob_eq_ok happend
    rw [ih h, append_assoc]
    rfl

end

/-! ## The donor -/

/-- The blobs that a donor lends: each is well formed and of the type of its slot. -/
structure Donor.WellFormed (donor : Donor) : Prop where
  wellFormed : ∀ d ∈ donor.blobs, d.WellFormed
  requirements : ∀ d ∈ donor.requirements, d.type = slotRequirements
  entitlements : donor.entitlements.type = slotEntitlements
  derEntitlements : donor.derEntitlements.type = slotDEREntitlements
  cmsSignature : donor.cmsSignature = emptyCMSSignature

theorem wellFormed_emptyCMSSignature : emptyCMSSignature.WellFormed :=
  ⟨by decide, by decide, by decide, by decide⟩

theorem SignatureView.find_eq_some {view : SignatureView} (h : view.find type = some b) :
    b ∈ view.blobs ∧ b.type = type := by
  have htype := find?_some h
  exact ⟨mem_of_find?_eq_some h, beq_iff_eq.mp htype⟩

variable {digests : Digests} {signature : Bytes}

theorem donor_wellFormed {capacity : ℕ} {donor : Donor}
    (h : createCodeSignatureDonor digests signature capacity = .ok donor) : donor.WellFormed := by
  obtain ⟨view, hview, h⟩ := bind_eq_ok.mp h
  have hwell := (parsed_of_parseCodeSignature hview).wellFormed
  simp only at h
  split at h
  next entitlements derEntitlements hentitlements hder =>
    obtain ⟨-, h⟩ := ensure_bind_eq_ok.mp h
    obtain ⟨u, -, h⟩ := bind_eq_ok.mp h
    obtain ⟨-, h⟩ := ensure_bind_eq_ok.mp h
    cases h
    obtain ⟨hentitlementsMem, hentitlementsType⟩ := find_eq_some hentitlements
    obtain ⟨hderMem, hderType⟩ := find_eq_some hder
    refine ⟨?_, fun d hd => (find_eq_some hd).2, hentitlementsType, hderType, rfl⟩
    intro d hd
    simp only [Donor.blobs, mem_append, Option.mem_toList, mem_cons, not_mem_nil, or_false] at hd
    rcases hd with hd | rfl | rfl | rfl
    · exact hwell d (find_eq_some hd).1
    · exact hwell _ hentitlementsMem
    · exact hwell _ hderMem
    · exact wellFormed_emptyCMSSignature
  · simp at h

/-! ## Pages -/

/-- The first byte of page `i`; a page size of 0 makes the signed range one page. -/
def pageStart (p : ParsedCodeDirectory) (i : ℕ) : ℕ :=
  if p.pageSize = 0 then 0 else i * 2 ^ p.pageSize

/-- The end of page `i`; the last page ends with the signed range. -/
def pageEnd (p : ParsedCodeDirectory) (i : ℕ) : ℕ :=
  if p.pageSize = 0 then p.signingLimit else min ((i + 1) * 2 ^ p.pageSize) p.signingLimit

/-- The digest in code slot `i`. -/
def codeSlot (codeDirectory : BlobView) (p : ParsedCodeDirectory) (i : ℕ) : List UInt8 :=
  codeDirectory.bytes.slice (p.hashOffset + i * p.hashSize) p.hashSize

/-- Every code slot holds the digest of its page of the slice. -/
def CodeSlotsMatch (digests : Digests) (codeDirectory : BlobView) (p : ParsedCodeDirectory)
    (content : Bytes) : Prop :=
  ∀ i < p.codeSlotCount, codeSlot codeDirectory p i
    = digests.digest p.hashType (content.slice (pageStart p i) (pageEnd p i - pageStart p i))

theorem pageEnd_le (p : ParsedCodeDirectory) (i : ℕ) : pageEnd p i ≤ p.signingLimit := by
  unfold pageEnd
  split
  · exact Nat.le_refl _
  · exact Nat.min_le_right _ _

/-- Bytes of slices that are equal. -/
theorem apply_of_slice_eq {m m' : Bytes} {offset offset' size k : ℕ}
    (h : m.slice offset size = m'.slice offset' size) (hk : k < size) :
    m (offset + k) = m' (offset' + k) := by
  rw [← @getD_slice m offset size k hk, h, getD_slice hk]

/-- The slots still match if they, their coverage and the pages are the same. -/
theorem CodeSlotsMatch.transfer {source result : BlobView} {p q : ParsedCodeDirectory}
    {content content' : Bytes} (h : CodeSlotsMatch digests source p content)
    (hcoverage : SameCoverage p q)
    (hslots : source.bytes.slice p.hashOffset (p.codeSlotCount * p.hashSize)
      = result.bytes.slice q.hashOffset (p.codeSlotCount * p.hashSize))
    (hcontent : ∀ i < p.signingLimit, content' i = content i) :
    CodeSlotsMatch digests result q content' := by
  intro i hi
  rw [hcoverage.codeSlotCount] at hi
  have hstart : pageStart q i = pageStart p i := by
    rw [pageStart, pageStart, hcoverage.pageSize]
  have hend : pageEnd q i = pageEnd p i := by
    rw [pageEnd, pageEnd, hcoverage.pageSize, hcoverage.signingLimit]
  have hslot : codeSlot result q i = codeSlot source p i := by
    rw [codeSlot, codeSlot, hcoverage.hashSize]
    refine slice_congr fun k hk => ?_
    have hinside : i * p.hashSize + k < p.codeSlotCount * p.hashSize := by
      have hmul := Nat.mul_le_mul_right p.hashSize (Nat.succ_le_of_lt hi)
      rw [Nat.succ_mul] at hmul
      omega
    rw [Nat.add_assoc, Nat.add_assoc, apply_of_slice_eq hslots hinside]
  have hpage : content'.slice (pageStart p i) (pageEnd p i - pageStart p i)
      = content.slice (pageStart p i) (pageEnd p i - pageStart p i) := by
    refine slice_congr fun k hk => hcontent _ ?_
    have hle := pageEnd_le p i
    omega
  rw [hslot, hstart, hend, hpage, hcoverage.hashType]
  exact h i hi

/-! ## Statement -/

/-- The part of a file where the signature of a slice at `offset` is. -/
def signatureOf (file : File) (slice : Slice) (offset : ℕ) : Bytes :=
  file.bytes.window (offset + slice.codeSignatureOffset) slice.codeSignatureSize

/-- A CodeDirectory of the new signature: its special slots are those of the new blobs, it covers
    the same pages as its source, and the code slots match if those of the source did. -/
structure DirectoryValid (digests : Digests) (sources : List BlobView) (view : SignatureView)
    (content content' : Bytes) (b : BlobView) (q : ParsedCodeDirectory) : Prop where
  parsed : parseCodeDirectory b "transformed encrypted ARM slice" = .ok q
  special : ∀ slot ∈ [slotRequirements, slotEntitlements, slotDEREntitlements],
    slot ≤ q.specialSlotCount ∧ specialSlot b q slot = expectedDigest digests q (view.find slot)
  code : ∃ s ∈ sources, ∃ p, s.type = b.type ∧
    parseCodeDirectory s "encrypted ARM slice" = .ok p ∧ SameCoverage p q ∧
    (CodeSlotsMatch digests s p content → CodeSlotsMatch digests b q content')

/-- What holds of a re-signed slice at `destinationOffset` in the output. -/
structure Resigned (digests : Digests) (target output : File) (slice : Slice)
    (destinationOffset : ℕ) (donor : Donor) (sources : List BlobView) (view : SignatureView) :
    Prop where
  outside : ∀ i < slice.size, i < slice.codeSignatureOffset ∨
    slice.codeSignatureOffset + slice.codeSignatureSize ≤ i →
      output.bytes (destinationOffset + i) = target.bytes (slice.offset + i)
  accepted : parseCodeSignature (signatureOf output slice destinationOffset)
    "transformed encrypted ARM slice" slice.codeSignatureSize = .ok view
  increasing : view.blobs.Pairwise fun b c => b.type < c.type
  kept : ∀ s ∈ sources, isCodeDirectory s.type = false → isReplaced s.type = false →
    s ∈ view.blobs
  lent : ∀ d ∈ donor.blobs, d ∈ view.blobs
  cms : donor.cmsSignature = emptyCMSSignature
  directories : ∀ s ∈ sources, isCodeDirectory s.type = true → ∃ b ∈ view.blobs, b.type = s.type
  nothing_else : ∀ b ∈ view.blobs, isCodeDirectory b.type = true ∨ b ∈ donor.blobs ∨
    (b ∈ sources ∧ isReplaced b.type = false)
  tail : ∀ i, view.length ≤ i → i < slice.codeSignatureSize →
    output.bytes (destinationOffset + slice.codeSignatureOffset + i) = 0
  valid : ∀ b ∈ view.blobs, isCodeDirectory b.type = true →
    ∃ q, DirectoryValid digests sources view (target.bytes.shift slice.offset)
      (output.bytes.shift destinationOffset) b q

/-! ## The new signature -/

section

variable {digests : Digests} {heap : ℕ → Bool} {isIOS17 : Bool} {slice : Slice} {donor : Donor}
  {teamIdentifier : CString} {target : File}

theorem pairwise_sortBlobs (blobs : List MutableBlob) :
    (sortBlobs blobs).Pairwise fun b c => b.type ≤ c.type := by
  exact pairwise_insertionSort _ blobs

/-- Every packed blob carries its own description. -/
theorem Origin.wellFormed (hsources : ∀ s ∈ sources, s.WellFormed) (hdonor : donor.WellFormed)
    {b : MutableBlob} (h : Origin digests heap isIOS17 slice donor teamIdentifier sources b) :
    b.view.WellFormed := by
  cases h with
  | directory s hs _ htype hdata =>
    obtain ⟨p, q, ht⟩ := transformed_of_create hdata
    have hq := directoryParsed_of_parse ht.parsed
    have hheader := (codeDirectoryHeaderSize_bounds q.version).1
    have hle := hq.header_le
    rw [hq.headerSize_eq] at hle
    refine ⟨?_, rfl, ?_, hq.length_eq⟩
    · show b.type < 2 ^ 32
      rw [htype]
      exact (hsources s hs).type_lt
    · simp only [BlobView.length, MutableBlob.view] at hle ⊢
      omega
  | kept s hs _ _ heq =>
    rw [heq, (hsources s hs).view_packed]
    exact hsources s hs
  | lent d hd heq =>
    rw [heq, (hdonor.wellFormed d hd).view_packed]
    exact hdonor.wellFormed d hd

/-- What is known of a new signature. -/
structure SignedAs (digests : Digests) (heap : ℕ → Bool) (isIOS17 : Bool) (target : File)
    (slice : Slice) (donor : Donor) (teamIdentifier : CString) (bytes : Bytes)
    (sources : List BlobView) (view : SignatureView) (blobs : List MutableBlob) : Prop where
  wellFormed : ∀ s ∈ sources, s.WellFormed
  accepted : parseCodeSignature bytes "transformed encrypted ARM slice" slice.codeSignatureSize
    = .ok view
  blobs_eq : view.blobs = blobs.map MutableBlob.view
  sorted : blobs.Pairwise fun b c => b.type ≤ c.type
  kept : SourceKept sources blobs
  lent : ∀ d ∈ donor.blobs, d.packed ∈ blobs
  origin : ∀ b ∈ blobs, Origin digests heap isIOS17 slice donor teamIdentifier sources b
  length_le : view.length ≤ slice.codeSignatureSize
  tail : ∀ i, view.length ≤ i → bytes i = 0

theorem readSignature_eq_ok (h : readSignature heap target slice = .ok signature)
    (hfits : slice.offset + slice.codeSignatureOffset + slice.codeSignatureSize ≤ target.length) :
    signature = signatureOf target slice slice.offset := by
  obtain ⟨-, h⟩ := ensure_bind_eq_ok.mp h
  split at h
  · simp at h
  next offset hoffset =>
    obtain rfl := addUInt64_eq_some hoffset
    rw [readAt_of_fits hfits, mapError_ok] at h
    exact (ok.inj h).symm

/-- **What the transformation packs, and that it reads back.** -/
theorem signedAs_of_create (hdonor : donor.WellFormed)
    (hfits : slice.offset + slice.codeSignatureOffset + slice.codeSignatureSize ≤ target.length)
    {bytes : Bytes}
    (h : createTransformedEncryptedSignature digests heap isIOS17 target slice donor teamIdentifier
      = .ok bytes) :
    ∃ sourceView view blobs,
      parseCodeSignature (signatureOf target slice slice.offset) "encrypted ARM slice"
        slice.codeSignatureSize = .ok sourceView ∧
      SignedAs digests heap isIOS17 target slice donor teamIdentifier bytes sourceView.blobs view
        blobs := by
  obtain ⟨-, h⟩ := ensure_bind_eq_ok.mp h
  obtain ⟨signature, hsignature, h⟩ := bind_eq_ok.mp h
  obtain rfl := readSignature_eq_ok hsignature hfits
  obtain ⟨sourceView, hsourceView, h⟩ := bind_eq_ok.mp h
  obtain ⟨kept, hkept, h⟩ := bind_eq_ok.mp h
  obtain ⟨-, h⟩ := ensure_bind_eq_ok.mp h
  obtain ⟨blobs, hblobs, h⟩ := bind_eq_ok.mp h
  obtain ⟨added, hadded, hsourceKept, horigin⟩ := appendSourceBlobs_spec hkept
  rw [nil_append] at hadded
  rw [hadded] at hblobs
  obtain rfl := appendDonorBlobs_spec hblobs
  have hwell := (parsed_of_parseCodeSignature hsourceView).wellFormed
  have hsorted := pairwise_sortBlobs (added ++ donor.blobs.map BlobView.packed)
  -- sorting changes nothing about the origins
  have hmem : ∀ b, b ∈ sortBlobs (added ++ donor.blobs.map BlobView.packed) ↔
      b ∈ added ++ donor.blobs.map BlobView.packed := fun b => mem_insertionSort _
  simp only at h
  generalize sortBlobs (added ++ donor.blobs.map BlobView.packed) = blobs at h hsorted hmem
  have hall : ∀ b ∈ blobs,
      Origin digests heap isIOS17 slice donor teamIdentifier sourceView.blobs b := by
    intro b hb
    rcases mem_append.mp ((hmem b).mp hb) with hb | hb
    · exact horigin b hb
    · obtain ⟨d, hd, rfl⟩ := mem_map.mp hb
      exact .lent d hd rfl
  split at h
  · simp at h
  next length hlength =>
    obtain ⟨hsmall, h⟩ := ensure_bind_eq_ok.mp h
    obtain ⟨-, h⟩ := ensure_bind_eq_ok.mp h
    obtain ⟨view, hview, h⟩ := bind_eq_ok.mp h
    cases h
    have hsum := packedLength_eq_some hlength
    simp only [Bool.not_eq_true', Bool.or_eq_false_iff, decide_eq_false_iff_not, Nat.not_lt,
      gt_iff_lt, uint32Max] at hsmall
    have hfitsAll : packedHeaderSize blobs.length + totalLength blobs < 2 ^ 32 := by omega
    obtain ⟨hviewLength, hviewBlobs⟩ := blobs_of_packSignature hfitsAll (by omega)
      (fun b hb => (hall b hb).wellFormed hwell hdonor) hview
    refine ⟨sourceView, view, blobs, hsourceView, ?_⟩
    exact
      { wellFormed := hwell
        accepted := hview
        blobs_eq := hviewBlobs
        sorted := hsorted
        kept :=
          { directory := fun s hs hdirectory => by
              obtain ⟨b, hb, htype⟩ := hsourceKept.directory s hs hdirectory
              exact ⟨b, (hmem b).mpr (mem_append_left _ hb), htype⟩
            kept := fun s hs hno hreplaced =>
              (hmem _).mpr (mem_append_left _ (hsourceKept.kept s hs hno hreplaced)) }
        lent := fun d hd => (hmem _).mpr (mem_append_right _ (mem_map_of_mem hd))
        origin := hall
        length_le := by rw [hviewLength]; exact hsmall.1
        tail := fun i hi => packSignature_tail hfitsAll (by omega) }

section

variable {bytes : Bytes} {sources : List BlobView} {view : SignatureView} {blobs : List MutableBlob}
  (h : SignedAs digests heap isIOS17 target slice donor teamIdentifier bytes sources view blobs)

include h

theorem SignedAs.distinct : view.blobs.Pairwise fun b c => b.type ≠ c.type :=
  (parsed_of_parseCodeSignature h.accepted).distinct

/-- The blobs are sorted, and no two are of one type. -/
theorem SignedAs.increasing : view.blobs.Pairwise fun b c => b.type < c.type := by
  have hle : view.blobs.Pairwise fun b c => b.type ≤ c.type := by
    rw [h.blobs_eq]
    exact pairwise_map.mpr h.sorted
  exact hle.imp₂ (fun _ _ hle hne => Nat.lt_of_le_of_ne hle hne) h.distinct

theorem SignedAs.mem_of_packed (hwell : b.WellFormed) (hb : b.packed ∈ blobs) : b ∈ view.blobs := by
  rw [h.blobs_eq, ← hwell.view_packed]
  exact mem_map_of_mem hb

/-- A blob of the new signature is a CodeDirectory, the donor's, or one that the source keeps. -/
theorem SignedAs.origin_of_mem (hdonor : donor.WellFormed) (hb : b ∈ view.blobs) :
    isCodeDirectory b.type ∨ b ∈ donor.blobs ∨ (b ∈ sources ∧ isReplaced b.type = false) := by
  rw [h.blobs_eq] at hb
  obtain ⟨packed, hpacked, rfl⟩ := mem_map.mp hb
  cases h.origin packed hpacked with
  | directory _ _ hdirectory htype =>
    rw [← htype] at hdirectory
    exact .inl hdirectory
  | kept s hs _ hreplaced heq =>
    rw [heq, (h.wellFormed s hs).view_packed]
    exact .inr (.inr ⟨hs, hreplaced⟩)
  | lent d hd heq =>
    rw [heq, (hdonor.wellFormed d hd).view_packed]
    exact .inr (.inl hd)

theorem SignedAs.find_of_mem (hb : b ∈ view.blobs) : view.find b.type = some b := by
  have hdistinct := h.distinct
  unfold find
  generalize view.blobs = l at hb hdistinct
  induction l with
  | nil => exact absurd hb not_mem_nil
  | cons _ _ ih =>
    rw [pairwise_cons] at hdistinct
    rcases mem_cons.mp hb with rfl | hrest
    · exact find?_cons_of_pos (beq_self_eq_true _)
    · rw [find?_cons_of_neg (by rw [beq_iff_eq]; exact hdistinct.1 b hrest)]
      exact ih hrest hdistinct.2

/-- The slots of the donor hold the donor's blobs. -/
theorem SignedAs.find_of_mem_replacements
    (hdonor : donor.WellFormed) {r : ℕ × Option BlobView} (hr : r ∈ donor.replacements) :
    view.find r.1 = r.2 := by
  have hlent : ∀ d ∈ donor.blobs, view.find d.type = some d := fun d hd =>
    h.find_of_mem (h.mem_of_packed (hdonor.wellFormed d hd) (h.lent d hd))
  simp only [Donor.replacements, mem_cons, not_mem_nil, or_false] at hr
  rcases hr with rfl | rfl | rfl
  · cases hrequirements : donor.requirements with
    | some d =>
      rw [← hdonor.requirements d hrequirements]
      exact hlent d (by simp [Donor.blobs, hrequirements])
    | none =>
      -- no other blob of the donor is of that type
      by_contra hfound
      obtain ⟨b, hb⟩ := Option.ne_none_iff_exists'.mp hfound
      obtain ⟨hmem, htype⟩ := find_eq_some hb
      have hmemDonor : b ∈ donor.blobs := by
        rcases h.origin_of_mem hdonor hmem with hdirectory | hdonor | ⟨-, hkept⟩
        · cases htype ▸ hdirectory
        · exact hdonor
        · cases htype ▸ hkept
      simp only [Donor.blobs, hrequirements, Option.toList_none, nil_append, mem_cons,
        not_mem_nil, or_false] at hmemDonor
      rcases hmemDonor with rfl | rfl | rfl
      · cases hdonor.entitlements.symm.trans htype
      · cases hdonor.derEntitlements.symm.trans htype
      · rw [hdonor.cmsSignature] at htype
        cases htype
  · rw [← hdonor.entitlements]
    exact hlent _ (by simp [Donor.blobs])
  · rw [← hdonor.derEntitlements]
    exact hlent _ (by simp [Donor.blobs])

/-- The CodeDirectories of the new signature are the transformed ones of the source. -/
theorem SignedAs.transformed_of_mem (hdonor : donor.WellFormed) (hb : b ∈ view.blobs)
    (hdirectory : isCodeDirectory b.type) :
    ∃ s ∈ sources, ∃ p q, s.type = b.type ∧ b = ⟨s.type, magicCodeDirectory, b.data⟩ ∧
      Transformed digests s donor slice.codeSignatureOffset b.data p q := by
  rw [h.blobs_eq] at hb
  obtain ⟨packed, hpacked, rfl⟩ := mem_map.mp hb
  cases h.origin packed hpacked with
  | directory s hs _ htype hdata =>
    obtain ⟨p, q, ht⟩ := transformed_of_create hdata
    refine ⟨s, hs, p, q, htype.symm, ?_, ht⟩
    have hmagic : readBigUInt32 (fun i => packed.data.getD i 0) 0 = magicCodeDirectory := by
      rw [ht.magic, ← (h.wellFormed s hs).magic_eq]
      exact (directoryParsed_of_parse ht.source_parsed).magic_eq
    rw [MutableBlob.view, hmagic, htype]
  | kept s _ hno _ heq =>
    rw [heq] at hdirectory
    cases hdirectory.symm.trans hno
  | lent d hd heq =>
    rw [heq, (hdonor.wellFormed d hd).view_packed] at hdirectory
    simp only [Donor.blobs, mem_append, Option.mem_toList, mem_cons, not_mem_nil, or_false] at hd
    rcases hd with hd | rfl | rfl | rfl
    · rw [hdonor.requirements d hd] at hdirectory
      cases hdirectory
    · rw [hdonor.entitlements] at hdirectory
      cases hdirectory
    · rw [hdonor.derEntitlements] at hdirectory
      cases hdirectory
    · rw [hdonor.cmsSignature] at hdirectory
      cases hdirectory

end

end

/-! ## Result -/

/-- **Re-signing an encrypted slice keeps its signature valid.** -/
theorem resigned_valid (digests : Digests) (heap : ℕ → Bool) (isIOS17 : Bool)
    (target destination output : File) (image : Image) (slice : Slice)
    (donorSignature : Bytes) (donorCapacity : ℕ) (donor : Donor) (teamIdentifier : CString)
    (bytes : Bytes) (bufferSize destinationOffset : ℕ)
    (htarget : parseImage heap target = .ok image) (hslice : slice ∈ image.slices)
    (hdonor : createCodeSignatureDonor digests donorSignature donorCapacity = .ok donor)
    (htransform : createTransformedEncryptedSignature digests heap isIOS17 target slice donor
      teamIdentifier = .ok bytes)
    (hbuffer : bufferSize ≠ 0) (hoffset : destinationOffset < 2 ^ 64)
    (hcopy : (targetOutput target slice
        (some ⟨slice.codeSignatureOffset, slice.codeSignatureSize, bytes⟩)).copyToFD bufferSize
      destination destinationOffset = .ok output) :
    ∃ sourceView view,
      parseCodeSignature (signatureOf target slice slice.offset) "encrypted ARM slice"
        slice.codeSignatureSize = .ok sourceView ∧
      Resigned digests target output slice destinationOffset donor sourceView.blobs view := by
  have hparsed := (accepted_of_parseImage htarget).2 slice hslice
  have hfits := hparsed.inSlice.codeSignature_fits
  have hfile := hparsed.in_file
  simp only at hfits
  have hdonorWell := donor_wellFormed hdonor
  obtain ⟨sourceView, view, blobs, hsource, hsigned⟩ :=
    signedAs_of_create hdonorWell (by omega) htransform
  have hreadable : (targetOutput target slice
      (some ⟨slice.codeSignatureOffset, slice.codeSignatureSize, bytes⟩)).Readable := hfile
  have hcontent : ∀ i < slice.size, output.bytes (destinationOffset + i)
      = if slice.codeSignatureOffset ≤ i ∧ i < slice.codeSignatureOffset + slice.codeSignatureSize
        then bytes (i - slice.codeSignatureOffset) else target.bytes (slice.offset + i) :=
    fun i hi => bytes_of_copyToFD hreadable hbuffer hoffset hcopy hi
  have houtside : ∀ i < slice.size, i < slice.codeSignatureOffset ∨
      slice.codeSignatureOffset + slice.codeSignatureSize ≤ i →
        output.bytes (destinationOffset + i) = target.bytes (slice.offset + i) := by
    intro i hi hout
    rw [hcontent i hi, if_neg (by omega)]
  have hinside : ∀ i < slice.codeSignatureSize,
      output.bytes (destinationOffset + slice.codeSignatureOffset + i) = bytes i := by
    intro i hi
    rw [Nat.add_assoc, hcontent _ (by omega), if_pos (by omega), Nat.add_sub_cancel_left]
  -- what is read of the allocation is what was packed
  have hsame : signatureOf output slice destinationOffset = bytes := by
    funext i
    rw [signatureOf, window]
    split
    next hi => exact hinside i hi
    next hi => exact (hsigned.tail i (Nat.le_trans hsigned.length_le (Nat.le_of_not_lt hi))).symm
  refine ⟨sourceView, view, hsource, ?_⟩
  exact
    { outside := houtside
      accepted := by rw [hsame]; exact hsigned.accepted
      increasing := hsigned.increasing
      kept := fun s hs hno hreplaced =>
        hsigned.mem_of_packed (hsigned.wellFormed s hs) (hsigned.kept.kept s hs hno hreplaced)
      lent := fun d hd =>
        hsigned.mem_of_packed (hdonorWell.wellFormed d hd) (hsigned.lent d hd)
      cms := hdonorWell.cmsSignature
      directories := by
        intro s hs hdirectory
        obtain ⟨b, hb, htype⟩ := hsigned.kept.directory s hs hdirectory
        refine ⟨b.view, ?_, htype⟩
        rw [hsigned.blobs_eq]
        exact mem_map_of_mem hb
      nothing_else := fun b hb => hsigned.origin_of_mem hdonorWell hb
      tail := fun i hle hi => by rw [hinside i hi]; exact hsigned.tail i hle
      valid := by
        intro b hb hdirectory
        obtain ⟨s, hs, p, q, htype, hblob, ht⟩ :=
          hsigned.transformed_of_mem hdonorWell hb hdirectory
        refine ⟨q, by rw [hblob]; exact ht.parsed, fun slot hslot => ?_,
          s, hs, p, htype, ht.source_parsed, ht.coverage, fun hmatch => ?_⟩
        · obtain ⟨r, hr, rfl⟩ : ∃ r ∈ donor.replacements, r.1 = slot :=
            mem_map.mp (show slot ∈ donor.replacements.map Prod.fst from hslot)
          rw [hsigned.find_of_mem_replacements hdonorWell hr, hblob]
          exact ht.slots r hr
        · -- the signed range ends before the signature
          refine hmatch.transfer ht.coverage ht.codeSlots fun i hi => ?_
          have hlimit := ht.limit_le
          exact houtside i (by omega) (.inl (by omega)) }

/-! A thin encrypted executable whose signature is one CodeDirectory, and a donor without
requirements. -/

/-- Digests that are the first bytes of the data. -/
def firstBytes : Digests where
  sha1 data := takeD 20 data 0
  sha256 data := takeD 32 data 0
  sha384 data := takeD 48 data 0
  length_sha1 data := takeD_length 20 data 0
  length_sha256 data := takeD_length 32 data 0
  length_sha384 data := takeD_length 48 data 0

/-- The header and the identifier of a CodeDirectory with SHA-1 hashes and a single page. -/
def smallDirectory (length hashOffset specialSlots codeSlots codeLimit : ℕ) : List UInt8 :=
  [magicCodeDirectory, length, earliestVersion, 0, hashOffset, 44, specialSlots, codeSlots,
    codeLimit].flatMap encodeBig ++ [20, 1, 0, 0, 0, 0, 0, 0] ++ [0x61, 0]

def smallEntitlements : BlobView :=
  ⟨slotEntitlements, magicEmbeddedEntitlements,
    [magicEmbeddedEntitlements, 9].flatMap encodeBig ++ [0]⟩

def smallDEREntitlements : BlobView :=
  ⟨slotDEREntitlements, magicEmbeddedDEREntitlements,
    [magicEmbeddedDEREntitlements, 9].flatMap encodeBig ++ [0]⟩

def smallDonorSignature : List UInt8 :=
  [magicEmbeddedSignature, 240, 3, slotCodeDirectory, 36, slotEntitlements, 222,
    slotDEREntitlements, 231].flatMap encodeBig ++
  smallDirectory 186 186 7 0 0 ++
  firstBytes.sha1 smallDEREntitlements.data ++ replicate 20 0 ++
  firstBytes.sha1 smallEntitlements.data ++ replicate 80 0 ++
  smallEntitlements.data ++ smallDEREntitlements.data

def smallDonor : Donor := ⟨none, smallEntitlements, smallDEREntitlements, emptyCMSSignature⟩

/-- A `__LINKEDIT` segment, an encrypted page of four bytes and a signature of 288 bytes. -/
def encryptedFile : File where
  bytes i := (encodeWords
    ([0xFEEDFACE, 12, 9, 2, 3, 92, 0] ++
      [0x1, 56, 0x494C5F5F, 0x44454B4E, 0x5449, 0, 0, 288, 124, 288, 0, 0, 0, 0] ++
      [0x21, 20, 120, 4, 1] ++ [0x1D, 16, 124, 288] ++ [0]) ++
    [magicEmbeddedSignature, 86, 1, slotCodeDirectory, 20].flatMap encodeBig ++
    smallDirectory 66 46 0 1 124 ++
    encodeWords [0xFEEDFACE, 12, 9, 2, 3]).getD i 0
  length := 412
  length_lt := by decide

def encryptedSlice : Slice where
  encrypted := true
  hasCodeSignature := true
  hasLinkedit := true
  codeSignatureOffset := 124
  codeSignatureSize := 288
  codeSignatureCommandOffset := 104
  encryptionOffset := 120
  encryptionSize := 4
  encryptionIdentifier := 1
  linkeditCommandOffset := 28
  linkeditVMSize := 288
  linkeditFileOffset := 124
  linkeditFileSize := 288
  cpuType := 12
  cpuSubtype := 9
  fileType := 2
  size := 412
  alignExponent := 14
  is32Bit := true
  headerSize := 28
  loadCommandCount := 3
  loadCommandBytes := 92

def smallTeam : CString := ⟨[0x54], by simp⟩

theorem resigned_valid_small :
    ∃ output sourceView view,
      Resigned firstBytes encryptedFile output encryptedSlice 0 smallDonor sourceView view := by
  have htransform : (createTransformedEncryptedSignature firstBytes (fun _ => true) true
      encryptedFile encryptedSlice smallDonor smallTeam).toOption.isSome := by
    decide +kernel
  cases hbytes : createTransformedEncryptedSignature firstBytes (fun _ => true) true
      encryptedFile encryptedSlice smallDonor smallTeam with
  | error =>
    rw [hbytes] at htransform
    simp [Except.toOption] at htransform
  | ok bytes =>
    have hcopy := @copyToFD_eq (.zeros 412 (by decide))
      (targetOutput encryptedFile encryptedSlice (some ⟨124, 288, bytes⟩)) 1 0
      (show 0 + 412 ≤ 412 by decide) (rangeFits_iff.mpr (show 124 + 288 ≤ 412 by decide))
      Nat.one_ne_zero (show 0 + 412 ≤ 412 by decide)
    obtain ⟨sourceView, view, -, h⟩ := resigned_valid firstBytes (fun _ => true) true
      encryptedFile (.zeros 412 (by decide)) _ { slices := [encryptedSlice], fileSize := 412 }
      encryptedSlice (fun i => smallDonorSignature.getD i 0) 240 smallDonor smallTeam bytes 1 0
      (by decide +kernel) (mem_singleton_self _) (by decide +kernel) hbytes Nat.one_ne_zero
      (by decide) hcopy
    exact ⟨_, sourceView.blobs, view, h⟩

end LiveExec32.Signature
