import LiveExec32.Signature.Packing

/-! # The transformed CodeDirectory

It is read back before it is used, so its slots are known to match. What is left to see is that it
covers the same pages with the same hashes: the fields that say so are in bytes that nothing but the
first copy writes (`directoryBytes_of_kept`). -/

namespace LiveExec32.Signature

open MachO List Bytes Signature.Field Except

/-! ## Reading a CodeDirectory -/

/-- What holds of a CodeDirectory that was accepted. -/
structure DirectoryParsed (blob : BlobView) (p : ParsedCodeDirectory) : Prop where
  fields : p = directoryFields blob.bytes (readBigUInt32 blob.bytes version)
  magic_eq : blob.magic = magicCodeDirectory
  length_eq : readBigUInt32 blob.bytes length = blob.length
  header_le : p.headerSize ≤ blob.length
  hashSize_eq : p.hashSize = expectedHashSize p.hashType
  hashSize_ne_zero : p.hashSize ≠ 0
  special_le : p.specialSlotCount * p.hashSize ≤ p.hashOffset
  hashOffset_le : p.hashOffset ≤ blob.length
  code_eq : p.codeSlotCount * p.hashSize = blob.length - p.hashOffset
  coverage : expectedCodeSlotCount p.signingLimit p.pageSize = p.codeSlotCount
  header_le_prefixEnd : p.headerSize ≤ p.prefixEnd

variable {description : String} {p : ParsedCodeDirectory}

theorem directoryParsed_of_parse {blob : BlobView}
    (h : parseCodeDirectory blob description = .ok p) : DirectoryParsed blob p := by
  obtain ⟨hmagic, h⟩ := ensure_bind_eq_ok.mp h
  obtain ⟨hlength, h⟩ := ensure_bind_eq_ok.mp h
  obtain ⟨hheader, h⟩ := ensure_bind_eq_ok.mp h
  obtain ⟨hhash, h⟩ := ensure_bind_eq_ok.mp h
  obtain ⟨-, h⟩ := ensure_bind_eq_ok.mp h
  obtain ⟨hcoverage, h⟩ := ensure_bind_eq_ok.mp h
  obtain ⟨hvector, h⟩ := ensure_bind_eq_ok.mp h
  obtain ⟨u, hprefix, h⟩ := bind_eq_ok.mp h
  cases h
  obtain ⟨hfixed, -⟩ := ensure_bind_eq_ok.mp hprefix
  simp only [Bool.not_eq_true', Bool.or_eq_false_iff, bne_eq_false_iff_eq, beq_eq_false_iff_ne,
    decide_eq_false_iff_not, Nat.not_lt, beq_iff_eq, gt_iff_lt, ne_eq] at *
  exact ⟨rfl, hmagic.1, hlength.1.1, hheader, hhash.2, hhash.1, hvector.1.1, hvector.1.2, hvector.2,
    hcoverage, hfixed.1.1⟩

theorem codeDirectoryHeaderSize_bounds (version : ℕ) : 44 ≤ codeDirectoryHeaderSize version ∧
      (version < 0x20200 → codeDirectoryHeaderSize version ≤ 48) ∧
      (0x20200 ≤ version → 52 ≤ codeDirectoryHeaderSize version) ∧
      (0x20300 ≤ version → 64 ≤ codeDirectoryHeaderSize version) := by
  unfold codeDirectoryHeaderSize
  split_ifs <;> omega

/-! ## The layout -/

/-- What the layout says. -/
structure LayoutOf (p : ParsedCodeDirectory) (sourceLength teamLength : ℕ) (l : DirectoryLayout) :
    Prop where
  version : l.newVersion = max p.version 0x20200
  header : l.newHeaderSize = codeDirectoryHeaderSize l.newVersion
  growth : l.headerGrowth = l.newHeaderSize - p.headerSize
  slots : l.newSpecialSlotCount = max p.specialSlotCount slotDEREntitlements
  length : l.newLength = sourceLength + (l.headerGrowth + teamLength
    + (l.newSpecialSlotCount - p.specialSlotCount) * p.hashSize)
  length_le : l.newLength ≤ uint32Max
  team : l.teamOffset = p.prefixEnd + l.headerGrowth
  copied : l.copiedHashVectorOffset = l.teamOffset + teamLength
    + (l.newSpecialSlotCount - p.specialSlotCount) * p.hashSize
  hashes : l.newHashOffset = p.hashOffset + (l.headerGrowth + teamLength
    + (l.newSpecialSlotCount - p.specialSlotCount) * p.hashSize)

theorem addUInt64_eq_some {left right sum : ℕ} (h : addUInt64 left right = some sum) :
    sum = left + right := by
  unfold addUInt64 at h
  split at h
  · simp at h
  · exact (Option.some.inj h).symm

theorem layoutOf_of_directoryLayout {sourceLength teamLength : ℕ} {l : DirectoryLayout}
    (h : directoryLayout p sourceLength teamLength = some l) :
    LayoutOf p sourceLength teamLength l := by
  unfold directoryLayout at h
  simp only at h
  split at h
  · simp at h
  next totalGrowth hgrowth =>
    obtain ⟨first, hfirst, hsecond⟩ := Option.bind_eq_some_iff.mp hgrowth
    obtain rfl := addUInt64_eq_some hfirst
    obtain rfl := addUInt64_eq_some hsecond
    split at h
    · simp at h
    next hsmall =>
      cases h
      refine ⟨?_, rfl, rfl, ?_, rfl, by simp only; omega, rfl, rfl, rfl⟩
      · simp only [transformedVersion]
        split <;> omega
      · simp only [transformedSlotCount]
        split <;> omega

variable {isIOS17 : Bool} {teamIdentifier : CString} {digests : Digests}
  {replacements : List (ℕ × Option BlobView)}

section

variable {source : BlobView} {p : ParsedCodeDirectory} {l : DirectoryLayout} {teamLength : ℕ}

theorem DirectoryParsed.headerSize_eq (hp : DirectoryParsed source p) :
    p.headerSize = codeDirectoryHeaderSize p.version := by rw [hp.fields]; rfl

theorem DirectoryParsed.prefixEnd_add (hp : DirectoryParsed source p) :
    p.prefixEnd + p.specialSlotCount * p.hashSize = p.hashOffset := by
  have hle := hp.special_le
  have heq : p.prefixEnd = p.hashOffset - p.specialSlotCount * p.hashSize := by rw [hp.fields]; rfl
  omega

theorem LayoutOf.headers (hl : LayoutOf p source.length teamLength l)
    (hp : DirectoryParsed source p) :
    44 ≤ p.headerSize ∧ 52 ≤ l.newHeaderSize ∧ p.headerSize ≤ l.newHeaderSize ∧
      (0x20300 ≤ p.version → l.newHeaderSize = p.headerSize ∧ 64 ≤ p.headerSize) := by
  obtain ⟨hleast, hold, hteam, hwide⟩ := codeDirectoryHeaderSize_bounds p.version
  obtain ⟨-, -, hnew, -⟩ := codeDirectoryHeaderSize_bounds l.newVersion
  have hversion := hl.version
  have hteam' := hnew (by omega)
  rw [hp.headerSize_eq, hl.header]
  by_cases holder : p.version < 0x20200
  · exact ⟨hleast, hteam', by omega, by omega⟩
  · rw [hversion, Nat.max_eq_left (by omega)] at hteam' ⊢
    exact ⟨hleast, hteam', Nat.le_refl _, fun hwider => ⟨rfl, hwide hwider⟩⟩

/-- The prefix keeps its distance from the header. -/
theorem LayoutOf.newHeaderSize_le_teamOffset (hl : LayoutOf p source.length teamLength l)
    (hp : DirectoryParsed source p) : l.newHeaderSize ≤ l.teamOffset := by
  have hgrowth := hl.growth
  have hteam := hl.team
  have hprefix := hp.header_le_prefixEnd
  omega

theorem LayoutOf.newHashOffset_eq (hl : LayoutOf p source.length teamLength l)
    (hp : DirectoryParsed source p) :
    l.newHashOffset = l.teamOffset + teamLength + l.newSpecialSlotCount * p.hashSize := by
  have hprefix := hp.prefixEnd_add
  have hteam := hl.team
  have hslots : p.specialSlotCount ≤ l.newSpecialSlotCount := by
    have := hl.slots
    omega
  have hsum : (l.newSpecialSlotCount - p.specialSlotCount) * p.hashSize
      + p.specialSlotCount * p.hashSize = l.newSpecialSlotCount * p.hashSize := by
    rw [← Nat.add_mul, Nat.sub_add_cancel hslots]
  have hhashes := hl.hashes
  omega

/-! ## What is not written again -/

/-- The digests go behind the team identifier. -/
theorem bounds_slotWrites (hl : LayoutOf p source.length teamLength l)
    (hp : DirectoryParsed source p) (hslots : ∀ r ∈ replacements, r.1 ≤ slotDEREntitlements)
    {writes : List Bytes.Write} (h : slotWrites digests p l replacements = .ok writes) :
    ∀ w ∈ writes, l.newHeaderSize ≤ w.1 := by
  induction replacements generalizing writes with
  | nil =>
    cases h
    exact fun w hw => absurd hw not_mem_nil
  | cons replacement _ ih =>
    obtain ⟨slot, blob⟩ := replacement
    rw [forall_mem_cons] at hslots
    obtain ⟨digest, -, h⟩ := bind_eq_ok.mp h
    obtain ⟨others, hothers, h⟩ := bind_eq_ok.mp h
    cases h
    refine forall_mem_cons.mpr ⟨?_, ih hslots.2 hothers⟩
    have hcount : slot ≤ l.newSpecialSlotCount := by
      have hl' := hl.slots
      omega
    have hmul := Nat.mul_le_mul_right p.hashSize hcount
    have hhash := hl.newHashOffset_eq hp
    have hteam := hl.newHeaderSize_le_teamOffset hp
    omega

/-- The bytes of the header that only the first copy writes. -/
def Kept (p : ParsedCodeDirectory) (i : ℕ) : Prop :=
  i < 4 ∨ (28 ≤ i ∧ i < 40) ∨ (56 ≤ i ∧ i < 64 ∧ 0x20300 ≤ p.version)

variable {w : Bytes.Write}

theorem mem_relocateOffset {fieldOffset oldOffset adjustment : ℕ}
    (hw : w ∈ relocateOffset fieldOffset oldOffset adjustment) :
    w.1 = fieldOffset ∧ w.2.length = 4 := by
  unfold relocateOffset at hw
  split at hw
  · rw [mem_singleton.mp hw]
    exact ⟨rfl, rfl⟩
  · exact absurd hw not_mem_nil

/-- The fields that are stored to. -/
theorem mem_offsetPatches (hw : w ∈ offsetPatches p l isIOS17) :
    w.1 ∈ [12, 16, 24, 20, 44, 48, 92, 100] ∧ w.2.length = 4 := by
  simp only [offsetPatches, mem_append, mem_cons, not_mem_nil, or_false] at hw
  rcases hw with ((((hw | hw) | hw) | rfl) | hw) | hw
  · rcases hw with rfl | rfl | rfl <;> exact ⟨by simp, rfl⟩
  · obtain ⟨hfield, hlength⟩ := mem_relocateOffset hw
    exact ⟨by simp [hfield], hlength⟩
  · obtain ⟨hfield, hlength⟩ := mem_relocateOffset hw
    exact ⟨by simp [hfield], hlength⟩
  · exact ⟨by simp, rfl⟩
  · split at hw
    · obtain ⟨hfield, hlength⟩ := mem_relocateOffset hw
      exact ⟨by simp [hfield], hlength⟩
    · exact absurd hw not_mem_nil
  · split at hw
    · obtain ⟨hfield, hlength⟩ := mem_relocateOffset hw
      exact ⟨by simp [hfield], hlength⟩
    · exact absurd hw not_mem_nil

variable {i : ℕ}

/-- The stores to the header leave the kept bytes alone. -/
theorem misses_directoryPatches (hi : Kept p i) :
    ∀ w ∈ directoryPatches p l isIOS17, w.Misses i := by
  unfold Kept at hi
  simp only [directoryPatches, forall_mem_cons, Bytes.Write.Misses, length_encodeBig,
    Field.length, Field.version]
  refine ⟨by omega, by omega, fun w hw => ?_⟩
  obtain ⟨hfield, hlength⟩ := mem_offsetPatches hw
  simp only [mem_cons, not_mem_nil, or_false] at hfield
  omega

theorem misses_clearMainBinary {result : Bytes} (hi : i < 80) :
    ∀ w ∈ clearMainBinary l result, w.Misses i := by
  unfold clearMainBinary
  split
  · intro w hw
    rw [mem_singleton.mp hw]
    exact .inl hi
  · exact fun w hw => absurd hw not_mem_nil

variable {slots : List Bytes.Write}

/-- **The bytes that say what is covered are the source's.** -/
theorem directoryBytes_of_kept (hl : LayoutOf p source.length teamIdentifier.bytes.length l)
    (hp : DirectoryParsed source p) (hslots : ∀ w ∈ slots, l.newHeaderSize ≤ w.1) (hi : Kept p i) :
    directoryBytes isIOS17 source p l teamIdentifier slots i = source.bytes i := by
  obtain ⟨hheader, hnew, hle, hwide⟩ := hl.headers hp
  have hteam := hl.newHeaderSize_le_teamOffset hp
  have hcopied := hl.copied
  -- such a byte is in the header of the source and in front of all that follows it
  have hbefore : i < l.newHeaderSize ∧ i < p.headerSize ∧ i < 80 := by
    rcases hi with hi | hi | hi
    · omega
    · omega
    · omega
  have hcopy : ∀ w ∈
      (l.newHeaderSize, source.bytes.slice p.headerSize (p.prefixEnd - p.headerSize)) ::
      (l.teamOffset, teamIdentifier.bytes) :: (l.copiedHashVectorOffset,
        source.bytes.slice p.prefixEnd (source.length - p.prefixEnd)) ::
      directoryPatches p l isIOS17, Bytes.Write.Misses w (0 + i) := by
    rw [Nat.zero_add]
    simp only [forall_mem_cons]
    exact ⟨.inl hbefore.1, .inl (by simp only; omega), .inl (by simp only; omega),
      misses_directoryPatches hi⟩
  have hlast : ∀ w ∈ clearMainBinary l (writeAll (fun _ => 0)
      (directoryCopies source p l teamIdentifier ++ directoryPatches p l isIOS17)) ++ slots,
      w.Misses i := by
    intro w hw
    rcases mem_append.mp hw with hw | hw
    · exact misses_clearMainBinary hbefore.2.2 w hw
    · exact .inl (Nat.lt_of_lt_of_le hbefore.1 (hslots w hw))
  have hsource : i < (source.bytes.slice 0 p.headerSize).length := by
    rw [length_slice]
    exact hbefore.2.1
  rw [directoryBytes, writeAll_of_misses hlast, ← Nat.zero_add i]
  refine (@writeAll_of_last _ _ [] _ hsource hcopy _).trans ?_
  rw [getD_slice hbefore.2.1]

/-- The version reads back. -/
theorem version_directoryBytes (hl : LayoutOf p source.length teamIdentifier.bytes.length l)
    (hp : DirectoryParsed source p) (hslots : ∀ w ∈ slots, l.newHeaderSize ≤ w.1)
    (hversion : l.newVersion < 2 ^ 32) :
    readBigUInt32 (directoryBytes isIOS17 source p l teamIdentifier slots) version
      = l.newVersion := by
  obtain ⟨-, hnew, -, -⟩ := hl.headers hp
  have hbytes : ∀ k < 4, directoryBytes isIOS17 source p l teamIdentifier slots (version + k)
      = (encodeBig l.newVersion).getD (0 + k) 0 := by
    intro k hk
    have hlast : ∀ w ∈ clearMainBinary l (writeAll (fun _ => 0)
        (directoryCopies source p l teamIdentifier ++ directoryPatches p l isIOS17)) ++ slots,
        w.Misses (version + k) := by
      intro w hw
      rcases mem_append.mp hw with hw | hw
      · exact misses_clearMainBinary (by simp only [version]; omega) w hw
      · refine .inl (Nat.lt_of_lt_of_le ?_ (hslots w hw))
        simp only [version]
        omega
    have hafter : ∀ w ∈ offsetPatches p l isIOS17, w.Misses (version + k) := by
      intro w hw
      obtain ⟨hfield, hlength⟩ := mem_offsetPatches hw
      simp only [mem_cons, not_mem_nil, or_false] at hfield
      simp only [Bytes.Write.Misses, version]
      omega
    have hsplit : directoryPatches p l isIOS17 = [(Field.length, encodeBig l.newLength)] ++
        (version, encodeBig l.newVersion) :: offsetPatches p l isIOS17 := rfl
    rw [directoryBytes, writeAll_of_misses hlast, hsplit, ← append_assoc, Nat.zero_add]
    exact writeAll_of_last hk hafter _
  rw [readBigUInt32, word_eq_of_bytes hbytes, swapInt32_word_encodeBig hversion]

end

/-! ## The result -/

/-- Two CodeDirectories cover the same pages with the same kind of hashes. -/
structure SameCoverage (p q : ParsedCodeDirectory) : Prop where
  signingLimit : q.signingLimit = p.signingLimit
  codeSlotCount : q.codeSlotCount = p.codeSlotCount
  pageSize : q.pageSize = p.pageSize
  hashType : q.hashType = p.hashType
  hashSize : q.hashSize = p.hashSize

variable {source result : BlobView}

theorem sameCoverage_of_kept {q : ParsedCodeDirectory} (hp : DirectoryParsed source p)
    (hq : DirectoryParsed result q) (hversion : q.version = max p.version 0x20200)
    (hkept : ∀ i, Kept p i → result.bytes i = source.bytes i) : SameCoverage p q := by
  have hbyte : ∀ i, 28 ≤ i → i < 40 → result.bytes i = source.bytes i :=
    fun i hlow hhigh => hkept i (.inr (.inl ⟨hlow, hhigh⟩))
  have hpversion : p.version = readBigUInt32 source.bytes version := by rw [hp.fields]; rfl
  have hqversion : q.version = readBigUInt32 result.bytes version := by rw [hq.fields]; rfl
  have hlimit : signingLimitOf result.bytes q.version = signingLimitOf source.bytes p.version := by
    have hshort : readBigUInt32 result.bytes codeLimit
        = readBigUInt32 source.bytes codeLimit :=
      readBigUInt32_congr fun k hk => hbyte _ (by simp only [codeLimit]; omega)
        (by simp only [codeLimit]; omega)
    by_cases hwide : 0x20300 ≤ p.version
    · have hlong : readBigUInt64 result.bytes codeLimit64
          = readBigUInt64 source.bytes codeLimit64 :=
        readBigUInt64_congr fun k hk => hkept _ (.inr (.inr (by
          simp only [codeLimit64]
          omega)))
      simp only [signingLimitOf, hlong, hshort]
      rw [if_pos hwide, if_pos (show q.version ≥ 0x20300 by omega)]
    · simp only [signingLimitOf, hshort]
      rw [if_neg hwide, if_neg (show ¬ q.version ≥ 0x20300 by omega)]
  constructor
  · rw [hpversion, hqversion] at hlimit
    rw [hq.fields, hp.fields]
    exact hlimit
  · rw [hq.fields, hp.fields]
    exact readBigUInt32_congr fun k hk => hbyte _ (by simp only [nCodeSlots]; omega)
      (by simp only [nCodeSlots]; omega)
  · rw [hq.fields, hp.fields]
    exact congrArg UInt8.toNat (hbyte 39 (by omega) (by omega))
  · rw [hq.fields, hp.fields]
    exact congrArg UInt8.toNat (hbyte 37 (by omega) (by omega))
  · rw [hq.fields, hp.fields]
    exact congrArg UInt8.toNat (hbyte 36 (by omega) (by omega))

/-- The digest of a blob that may be absent. -/
def expectedDigest (digests : Digests) (p : ParsedCodeDirectory) : Option BlobView → List UInt8
  | some blob => digests.digest p.hashType blob.data
  | none => List.replicate p.hashSize 0

variable {u : Unit}

/-- A slot that was checked holds the digest, as far as it exists. -/
theorem specialSlot_of_slotMatches {codeDirectory : BlobView} {slot : ℕ}
    {component : Option BlobView}
    (h : slotMatches digests codeDirectory slot component description = .ok u)
    (hp : parseCodeDirectory codeDirectory description = .ok p) :
    (component.isSome → slot ≤ p.specialSlotCount) ∧ (slot ≤ p.specialSlotCount →
        specialSlot codeDirectory p slot = expectedDigest digests p component) := by
  cases component with
  | some =>
    rw [slotMatches, slotMatchesBlob, hp, ok_bind] at h
    obtain ⟨hslot, h⟩ := ensure_bind_eq_ok.mp h
    obtain ⟨expected, hexpected, h⟩ := bind_eq_ok.mp h
    obtain ⟨-, hexpected⟩ := ensure_bind_eq_ok.mp hexpected
    obtain ⟨-, hexpected⟩ := ensure_bind_eq_ok.mp hexpected
    cases hexpected
    simp only [Bool.not_eq_true', Bool.or_eq_false_iff, decide_eq_false_iff_not, Nat.not_lt,
      gt_iff_lt] at hslot
    exact ⟨fun _ => hslot.2, fun _ => beq_iff_eq.mp (ensure_eq_ok.mp h)⟩
  | none =>
    rw [slotMatches, slotIsEmpty, hp, ok_bind] at h
    obtain ⟨-, h⟩ := ensure_bind_eq_ok.mp h
    refine ⟨nofun, fun hslot => ?_⟩
    rw [if_neg (by omega), ensure_eq_ok, all_eq_true] at h
    refine eq_replicate_iff.mpr ⟨length_slice _ _ _, fun b hb => ?_⟩
    exact beq_iff_eq.mp (h b hb)

theorem slotMatches_of_checkSlots (h : checkSlots digests result replacements = .ok u) :
    ∀ r ∈ replacements,
      slotMatches digests result r.1 r.2 "transformed encrypted ARM slice" = .ok () := by
  induction replacements with
  | nil => exact fun r hr => absurd hr not_mem_nil
  | cons r _ ih =>
    obtain ⟨u, hfirst, h⟩ := bind_eq_ok.mp h
    exact forall_mem_cons.mpr ⟨hfirst, ih h⟩

variable {donor : Donor}

/-- The slots of the donor end with that of the DER entitlements. -/
theorem slot_le_of_mem_replacements {r : ℕ × Option BlobView} (hr : r ∈ donor.replacements) :
    r.1 ≤ slotDEREntitlements := by
  simp only [Donor.replacements, mem_cons, not_mem_nil, or_false] at hr
  rcases hr with rfl | rfl | rfl
  · exact Nat.le_add_right 2 5
  · exact Nat.le_add_right 5 2
  · exact Nat.le_refl 7

/-- What holds of a transformed CodeDirectory. -/
structure Transformed (digests : Digests) (source : BlobView) (donor : Donor)
    (codeSignatureOffset : ℕ) (data : List UInt8) (p q : ParsedCodeDirectory) : Prop where
  source_parsed : parseCodeDirectory source "encrypted ARM slice" = .ok p
  parsed : parseCodeDirectory ⟨source.type, magicCodeDirectory, data⟩
    "transformed encrypted ARM slice" = .ok q
  limit_le : p.signingLimit ≤ codeSignatureOffset
  coverage : SameCoverage p q
  codeSlots : source.bytes.slice p.hashOffset (p.codeSlotCount * p.hashSize)
    = Bytes.slice (fun i => data.getD i 0) q.hashOffset (p.codeSlotCount * p.hashSize)
  magic : readBigUInt32 (fun i => data.getD i 0) 0 = readBigUInt32 source.bytes 0
  slots : ∀ r ∈ donor.replacements, r.1 ≤ q.specialSlotCount ∧
    specialSlot ⟨source.type, magicCodeDirectory, data⟩ q r.1 = expectedDigest digests q r.2

/-- **A transformed CodeDirectory covers what its source covered, and the donor's blobs.** -/
theorem transformed_of_create {heap : ℕ → Bool} {sliceSize codeSignatureOffset : ℕ}
    {data : List UInt8}
    (h : createTransformedCodeDirectory digests heap isIOS17 source donor teamIdentifier sliceSize
      codeSignatureOffset = .ok data) :
    ∃ p q, Transformed digests source donor codeSignatureOffset data p q := by
  obtain ⟨p, hparse, h⟩ := bind_eq_ok.mp h
  obtain ⟨hlimit, h⟩ := ensure_bind_eq_ok.mp h
  obtain ⟨-, h⟩ := ensure_bind_eq_ok.mp h
  have hp := directoryParsed_of_parse hparse
  split at h
  · simp at h
  next l hlayout =>
    have hl := layoutOf_of_directoryLayout hlayout
    obtain ⟨-, h⟩ := ensure_bind_eq_ok.mp h
    obtain ⟨slots, hslots, h⟩ := bind_eq_ok.mp h
    obtain ⟨u, hverify, h⟩ := bind_eq_ok.mp h
    obtain ⟨u, hcheck, h⟩ := bind_eq_ok.mp h
    cases h
    obtain ⟨q, hq, hverify⟩ := bind_eq_ok.mp hverify
    have hqparsed := directoryParsed_of_parse hq
    have hbehind := bounds_slotWrites hl hp (fun _ => slot_le_of_mem_replacements) hslots
    obtain ⟨hheader, -, -, hwide⟩ := hl.headers hp
    -- the kept bytes lie in the result
    have hresult : ∀ i < l.newLength, (BlobView.mk source.type magicCodeDirectory
        ((directoryBytes isIOS17 source p l teamIdentifier slots).slice 0 l.newLength)).bytes i
          = directoryBytes isIOS17 source p l teamIdentifier slots i := by
      intro i hi
      rw [BlobView.bytes, getD_slice hi, Nat.zero_add]
    have hlength : p.headerSize ≤ l.newLength := by
      have hle := hp.header_le
      have hnew := hl.length
      omega
    have hkept : ∀ i, Kept p i → (BlobView.mk source.type magicCodeDirectory
        ((directoryBytes isIOS17 source p l teamIdentifier slots).slice 0 l.newLength)).bytes i
          = source.bytes i := by
      intro i hi
      rw [hresult i, directoryBytes_of_kept hl hp hbehind hi]
      rcases hi with hi | hi | hi
      · omega
      · omega
      · omega
    have hversion : q.version = max p.version 0x20200 := by
      have hsmall : l.newVersion < 2 ^ 32 := by
        have hread := readBigUInt32_lt source.bytes version
        have hpversion : p.version = readBigUInt32 source.bytes version := by
          rw [hp.fields]; rfl
        rw [hl.version, hpversion]
        omega
      rw [← hl.version, ← version_directoryBytes hl hp hbehind hsmall, hqparsed.fields]
      refine readBigUInt32_congr fun k hk => hresult _ ?_
      simp only [version]
      omega
    have hslotsMatch := slotMatches_of_checkSlots hcheck
    simp only [Bool.not_eq_true', Bool.or_eq_false_iff, decide_eq_false_iff_not, Nat.not_lt,
      gt_iff_lt, bne_eq_false_iff_eq, ensure_eq_ok] at hlimit hverify
    -- the last slot is covered, and so are the others
    have hder : (slotDEREntitlements, some donor.derEntitlements) ∈ donor.replacements :=
      mem_cons_of_mem _ (mem_cons_of_mem _ (mem_singleton_self _))
    have hlast := (specialSlot_of_slotMatches (hslotsMatch _ hder) hq).1 rfl
    refine ⟨p, q, hparse, hq, hlimit.1.2, sameCoverage_of_kept hp hqparsed hversion hkept,
      hverify.2, ?_, ?_⟩
    · exact readBigUInt32_congr fun k hk => hkept _ (.inl (by omega))
    · intro r hr
      have hcovered := Nat.le_trans (slot_le_of_mem_replacements hr) hlast
      exact ⟨hcovered, (specialSlot_of_slotMatches (hslotsMatch r hr) hq).2 hcovered⟩

end LiveExec32.Signature
