import LiveExec32.Signature.Format
import Mathlib.Data.List.Sort

/-! # Re-signing an encrypted slice

The pages of an encrypted slice cannot be changed, so only the signature is.
`LC32CreateTransformedCodeDirectory` gives a CodeDirectory the team identifier and the hashes of the
donor's blobs, `LC32CreateTransformedEncryptedSignature` packs the blobs into the allocation that
the slice already has. A buffer is filled by `memcpy` and by stores of single numbers; each of them
is a `Bytes.Write`. -/

namespace LiveExec32.Signature

open MachO Bytes Signature.Field

/-- The bytes of a 64-bit number, highest first. -/
def encodeBig64 (value : ℕ) : List UInt8 :=
  encodeBig (value / 2 ^ 32) ++ encodeBig (value % 2 ^ 32)

/-- A string of C: no character is the terminator. -/
structure CString where
  chars : List UInt8
  ne_zero : ∀ c ∈ chars, c ≠ 0

/-- The string with its terminator. -/
def CString.bytes (s : CString) : List UInt8 := s.chars ++ [0]

/-- `LC32_MAX_SIGNING_STRING_SIZE`. -/
abbrev maxSigningStringSize : ℕ := 4096

/-- `LC32_CS_ADHOC`. -/
abbrev csAdhoc : ℕ := 0x2

/-- `LC32_CS_EXECSEG_MAIN_BINARY`. -/
abbrev execSegMainBinary : ℕ := 0x1

/-- `LC32TransformedCodeDirectoryFlags`; from iOS 17 on a team identifier takes the place of the
    flag. -/
def transformedFlags (isIOS17 : Bool) (flags : ℕ) : ℕ :=
  if isIOS17 then flags &&& (2 ^ 32 - 1 - csAdhoc) else flags ||| csAdhoc

/-! ## One CodeDirectory -/

/-- Where the parts of the transformed CodeDirectory go. -/
structure DirectoryLayout where
  newVersion : ℕ
  newHeaderSize : ℕ
  headerGrowth : ℕ
  newSpecialSlotCount : ℕ
  newLength : ℕ
  teamOffset : ℕ
  copiedHashVectorOffset : ℕ
  newHashOffset : ℕ

/-- The least version with a team identifier. -/
def transformedVersion (version : ℕ) : ℕ := if version < 0x20200 then 0x20200 else version

/-- Slots up to the last that the donor fills. -/
def transformedSlotCount (specialSlotCount : ℕ) : ℕ :=
  if specialSlotCount < slotDEREntitlements then slotDEREntitlements else specialSlotCount

/-- The layout; it fails if the length leaves 32 bits. -/
def directoryLayout (p : ParsedCodeDirectory) (sourceLength teamIdentifierLength : ℕ) :
    Option DirectoryLayout :=
  let newVersion := transformedVersion p.version
  let newHeaderSize := codeDirectoryHeaderSize newVersion
  let headerGrowth := newHeaderSize - p.headerSize
  let newSpecialSlotCount := transformedSlotCount p.specialSlotCount
  let specialSlotGrowth := (newSpecialSlotCount - p.specialSlotCount) * p.hashSize
  match (addUInt64 headerGrowth teamIdentifierLength).bind (addUInt64 · specialSlotGrowth) with
  | none => none
  | some totalGrowth =>
    if totalGrowth > uint32Max ∨ sourceLength > uint32Max - totalGrowth then none
    else
      let teamOffset := p.prefixEnd + headerGrowth
      some
        { newVersion := newVersion
          newHeaderSize := newHeaderSize
          headerGrowth := headerGrowth
          newSpecialSlotCount := newSpecialSlotCount
          newLength := sourceLength + totalGrowth
          teamOffset := teamOffset
          copiedHashVectorOffset := teamOffset + teamIdentifierLength + specialSlotGrowth
          newHashOffset := p.hashOffset + totalGrowth }

section

variable (source : BlobView) (p : ParsedCodeDirectory) (l : DirectoryLayout)

/-- The four copies. -/
def directoryCopies (teamIdentifier : CString) : List Bytes.Write :=
  [(0, source.bytes.slice 0 p.headerSize),
    (l.newHeaderSize, source.bytes.slice p.headerSize (p.prefixEnd - p.headerSize)),
    (l.teamOffset, teamIdentifier.bytes),
    (l.copiedHashVectorOffset, source.bytes.slice p.prefixEnd (source.length - p.prefixEnd))]

/-- `LC32RelocateCodeDirectoryOffset`. -/
def relocateOffset (fieldOffset oldOffset adjustment : ℕ) : List Bytes.Write :=
  if oldOffset ≠ 0 then [(fieldOffset, encodeBig (oldOffset + adjustment))] else []

/-- The stores to the header behind the version. -/
def offsetPatches (isIOS17 : Bool) : List Bytes.Write :=
  [(flags, encodeBig (transformedFlags isIOS17 p.flags)),
    (hashOffset, encodeBig l.newHashOffset),
    (nSpecialSlots, encodeBig l.newSpecialSlotCount)] ++
  relocateOffset identOffset p.identifierOffset l.headerGrowth ++
  relocateOffset scatterOffset p.scatterOffset l.headerGrowth ++
  [(teamOffset, encodeBig l.teamOffset)] ++
  (if l.newVersion ≥ 0x20500 then
    relocateOffset preEncryptOffset p.preEncryptOffset l.headerGrowth else []) ++
  (if l.newVersion ≥ 0x20600 then
    relocateOffset linkageOffset p.linkageOffset l.headerGrowth else [])

/-- The stores to the header. -/
def directoryPatches (isIOS17 : Bool) : List Bytes.Write :=
  (length, encodeBig l.newLength) :: (version, encodeBig l.newVersion) ::
    offsetPatches p l isIOS17

/-- The last store to the header depends on what was copied. -/
def clearMainBinary (result : Bytes) : List Bytes.Write :=
  if l.newVersion ≥ 0x20400 then
    [(execSegFlags, encodeBig64
      (readBigUInt64 result execSegFlags &&& (2 ^ 64 - 1 - execSegMainBinary)))]
  else []

/-- The slots that the donor's blobs belong to. -/
def Donor.replacements (donor : Donor) : List (ℕ × Option BlobView) :=
  [(slotRequirements, donor.requirements), (slotEntitlements, some donor.entitlements),
    (slotDEREntitlements, some donor.derEntitlements)]

end

section

variable (digests : Digests) (heap : ℕ → Bool) (isIOS17 : Bool)

/-- What goes into the slot of a blob that may be absent. -/
def slotDigest (p : ParsedCodeDirectory) : Option BlobView → Except String (List UInt8)
  | none => .ok (List.replicate p.hashSize 0)
  | some blob => hashCodeSignatureBlob digests blob p.hashType p.hashSize

/-- The digests of the donor's blobs, at their slots. -/
def slotWrites (p : ParsedCodeDirectory) (l : DirectoryLayout) :
    List (ℕ × Option BlobView) → Except String (List Bytes.Write)
  | [] => .ok []
  | (slot, blob) :: rest => do
    let digest ← slotDigest digests p blob
    let others ← slotWrites p l rest
    return (l.newHashOffset - slot * p.hashSize, digest) :: others

/-- The slots are read back. -/
def checkSlots (result : BlobView) : List (ℕ × Option BlobView) → Except String Unit
  | [] => .ok ()
  | (slot, blob) :: rest => do
    slotMatches digests result slot blob "transformed encrypted ARM slice"
    checkSlots result rest

/-- The bytes of the transformed CodeDirectory, before they are checked. -/
def directoryBytes (source : BlobView) (p : ParsedCodeDirectory) (l : DirectoryLayout)
    (teamIdentifier : CString) (slots : List Bytes.Write) : Bytes :=
  let copied := writeAll (fun _ => 0)
    (directoryCopies source p l teamIdentifier ++ directoryPatches p l isIOS17)
  copied.writeAll (clearMainBinary l copied ++ slots)

/-- The transformed CodeDirectory is read back and compared with the source. -/
def verifyDirectory (source result : BlobView) (p : ParsedCodeDirectory) (l : DirectoryLayout)
    (teamIdentifier : CString) : Except String Unit := do
  let q ← parseCodeDirectory result "transformed encrypted ARM slice"
  ensure (!(q.version < 0x20200 || q.flags != transformedFlags isIOS17 p.flags ||
      q.teamOffset != l.teamOffset ||
      result.bytes.slice q.teamOffset teamIdentifier.bytes.length != teamIdentifier.bytes ||
      (q.version ≥ 0x20400 &&
        readBigUInt64 result.bytes execSegFlags &&& execSegMainBinary != 0) ||
      source.bytes.slice p.hashOffset (p.codeSlotCount * p.hashSize) !=
        result.bytes.slice q.hashOffset (p.codeSlotCount * p.hashSize)))
    "transformed ARM CodeDirectory failed verification"

/-- `LC32CreateTransformedCodeDirectory`. -/
def createTransformedCodeDirectory (source : BlobView) (donor : Donor) (teamIdentifier : CString)
    (sliceSize codeSignatureOffset : ℕ) : Except String (List UInt8) := do
  let p ← parseCodeDirectory source "encrypted ARM slice"
  -- scatter vectors can map a slot to any offset, so they are rejected
  ensure (!(p.scatterOffset != 0 || p.signingLimit > codeSignatureOffset ||
      p.signingLimit > sliceSize))
    ("encrypted ARM CodeDirectory hashes the code-signature allocation " ++
      "or uses scattered code slots")
  ensure (!(teamIdentifier.bytes.length < 2 || teamIdentifier.bytes.length > maxSigningStringSize))
    "signing Team ID is empty or too long"
  match directoryLayout p source.length teamIdentifier.bytes.length with
  | none => .error "encrypted ARM CodeDirectory is too large to transform"
  | some l =>
    ensure (heap l.newLength) "could not allocate the transformed ARM CodeDirectory"
    let slots ← slotWrites digests p l donor.replacements
    let data := (directoryBytes isIOS17 source p l teamIdentifier slots).slice 0 l.newLength
    let result : BlobView := ⟨source.type, magicCodeDirectory, data⟩
    verifyDirectory isIOS17 source result p l teamIdentifier
    checkSlots digests result donor.replacements
    return data

/-! ## The signature -/

/-- `LC32MutableCodeSignatureBlob`. -/
structure MutableBlob where
  type : ℕ
  data : List UInt8
  deriving DecidableEq, Repr

/-- `LC32AppendMutableCodeSignatureBlob`. -/
def appendBlob (blobs : List MutableBlob) (type : ℕ) (data : List UInt8) :
    Except String (List MutableBlob) := do
  ensure (blobs.length < maxBlobs) "transformed ARM code signature has too many blobs"
  return blobs ++ [⟨type, data⟩]

/-- The types that the donor replaces. -/
def isReplaced (type : ℕ) : Bool :=
  type == slotRequirements || type == slotEntitlements || type == slotDEREntitlements ||
    type == slotCMSSignature

/-- The loop over the blobs of the source. -/
def appendSourceBlobs (slice : Slice) (donor : Donor) (teamIdentifier : CString) :
    List BlobView → List MutableBlob → Except String (List MutableBlob)
  | [], blobs => .ok blobs
  | source :: rest, blobs =>
    if isCodeDirectory source.type then do
      let data ← createTransformedCodeDirectory digests heap isIOS17 source donor teamIdentifier
        slice.size slice.codeSignatureOffset
      let blobs ← appendBlob blobs source.type data
      appendSourceBlobs slice donor teamIdentifier rest blobs
    else if !isReplaced source.type then do
      let blobs ← appendBlob blobs source.type source.data
      appendSourceBlobs slice donor teamIdentifier rest blobs
    else appendSourceBlobs slice donor teamIdentifier rest blobs

/-- The blobs of the donor; there may be no requirements. -/
def Donor.blobs (donor : Donor) : List BlobView :=
  donor.requirements.toList ++ [donor.entitlements, donor.derEntitlements, donor.cmsSignature]

/-- The loop over them. -/
def appendDonorBlobs : List BlobView → List MutableBlob → Except String (List MutableBlob)
  | [], blobs => .ok blobs
  | blob :: rest, blobs => do
    let blobs ← appendBlob blobs blob.type blob.data
    appendDonorBlobs rest blobs

/-- `qsort` by type; blobs of one type are rejected when the signature is read back. -/
def sortBlobs (blobs : List MutableBlob) : List MutableBlob :=
  blobs.insertionSort fun left right => left.type ≤ right.type

/-- The first byte behind the index. -/
def packedHeaderSize (count : ℕ) : ℕ := 12 + count * 8

/-- The length of the packed signature. -/
def packedLength (length : ℕ) : List MutableBlob → Option ℕ
  | [] => some length
  | blob :: rest => (addUInt64 length blob.data.length).bind (packedLength · rest)

/-- The stores of the packing loop: the entry of the index, then the blob. -/
def packBlobs (index blobOffset : ℕ) : List MutableBlob → List Bytes.Write
  | [] => []
  | blob :: rest =>
    (12 + index * 8, encodeBig blob.type) ::
    (12 + index * 8 + 4, encodeBig blobOffset) ::
    (blobOffset, blob.data) ::
      packBlobs (index + 1) ((blobOffset + blob.data.length) % 2 ^ 32) rest

/-- The packed signature in a zeroed allocation. -/
def packSignature (blobs : List MutableBlob) (length : ℕ) : Bytes :=
  writeAll (fun _ => 0)
    ((0, encodeBig magicEmbeddedSignature) :: (4, encodeBig length) ::
      (8, encodeBig blobs.length) ::
        packBlobs 0 (packedHeaderSize blobs.length % 2 ^ 32) blobs)

/-- The checks in front of the transformation. -/
def isTransformable (slice : Slice) : Bool :=
  !(!slice.encrypted || !slice.is32Bit || slice.cpuType != cpuTypeARM || !slice.hasCodeSignature ||
    slice.codeSignatureSize < 12 || slice.codeSignatureSize > maxSignatureSize ||
    !rangeFits slice.codeSignatureOffset slice.codeSignatureSize slice.size)

/-- The signature of the source. -/
def readSignature (target : File) (slice : Slice) : Except String Bytes := do
  ensure (heap slice.codeSignatureSize)
    "could not read encrypted ARM code signature: out of memory"
  match addUInt64 slice.offset slice.codeSignatureOffset with
  | none => .error "could not read encrypted ARM code signature"
  | some offset =>
    (readAt target slice.codeSignatureSize offset).mapError fun e =>
      s!"could not read encrypted ARM code signature: {e}"

/-- `LC32CreateTransformedEncryptedSignature`. -/
def createTransformedEncryptedSignature (target : File) (slice : Slice) (donor : Donor)
    (teamIdentifier : CString) : Except String Bytes := do
  ensure (isTransformable slice) "encrypted ARM slice has no usable embedded code signature"
  let signature ← readSignature heap target slice
  let view ← parseCodeSignature signature "encrypted ARM slice" slice.codeSignatureSize
  let blobs ← appendSourceBlobs digests heap isIOS17 slice donor teamIdentifier view.blobs []
  ensure (view.blobs.any (isCodeDirectory ·.type))
    "encrypted ARM signature contains no CodeDirectory"
  let blobs ← appendDonorBlobs donor.blobs blobs
  let blobs := sortBlobs blobs
  match packedLength (packedHeaderSize blobs.length) blobs with
  | none => .error "transformed ARM code-signature length overflowed"
  | some length =>
    ensure (!(length > slice.codeSignatureSize || length > uint32Max))
      "encrypted ARM code-signature allocation is too small for modern entitlements"
    ensure (heap slice.codeSignatureSize)
      "could not allocate the transformed ARM code signature"
    let transformed := packSignature blobs length
    let _ ← parseCodeSignature transformed "transformed encrypted ARM slice"
      slice.codeSignatureSize
    return transformed

end

end LiveExec32.Signature
