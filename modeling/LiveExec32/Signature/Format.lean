import LiveExec32.MachO.Output

/-! # Embedded code signatures

A signature is a SuperBlob: an index of typed blobs, then the blobs, all numbers in network order.
Some of the blobs are CodeDirectories, which hold the hashes of the pages of the slice (the code
slots) and, before them and counted backwards, the hashes of the other blobs (the special slots).
This module is the reader of both, and the donor, which is what the signed shim lends to the
target's slices.

The hash functions are parameters. -/

namespace LiveExec32.Signature

open MachO

/-! ## Numbers in network order -/

def readBigUInt32 (m : Bytes) (offset : ℕ) : ℕ := swapInt32 (m.word offset)

def readBigUInt64 (m : Bytes) (offset : ℕ) : ℕ := swapInt64 (m.doubleword offset)

/-! ## The SuperBlob -/

/-- `LC32CodeSignatureBlobView`; the bytes are copied out of the signature. -/
structure BlobView where
  type : ℕ
  magic : ℕ
  data : List UInt8
  deriving DecidableEq, Repr

def BlobView.length (b : BlobView) : ℕ := b.data.length

def BlobView.bytes (b : BlobView) : Bytes := fun i => b.data.getD i 0

/-- `LC32CodeSignatureView`; the list holds the first `count` blobs. -/
structure SignatureView where
  length : ℕ
  blobs : List BlobView
  deriving DecidableEq, Repr

abbrev magicCodeDirectory : ℕ := 0xFADE0C02

abbrev magicEmbeddedSignature : ℕ := 0xFADE0CC0

abbrev magicEmbeddedEntitlements : ℕ := 0xFADE7171

abbrev magicEmbeddedDEREntitlements : ℕ := 0xFADE7172

abbrev magicRequirements : ℕ := 0xFADE0C01

abbrev magicBlobWrapper : ℕ := 0xFADE0B01

abbrev slotCodeDirectory : ℕ := 0

abbrev slotRequirements : ℕ := 2

abbrev slotEntitlements : ℕ := 5

abbrev slotDEREntitlements : ℕ := 7

abbrev slotAlternateDirectories : ℕ := 0x1000

abbrev slotAlternateDirectoryLimit : ℕ := 0x1005

abbrev slotCMSSignature : ℕ := 0x10000

/-- `LC32_MAX_CODE_SIGNATURE_BLOBS`. -/
abbrev maxBlobs : ℕ := 64

/-- `LC32_MAX_CODE_SIGNATURE_SIZE`. -/
abbrev maxSignatureSize : ℕ := 16 * 1024 * 1024

/-- `LC32CodeSignatureTypeIsCodeDirectory`. -/
def isCodeDirectory (type : ℕ) : Bool :=
  type == slotCodeDirectory ||
    (type ≥ slotAlternateDirectories && type < slotAlternateDirectoryLimit)

section

variable (signature : Bytes) (description : String)

/-- A blob against the blobs before it; each comes with its offset. -/
def checkBlobs (type offset blobLength : ℕ) : List (ℕ × BlobView) → Except String Unit
  | [] => .ok ()
  | (otherOffset, other) :: rest => do
    ensure (type != other.type)
      s!"{description} code signature contains duplicate blob type {type}"
    ensure (!(offset < otherOffset + other.length && otherOffset < offset + blobLength))
      s!"{description} code-signature blobs overlap"
    checkBlobs type offset blobLength rest

/-- One turn of the loop over the index. -/
def parseBlob (length indexEnd index : ℕ) (previous : List (ℕ × BlobView)) :
    Except String (ℕ × BlobView) := do
  let type := readBigUInt32 signature (12 + index * 8)
  let offset := readBigUInt32 signature (12 + index * 8 + 4)
  ensure (!(offset < indexEnd || !rangeFits offset 8 length))
    s!"{description} code-signature blob {index} has an invalid offset"
  let blobLength := readBigUInt32 signature (offset + 4)
  ensure (!(blobLength < 8 || !rangeFits offset blobLength length))
    s!"{description} code-signature blob {index} has an invalid length"
  checkBlobs description type offset blobLength previous
  return (offset, ⟨type, readBigUInt32 signature offset, signature.slice offset blobLength⟩)

/-- The loop over the index; the blobs before stand in order. -/
def parseBlobs (length indexEnd : ℕ) :
    (remaining : ℕ) → List (ℕ × BlobView) → Except String (List (ℕ × BlobView))
  | 0, previous => .ok previous
  | remaining + 1, previous => do
    let blob ← parseBlob signature description length indexEnd previous.length previous
    parseBlobs length indexEnd remaining (previous ++ [blob])

/-- `LC32ParseCodeSignature`. -/
def parseCodeSignature (capacity : ℕ) : Except String SignatureView := do
  ensure (12 ≤ capacity) s!"{description} code signature is truncated"
  let magic := readBigUInt32 signature 0
  let length := readBigUInt32 signature 4
  let count := readBigUInt32 signature 8
  let indexEnd := addUInt64 12 (count * 8)
  ensure (magic == magicEmbeddedSignature && 12 ≤ length && length ≤ capacity && count != 0 &&
      count ≤ maxBlobs && indexEnd.any (· ≤ length))
    s!"{description} has a malformed embedded code signature"
  let blobs ← parseBlobs signature description length (indexEnd.getD 0) count []
  return ⟨length, blobs.map Prod.snd⟩

end

/-- `LC32FindCodeSignatureBlob`. -/
def SignatureView.find (view : SignatureView) (type : ℕ) : Option BlobView :=
  view.blobs.find? (·.type == type)

/-! ## CodeDirectories -/

/-! `offsetof(CS_CodeDirectory, …)` -/

namespace Field

@[simp] abbrev length : ℕ := 4

@[simp] abbrev version : ℕ := 8

@[simp] abbrev flags : ℕ := 12

@[simp] abbrev hashOffset : ℕ := 16

@[simp] abbrev identOffset : ℕ := 20

@[simp] abbrev nSpecialSlots : ℕ := 24

@[simp] abbrev nCodeSlots : ℕ := 28

@[simp] abbrev codeLimit : ℕ := 32

@[simp] abbrev hashSize : ℕ := 36

@[simp] abbrev hashType : ℕ := 37

@[simp] abbrev pageSize : ℕ := 39

@[simp] abbrev spare2 : ℕ := 40

@[simp] abbrev scatterOffset : ℕ := 44

@[simp] abbrev teamOffset : ℕ := 48

@[simp] abbrev spare3 : ℕ := 52

@[simp] abbrev codeLimit64 : ℕ := 56

@[simp] abbrev execSegFlags : ℕ := 80

@[simp] abbrev preEncryptOffset : ℕ := 92

@[simp] abbrev linkageOffset : ℕ := 100

@[simp] abbrev linkageSize : ℕ := 104

end Field

/-- `LC32CodeDirectoryHeaderSize`. -/
def codeDirectoryHeaderSize (version : ℕ) : ℕ :=
  if version ≥ 0x20600 then 108
  else if version ≥ 0x20500 then 96
  else if version ≥ 0x20400 then 88
  else if version ≥ 0x20300 then 64
  else if version ≥ 0x20200 then 52
  else if version ≥ 0x20100 then 48
  else 44

/-- `LC32_CS_EARLIEST_CODE_DIRECTORY_VERSION`. -/
abbrev earliestVersion : ℕ := 0x20001

abbrev hashSHA1 : ℕ := 1

abbrev hashSHA256 : ℕ := 2

abbrev hashSHA256Truncated : ℕ := 3

abbrev hashSHA384 : ℕ := 4

/-- `LC32ExpectedCodeDirectoryHashSize`. -/
def expectedHashSize (hashType : ℕ) : ℕ :=
  if hashType = hashSHA1 then 20
  else if hashType = hashSHA256 then 32
  else if hashType = hashSHA256Truncated then 20
  else if hashType = hashSHA384 then 48
  else 0

/-- `LC32ParsedCodeDirectory`. -/
structure ParsedCodeDirectory where
  version : ℕ
  headerSize : ℕ
  flags : ℕ
  signingLimit : ℕ
  hashOffset : ℕ
  identifierOffset : ℕ
  specialSlotCount : ℕ
  codeSlotCount : ℕ
  prefixEnd : ℕ
  scatterOffset : ℕ
  teamOffset : ℕ
  preEncryptOffset : ℕ
  linkageOffset : ℕ
  linkageSize : ℕ
  hashSize : ℕ
  hashType : ℕ
  pageSize : ℕ
  deriving DecidableEq, Repr

section

variable (bytes : Bytes) (description : String)

/-- The limit of the signed range; later versions have a wider field for it. -/
def signingLimitOf (version : ℕ) : ℕ :=
  let signingLimit64 :=
    if version ≥ 0x20300 then readBigUInt64 bytes Field.codeLimit64 else 0
  if signingLimit64 ≠ 0 then signingLimit64 else readBigUInt32 bytes Field.codeLimit

/-- How many code slots cover the signed range. -/
def expectedCodeSlotCount (signingLimit pageSize : ℕ) : ℕ :=
  if pageSize ≠ 0 then (signingLimit - 1) / 2 ^ pageSize + 1
  else if signingLimit ≠ 0 then 1 else 0

/-- A string with at least one character starts at `offset` and ends before `prefixEnd`. -/
def hasName (headerSize prefixEnd offset : ℕ) : Bool :=
  !(offset < headerSize || offset ≥ prefixEnd ||
    (bytes.findZero offset (prefixEnd - offset)).isNone || bytes offset == 0)

/-- The search for the end of the scatter vector; `prefixEnd` rounds are enough. -/
def scatterIsTerminated (prefixEnd : ℕ) : (rounds offset : ℕ) → Bool
  | 0, _ => false
  | rounds + 1, offset =>
    if rangeFits offset 24 prefixEnd then
      readBigUInt32 bytes offset == 0 || scatterIsTerminated prefixEnd rounds (offset + 24)
    else false

/-- A field that the version has, and 0 otherwise. -/
def versioned (version least field : ℕ) : ℕ :=
  if version ≥ least then readBigUInt32 bytes field else 0

/-- The checks of what stands between the header and the hashes. -/
def checkPrefix (p : ParsedCodeDirectory) : Except String Unit := do
  ensure (!(p.prefixEnd < p.headerSize || readBigUInt32 bytes Field.spare2 != 0 ||
      (p.version ≥ 0x20300 && readBigUInt32 bytes Field.spare3 != 0)))
    s!"{description} CodeDirectory has malformed fixed fields"
  ensure (hasName bytes p.headerSize p.prefixEnd p.identifierOffset)
    s!"{description} CodeDirectory has an invalid identifier"
  ensure (p.scatterOffset == 0 ||
      !(p.scatterOffset < p.headerSize || p.scatterOffset ≥ p.prefixEnd))
    s!"{description} CodeDirectory has an invalid scatter offset"
  ensure (p.scatterOffset == 0 ||
      scatterIsTerminated bytes p.prefixEnd p.prefixEnd p.scatterOffset)
    s!"{description} CodeDirectory has an unterminated scatter vector"
  ensure (p.teamOffset == 0 || hasName bytes p.headerSize p.prefixEnd p.teamOffset)
    s!"{description} CodeDirectory has an invalid team identifier"
  ensure (p.preEncryptOffset == 0 ||
      !(p.preEncryptOffset < p.headerSize ||
        !rangeFits p.preEncryptOffset (p.codeSlotCount * p.hashSize) p.prefixEnd))
    s!"{description} CodeDirectory has an invalid pre-encrypt hash vector"
  ensure (!((p.linkageOffset == 0) != (p.linkageSize == 0) ||
      (p.linkageOffset != 0 && (p.linkageOffset < p.headerSize ||
        !rangeFits p.linkageOffset p.linkageSize p.prefixEnd))))
    s!"{description} CodeDirectory has invalid linkage data"

end

/-- The fields of a CodeDirectory of this version. -/
def directoryFields (bytes : Bytes) (version : ℕ) : ParsedCodeDirectory where
  version := version
  headerSize := codeDirectoryHeaderSize version
  flags := readBigUInt32 bytes Field.flags
  signingLimit := signingLimitOf bytes version
  hashOffset := readBigUInt32 bytes Field.hashOffset
  identifierOffset := readBigUInt32 bytes Field.identOffset
  specialSlotCount := readBigUInt32 bytes Field.nSpecialSlots
  codeSlotCount := readBigUInt32 bytes Field.nCodeSlots
  prefixEnd := readBigUInt32 bytes Field.hashOffset
    - readBigUInt32 bytes Field.nSpecialSlots * (bytes Field.hashSize).toNat
  scatterOffset := versioned bytes version 0x20100 Field.scatterOffset
  teamOffset := versioned bytes version 0x20200 Field.teamOffset
  preEncryptOffset := versioned bytes version 0x20500 Field.preEncryptOffset
  linkageOffset := versioned bytes version 0x20600 Field.linkageOffset
  linkageSize := versioned bytes version 0x20600 Field.linkageSize
  hashSize := (bytes Field.hashSize).toNat
  hashType := (bytes Field.hashType).toNat
  pageSize := (bytes Field.pageSize).toNat

/-- `LC32ParseCodeDirectory`. -/
def parseCodeDirectory (blob : BlobView) (description : String) :
    Except String ParsedCodeDirectory := do
  let bytes := blob.bytes
  ensure (!(blob.magic != magicCodeDirectory || blob.length < 44))
    s!"{description} contains a malformed CodeDirectory"
  let version := readBigUInt32 bytes Field.version
  ensure (!(readBigUInt32 bytes Field.length != blob.length || version < earliestVersion ||
      version > 0x20600))
    s!"{description} CodeDirectory uses an unsupported version or length"
  let p := directoryFields bytes version
  ensure (!(blob.length < p.headerSize)) s!"{description} contains a truncated CodeDirectory"
  ensure (!(p.hashSize == 0 || p.hashSize != expectedHashSize p.hashType))
    s!"{description} CodeDirectory uses an unsupported hash format"
  ensure (p.pageSize == 0 || !(p.pageSize ≥ 64 || p.signingLimit == 0))
    s!"{description} CodeDirectory has invalid page coverage"
  ensure (expectedCodeSlotCount p.signingLimit p.pageSize == p.codeSlotCount)
    s!"{description} CodeDirectory has inconsistent page coverage"
  ensure (!(p.specialSlotCount * p.hashSize > p.hashOffset || p.hashOffset > blob.length ||
      p.codeSlotCount * p.hashSize != blob.length - p.hashOffset))
    s!"{description} CodeDirectory has an invalid hash vector"
  checkPrefix bytes description p
  return p

/-! ## Hashes -/

/-- The digests of CommonCrypto. -/
structure Digests where
  sha1 : List UInt8 → List UInt8
  sha256 : List UInt8 → List UInt8
  sha384 : List UInt8 → List UInt8
  length_sha1 : ∀ data, (sha1 data).length = 20
  length_sha256 : ∀ data, (sha256 data).length = 32
  length_sha384 : ∀ data, (sha384 data).length = 48

/-- The digest that a hash type stands for. -/
def Digests.digest (d : Digests) (hashType : ℕ) (data : List UInt8) : List UInt8 :=
  if hashType = hashSHA1 then d.sha1 data
  else if hashType = hashSHA256 then d.sha256 data
  else if hashType = hashSHA256Truncated then (d.sha256 data).take 20
  else d.sha384 data

section

variable (digests : Digests)

/-- `LC32HashCodeSignatureBlob`; a hash size that is expected has a known type. -/
def hashCodeSignatureBlob (blob : BlobView) (hashType hashSize : ℕ) :
    Except String (List UInt8) := do
  ensure (hashSize == expectedHashSize hashType)
    "cannot hash a code-signature blob with this CodeDirectory format"
  ensure (expectedHashSize hashType != 0)
    "cannot hash a code-signature blob with an unknown digest"
  return digests.digest hashType blob.data

/-- The digest in a special slot. -/
def specialSlot (blob : BlobView) (p : ParsedCodeDirectory) (slot : ℕ) : List UInt8 :=
  blob.bytes.slice (p.hashOffset - slot * p.hashSize) p.hashSize

/-- `LC32CodeDirectorySlotMatchesBlob`. -/
def slotMatchesBlob (codeDirectory : BlobView) (slot : ℕ) (component : BlobView)
    (description : String) : Except String Unit := do
  let p ← parseCodeDirectory codeDirectory description
  ensure (!(slot == 0 || slot > p.specialSlotCount))
    s!"{description} CodeDirectory does not cover special slot {slot}"
  let expected ← hashCodeSignatureBlob digests component p.hashType p.hashSize
  ensure (specialSlot codeDirectory p slot == expected)
    s!"{description} CodeDirectory special slot {slot} does not match its blob"

/-- `LC32CodeDirectorySlotIsEmpty`. -/
def slotIsEmpty (codeDirectory : BlobView) (slot : ℕ) (description : String) :
    Except String Unit := do
  let p ← parseCodeDirectory codeDirectory description
  ensure (slot != 0) s!"{description} requested an invalid special slot"
  if slot > p.specialSlotCount then .ok ()
  else
    ensure ((specialSlot codeDirectory p slot).all (· == 0))
      s!"{description} CodeDirectory hashes an absent special slot {slot}"

/-- The slot of a component that may be absent. -/
def slotMatches (codeDirectory : BlobView) (slot : ℕ) (component : Option BlobView)
    (description : String) : Except String Unit :=
  match component with
  | some blob => slotMatchesBlob digests codeDirectory slot blob description
  | none => slotIsEmpty codeDirectory slot description

/-! ## The donor -/

/-- `LC32CodeSignatureDonor`. -/
structure Donor where
  requirements : Option BlobView
  entitlements : BlobView
  derEntitlements : BlobView
  cmsSignature : BlobView
  deriving DecidableEq, Repr

/-- `LC32EmptyCMSSignature`, as a blob. -/
def emptyCMSSignature : BlobView :=
  ⟨slotCMSSignature, magicBlobWrapper, [0xFA, 0xDE, 0x0B, 0x01, 0x00, 0x00, 0x00, 0x08]⟩

/-- The loop over the CodeDirectories of the donor's signature. -/
def checkDonorDirectories (requirements : Option BlobView)
    (entitlements derEntitlements : BlobView) :
    List BlobView → Except String Unit
  | [] => .ok ()
  | codeDirectory :: rest => do
    if isCodeDirectory codeDirectory.type then
      slotMatches digests codeDirectory slotRequirements requirements "signed arm64 shim"
      slotMatchesBlob digests codeDirectory slotEntitlements entitlements "signed arm64 shim"
      slotMatchesBlob digests codeDirectory slotDEREntitlements derEntitlements
        "signed arm64 shim"
    checkDonorDirectories requirements entitlements derEntitlements rest

/-- What the error of an incomplete donor says about one component. -/
def componentText (valid : Bool) (whenValid whenInvalid : String) : String :=
  if valid then whenValid else whenInvalid

/-- `LC32CreateCodeSignatureDonor`. -/
def createCodeSignatureDonor (signature : Bytes) (capacity : ℕ) : Except String Donor := do
  let view ← parseCodeSignature signature "signed arm64 shim" capacity
  let requirements := view.find slotRequirements
  let entitlements := view.find slotEntitlements
  let derEntitlements := view.find slotDEREntitlements
  let cmsSignature := view.find slotCMSSignature
  let requirementsAreValid :=
    requirements.all fun b => b.magic == magicRequirements && b.length ≥ 12
  let entitlementsAreValid :=
    entitlements.any fun b => b.magic == magicEmbeddedEntitlements && b.length > 8
  let derEntitlementsAreValid :=
    derEntitlements.any fun b => b.magic == magicEmbeddedDEREntitlements && b.length > 8
  let cmsSignatureIsValid :=
    cmsSignature.all fun b => b.magic == magicBlobWrapper && b.length == 8
  let message :=
    "signed arm64 shim has incomplete ad-hoc signature components (requirements=" ++
      componentText requirementsAreValid "valid/absent" "invalid" ++ ", entitlements=" ++
      componentText entitlementsAreValid "valid" "missing/invalid" ++ ", DER entitlements=" ++
      componentText derEntitlementsAreValid "valid" "missing/invalid" ++ ", CMS=" ++
      componentText cmsSignatureIsValid "valid/absent" "invalid" ++ ")"
  match entitlements, derEntitlements with
  | some entitlements, some derEntitlements =>
    ensure (requirementsAreValid && entitlementsAreValid && derEntitlementsAreValid &&
      cmsSignatureIsValid) message
    checkDonorDirectories digests requirements entitlements derEntitlements view.blobs
    ensure (view.blobs.any (isCodeDirectory ·.type))
      "signed arm64 shim signature contains no CodeDirectory"
    return ⟨requirements, entitlements, derEntitlements, emptyCMSSignature⟩
  | _, _ => .error message

end

end LiveExec32.Signature
