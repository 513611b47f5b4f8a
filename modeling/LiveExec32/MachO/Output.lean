import LiveExec32.MachO.Image
import LiveExec32.Lib.Writes

/-! # Writing the replacement file

`LC32InjectArm64ExecutableSlice` lays the target's slices and the signed shim out behind a FAT32
header, copies them into a fresh file and reads that file back. This module is the part between: the
layout, the header, the copy of a slice with its new signature, and the verification. -/

namespace LiveExec32.MachO

/-- Where the bytes of an output slice come from: a file at an offset, or memory. -/
inductive SliceSource where
  | file (file : File) (offset : ℕ)
  | memory (bytes : Bytes)

/-- `LC32OutputSlice`. -/
structure OutputSlice where
  source : SliceSource
  replacementBytes : Option Bytes := none
  replacementOffset : ℕ := 0
  replacementSize : ℕ := 0
  size : ℕ
  cpuType : ℕ
  cpuSubtype : ℕ
  fileType : ℕ
  sourceAlignExponent : ℕ
  is64Bit : Bool
  encrypted : Bool
  outputOffset : ℕ := 0
  outputAlignExponent : ℕ := 0

/-! ## Files -/

/-- `LC32WriteAt`; `pwrite` takes the bytes in pieces and extends the file where it has to. -/
def writeAt (file : File) (data : List UInt8) (offset : ℕ) : Except String File :=
  if h : offset > int64Max ∨ data.length > int64Max - offset then
    .error "Value too large to be stored in data type"
  else
    .ok
      { bytes := file.bytes.write offset data
        length := if data = [] then file.length else max file.length (offset + data.length)
        length_lt := by
          have hlength := file.length_lt
          simp only [int64Max] at h
          split
          · exact hlength
          · omega }

/-- The file after a write inside it. -/
def File.put (file : File) (offset : ℕ) (data : List UInt8) : File :=
  { file with bytes := file.bytes.write offset data }

/-- A new file after `ftruncate`. -/
def File.zeros (size : ℕ) (h : size < 2 ^ 63) : File := ⟨fun _ => 0, size, h⟩

/-! ## Layout -/

abbrev uint32Max : ℕ := 2 ^ 32 - 1

abbrev uint64Max : ℕ := 2 ^ 64 - 1

/-- `LC32AddUInt64`. -/
def addUInt64 (left right : ℕ) : Option ℕ :=
  if uint64Max - left < right then none else some (left + right)

/-- `LC32AlignUInt64`; the alignment is a power of two, so clearing the mask rounds down to it. -/
def alignUInt64 (value alignment : ℕ) : Option ℕ :=
  if alignment = 0 ∨ alignment &&& (alignment - 1) ≠ 0 then none
  else if value > uint64Max - (alignment - 1) then none
  else some ((value + (alignment - 1)) / alignment * alignment)

/-- `LC32_OUTPUT_MIN_ALIGN_EXPONENT`. -/
abbrev outputMinAlignExponent : ℕ := 14

def outputAlign (sourceAlignExponent : ℕ) : ℕ :=
  if sourceAlignExponent < outputMinAlignExponent then outputMinAlignExponent
  else sourceAlignExponent

/-- Where the next slice goes, and the size of the file behind it. -/
def placeSlice (outputSize : ℕ) (output : OutputSlice) : Except String (OutputSlice × ℕ) :=
  let exponent := outputAlign output.sourceAlignExponent
  match (if exponent > 30 then none else alignUInt64 outputSize (2 ^ exponent)) with
  | none => .error "output architecture offsets exceed FAT32 limits"
  | some aligned =>
    if aligned > uint32Max ∨ output.size > uint32Max then
      .error "output architecture offsets exceed FAT32 limits"
    else
      match addUInt64 aligned output.size with
      | none => .error "output Mach-O exceeds FAT32 size limits"
      | some next =>
        if next > uint32Max then .error "output Mach-O exceeds FAT32 size limits"
        else
          .ok ({ output with outputOffset := aligned, outputAlignExponent := exponent }, next)

/-- The loop that gives every slice its place. -/
def placeSlices : (outputSize : ℕ) → List OutputSlice → Except String (List OutputSlice × ℕ)
  | outputSize, [] => .ok ([], outputSize)
  | outputSize, output :: rest => do
    let (placed, next) ← placeSlice outputSize output
    let (others, total) ← placeSlices next rest
    return (placed :: others, total)

/-- `sizeof(struct fat_header)` and the table. -/
def outputHeaderSize (outputCount : ℕ) : ℕ := 8 + outputCount * 20

/-! ## Header -/

/-- `LC32OutputIndexForFatDescriptor`: the shim is last in the file and first in the table. -/
def outputIndexForFatDescriptor (descriptorIndex targetSliceCount : ℕ) : ℕ :=
  if descriptorIndex = 0 then targetSliceCount else descriptorIndex - 1

/-- The output slices in the order of the table. -/
def descriptorOrder (outputs : List OutputSlice) (targetSliceCount : ℕ) : List OutputSlice :=
  (List.range (targetSliceCount + 1)).filterMap fun descriptorIndex =>
    outputs[outputIndexForFatDescriptor descriptorIndex targetSliceCount]?

/-- The fields of a `fat_arch`. -/
def descriptorWords (output : OutputSlice) : List ℕ :=
  [output.cpuType, output.cpuSubtype, output.outputOffset, output.size, output.outputAlignExponent]

/-- The header and the table, in network order. -/
def encodeHeader (outputs : List OutputSlice) (targetSliceCount : ℕ) : List UInt8 :=
  (fatMagic :: (targetSliceCount + 1) ::
    (descriptorOrder outputs targetSliceCount).flatMap descriptorWords).flatMap Bytes.encodeBig

/-! ## Copying -/

/-- `LC32_COPY_BUFFER_SIZE`. -/
abbrev copyBufferSize : ℕ := 256 * 1024

namespace OutputSlice

/-- The first check of the copy and of the comparison. -/
def replacementIsValid (s : OutputSlice) : Bool :=
  match s.replacementBytes with
  | none => s.replacementSize == 0
  | some _ => rangeFits s.replacementOffset s.replacementSize s.size

/-- The next piece of the source. -/
def readChunk (s : OutputSlice) (amount completed : ℕ) : Except String Bytes :=
  match s.source with
  | .file file offset => readAt file amount ((offset + completed) % 2 ^ 64)
  | .memory bytes => .ok (bytes.window completed amount)

/-- How much of a slice the next round takes. -/
def chunkAmount (s : OutputSlice) (bufferSize completed : ℕ) : ℕ :=
  if s.size - completed < bufferSize then s.size - completed else bufferSize

/-- The loop of `LC32CopyOutputSliceToFD`; every round copies something, so `s.size` rounds do. -/
def copyChunks (s : OutputSlice) (bufferSize destinationOffset : ℕ) :
    (rounds completed : ℕ) → File → Except String File
  | 0, _, destination => .ok destination
  | rounds + 1, completed, destination =>
    if s.size ≤ completed then .ok destination
    else do
      let amount := s.chunkAmount bufferSize completed
      let bytes ← s.readChunk amount completed
      let destination ← writeAt destination (bytes.slice 0 amount)
        ((destinationOffset + completed) % 2 ^ 64)
      s.copyChunks bufferSize destinationOffset rounds (completed + amount) destination

/-- `LC32CopyOutputSliceToFD`. -/
def copyToFD (s : OutputSlice) (bufferSize : ℕ) (destination : File) (destinationOffset : ℕ) :
    Except String File := do
  ensure s.replacementIsValid "Invalid argument"
  let destination ← s.copyChunks bufferSize destinationOffset s.size 0 destination
  match s.replacementBytes with
  | none => return destination
  | some bytes =>
    writeAt destination (bytes.slice 0 s.replacementSize)
      ((destinationOffset + s.replacementOffset) % 2 ^ 64)

/-- A piece of the source with what the replacement puts there. -/
def overlayChunk (s : OutputSlice) (amount completed : ℕ) (buffer : Bytes) : Bytes :=
  match s.replacementBytes with
  | none => buffer
  | some bytes =>
    let overlapStart := max completed s.replacementOffset
    let overlapEnd := min (completed + amount) (s.replacementOffset + s.replacementSize)
    if overlapStart < overlapEnd then
      buffer.write (overlapStart - completed)
        (bytes.slice (overlapStart - s.replacementOffset) (overlapEnd - overlapStart))
    else buffer

/-- The loop of `LC32OutputSliceMatchesFD`. -/
def matchesChunks (s : OutputSlice) (bufferSize : ℕ) (file : File) (fdOffset : ℕ) :
    (rounds completed : ℕ) → Bool
  | 0, _ => true
  | rounds + 1, completed =>
    if s.size ≤ completed then true
    else
      let amount := s.chunkAmount bufferSize completed
      match s.readChunk amount completed,
          readAt file amount ((fdOffset + completed) % 2 ^ 64) with
      | .ok buffer, .ok fileBuffer =>
        (s.overlayChunk amount completed buffer).slice 0 amount == fileBuffer.slice 0 amount &&
          s.matchesChunks bufferSize file fdOffset rounds (completed + amount)
      | _, _ => false

/-- `LC32OutputSliceMatchesFD`. -/
def matchesFD (s : OutputSlice) (bufferSize : ℕ) (file : File) (fdOffset : ℕ) : Bool :=
  s.replacementIsValid && s.matchesChunks bufferSize file fdOffset s.size 0

end OutputSlice

/-- The loop that copies all slices. -/
def copySlices (destination : File) : List OutputSlice → Except String File
  | [] => .ok destination
  | output :: rest => do
    let destination ← (output.copyToFD copyBufferSize destination output.outputOffset).mapError
      fun e => s!"could not write the replacement: {e}"
    copySlices destination rest

/-- The replacement file: `ftruncate`, the header, the slices. -/
def writeReplacement (outputs : List OutputSlice) (targetSliceCount outputSize : ℕ) :
    Except String File :=
  if h : outputSize < 2 ^ 63 then do
    let file ← (writeAt (.zeros outputSize h) (encodeHeader outputs targetSliceCount) 0).mapError
      fun e => s!"could not write the replacement: {e}"
    copySlices file outputs
  else .error "could not initialize the replacement: Invalid argument"

/-! ## Verification -/

/-- What the verification compares for one slice of the table. -/
def verifySlice (file : File) (expected : OutputSlice) (actual : Slice) : Except String Unit := do
  ensure (!(actual.cpuType != expected.cpuType || actual.cpuSubtype != expected.cpuSubtype ||
      actual.size != expected.size || actual.offset != expected.outputOffset ||
      actual.alignExponent != expected.outputAlignExponent ||
      actual.fileType != expected.fileType || actual.is32Bit == expected.is64Bit ||
      actual.encrypted != expected.encrypted))
    "replacement Mach-O architecture verification failed"
  ensure (expected.matchesFD copyBufferSize file expected.outputOffset)
    "replacement Mach-O slice bytes failed verification"

def verifySlices (file : File) : List OutputSlice → List Slice → Except String Unit
  | expected :: others, actual :: rest => do
    verifySlice file expected actual
    verifySlices file others rest
  | _, _ => .ok ()

/-- The replacement is read back and compared with what was meant. -/
def verifyReplacement (heap : ℕ → Bool) (file : File) (outputs : List OutputSlice)
    (targetSliceCount : ℕ) : Except String Image := do
  let image ← (parseImage heap file).mapError fun _ => "could not parse the replacement Mach-O"
  ensure (image.count == targetSliceCount + 1) "replacement Mach-O has an unexpected slice count"
  verifySlices file (descriptorOrder outputs targetSliceCount) image.slices
  return image

/-! ## The slices of the injection -/

/-- A new signature for a slice, and where in the slice it goes. -/
structure Replacement where
  offset : ℕ
  size : ℕ
  bytes : Bytes

/-- The output slice for a slice of the target. -/
def targetOutput (target : File) (slice : Slice)
    (replacement : Option Replacement) : OutputSlice where
  source := .file target slice.offset
  replacementBytes := replacement.map (·.bytes)
  replacementOffset := (replacement.map (·.offset)).getD 0
  replacementSize := (replacement.map (·.size)).getD 0
  size := slice.size
  cpuType := slice.cpuType
  cpuSubtype := slice.cpuSubtype
  fileType := slice.fileType
  sourceAlignExponent := slice.alignExponent
  is64Bit := !slice.is32Bit
  encrypted := slice.encrypted

/-- The output slice for the signed shim; its description is that of the slice it was made from. -/
def shimOutput (shimSlice : Slice) (signedBytes : Bytes) (signedSize : ℕ) : OutputSlice where
  source := .memory signedBytes
  size := signedSize
  cpuType := shimSlice.cpuType
  cpuSubtype := shimSlice.cpuSubtype
  fileType := shimSlice.fileType
  sourceAlignExponent := shimSlice.alignExponent
  is64Bit := !shimSlice.is32Bit
  encrypted := false

/-- `CPU_TYPE_ARM`. -/
abbrev cpuTypeARM : ℕ := 12

/-- `CPU_TYPE_ARM64`. -/
abbrev cpuTypeARM64 : ℕ := 0x0100000C

/-- `MH_EXECUTE`. -/
abbrev mhExecute : ℕ := 2

/-- `LC32_IOS_11_VERSION`. -/
abbrev iOS11Version : ℕ := 11 * 2 ^ 16

/-- What `LC32CreateSignedShimBytes` checks of the slice that was signed, against the slice it was
    made from. -/
def signedShimIsValid (shimSlice signed : Slice) (signedSize requestedSDK : ℕ) : Bool :=
  !(signed.offset != 0 || signed.size != signedSize || signed.cpuType != shimSlice.cpuType ||
    signed.cpuSubtype != shimSlice.cpuSubtype || signed.fileType != shimSlice.fileType ||
    signed.is32Bit || signed.isByteSwapped || signed.encrypted || !signed.hasCodeSignature ||
    !signed.hasBuildVersion || signed.buildVersionPlatform != shimSlice.buildVersionPlatform ||
    signed.buildVersionMinOS != iOS11Version || signed.buildVersionSDK != requestedSDK)

end LiveExec32.MachO
