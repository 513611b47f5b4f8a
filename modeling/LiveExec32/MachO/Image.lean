import LiveExec32.Lib.Checks
import LiveExec32.Lib.Endian

/-! # The Mach-O reader

`LC32MachOImageParseFD` reads a thin, FAT32 or FAT64 Mach-O and checks it before anything else looks
at it. Every number in the file is untrusted: offsets and sizes are added and multiplied in
`uint32_t` and `uint64_t`, so each sum of the source appears here reduced modulo the width it is
computed in.

The file is a parameter, and so is the heap, which may refuse the buffer for the load commands. -/

namespace LiveExec32.MachO

/-- A regular file; its length is an `off_t`. -/
structure File where
  bytes : Bytes
  length : ℕ
  length_lt : length < 2 ^ 63

/-! ## Ranges and reads -/

def rangeFits (offset size containerSize : ℕ) : Bool :=
  offset ≤ containerSize && size ≤ containerSize - offset

def rangeContains (outerOffset outerSize innerOffset innerSize : ℕ) : Bool :=
  innerOffset ≥ outerOffset && rangeFits (innerOffset - outerOffset) innerSize outerSize

def rangesOverlap (firstOffset firstSize secondOffset secondSize : ℕ) : Bool :=
  firstSize != 0 && secondSize != 0 && firstOffset < (secondOffset + secondSize) % 2 ^ 64 &&
    secondOffset < (firstOffset + firstSize) % 2 ^ 64

/-- `INT64_MAX`. -/
abbrev int64Max : ℕ := 2 ^ 63 - 1

/-- `LC32MachOReadAt`: `pread` returns the file's bytes, in pieces, until it comes to the end. An
    error is the text of its `errno`. -/
def readAt (file : File) (size offset : ℕ) : Except String Bytes :=
  if offset > int64Max ∨ size > int64Max - offset then
    .error "Value too large to be stored in data type"
  else if size ≠ 0 ∧ file.length < offset + size then
    .error "Input/output error"
  else
    .ok (file.bytes.window offset size)

def convertUInt32 (value : ℕ) (swap : Bool) : ℕ := if swap then swapInt32 value else value

def convertUInt64 (value : ℕ) (swap : Bool) : ℕ := if swap then swapInt64 value else value

/-- `~CPU_SUBTYPE_MASK`: the capability bits are the top byte. -/
def baseCPUSubtype (subtype : ℕ) : ℕ := subtype % 2 ^ 24

/-- `CPU_ARCH_ABI64 | CPU_ARCH_ABI64_32`. -/
def cpuTypeUses64BitHeader (cpuType : ℕ) : Bool := cpuType &&& 0x03000000 != 0

/-! ## Slices -/

/-- What the load commands of a slice record. Offsets are relative to the slice. -/
structure Recorded where
  encrypted : Bool := false
  hasCodeSignature : Bool := false
  hasLinkedit : Bool := false
  hasBuildVersion : Bool := false
  hasVersionMinIPhoneOS : Bool := false
  codeSignatureOffset : ℕ := 0
  codeSignatureSize : ℕ := 0
  codeSignatureCommandOffset : ℕ := 0
  encryptionOffset : ℕ := 0
  encryptionSize : ℕ := 0
  encryptionIdentifier : ℕ := 0
  buildVersionCommandOffset : ℕ := 0
  buildVersionPlatform : ℕ := 0
  buildVersionMinOS : ℕ := 0
  buildVersionSDK : ℕ := 0
  versionMinIPhoneOSSDK : ℕ := 0
  linkeditCommandOffset : ℕ := 0
  linkeditVMAddress : ℕ := 0
  linkeditVMSize : ℕ := 0
  linkeditFileOffset : ℕ := 0
  linkeditFileSize : ℕ := 0
  deriving DecidableEq, Repr

/-- `LC32MachOSlice`. -/
structure Slice extends Recorded where
  cpuType : ℕ := 0
  cpuSubtype : ℕ := 0
  fileType : ℕ := 0
  offset : ℕ := 0
  size : ℕ := 0
  alignExponent : ℕ := 0
  is32Bit : Bool := false
  isByteSwapped : Bool := false
  headerSize : ℕ := 0
  loadCommandCount : ℕ := 0
  loadCommandBytes : ℕ := 0
  deriving DecidableEq, Repr

/-- `LC32MachOImage`; the list holds the first `count` slices. -/
structure Image where
  slices : List Slice := []
  fileSize : ℕ := 0
  isFat : Bool := false
  isFat64 : Bool := false
  isFatByteSwapped : Bool := false
  deriving DecidableEq, Repr

def Image.count (image : Image) : ℕ := image.slices.length

/-- `LC32LoadCommandState`; the ranges are offset and size. -/
structure LoadCommandState where
  linkeditCount : ℕ := 0
  encryptionCount : ℕ := 0
  codeSignatureCount : ℕ := 0
  buildVersionCount : ℕ := 0
  versionMinIPhoneOSCount : ℕ := 0
  linkeditDataRanges : List (ℕ × ℕ) := []

/-! ## Load commands -/

abbrev maxLoadCommands : ℕ := 1000

abbrev maxLoadCommandBytes : ℕ := 8 * 1024 * 1024

abbrev maxLoadCommandSize : ℕ := 64 * 1024

/-- One load command: its bytes, its size, and where it starts in the slice. -/
structure LoadCommand where
  bytes : Bytes
  size : ℕ
  swap : Bool
  offset : ℕ

/-- What the commands of a slice are checked against. -/
structure Container where
  is32Bit : Bool
  sliceSize : ℕ
  commandsEnd : ℕ

namespace LoadCommand

def uint32 (c : LoadCommand) (field : ℕ) : ℕ := convertUInt32 (c.bytes.word field) c.swap

def uint64 (c : LoadCommand) (field : ℕ) : ℕ := convertUInt64 (c.bytes.doubleword field) c.swap

/-- `LC32MachOCommandHasString`. -/
def hasString (c : LoadCommand) (stringOffset minimumOffset : ℕ) : Bool :=
  if stringOffset < minimumOffset || stringOffset ≥ c.size then false
  else (c.bytes.findZero stringOffset (c.size - stringOffset)).isSome

/-- `LC32MachOValidateStringCommand`. -/
def validateString (c : LoadCommand) (minimumSize stringOffsetField : ℕ) : Bool :=
  if c.size < minimumSize || stringOffsetField > minimumSize - 4 then false
  else c.hasString (c.uint32 stringOffsetField) minimumSize

/-- The loop of `LC32MachOValidateLinkerOptions`. -/
def linkerOptions (c : LoadCommand) : (count offset : ℕ) → Bool
  | 0, _ => true
  | count + 1, offset =>
    if offset ≥ c.size then false
    else
      match c.bytes.findZero offset (c.size - offset) with
      | none => false
      | some terminator => c.linkerOptions count (terminator + 1)

def validateLinkerOptions (c : LoadCommand) : Bool :=
  if c.size < 12 then false else c.linkerOptions (c.uint32 8) 12

/-- `LC32MachOValidateFilesetEntry`. -/
def validateFilesetEntry (c : LoadCommand) (k : Container) : Bool :=
  if c.size < 32 then false
  else c.uint64 16 ≥ k.commandsEnd && c.uint64 16 < k.sliceSize && c.hasString (c.uint32 24) 32

/-- The bytes of `SEG_LINKEDIT` with its terminator, where `strncmp` stops. -/
def linkeditName : List UInt8 :=
  [0x5F, 0x5F, 0x4C, 0x49, 0x4E, 0x4B, 0x45, 0x44, 0x49, 0x54, 0]

/-- The segment is `__LINKEDIT`; its name starts at offset 8. -/
def isLinkedit (c : LoadCommand) : Bool := c.bytes.slice 8 linkeditName.length == linkeditName

end LoadCommand

/-- What is recorded so far, and the state that is dropped after the last command. -/
abbrev Progress := Recorded × LoadCommandState

section

variable (c : LoadCommand) (k : Container) (progress : Progress)

/-- `LC32MachORecordLinkeditDataRange`. -/
def recordLinkeditDataRange (offset size : ℕ) : Option Progress :=
  if size = 0 then
    -- empty tables conventionally use 0/0, older linkers an offset in the file
    if offset = 0 ∨ offset ≤ k.sliceSize then some progress else none
  else if offset < k.commandsEnd || !rangeFits offset size k.sliceSize ||
      progress.2.linkeditDataRanges.length ≥ maxLoadCommands then none
  else
    some (progress.1, { progress.2 with
      linkeditDataRanges := progress.2.linkeditDataRanges ++ [(offset, size)] })

def validateLinkeditDataCommand : Option Progress :=
  if c.size < 16 then none
  else recordLinkeditDataRange k progress (c.uint32 8) (c.uint32 12)

def validateBuildVersion : Option Progress :=
  if c.size < 24 || progress.2.buildVersionCount + 1 > 1 then none
  else if c.uint32 20 > (c.size - 24) / 8 then none
  else
    some
      ({ progress.1 with
          hasBuildVersion := true
          buildVersionCommandOffset := c.offset
          buildVersionPlatform := c.uint32 8
          buildVersionMinOS := c.uint32 12
          buildVersionSDK := c.uint32 16 },
        { progress.2 with buildVersionCount := progress.2.buildVersionCount + 1 })

/-- `LC_VERSION_MIN_IPHONEOS`. -/
abbrev versionMinIPhoneOS : ℕ := 0x25

def validateVersionMin (commandType : ℕ) : Option Progress :=
  if c.size < 16 then none
  else if commandType ≠ versionMinIPhoneOS then some progress
  else if progress.2.versionMinIPhoneOSCount + 1 > 1 then none
  else
    some
      ({ progress.1 with
          hasVersionMinIPhoneOS := true
          versionMinIPhoneOSSDK := c.uint32 12 },
        { progress.2 with versionMinIPhoneOSCount := progress.2.versionMinIPhoneOSCount + 1 })

/-- What a segment command says, in either width. -/
structure Segment where
  sectionCount : ℕ
  vmAddress : ℕ
  vmSize : ℕ
  fileOffset : ℕ
  fileSize : ℕ

/-- The body that `LC32MachOValidateSegment32` and `LC32MachOValidateSegment64` share. -/
def validateSegment (structureSize sectionSize : ℕ) (segment : Segment) : Option Progress :=
  if c.size < structureSize then none
  else if segment.sectionCount > (2 ^ 32 - 1 - structureSize) / sectionSize ||
      (structureSize + segment.sectionCount * sectionSize) % 2 ^ 64 != c.size then none
  else if !rangeFits segment.fileOffset segment.fileSize k.sliceSize ||
      segment.vmAddress > 2 ^ 64 - 1 - segment.vmSize then none
  else if c.isLinkedit then
    if progress.2.linkeditCount + 1 > 1 || segment.fileSize > segment.vmSize then none
    else
      some
        ({ progress.1 with
            hasLinkedit := true
            linkeditCommandOffset := c.offset
            linkeditVMAddress := segment.vmAddress
            linkeditVMSize := segment.vmSize
            linkeditFileOffset := segment.fileOffset
            linkeditFileSize := segment.fileSize },
          { progress.2 with linkeditCount := progress.2.linkeditCount + 1 })
  else some progress

def validateSegment32 : Option Progress :=
  if !k.is32Bit then none
  else validateSegment c k progress 56 68
    ⟨c.uint32 48, c.uint32 24, c.uint32 28, c.uint32 32, c.uint32 36⟩

def validateSegment64 : Option Progress :=
  if k.is32Bit then none
  else validateSegment c k progress 72 80
    ⟨c.uint32 64, c.uint64 24, c.uint64 32, c.uint64 40, c.uint64 48⟩

/-- The size of an `encryption_info_command_64` or `encryption_info_command`. -/
def encryptionCommandSize (commandIs64Bit : Bool) : ℕ := if commandIs64Bit then 24 else 20

def validateEncryption (commandIs64Bit : Bool) : Option Progress :=
  if commandIs64Bit == k.is32Bit || c.size < encryptionCommandSize commandIs64Bit ||
      progress.2.encryptionCount + 1 > 1 then none
  else if c.uint32 12 != 0 &&
      (c.uint32 8 < k.commandsEnd || !rangeFits (c.uint32 8) (c.uint32 12) k.sliceSize) then none
  else
    some
      ({ progress.1 with
          encryptionOffset := c.uint32 8
          encryptionSize := c.uint32 12
          encryptionIdentifier := c.uint32 16
          encrypted := c.uint32 16 != 0 },
        { progress.2 with encryptionCount := progress.2.encryptionCount + 1 })

def validateCodeSignature : Option Progress :=
  -- the kernel requires the published size exactly
  if c.size != 16 || progress.2.codeSignatureCount + 1 > 1 then none
  else if c.uint32 12 = 0 || c.uint32 8 < k.commandsEnd ||
      !rangeFits (c.uint32 8) (c.uint32 12) k.sliceSize then none
  else
    some
      ({ progress.1 with
          hasCodeSignature := true
          codeSignatureOffset := c.uint32 8
          codeSignatureSize := c.uint32 12
          codeSignatureCommandOffset := c.offset },
        { progress.2 with codeSignatureCount := progress.2.codeSignatureCount + 1 })

end

/-- How the cases of `LC32MachOValidateLoadCommand` treat a command. -/
inductive CommandKind where
  | segment32
  | segment64
  | encryption (is64Bit : Bool)
  | codeSignature
  /-- A string behind a structure of this size; its offset is the field at offset 8. -/
  | string (minimumSize : ℕ)
  /-- Nothing but a least size. -/
  | sized (minimumSize : ℕ)
  | versionMin
  | buildVersion
  | linkerOption
  | linkeditData
  | filesetEntry
  | unknown
  deriving DecidableEq, Repr

/-- The command types of each case. -/
def commandKinds : List (ℕ × CommandKind) :=
  [(0x1, .segment32), (0x19, .segment64), (0x21, .encryption false), (0x2C, .encryption true),
    (0x1D, .codeSignature),
    -- LC_LOAD_DYLIB, LC_ID_DYLIB, LC_LOAD_WEAK_DYLIB, LC_REEXPORT_DYLIB, LC_LAZY_LOAD_DYLIB,
    -- LC_LOAD_UPWARD_DYLIB
    (0xC, .string 24), (0xD, .string 24), (0x80000018, .string 24), (0x8000001F, .string 24),
    (0x20, .string 24), (0x80000023, .string 24),
    -- LC_RPATH, LC_LOAD_DYLINKER, LC_ID_DYLINKER, LC_DYLD_ENVIRONMENT
    (0x8000001C, .string 12), (0xE, .string 12), (0xF, .string 12), (0x27, .string 12),
    -- LC_SUB_FRAMEWORK, LC_SUB_UMBRELLA, LC_SUB_CLIENT, LC_SUB_LIBRARY, LC_TARGET_TRIPLE
    (0x12, .string 12), (0x13, .string 12), (0x14, .string 12), (0x15, .string 12),
    (0x39, .string 12),
    -- LC_SYMTAB, LC_SYMSEG, LC_DYSYMTAB, LC_ROUTINES, LC_ROUTINES_64, LC_TWOLEVEL_HINTS
    (0x2, .sized 24), (0x3, .sized 16), (0xB, .sized 80), (0x11, .sized 40), (0x1A, .sized 72),
    (0x16, .sized 16),
    -- LC_PREBIND_CKSUM, LC_UUID, LC_DYLD_INFO, LC_DYLD_INFO_ONLY
    (0x17, .sized 12), (0x1B, .sized 24), (0x22, .sized 48), (0x80000022, .sized 48),
    -- LC_VERSION_MIN_MACOSX, LC_VERSION_MIN_IPHONEOS, LC_VERSION_MIN_TVOS, LC_VERSION_MIN_WATCHOS
    (0x24, .versionMin), (0x25, .versionMin), (0x2F, .versionMin), (0x30, .versionMin),
    -- LC_MAIN, LC_SOURCE_VERSION, LC_NOTE
    (0x80000028, .sized 24), (0x2A, .sized 16), (0x31, .sized 40),
    (0x32, .buildVersion), (0x2D, .linkerOption),
    -- LC_THREAD, LC_UNIXTHREAD
    (0x4, .sized 8), (0x5, .sized 8),
    -- LC_SEGMENT_SPLIT_INFO, LC_FUNCTION_STARTS, LC_DATA_IN_CODE, LC_DYLIB_CODE_SIGN_DRS,
    -- LC_LINKER_OPTIMIZATION_HINT, LC_DYLD_EXPORTS_TRIE, LC_DYLD_CHAINED_FIXUPS, LC_ATOM_INFO,
    -- LC_FUNCTION_VARIANTS, LC_FUNCTION_VARIANT_FIXUPS
    (0x1E, .linkeditData), (0x26, .linkeditData), (0x29, .linkeditData), (0x2B, .linkeditData),
    (0x2E, .linkeditData), (0x80000033, .linkeditData), (0x80000034, .linkeditData),
    (0x36, .linkeditData), (0x37, .linkeditData), (0x38, .linkeditData),
    (0x80000035, .filesetEntry)]

def commandKind (commandType : ℕ) : CommandKind := (commandKinds.lookup commandType).getD .unknown

/-- `LC32MachOValidateLoadCommand`; commands that this build does not know are passed on. -/
def validateLoadCommand (commandType : ℕ) (c : LoadCommand) (k : Container) (progress : Progress) :
    Option Progress :=
  match commandKind commandType with
  | .segment32 => validateSegment32 c k progress
  | .segment64 => validateSegment64 c k progress
  | .encryption is64Bit => validateEncryption c k progress is64Bit
  | .codeSignature => validateCodeSignature c k progress
  | .string minimumSize => if c.validateString minimumSize 8 then some progress else none
  | .sized minimumSize => if minimumSize ≤ c.size then some progress else none
  | .versionMin => validateVersionMin c progress commandType
  | .buildVersion => validateBuildVersion c progress
  | .linkerOption => if c.validateLinkerOptions then some progress else none
  | .linkeditData => validateLinkeditDataCommand c k progress
  | .filesetEntry => if c.validateFilesetEntry k then some progress else none
  | .unknown => some progress

/-! ## One slice -/

/-- What the magic number says: the width of the header, its byte order and its size. -/
structure HeaderForm where
  is32Bit : Bool
  swap : Bool
  headerSize : ℕ

/-- `MH_MAGIC`, `MH_CIGAM`, `MH_MAGIC_64` and `MH_CIGAM_64`. -/
def headerForm (magic : ℕ) : Option HeaderForm :=
  if magic = 0xFEEDFACE then some ⟨true, false, 28⟩
  else if magic = 0xCEFAEDFE then some ⟨true, true, 28⟩
  else if magic = 0xFEEDFACF then some ⟨false, false, 32⟩
  else if magic = 0xCFFAEDFE then some ⟨false, true, 32⟩
  else none

/-- `0x%08x`. -/
def hex8 (value : ℕ) : String :=
  let digits := Nat.toDigits 16 value
  "0x" ++ String.ofList (List.replicate (8 - digits.length) '0' ++ digits)

def commandAlignment (is32Bit : Bool) : ℕ := if is32Bit then 4 else 8

/-- The load commands of a slice, as the loop of `LC32MachOParseSlice` sees them. -/
structure CommandTable where
  form : HeaderForm
  commands : Bytes
  commandBytes : ℕ
  sliceSize : ℕ

namespace CommandTable

/-- `sizeof(header)` and the commands, in 64 bits. -/
def commandsEnd (t : CommandTable) : ℕ := (t.form.headerSize + t.commandBytes) % 2 ^ 64

def container (t : CommandTable) : Container := ⟨t.form.is32Bit, t.sliceSize, t.commandsEnd⟩

def commandType (t : CommandTable) (relativeOffset : ℕ) : ℕ :=
  convertUInt32 (t.commands.word relativeOffset) t.form.swap

def commandSize (t : CommandTable) (relativeOffset : ℕ) : ℕ :=
  convertUInt32 (t.commands.word (relativeOffset + 4)) t.form.swap

def command (t : CommandTable) (relativeOffset : ℕ) : LoadCommand :=
  ⟨t.commands.shift relativeOffset, t.commandSize relativeOffset, t.form.swap,
    (t.form.headerSize + relativeOffset) % 2 ^ 32⟩

/-- The check of one command. -/
def step (t : CommandTable) (relativeOffset : ℕ) (progress : Progress) : Option Progress :=
  if t.commandSize relativeOffset < 8 || t.commandSize relativeOffset > maxLoadCommandSize ||
      t.commandSize relativeOffset % commandAlignment t.form.is32Bit != 0 ||
      !rangeFits relativeOffset (t.commandSize relativeOffset) t.commandBytes then none
  else
    validateLoadCommand (t.commandType relativeOffset) (t.command relativeOffset)
      t.container progress

/-- The loop over the load commands. -/
def parse (t : CommandTable) :
    (remaining index relativeOffset : ℕ) → Progress → Except String (ℕ × Progress)
  | 0, _, relativeOffset, progress => .ok (relativeOffset, progress)
  | remaining + 1, index, relativeOffset, progress =>
    if !rangeFits relativeOffset 8 t.commandBytes then
      .error "Mach-O load-command header is truncated"
    else
      match t.step relativeOffset progress with
      | none => .error s!"Mach-O load command {index} is malformed"
      | some progress =>
        t.parse remaining (index + 1)
          ((relativeOffset + t.commandSize relativeOffset) % 2 ^ 32) progress

end CommandTable

/-- The load-command table that a header announces is acceptable. -/
def tableIsValid (form : HeaderForm) (commandCount commandBytes sliceSize : ℕ) : Bool :=
  !(commandCount = 0 || commandCount > maxLoadCommands || commandBytes > maxLoadCommandBytes ||
    commandCount > commandBytes / 8 || commandBytes % commandAlignment form.is32Bit != 0 ||
    !rangeFits form.headerSize commandBytes sliceSize)

/-- The checks after the last command. -/
def checkRecorded (r : Recorded) (state : LoadCommandState) : Except String Unit := do
  ensure (!r.hasLinkedit || state.linkeditDataRanges.all fun range =>
      rangeContains r.linkeditFileOffset r.linkeditFileSize range.1 range.2)
    "Mach-O linkedit data is outside its unique __LINKEDIT segment"
  ensure (!(r.hasCodeSignature && (!r.hasLinkedit ||
      !rangeContains r.linkeditFileOffset r.linkeditFileSize r.codeSignatureOffset
        r.codeSignatureSize)))
    "Mach-O code signature is outside its unique __LINKEDIT segment"
  ensure (!(r.encrypted && r.hasCodeSignature && rangesOverlap r.encryptionOffset r.encryptionSize
      r.codeSignatureOffset r.codeSignatureSize))
    "Mach-O encrypted and code-signature ranges overlap"

section

variable (heap : ℕ → Bool) (file : File)

/-- `malloc` of the command buffer and the read into it. -/
def readCommands (commandBytes offset : ℕ) : Except String Bytes := do
  ensure (heap commandBytes) "could not read Mach-O load commands: out of memory"
  (readAt file commandBytes offset).mapError fun e => s!"could not read Mach-O load commands: {e}"

/-- `LC32MachOParseSlice`. -/
def parseSlice (sliceOffset sliceSize : ℕ) (slice : Slice) : Except String Slice := do
  ensure (4 ≤ sliceSize) "Mach-O slice is too short for a header"
  let magic ← (readAt file 4 sliceOffset).mapError fun _ => "Mach-O slice is too short for a header"
  match headerForm (magic.word 0) with
  | none => .error s!"unsupported Mach-O slice magic {hex8 (magic.word 0)}"
  | some form =>
    ensure (form.headerSize ≤ sliceSize) "Mach-O slice header is truncated"
    let header ← (readAt file form.headerSize sliceOffset).mapError fun e =>
      s!"could not read Mach-O slice header: {e}"
    let field (offset : ℕ) : ℕ := convertUInt32 (header.word offset) form.swap
    ensure (cpuTypeUses64BitHeader (field 4) != form.is32Bit)
      "Mach-O CPU type does not match its header width"
    ensure (tableIsValid form (field 16) (field 20) sliceSize)
      "Mach-O has an invalid load-command table"
    let commands ← readCommands heap file (field 20)
      ((sliceOffset + form.headerSize) % 2 ^ 64)
    let (relativeOffset, recorded, state) ←
      CommandTable.parse ⟨form, commands, field 20, sliceSize⟩ (field 16) 0 0
        (slice.toRecorded, {})
    ensure (relativeOffset == field 20) "Mach-O load-command sizes do not match sizeofcmds"
    checkRecorded recorded state
    return {
      toRecorded := recorded
      cpuType := field 4
      cpuSubtype := field 8
      fileType := field 12
      offset := slice.offset
      size := slice.size
      alignExponent := slice.alignExponent
      is32Bit := form.is32Bit
      isByteSwapped := form.swap
      headerSize := form.headerSize
      loadCommandCount := field 16
      loadCommandBytes := field 20 }

/-! ## All slices -/

abbrev maxSlices : ℕ := 5

/-- The magic numbers of a FAT file, as they read on this machine. -/
abbrev fatMagic : ℕ := 0xCAFEBABE

abbrev fatCigam : ℕ := 0xBEBAFECA

abbrev fatMagic64 : ℕ := 0xCAFEBABF

abbrev fatCigam64 : ℕ := 0xBFBAFECA

def isFatMagic (magic : ℕ) : Bool :=
  magic == fatMagic || magic == fatCigam || magic == fatMagic64 || magic == fatCigam64

/-- The width and byte order of a FAT table. -/
structure FatForm where
  isFat64 : Bool
  swap : Bool

def fatForm (magic : ℕ) : FatForm :=
  ⟨magic == fatMagic64 || magic == fatCigam64, magic == fatCigam || magic == fatCigam64⟩

/-- The size of a `fat_arch_64` or `fat_arch`. -/
def FatForm.descriptorSize (form : FatForm) : ℕ := if form.isFat64 then 32 else 20

/-- The size of the FAT header and a table of `count` entries. -/
def FatForm.tableSize (form : FatForm) (count : ℕ) : ℕ := (8 + count * form.descriptorSize) % 2 ^ 64

/-- Read entry `index` of the table. -/
def readDescriptor (form : FatForm) (index : ℕ) : Except String Slice := do
  let offset := (8 + index * form.descriptorSize) % 2 ^ 64
  let architecture ← (readAt file form.descriptorSize offset).mapError fun e =>
    if form.isFat64 then s!"could not read fat64 architecture: {e}"
    else s!"could not read fat architecture: {e}"
  let uint32 (field : ℕ) : ℕ := convertUInt32 (architecture.word field) form.swap
  let uint64 (field : ℕ) : ℕ := convertUInt64 (architecture.doubleword field) form.swap
  if form.isFat64 then
    ensure (uint32 28 == 0) s!"fat64 architecture {index} has a nonzero reserved field"
    return { cpuType := uint32 0, cpuSubtype := uint32 4, offset := uint64 8, size := uint64 16,
             alignExponent := uint32 24 }
  else
    return { cpuType := uint32 0, cpuSubtype := uint32 4, offset := uint32 8, size := uint32 12,
             alignExponent := uint32 16 }

/-- The checks of a descriptor against one that came before it. -/
def checkAgainst (descriptor other : Slice) : Except String Unit := do
  ensure (!(descriptor.cpuType == other.cpuType && descriptor.cpuSubtype == other.cpuSubtype))
    "fat Mach-O contains duplicate architecture entries"
  ensure (!(descriptor.offset < (other.offset + other.size) % 2 ^ 64 &&
      other.offset < (descriptor.offset + descriptor.size) % 2 ^ 64))
    "fat Mach-O contains overlapping slices"

def checkPrevious (descriptor : Slice) : List Slice → Except String Unit
  | [] => .ok ()
  | other :: rest => do
    checkAgainst descriptor other
    checkPrevious descriptor rest

/-- The checks of a descriptor on its own. -/
def checkDescriptor (index tableSize : ℕ) (descriptor : Slice) : Except String Unit := do
  ensure (!(descriptor.size == 0 || descriptor.alignExponent > 30 ||
      descriptor.offset < tableSize ||
      !rangeFits descriptor.offset descriptor.size file.length))
    s!"fat Mach-O slice {index} has an invalid range"
  ensure (descriptor.offset % 2 ^ descriptor.alignExponent == 0)
    s!"fat Mach-O slice {index} has an invalid alignment"

/-- One round of the loop over the table. -/
def parseArchitecture (form : FatForm) (tableSize index : ℕ) (previous : List Slice) :
    Except String Slice := do
  let descriptor ← readDescriptor file form index
  checkDescriptor file index tableSize descriptor
  checkPrevious descriptor previous
  let parsed ← parseSlice heap file descriptor.offset descriptor.size descriptor
  ensure (parsed.cpuType == descriptor.cpuType && parsed.cpuSubtype == descriptor.cpuSubtype)
    s!"fat Mach-O slice {index} descriptor does not match its header"
  return { parsed with
    offset := descriptor.offset, size := descriptor.size,
    alignExponent := descriptor.alignExponent }

/-- The loop over the table; `previous` are the slices parsed so far. -/
def parseArchitectures (form : FatForm) (tableSize : ℕ) :
    (remaining : ℕ) → List Slice → Except String (List Slice)
  | 0, previous => .ok previous
  | remaining + 1, previous => do
    let slice ← parseArchitecture heap file form tableSize previous.length previous
    parseArchitectures form tableSize remaining (previous ++ [slice])

/-- `LC32MachOParseFat`. -/
def parseFat (magic : ℕ) : Except String Image := do
  ensure (8 ≤ file.length) "fat Mach-O header is truncated"
  let header ← (readAt file 8 0).mapError fun e => s!"could not read fat Mach-O header: {e}"
  let form := fatForm magic
  let count := convertUInt32 (header.word 4) form.swap
  ensure (!(count == 0 || count > maxSlices)) s!"fat Mach-O has an invalid slice count: {count}"
  ensure (count ≤ (file.length - 8) / form.descriptorSize)
    "fat Mach-O architecture table is truncated"
  let slices ← parseArchitectures heap file form (form.tableSize count) count []
  return { slices, fileSize := file.length, isFat := true, isFat64 := form.isFat64,
           isFatByteSwapped := form.swap }

/-- `LC32_THIN_MACH_O_ALIGN_EXPONENT`. -/
abbrev thinAlignExponent : ℕ := 14

/-- The image of a file that could be read. -/
def parseImage : Except String Image := do
  ensure (file.length != 0) "Mach-O file is empty"
  let magic ← (readAt file 4 0).mapError fun e => s!"could not read Mach-O magic: {e}"
  if isFatMagic (magic.word 0) then
    parseFat heap file (magic.word 0)
  else
    let slice ← parseSlice heap file 0 file.length
      { offset := 0, size := file.length, alignExponent := thinAlignExponent }
    return { slices := [slice], fileSize := file.length }

end

/-- What `LC32MachOImageParseFD` leaves behind. -/
structure ParseResult where
  success : Bool
  image : Image
  error : String

/-- `LC32MachOImageParseFD`. The descriptor refers to `file`, or `fstat` fails with the given text;
    `image` is what the caller's record held before. -/
def imageParseFD (heap : ℕ → Bool) (fd : ℤ) (file : Except String File) (image : Image) :
    ParseResult :=
  if fd < 0 then ⟨false, image, "invalid Mach-O parser arguments"⟩
  else
    match file.mapError fun e => s!"could not stat Mach-O: {e}" with
    | .error e => ⟨false, {}, e⟩
    | .ok file =>
      match parseImage heap file with
      | .error e => ⟨false, {}, e⟩
      | .ok image => ⟨true, image, ""⟩

end LiveExec32.MachO
