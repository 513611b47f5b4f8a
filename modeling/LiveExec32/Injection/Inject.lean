import LiveExec32.Injection.Commit
import LiveExec32.Signature.Transform

/-! # The injection

`LC32InjectArm64ExecutableSlice` as a whole: it looks at the target and at the shim, has the shim
signed, writes the replacement and commits it. What the system's frameworks do, and the outcome of
every call, is a parameter: `Arguments` is what two runs with the same arguments have in common,
`World` is what may differ between them. -/

namespace LiveExec32.Injection

open MachO Signature

/-- Why the function goes to its cleanup without a commit. -/
inductive Stop where
  | notApplicable
  | failed (error : String)
  deriving DecidableEq, Repr

/-- `LC32CreateMachOImageFromFD`. -/
def createMachOImage (heap : ℕ → Bool) (file : File) (description : String) : Except String Image :=
  (parseImage heap file).mapError fun _ => s!"could not parse the {description} Mach-O"

/-! ## The target -/

/-- `PLATFORM_IOS`. -/
abbrev platformIOS : ℕ := 2

/-- `LC32EffectiveShimSDK`; the build decides whether the guest's version is kept. -/
def effectiveShimSDK (preserveGuestSDK : Bool) (guestSlice : Slice) : ℕ :=
  let sdk :=
    if guestSlice.hasVersionMinIPhoneOS then guestSlice.versionMinIPhoneOSSDK
    else if guestSlice.hasBuildVersion && guestSlice.buildVersionPlatform == platformIOS then
      guestSlice.buildVersionSDK
    else 0
  if preserveGuestSDK then sdk else if sdk < iOS11Version then iOS11Version else sdk

/-- What the loop over the target's slices has found; there is an SDK once there is an executable.
    -/
structure Examined where
  targetSDK : Option ℕ := none
  hasEncryptedARM32Executable : Bool := false

/-- One turn of the loop. -/
def examineSlice (preserveGuestSDK : Bool) (found : Examined) (slice : Slice) :
    Except Stop Examined :=
  if slice.cpuType = cpuTypeARM64 then .error .notApplicable
  else if slice.cpuType ≠ cpuTypeARM ∨ slice.fileType ≠ mhExecute then .error .notApplicable
  else if slice.isByteSwapped then
    .error (.failed "byte-swapped ARM executable slices are not supported")
  else
    let sliceSDK := effectiveShimSDK preserveGuestSDK slice
    if found.targetSDK.any (· != sliceSDK) then
      .error (.failed "ARM32 slices use conflicting iOS SDK versions")
    else
      .ok ⟨some sliceSDK, found.hasEncryptedARM32Executable || slice.encrypted⟩

def examineSlices (preserveGuestSDK : Bool) : Examined → List Slice → Except Stop Examined
  | found, [] => .ok found
  | found, slice :: rest => do
    let found ← examineSlice preserveGuestSDK found slice
    examineSlices preserveGuestSDK found rest

/-- What is known of a target that can be injected into. -/
structure Target where
  image : Image
  targetSDK : ℕ
  hasEncryptedARM32Executable : Bool

/-- From the parse of the target to the end of the loop over its slices. -/
def examineTarget (heap : ℕ → Bool) (preserveGuestSDK : Bool) (target : File) :
    Except Stop Target := do
  let image ← (createMachOImage heap target "target executable").mapError .failed
  if image.count ≥ maxSlices then
    .error (.failed "target executable has too many slices to add arm64")
  else
    let found ← examineSlices preserveGuestSDK {} image.slices
    match found.targetSDK with
    | none => .error .notApplicable
    | some targetSDK => return ⟨image, targetSDK, found.hasEncryptedARM32Executable⟩

/-! ## The shim -/

/-- A slice that the shim can be made from. -/
def isGenericArm64 (candidate : Slice) : Bool :=
  candidate.cpuType == cpuTypeARM64 && baseCPUSubtype candidate.cpuSubtype == 0 &&
    !candidate.encrypted

/-- The loop over the shim's slices; the first that fits is taken. -/
def selectShimSlice : (shimSlice : Option Slice) → List Slice → Except String (Option Slice)
  | shimSlice, [] => .ok shimSlice
  | shimSlice, candidate :: rest => do
    ensure (candidate.fileType == mhExecute) "shim contains a non-executable Mach-O slice"
    ensure (!candidate.isByteSwapped) "shim contains a byte-swapped Mach-O slice"
    selectShimSlice
      (if shimSlice.isNone && isGenericArm64 candidate then some candidate else shimSlice) rest

/-- From the parse of the shim to the slice that is used. -/
def chooseShimSlice (heap : ℕ → Bool) (shim : File) : Except String Slice := do
  ensure (shim.length != 0) "shim executable is not a nonempty regular file"
  let shimImage ← createMachOImage heap shim "shim executable"
  match ← selectShimSlice none shimImage.slices with
  | none => .error "shim has no generic arm64 executable slice"
  | some shimSlice =>
    ensure shimSlice.hasBuildVersion "arm64 shim has no LC_BUILD_VERSION"
    return shimSlice

/-- `LC32PatchShimBuildVersion`. -/
def patchShimBuildVersion (shimBytes : Bytes) (shimSize : ℕ) (shimSlice : Slice)
    (requestedSDK : ℕ) :
    Except String Bytes := do
  ensure (!(shimSlice.isByteSwapped || !shimSlice.hasBuildVersion ||
      !rangeFits shimSlice.buildVersionCommandOffset 24 shimSize))
    "arm64 shim has no usable LC_BUILD_VERSION"
  let command := shimBytes.shift shimSlice.buildVersionCommandOffset
  ensure (!(command.word 0 != 0x32 || command.word 4 < 24 ||
      command.word 8 != shimSlice.buildVersionPlatform ||
      command.word 12 != shimSlice.buildVersionMinOS ||
      command.word 16 != shimSlice.buildVersionSDK))
    "arm64 shim LC_BUILD_VERSION changed while it was copied"
  return shimBytes.write (shimSlice.buildVersionCommandOffset + 12)
    (Bytes.encodeWords [iOS11Version, requestedSDK])

/-- The loop of `LC32NormalizeSignedShimCodeDirectoryFlags`; a CodeDirectory is where the index of
    the signature says, and the blobs are copies of what stood there at first. -/
def normalizeDirectories (isIOS17 : Bool) (teamIdentifier : CString) :
    (index : ℕ) → Bytes → List BlobView → Except String Bytes
  | _, signature, [] => .ok signature
  | index, signature, blob :: rest =>
    if !isCodeDirectory blob.type then
      normalizeDirectories isIOS17 teamIdentifier (index + 1) signature rest
    else do
      let parsed ← parseCodeDirectory blob "signed arm64 shim"
      ensure (!(parsed.teamOffset == 0 || blob.bytes.slice parsed.teamOffset
          teamIdentifier.bytes.length != teamIdentifier.bytes))
        "signed arm64 shim CodeDirectory has the wrong Team ID"
      let offset := readBigUInt32 signature (12 + index * 8 + 4)
      normalizeDirectories isIOS17 teamIdentifier (index + 1)
        (signature.write (offset + Field.flags)
          (Bytes.encodeBig (transformedFlags isIOS17 parsed.flags))) rest

/-- `LC32NormalizeSignedShimCodeDirectoryFlags`. -/
def normalizeSignedShimCodeDirectoryFlags (isIOS17 : Bool) (signature : Bytes) (capacity : ℕ)
    (teamIdentifier : CString) : Except String Bytes := do
  let view ← parseCodeSignature signature "signed arm64 shim" capacity
  ensure ((view.find slotCMSSignature).all fun b => b.magic == magicBlobWrapper && b.length == 8)
    "cannot modify a non-ad-hoc arm64 shim CodeDirectory"
  let normalized ← normalizeDirectories isIOS17 teamIdentifier 0 signature view.blobs
  ensure (view.blobs.any (isCodeDirectory ·.type))
    "signed arm64 shim signature contains no CodeDirectory"
  return normalized

/-! ## Arguments -/

/-- What the shim is signed with; the entitlements are a property list of CoreFoundation. -/
structure SigningMetadata where
  entitlements : List UInt8
  identifier : List UInt8
  teamIdentifier : CString

/-- The arguments of the injector, the build, and the parts of the system that it calls. -/
structure Arguments where
  heap : ℕ → Bool
  digests : Digests
  isIOS17 : Bool
  /-- `LC32_PRESERVE_GUEST_SDK`. -/
  preserveGuestSDK : Bool
  shim : File
  /-- `LC32CreateSigningMetadata`, with the bundle identifier: what the target's signatures and the
      shim's ask for. -/
  createSigningMetadata : File → Image → Slice → Except String SigningMetadata
  /-- `LC32AdHocSignMachOAtPath` on a file with these bytes and this size, and the file that
      Security.framework leaves in its place. -/
  adHocSignMachO : Bytes → ℕ → SigningMetadata → Except String File
  /-- `LC32ReadCodeSignatureMetadata` of the signed file, and the comparison with what was
      requested. -/
  containsMetadata : File → Slice → SigningMetadata → Except String Unit

/-- What `LC32CreateSignedShimBytes` returns. -/
structure SignedBytes where
  bytes : Bytes
  size : ℕ
  signatureOffset : ℕ
  signatureSize : ℕ

/-- `LC32_MAX_SIGNED_SHIM_SIZE`. -/
abbrev maxSignedShimSize : ℕ := 128 * 1024 * 1024

namespace Arguments

variable (a : Arguments)

/-- The copy of the shim that is signed. -/
def stageShim (shimSlice : Slice) (requestedSDK : ℕ) : Except String Bytes := do
  ensure (!(shimSlice.is32Bit || shimSlice.size == 0 || shimSlice.size > maxSignedShimSize))
    "arm64 shim has an unsupported size or header width"
  ensure (a.heap shimSlice.size) "could not copy the arm64 shim: out of memory"
  let shimBytes ← (readAt a.shim shimSlice.size shimSlice.offset).mapError fun e =>
    s!"could not copy the arm64 shim: {e}"
  patchShimBuildVersion shimBytes shimSlice.size shimSlice requestedSDK

/-- The only slice of what Security.framework has made. -/
def readSignedShim (signedFile : File) : Except String Slice :=
  match parseImage a.heap signedFile with
  | .ok ⟨[signedSlice], _, false, _, _⟩ => .ok signedSlice
  | _ => .error "Security.framework produced a malformed arm64 shim"

/-- `LC32CreateSignedShimBytes`. -/
def createSignedShimBytes (shimSlice : Slice) (metadata : SigningMetadata) (requestedSDK : ℕ) :
    Except String SignedBytes := do
  let shimBytes ← a.stageShim shimSlice requestedSDK
  let signedFile ← a.adHocSignMachO shimBytes shimSlice.size metadata
  ensure (!(signedFile.length == 0 || signedFile.length > maxSignedShimSize))
    "signed arm64 shim is not a supported regular file"
  let signedSlice ← a.readSignedShim signedFile
  ensure (signedShimIsValid shimSlice signedSlice signedFile.length requestedSDK)
    "signed arm64 shim failed architecture verification"
  a.containsMetadata signedFile signedSlice metadata
  ensure (a.heap signedFile.length) "could not read the signed arm64 shim: out of memory"
  let signedBytes ← (readAt signedFile signedFile.length 0).mapError fun e =>
    s!"could not read the signed arm64 shim: {e}"
  ensure (rangeFits signedSlice.codeSignatureOffset signedSlice.codeSignatureSize signedFile.length)
    "signed arm64 shim code signature is out of bounds"
  let signature ← normalizeSignedShimCodeDirectoryFlags a.isIOS17
    (signedBytes.shift signedSlice.codeSignatureOffset) signedSlice.codeSignatureSize
    metadata.teamIdentifier
  return ⟨signedBytes.write signedSlice.codeSignatureOffset
      (signature.slice 0 signedSlice.codeSignatureSize), signedFile.length,
    signedSlice.codeSignatureOffset, signedSlice.codeSignatureSize⟩

/-! ## The output -/

/-- The donor is made only where an encrypted slice needs it. -/
def createDonor (target : Target) (signed : SignedBytes) : Except String (Option Donor) :=
  if target.hasEncryptedARM32Executable then do
    ensure (rangeFits signed.signatureOffset signed.signatureSize signed.size)
      "signed arm64 shim code signature is out of bounds"
    let donor ← createCodeSignatureDonor a.digests (signed.bytes.shift signed.signatureOffset)
      signed.signatureSize
    return some donor
  else .ok none

/-- The output slice of one slice of the target; there is a donor if it is encrypted. -/
def createTargetOutput (file : File) (donor : Option Donor) (teamIdentifier : CString)
    (slice : Slice) : Except String OutputSlice :=
  match slice.encrypted, donor with
  | true, some donor => do
    let signature ← createTransformedEncryptedSignature a.digests a.heap a.isIOS17 file slice donor
      teamIdentifier
    return targetOutput file slice
      (some ⟨slice.codeSignatureOffset, slice.codeSignatureSize, signature⟩)
  | _, _ => .ok (targetOutput file slice none)

/-- The loops over the target's slices. -/
def createTargetOutputs (file : File) (donor : Option Donor) (teamIdentifier : CString) :
    List Slice → Except String (List OutputSlice)
  | [] => .ok []
  | slice :: rest => do
    let output ← a.createTargetOutput file donor teamIdentifier slice
    let outputs ← createTargetOutputs file donor teamIdentifier rest
    return output :: outputs

/-- From the signing to the places of the output slices. -/
def layOut (file : File) (target : Target) (shimSlice : Slice) (metadata : SigningMetadata) :
    Except String (List OutputSlice × ℕ) := do
  let signed ← a.createSignedShimBytes shimSlice metadata target.targetSDK
  let donor ← a.createDonor target signed
  let outputs ← a.createTargetOutputs file donor metadata.teamIdentifier target.image.slices
  placeSlices (outputHeaderSize (target.image.count + 1))
    (outputs ++ [shimOutput shimSlice signed.bytes signed.size])

end Arguments

/-! ## Runs -/

/-- The calls before the commit. -/
inductive SetupCall where
  | openParentDirectory
  | openTarget
  | statTarget
  | openShim
  | statShim
  | createStagingDirectory
  | createReplacementPath
  | allocateHeader
  | openReplacement
  | fstatReplacement
  | truncateReplacement
  | allocateBuffers
  | statShimAgain
  | preserveMetadata
  | syncReplacement
  deriving DecidableEq, Repr

/-- What the system does in one run. -/
structure World where
  setup : SetupCall → Bool
  succeeds : Call → Bool
  ctime : Call → ℕ × ℕ
  /-- The staging directory and the replacement that are created. -/
  directory : Stat
  replacement : Stat
  /-- What `fcopyfile`, `fchown` and `fchmod` make of the replacement. -/
  metadata : Attributes
  /-- A file of the signing is left in the staging directory. -/
  leavesSigningFile : Bool

def zeroStat : Stat := ⟨⟨0, 0, 0, 0, 0, (0, 0), (0, 0)⟩, (0, 0)⟩

/-- The local variables at the start. -/
def Locals.initial : Locals where
  replacementIdentityIsKnown := false
  targetStat := zeroStat
  replacementStat := zeroStat
  stagingDirectoryStat := zeroStat
  targetFD := none
  temporaryFD := none
  stagingDirectoryIsOpen := false
  parentDirectoryIsOpen := false
  stagingDirectoryHasPath := false

namespace World

variable (w : World)

/-- To the label `cleanup`. -/
def stop (reason : Stop) (fs : Fs) (s : Locals) : Fs × Locals :=
  let s :=
    match reason with
    | .notApplicable => { s with result := .notApplicable }
    | .failed error => { s with error := error }
  (cleanup w.succeeds w.ctime fs s, s)

/-- The target is opened. Nobody else changes the directory, so both looks at it see the same file.
    -/
def openTarget (fs : Fs) : Except String Stat := do
  ensure (w.setup .openParentDirectory) "could not open the parent directory of the target"
  match w.setup .openTarget, fs.target with
  | true, some inode =>
    ensure (w.setup .statTarget) "could not stat the target"
    ensure ((fs.stat inode).isRegular && (fs.stat inode).size != 0)
      "target executable is not a nonempty regular file"
    return fs.stat inode
  | _, _ => .error "could not open the target"

end World

/-- What is known before the staging directory is created. -/
structure Prepared where
  file : File
  target : Target
  shimSlice : Slice
  metadata : SigningMetadata

/-- From the parse of the target to the metadata of the signature. -/
def prepare (a : Arguments) (w : World) (file : File) : Except Stop Prepared := do
  let target ← examineTarget a.heap a.preserveGuestSDK file
  let (shimSlice, metadata) ← Except.mapError Stop.failed do
    ensure (w.setup .openShim) "could not open the shim"
    ensure (w.setup .statShim) "could not stat the shim"
    let shimSlice ← chooseShimSlice a.heap a.shim
    let metadata ← a.createSigningMetadata file target.image shimSlice
    return (shimSlice, metadata)
  return ⟨file, target, shimSlice, metadata⟩

/-- From the staging directory to the header of the replacement. -/
def plan (a : Arguments) (w : World) (p : Prepared) : Except String (List OutputSlice × ℕ) := do
  ensure (w.setup .createReplacementPath) "could not create a replacement path"
  let placed ← a.layOut p.file p.target p.shimSlice p.metadata
  ensure (w.setup .allocateHeader) "could not allocate the FAT header"
  return placed

/-- The replacement is written and read back. -/
def buildReplacement (a : Arguments) (w : World) (targetSliceCount : ℕ)
    (placed : List OutputSlice × ℕ) : Except String File := do
  ensure (w.setup .truncateReplacement) "could not initialize the replacement"
  ensure (w.setup .allocateBuffers) "could not allocate the slice-copy buffer"
  let file ← writeReplacement placed.1 targetSliceCount placed.2
  ensure (w.setup .statShimAgain) "shim executable changed while it was being copied"
  ensure (w.setup .preserveMetadata) "could not preserve metadata for the replacement"
  ensure (w.setup .syncReplacement) "could not sync the replacement"
  let _ ← verifyReplacement a.heap file placed.1 targetSliceCount
  return file

/-- The replacement holds the file, and has the metadata of the target. -/
def World.fill (w : World) (fs : Fs) (file : File) : Fs :=
  { fs with
    contents := Function.update fs.contents w.replacement.inode file
    attributes := Function.update fs.attributes w.replacement.inode
      { w.metadata with size := file.length } }

/-- The replacement exists and is empty. -/
def fillReplacement (a : Arguments) (w : World) (targetSliceCount : ℕ)
    (placed : List OutputSlice × ℕ) (fs : Fs) (s : Locals) : Fs × Locals :=
  match buildReplacement a w targetSliceCount placed with
  | .error e => w.stop (.failed e) fs s
  | .ok file =>
    let (fs, s) := commit w.succeeds w.ctime (w.fill fs file) s
    (cleanup w.succeeds w.ctime fs s, s)

/-- The replacement is created in the staging directory. -/
def createReplacement (a : Arguments) (w : World) (targetSliceCount : ℕ)
    (placed : List OutputSlice × ℕ) (fs : Fs) (s : Locals) : Fs × Locals :=
  if !w.setup .openReplacement then w.stop (.failed "could not create the replacement") fs s
  else
    let fs := { fs with
      staging := some w.replacement.inode
      attributes := Function.update fs.attributes w.replacement.inode w.replacement.toAttributes }
    let s := { s with temporaryFD := some w.replacement.inode }
    if !w.setup .fstatReplacement then w.stop (.failed "could not stat the replacement") fs s
    else
      fillReplacement a w targetSliceCount placed fs
        { s with replacementIdentityIsKnown := true, replacementStat := w.replacement }

/-- The staging directory exists. -/
def injectStaged (a : Arguments) (w : World) (p : Prepared) (fs : Fs) (s : Locals) : Fs × Locals :=
  match plan a w p with
  | .error e => w.stop (.failed e) { fs with stagingHasOther := w.leavesSigningFile } s
  | .ok placed =>
    createReplacement a w p.target.image.count placed
      { fs with stagingHasOther := w.leavesSigningFile } s

/-- `LC32InjectArm64ExecutableSlice`, with paths that name something. -/
def inject (a : Arguments) (w : World) (fs : Fs) : Fs × Locals :=
  match w.openTarget fs with
  | .error e => w.stop (.failed e) fs .initial
  | .ok targetStat =>
    let s := { Locals.initial with
      targetStat, targetFD := some targetStat.inode, parentDirectoryIsOpen := true }
    match prepare a w (fs.contents targetStat.inode) with
    | .error reason => w.stop reason fs s
    | .ok p =>
      if !w.setup .createStagingDirectory then
        w.stop (.failed "could not create private staging directory") fs s
      else
        injectStaged a w p
          { fs with
            stagingDirectory := some w.directory.inode
            attributes := Function.update fs.attributes w.directory.inode
              w.directory.toAttributes }
          { s with
            stagingDirectoryIsOpen := true
            stagingDirectoryStat := w.directory
            stagingDirectoryHasPath := true }

end LiveExec32.Injection
