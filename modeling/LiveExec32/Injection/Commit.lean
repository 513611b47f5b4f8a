import LiveExec32.MachO.Image

/-! # The commit of an injection

The replacement is complete and verified in a staging directory of its own. The last part of
`LC32InjectArm64ExecutableSlice` swaps it with the target in one step, looks at both names, swaps
back if it does not find what it expects, and then removes what is left in the staging directory.
Any of its calls may fail. A failed call has no effect, and nobody else changes the two directories.

Every call stands at one place of the source and is made at most once, so `succeeds : Call → Bool`
is a pattern of successes and failures. -/

namespace LiveExec32.Injection

open MachO

/-! ## Files -/

/-- Device and number. -/
abbrev Inode := ℕ × ℕ

/-- The fields of `struct stat` that are compared, without the identity. -/
structure Attributes where
  size : ℕ
  mode : ℕ
  uid : ℕ
  gid : ℕ
  flags : ℕ
  mtime : ℕ × ℕ
  ctime : ℕ × ℕ
  deriving DecidableEq, Repr

structure Stat extends Attributes where
  inode : Inode
  deriving DecidableEq, Repr

/-- `S_ISREG`. -/
def Stat.isRegular (s : Stat) : Bool := s.mode &&& 0o170000 == 0o100000

/-- `S_ISDIR`. -/
def Stat.isDirectory (s : Stat) : Bool := s.mode &&& 0o170000 == 0o040000

/-- `LC32SameFileState`. -/
def sameFileState (left right : Stat) : Bool := left == right

/-- `LC32SameFileStateAfterRename`: a rename may advance `ctime`. -/
def sameFileStateAfterRename (left right : Stat) : Bool :=
  left == { right with ctime := left.ctime }

/-- The two directories, and what the files in them are. -/
structure Fs where
  /-- The target's name in its directory. -/
  target : Option Inode
  /-- The staging directory's name, in the same directory. -/
  stagingDirectory : Option Inode
  /-- The name of the replacement in the staging directory. -/
  staging : Option Inode
  /-- Something else is in the staging directory. -/
  stagingHasOther : Bool
  attributes : Inode → Attributes
  contents : Inode → File

def Fs.stat (fs : Fs) (inode : Inode) : Stat := ⟨fs.attributes inode, inode⟩

/-! ## Calls -/

/-- The three looks at both names. -/
inductive Check where
  | swap
  | rollback
  | restored
  deriving DecidableEq, Repr

/-- The calls of the commit and the cleanup. -/
inductive Call where
  | fstatReplacement
  | statReplacementPath
  | fstatTarget
  | statTargetPath
  | renameSwap
  | fstatOriginal (check : Check)
  | fstatTemporary (check : Check)
  | statOriginal (check : Check)
  | statInstalled (check : Check)
  | renameRollback
  | openStaged
  | fstatStaged
  | statStaged
  | fstatFlags
  | fchflags
  | statStagedAgain
  | unlinkStaged
  | statStagingDirectory
  | removeStagingDirectory
  deriving DecidableEq, Repr

inductive InjectionResult where
  | succeeded
  | notApplicable
  | failed
  deriving DecidableEq, Repr

/-- The local variables that the last part of the function uses. -/
structure Locals where
  result : InjectionResult := .failed
  error : String := ""
  preserveStagingDirectory : Bool := false
  stagingContainsOriginalTarget : Bool := false
  replacementIdentityIsKnown : Bool
  targetStat : Stat
  replacementStat : Stat
  stagingDirectoryStat : Stat
  targetFD : Option Inode
  temporaryFD : Option Inode
  stagingDirectoryIsOpen : Bool
  parentDirectoryIsOpen : Bool
  /-- `stagingDirectoryPath` is not null. -/
  stagingDirectoryHasPath : Bool

section

variable (succeeds : Call → Bool) (ctime : Call → ℕ × ℕ)

/-- `fstat` and `fstatat`: the file that a descriptor or a name refers to. -/
def statOf (call : Call) (fs : Fs) (file : Option Inode) : Option Stat :=
  if succeeds call then file.map fs.stat else none

/-- `renameatx_np` with `RENAME_SWAP`; both names have to exist. -/
def renameSwap (call : Call) (fs : Fs) : Option Fs :=
  match succeeds call, fs.staging, fs.target with
  | true, some staged, some installed =>
    some { fs with
      staging := some installed
      target := some staged
      attributes := fun inode =>
        if inode = staged ∨ inode = installed then
          { fs.attributes inode with ctime := ctime call }
        else fs.attributes inode }
  | _, _, _ => none

/-! ## Commit -/

/-- The check that both files are where they should be and what they were: the original under one
    name, the replacement under the other. -/
def filesAreValid (check : Check) (fs : Fs) (s : Locals)
    (original installed : Option Inode) : Bool :=
  match statOf succeeds (.fstatOriginal check) fs s.targetFD,
      statOf succeeds (.fstatTemporary check) fs s.temporaryFD,
      statOf succeeds (.statOriginal check) fs original,
      statOf succeeds (.statInstalled check) fs installed with
  | some originalFDStat, some replacementFDStat, some originalPathStat, some replacementPathStat =>
    originalPathStat.isRegular && replacementPathStat.isRegular &&
      sameFileStateAfterRename s.targetStat originalFDStat &&
      sameFileStateAfterRename s.targetStat originalPathStat &&
      sameFileStateAfterRename s.replacementStat replacementFDStat &&
      sameFileStateAfterRename s.replacementStat replacementPathStat &&
      originalFDStat.inode == originalPathStat.inode &&
      replacementFDStat.inode == replacementPathStat.inode
  | _, _, _, _ => false

def swapIsValid (fs : Fs) (s : Locals) : Bool :=
  filesAreValid succeeds .swap fs s fs.staging fs.target

def rollbackCanBeAttempted (fs : Fs) (s : Locals) : Bool :=
  filesAreValid succeeds .rollback fs s fs.staging fs.target

def rollbackIsValid (fs : Fs) (s : Locals) : Bool :=
  filesAreValid succeeds .restored fs s fs.target fs.staging

/-- The swap could not be confirmed. -/
def rollBack (fs : Fs) (s : Locals) : Fs × Locals :=
  if !rollbackCanBeAttempted succeeds fs s then
    (fs, { s with
      preserveStagingDirectory := true
      error := "target changed during replacement; rollback was not safe" })
  else
    match renameSwap succeeds ctime .renameRollback fs with
    | none =>
      (fs, { s with
        preserveStagingDirectory := true
        error := "target changed during replacement and rollback failed" })
    | some fs =>
      if !rollbackIsValid succeeds fs s then
        (fs, { s with
          preserveStagingDirectory := true
          error := "target changed during replacement; rollback could not be verified" })
      else
        (fs, { s with
          stagingContainsOriginalTarget := false
          error := "target executable changed during atomic replacement" })

/-- The staged file is the one that was verified. -/
def replacementIsUnchanged (fs : Fs) (s : Locals) : Bool :=
  match statOf succeeds .fstatReplacement fs s.temporaryFD,
      statOf succeeds .statReplacementPath fs fs.staging with
  | some replacementStat, some replacementPathStat =>
    replacementPathStat.isRegular && sameFileState replacementStat replacementPathStat
  | _, _ => false

/-- The target is the one that was read. -/
def targetIsUnchanged (fs : Fs) (s : Locals) : Bool :=
  match statOf succeeds .fstatTarget fs s.targetFD,
      statOf succeeds .statTargetPath fs fs.target with
  | some currentFDStat, some currentPathStat =>
    currentPathStat.isRegular && sameFileState s.targetStat currentFDStat &&
      sameFileState s.targetStat currentPathStat
  | _, _ => false

/-- From the last look at the staged file to the label `cleanup`. -/
def commit (fs : Fs) (s : Locals) : Fs × Locals :=
  let s := { s with replacementStat :=
    (statOf succeeds .fstatReplacement fs s.temporaryFD).getD s.replacementStat }
  if !replacementIsUnchanged succeeds fs s then
    (fs, { s with error := "replacement staging file changed during verification" })
  else if !targetIsUnchanged succeeds fs s then
    (fs, { s with error := "target executable changed while it was being rewritten" })
  else
    match renameSwap succeeds ctime .renameSwap fs with
    | none => (fs, { s with error := "could not replace" })
    | some fs =>
      let s := { s with stagingContainsOriginalTarget := true }
      if swapIsValid succeeds fs s then (fs, { s with result := .succeeded })
      else rollBack succeeds ctime fs s

/-! ## Cleanup -/

/-- `UF_IMMUTABLE`, `UF_APPEND`, `SF_IMMUTABLE`, `SF_APPEND`, `SF_RESTRICTED` and `SF_NOUNLINK`. -/
abbrev restrictiveFlags : ℕ := 0x2 ||| 0x4 ||| 0x20000 ||| 0x40000 ||| 0x80000 ||| 0x100000

/-- `LC32ClearTemporaryRestrictiveFlags`, with a descriptor that is open. -/
def clearTemporaryRestrictiveFlags (fs : Fs) (inode : Inode) : Fs :=
  match statOf succeeds .fstatFlags fs (some inode) with
  | none => fs
  | some status =>
    let remainingFlags := status.flags &&& (2 ^ 32 - 1 - restrictiveFlags)
    let cleared := { fs.attributes inode with flags := remainingFlags, ctime := ctime .fchflags }
    if remainingFlags ≠ status.flags ∧ succeeds .fchflags then
      { fs with attributes := Function.update fs.attributes inode cleared }
    else fs

/-- What the cleanup may remove from the staging directory: the file that it expects there. -/
def stagedCleanup (fs : Fs) (s : Locals) : Option Inode :=
  let stagedCleanupFD :=
    if s.stagingContainsOriginalTarget then (if succeeds .openStaged then fs.staging else none)
    else s.temporaryFD
  let expectedStagingStat :=
    if s.stagingContainsOriginalTarget then s.targetStat else s.replacementStat
  if s.stagingContainsOriginalTarget || s.replacementIdentityIsKnown then
    match statOf succeeds .fstatStaged fs stagedCleanupFD,
        statOf succeeds .statStaged fs fs.staging with
    | some stagedFDStat, some stagedPathStat =>
      if stagedPathStat.isRegular && stagedFDStat.inode == stagedPathStat.inode &&
          expectedStagingStat.inode == stagedFDStat.inode then some stagedFDStat.inode
      else none
    | _, _ => none
  else none

/-- The staged file is removed. -/
def removeStaged (fs : Fs) (inode : Inode) : Fs :=
  let fs := clearTemporaryRestrictiveFlags succeeds ctime fs inode
  match statOf succeeds .statStagedAgain fs fs.staging with
  | none => fs
  | some current =>
    if current.inode = inode ∧ succeeds .unlinkStaged then { fs with staging := none } else fs

/-- The staging directory is removed if it is empty. -/
def removeStagingDirectory (fs : Fs) (s : Locals) : Fs :=
  match statOf succeeds .statStagingDirectory fs fs.stagingDirectory with
  | none => fs
  | some current =>
    if current.isDirectory && s.stagingDirectoryStat.inode == current.inode &&
        succeeds .removeStagingDirectory && fs.staging.isNone && !fs.stagingHasOther then
      { fs with stagingDirectory := none }
    else fs

/-- What the cleanup does in the staging directory. -/
def cleanStagingDirectory (fs : Fs) (s : Locals) : Fs :=
  if s.stagingDirectoryIsOpen && !s.preserveStagingDirectory then
    match stagedCleanup succeeds fs s with
    | some inode => removeStaged succeeds ctime fs inode
    | none => fs
  else fs

/-- From the label `cleanup` on. -/
def cleanup (fs : Fs) (s : Locals) : Fs :=
  let fs := cleanStagingDirectory succeeds ctime fs s
  if !s.preserveStagingDirectory && s.parentDirectoryIsOpen && s.stagingDirectoryHasPath then
    removeStagingDirectory succeeds fs s
  else fs

end

/-! ## Entry -/

/-- A state in which the last part of the function is entered: at the commit, with a verified
    replacement, or at the cleanup after an earlier failure. -/
structure Entry where
  fs : Fs
  locals : Locals
  original : Inode
  replacement : Inode
  /-- The commit is reached. -/
  commits : Bool
  target_eq : fs.target = some original
  result_ne : locals.result ≠ .succeeded
  preserve_eq : locals.preserveStagingDirectory = false
  staging_eq : locals.stagingContainsOriginalTarget = false
  /-- The descriptor of the file that was verified. -/
  temporary_eq : commits = true → locals.temporaryFD = some replacement
  directory_ne : commits = true → fs.stagingDirectory ≠ none

/-- The rest of the function. -/
def Entry.run (entry : Entry) (succeeds : Call → Bool) (ctime : Call → ℕ × ℕ) : Fs × Locals :=
  let (fs, s) :=
    if entry.commits then commit succeeds ctime entry.fs entry.locals else (entry.fs, entry.locals)
  (cleanup succeeds ctime fs s, s)

/-- The first rename is reached and succeeds. -/
def Entry.swapped (entry : Entry) (succeeds : Call → Bool) (ctime : Call → ℕ × ℕ) : Bool :=
  entry.commits && replacementIsUnchanged succeeds entry.fs entry.locals &&
    targetIsUnchanged succeeds entry.fs entry.locals &&
    (renameSwap succeeds ctime .renameSwap entry.fs).isSome

end LiveExec32.Injection
