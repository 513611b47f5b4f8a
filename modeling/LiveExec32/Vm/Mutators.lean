import LiveExec32.Vm.Basic

/-! # The guest VM mutators

`Dynarmic_mmap`, `Dynarmic_direct_mmap`, `Dynarmic_vm_remap`, `Dynarmic_mprotect`,
`Dynarmic_munmap` and `ReplaceGuestMemoryRangeWithPrivateCopy`, each the body of one `guestVmMutex`
critical section. What the host answers (`mmap`, `vm_allocate`, `calloc`, vector growth, hash
insertion, `mprotect`) is a parameter `HostOutcomes`: any pattern of successes and failures. -/

namespace LiveExec32.Vm

/-! ## Host outcomes and results -/

inductive Errno where
  | EINVAL
  | ENOMEM
  | EEXIST
  | EFAULT
  | EACCES
  /-- The value a failed host call left in `errno`. -/
  | host (code : ℕ)
deriving DecidableEq, Repr

inductive KernReturn where
  | KERN_SUCCESS
  | KERN_INVALID_ADDRESS
  | KERN_NO_SPACE
  | KERN_INVALID_ARGUMENT
  | KERN_RESOURCE_SHORTAGE
  | KERN_NOT_SUPPORTED
deriving DecidableEq, Repr

/-- The arguments of a host `mmap` call (its address is always null). -/
structure HostMmapRequest where
  size : ℕ
  protection : ℕ
  flags : ℕ
  fildes : ℤ
  offset : ℕ

/-- A fresh host mapping of `size` bytes with its initial contents, inside the 64-bit host address
    space. -/
structure HostMapping (size : ℕ) where
  addr : ℕ
  bytes : ℕ → UInt8
  fits : addr + size ≤ 2 ^ 64

/-- The three answers of `kh_put`: `ret < 0`, `ret == 0` and a fresh slot. -/
inductive KhPut where
  | failed
  | present
  | inserted
deriving DecidableEq, Repr

/-- What the host answers during one call. Page objects and hash insertions are indexed by the
    guest address they are for, `mprotect` calls by their backing. -/
structure HostOutcomes where
  /-- The host's `PAGE_SIZE`. -/
  pageSize : ℕ
  vectorReserve : Bool
  /-- `pages.resize` in `Dynarmic_vm_remap`. -/
  resizePages : Bool
  callocPage : ℕ → Bool
  pushBack : ℕ → Bool
  khPut : ℕ → KhPut
  mmap : (request : HostMmapRequest) → Option (HostMapping request.size)
  vmAllocate : (size : ℕ) → Except KernReturn (HostMapping size)
  callocBacking : Bool
  mprotect : ℕ → Bool
  errno : ℕ

/-! ## Unmapping -/

def validateGuestMunmapRangeLocked (s : VmState) (address size : ℕ) : Except Errno Unit :=
  if address % dynPageSize ≠ 0 then .error .EINVAL
  else if size = 0 ∨ size % dynPageSize ≠ 0 then .error .EINVAL
  else if ¬ guestAddressRangeIsValid32 address size then .error .EINVAL
  -- the complete range is validated first: a hole must not leave preceding pages removed
  else if (guestPages address size).all (fun vaddr => (s.memory vaddr).isSome) then .ok ()
  else .error .ENOMEM

/-- The body of `Dynarmic_munmap`'s loop. -/
def unmapGuestPage (vaddr : ℕ) : VmProg Unit := do
  storePageTable vaddr none
  let s ← readState
  match s.memory vaddr with
  | none => assertFail
  | some page => do
    releaseMemoryPageBacking vaddr page
    khDel vaddr

def dynarmicMunmap (address size : ℕ) : VmProg (Except Errno Unit) := do
  let s ← readState
  match validateGuestMunmapRangeLocked s address size with
  | .error e => pure (.error e)
  | .ok _ => do
    invalidateGuestMemoryLookupCaches
    Prog.forEach unmapGuestPage (guestPages address size)
    pure (.ok ())

/-! ## Reserving guest pages -/

structure GuestPageReservation where
  address : ℕ
  page : ℕ
deriving DecidableEq, Repr

/-- Undo reservations, latest first. -/
def rollbackGuestPageReservations : List GuestPageReservation → VmProg Unit
  | [] => pure ()
  | reservation :: rest => do
    let s ← readState
    if (s.memory reservation.address).any (fun page => page.self == reservation.page) then do
      khDel reservation.address
      rollbackGuestPageReservations rest
    else rollbackGuestPageReservations rest

def alignGuestAddress (address mask : ℕ) : Option ℕ :=
  let adjustment := (mask + 1 - (address &&& mask)) &&& mask
  if addressSpaceSize ≤ address ∨ addressSpaceSize - address < adjustment then none
  else if address + adjustment < addressSpaceSize then some (address + adjustment)
  else none

variable {address mask : ℕ}

theorem alignGuestAddress_some {aligned : ℕ} (h : alignGuestAddress address mask = some aligned) :
    address ≤ aligned ∧ aligned < addressSpaceSize := by
  simp only [alignGuestAddress] at h
  split at h
  · simp at h
  · split at h
    · simp only [Option.some.injEq] at h
      exact ⟨by omega, by omega⟩
    · simp at h

/-- The first page of the candidate range that is already mapped. -/
def firstCollision (memory : ℕ → Option MemoryPage) (address size : ℕ) : Option ℕ :=
  (guestPages address size).find? (fun vaddr => (memory vaddr).isSome)

theorem le_of_mem_guestPages {size vaddr : ℕ} (h : vaddr ∈ guestPages address size) :
    address ≤ vaddr := by
  simp only [guestPages, List.mem_map, List.mem_range] at h
  obtain ⟨i, _, rfl⟩ := h
  exact Nat.le_add_right _ _

/-- The guest bytes from `address` on, which shrink with every restart of the search. -/
@[irreducible] def spaceAbove (address : ℕ) : ℕ := addressSpaceSize - address

theorem spaceAbove_lt {next : ℕ} (hlt : address < next) (hnext : next < addressSpaceSize) :
    spaceAbove next < spaceAbove address := by
  unfold spaceAbove
  exact Nat.sub_lt_sub_left (Nat.lt_trans hlt hnext) hlt

/-- One scan of the collision loop: `none` when the candidate range is free, otherwise the next
    aligned candidate after the page that collided, if the range still fits there. -/
def nextCandidate (memory : ℕ → Option MemoryPage) (size mask address : ℕ) : Option (Option ℕ) :=
  match firstCollision memory address size with
  | none => none
  | some vaddr =>
    some ((alignGuestAddress (vaddr + dynPageSize) mask).filter
      (fun next => guestAddressRangeIsValid32 next size))

theorem nextCandidate_lt {memory : ℕ → Option MemoryPage} {size next : ℕ}
    (h : nextCandidate memory size mask address = some (some next)) :
    spaceAbove next < spaceAbove address := by
  unfold nextCandidate at h
  split at h
  · simp at h
  · rename_i vaddr hcol
    simp only [Option.some.injEq, Option.filter_eq_some_iff] at h
    have hle := le_of_mem_guestPages (List.mem_of_find?_eq_some hcol)
    have hal := alignGuestAddress_some h.1
    have hpos : 0 < dynPageSize := by decide
    exact spaceAbove_lt (by omega) hal.2

/-- The collision loop of a non-fixed reservation: the complete range scan restarts after every
    collision, so that each candidate is aligned. -/
def searchFreeRange (memory : ℕ → Option MemoryPage) (size mask address : ℕ) : Option ℕ :=
  match _h : nextCandidate memory size mask address with
  | none => some address
  | some none => none
  | some (some next) => searchFreeRange memory size mask next
termination_by spaceAbove address
decreasing_by exact nextCandidate_lt _h

/-- The insertion loop of `Dynarmic_mem_reserve`. -/
def reserveGuestPages (host : HostOutcomes) (fixed : Bool) :
    List ℕ → List GuestPageReservation → VmProg (Except Errno (List GuestPageReservation))
  | [], reservations => pure (.ok reservations)
  | vaddr :: rest, reservations => do
    let s ← readState
    if (s.memory vaddr).isSome then
      if fixed then reserveGuestPages host fixed rest reservations
      else do
        assertFail
        reserveGuestPages host fixed rest reservations
    else if !host.callocPage vaddr then do
      rollbackGuestPageReservations reservations
      pure (.error .ENOMEM)
    else do
      let page ← perform .callocPage
      if !host.pushBack vaddr then do
        rollbackGuestPageReservations reservations
        pure (.error .ENOMEM)
      else
        match host.khPut vaddr with
        | .failed => do
          rollbackGuestPageReservations (⟨vaddr, page⟩ :: reservations)
          pure (.error .ENOMEM)
        | .present => do
          rollbackGuestPageReservations (⟨vaddr, page⟩ :: reservations)
          pure (.error .EEXIST)
        | .inserted => do
          setPage vaddr (MemoryPage.zero page)
          reserveGuestPages host fixed rest (⟨vaddr, page⟩ :: reservations)

/-- The address a reservation starts at, from the argument checks and the map alone. -/
def reserveAddress (memory : ℕ → Option MemoryPage) (address size : ℕ) (fixed : Bool) (mask : ℕ) :
    Except Errno ℕ :=
  if size = 0 ∨ size % dynPageSize ≠ 0 ∨ mask < dynPageMask ∨ 2 ^ 32 - 1 < mask
      ∨ mask &&& (mask + 1) ≠ 0 then .error .EINVAL
  -- fixed mappings keep only the null-page guard, other hints are moved off low addresses
  else if fixed = true ∧ address < dynPageSize then .error .ENOMEM
  else
    let hint := if fixed = false ∧ address < 0x10000000 then address + 0x10000000 else address
    match alignGuestAddress hint mask with
    | none => .error (if fixed then .EINVAL else .ENOMEM)
    | some start =>
      if ¬ guestAddressRangeIsValid32 start size then
        .error (if fixed then .EINVAL else .ENOMEM)
      else if fixed then .ok start
      else
        match searchFreeRange memory size mask start with
        | none => .error .ENOMEM
        | some found => .ok found

/-- The reserved address and the reservations, latest first. -/
def dynarmicMemReserve (host : HostOutcomes) (address size : ℕ) (fixed : Bool) (mask : ℕ) :
    VmProg (Except Errno (ℕ × List GuestPageReservation)) := do
  let s ← readState
  match reserveAddress s.memory address size fixed mask with
  | .error e => pure (.error e)
  | .ok start =>
    if !host.vectorReserve then pure (.error .ENOMEM)
    else do
      let reserved ← reserveGuestPages host fixed (guestPages start size) []
      match reserved with
      | .error e => pure (.error e)
      | .ok reservations => pure (.ok (start, reservations))

/-! ## Mapping -/

/-- The loop body that `Dynarmic_mmap`, `Dynarmic_direct_mmap` and `Dynarmic_vm_remap` share: write
    the page's fields, publish it in the page table, then release the backing it had. -/
def replaceGuestPage (vaddr : ℕ) (fields : MemoryPage → MemoryPage) : VmProg Unit := do
  let s ← readState
  match s.memory vaddr with
  | none => assertFail
  | some page => do
    setPage vaddr (fields page)
    storePageTable vaddr (guestPageTablePointer (fields page))
    releaseMemoryBackingReference page.backing

/-- A page of a new mapping. Read-bearing mappings keep the direct page-table path; others use
    callbacks for strict data permissions. -/
def mappedPage (addr protection : ℕ) (backing : Option ℕ) (page : MemoryPage) : MemoryPage :=
  { page with
    addr := hostWord addr
    perms := protection
    enforceDataPermissions := !hasBits protection protRead
    backing := backing }

/-- `*page = source`, with strict data permissions; the page object stays the same. -/
def remappedPage (source page : MemoryPage) : MemoryPage :=
  { source with self := page.self, enforceDataPermissions := true }

/-- The argument checks that `Dynarmic_mmap` and `Dynarmic_direct_mmap` make. -/
def mmapArgumentsValid (address size protection : ℕ) : Bool :=
  decide (address % dynPageSize = 0) && decide (size ≠ 0 ∧ size % dynPageSize = 0)
    && (guestProtectionIsValid protection && guestAddressRangeIsValid32 address size)

def dynarmicDirectMmap (host : HostOutcomes) (address size protection flags src off : ℕ) :
    VmProg (Except Errno ℕ) :=
  if !mmapArgumentsValid address size protection then pure (.error .EINVAL)
  else do
    let reserved ← dynarmicMemReserve host address size (hasBits flags mapFixed) dynPageMask
    match reserved with
    | .error e => pure (.error e)
    | .ok (start, _) => do
      invalidateGuestMemoryLookupCaches
      Prog.forEach
        (fun vaddr => replaceGuestPage vaddr
          (mappedPage (src + off + (vaddr - start)) protection none))
        (guestPages start size)
      pure (.ok start)

/-- `x & ~mask`. -/
def clearBits (x mask : ℕ) : ℕ := x - (x &&& mask)

/-- Executable file mappings are made private and writable so that software breakpoints can patch
    them. -/
def debuggerWritableExecutableFile (size protection off : ℕ) (fildes : ℤ) : Bool :=
  hasBits protection protExec && decide (fildes ≠ -1) && decide (0x1000 < size)
    && decide (off = 0)

/-- `flags` once `Dynarmic_mmap` has adjusted them for patchable executables. -/
def mmapFlags (size protection flags off : ℕ) (fildes : ℤ) : ℕ :=
  if debuggerWritableExecutableFile size protection off fildes then
    clearBits (flags ||| mapPrivate) mapShared
  else flags

/-- The host protection of a new mapping: anonymous storage and patchable executables stay readable
    and writable for the host. -/
def mmapHostProtection (size protection flags off : ℕ) (fildes : ℤ) : ℕ :=
  hostProtectionForGuestPermissions protection
    ||| (if hasBits flags mapAnonymous then protRead ||| protWrite else 0)
    ||| (if debuggerWritableExecutableFile size protection off fildes then protRead ||| protWrite
      else 0)

/-- `off & ~(PAGE_SIZE - 1)`. -/
def alignedOff (host : HostOutcomes) (off : ℕ) : ℕ := clearBits off (host.pageSize - 1)

def mappingSize (host : HostOutcomes) (size off : ℕ) : ℕ := size + (off - alignedOff host off)

/-- The host mapping behind `Dynarmic_mmap`: a purgeable Mach allocation, or a host `mmap`. -/
def mmapHostMapping (host : HostOutcomes) (size protection flags : ℕ) (fildes : ℤ) (off : ℕ)
    (purgable : Bool) : Except Errno (HostMapping (mappingSize host size off)) :=
  if purgable then
    if !hasBits flags mapAnonymous ∨ fildes ≠ -1 ∨ alignedOff host off ≠ 0 then .error .EINVAL
    else
      match host.vmAllocate (mappingSize host size off) with
      | .ok mapping => .ok mapping
      | .error .KERN_NO_SPACE => .error .ENOMEM
      | .error .KERN_RESOURCE_SHORTAGE => .error .ENOMEM
      | .error _ => .error .EINVAL
  else
    match host.mmap ⟨mappingSize host size off, mmapHostProtection size protection flags off fildes,
      clearBits flags mapFixed, fildes, alignedOff host off⟩ with
    | some mapping => .ok mapping
    | none => .error (.host host.errno)

def dynarmicMmap (host : HostOutcomes) (address size protection flags : ℕ) (fildes : ℤ)
    (off mask : ℕ) (purgable : Bool) : VmProg (Except Errno ℕ) :=
  if !mmapArgumentsValid address size protection then pure (.error .EINVAL)
  else do
    let reserved ← dynarmicMemReserve host address size (hasBits flags mapFixed) mask
    match reserved with
    | .error e => pure (.error e)
    | .ok (start, reservations) =>
      let hostFlags := mmapFlags size protection flags off fildes
      match mmapHostMapping host size protection hostFlags fildes off purgable with
      | .error e => do
        rollbackGuestPageReservations reservations
        pure (.error e)
      | .ok mapping =>
        if !host.callocBacking then do
          -- the host mapping is unmapped again, nothing else refers to it
          rollbackGuestPageReservations reservations
          pure (.error .ENOMEM)
        else do
          perform (.mapHost mapping.addr (mappingSize host size off) mapping.bytes)
          let backing ← perform (.callocBacking
            { addr := mapping.addr
              size := mappingSize host size off
              references := size / dynPageSize
              hostProtection := mmapHostProtection size protection hostFlags off fildes })
          invalidateGuestMemoryLookupCaches
          Prog.forEach
            (fun vaddr => replaceGuestPage vaddr
              (mappedPage (mapping.addr + (off - alignedOff host off) + (vaddr - start))
                protection (some backing)))
            (guestPages start size)
          pure (.ok start)

/-! ## Shared aliases -/

/-- The source pages of a remap, in order; the first unusable page decides the error. -/
def remapSourcePages (s : VmState) : List ℕ → Except KernReturn (List MemoryPage)
  | [] => .ok []
  | vaddr :: rest =>
    match s.memory vaddr with
    | none => .error .KERN_INVALID_ADDRESS
    | some page =>
      if page.addr = 0 then .error .KERN_INVALID_ADDRESS
      else if page.backing = none ∨ hasBits page.perms protExec then
        .error .KERN_NOT_SUPPORTED
      else
        match remapSourcePages s rest with
        | .error k => .error k
        | .ok pages => .ok (page :: pages)

/-- The argument checks of `Dynarmic_vm_remap`, made before the lock is taken. Answers the rounded
    length and the destination hint. -/
def remapArguments (address size mask flags source : ℕ) (copy : Bool) :
    Except KernReturn (ℕ × ℕ) :=
  let alignment := mask ||| dynPageMask
  let anywhere := hasBits flags vmFlagsAnywhere
  let overwrite := hasBits flags vmFlagsOverwrite
  let length := clearBits (size + dynPageMask) dynPageMask
  let destination := if anywhere then 0 else clearBits address dynPageMask
  if copy = true ∨ source % dynPageSize ≠ 0 then .error .KERN_NOT_SUPPORTED
  else if ¬ onlyBits flags (vmFlagsAnywhere ||| vmFlagsOverwrite)
      ∨ (anywhere = true ∧ overwrite = true) ∨ alignment &&& (alignment + 1) ≠ 0 then
    .error .KERN_INVALID_ARGUMENT
  else if length = 0 then .error .KERN_INVALID_ARGUMENT
  else if ¬ guestAddressRangeIsValid32 source length then .error .KERN_INVALID_ADDRESS
  else if ¬ guestAddressRangeIsValid32 destination length
      ∨ (anywhere = false ∧ (destination < dynPageSize ∨ destination &&& alignment ≠ 0)) then
    .error .KERN_NO_SPACE
  else .ok (length, destination)

/-- Answers the mapped address and the protection common to all source pages. -/
def dynarmicVmRemap (host : HostOutcomes) (address size mask flags source : ℕ) (copy : Bool) :
    VmProg (Except KernReturn (ℕ × ℕ)) :=
  match remapArguments address size mask flags source copy with
  | .error k => pure (.error k)
  | .ok (length, destination) =>
    let anywhere := hasBits flags vmFlagsAnywhere
    let overwrite := hasBits flags vmFlagsOverwrite
    if !host.resizePages then pure (.error .KERN_RESOURCE_SHORTAGE)
    else do
      let s ← readState
      match remapSourcePages s (guestPages source length) with
      | .error k => pure (.error k)
      | .ok pages =>
        if anywhere = false ∧ overwrite = false
            ∧ (guestPages destination length).any (fun vaddr => (s.memory vaddr).isSome) then
          pure (.error .KERN_NO_SPACE)
        else do
          let reserved ← dynarmicMemReserve host destination length (!anywhere)
            (mask ||| dynPageMask)
          match reserved with
          | .error _ => pure (.error .KERN_NO_SPACE)
          | .ok (mapped, _) => do
            -- every source is retained first: an overlapping overwrite may release the
            -- original mappings while later pages still refer to those same backings
            Prog.forEach retainMemoryBackingReference (pages.filterMap MemoryPage.backing)
            invalidateGuestMemoryLookupCaches
            Prog.forEach
              (fun entry => replaceGuestPage entry.1 (remappedPage entry.2))
              ((guestPages mapped length).zip pages)
            pure (.ok (mapped, pages.foldl (fun common page => common &&& page.perms)
              (protRead ||| protWrite ||| protExec)))

/-! ## Changing protections -/

/-- `backingUpdates`: each backing of the range once, in order of first occurrence, with the widened
    host protection it needs. -/
def backingProtectionUpdates (s : VmState) (perms : ℕ) : List ℕ → List (ℕ × ℕ) → List (ℕ × ℕ)
  | [], updates => updates
  | vaddr :: rest, updates =>
    match s.backingAt vaddr with
    | none => backingProtectionUpdates s perms rest updates
    | some b =>
      if updates.any (fun update => update.1 == b) then
        backingProtectionUpdates s perms rest updates
      else
        match s.backings b with
        | none => backingProtectionUpdates s perms rest updates
        | some backing =>
          backingProtectionUpdates s perms rest
            (updates ++ [(b, backing.hostProtection
              ||| hostProtectionForGuestPermissions perms)])

/-- Publish the page mapped at `vaddr` as it stands. -/
def republishGuestPage (vaddr : ℕ) : VmProg Unit := do
  let s ← readState
  match s.memory vaddr with
  | none => assertFail
  | some page => storePageTable vaddr (guestPageTablePointer page)

/-- Widen the host protections one backing at a time. Answers whether every host call succeeded. -/
def widenHostProtections (host : HostOutcomes) : List (ℕ × ℕ) → VmProg Bool
  | [] => pure true
  | (b, required) :: rest => do
    let s ← readState
    match s.backings b with
    | none => do
      assertFail
      widenHostProtections host rest
    | some backing =>
      if required = backing.hostProtection then widenHostProtections host rest
      else if !host.mprotect b then pure false
      else do
        setBacking b { backing with hostProtection := required }
        widenHostProtections host rest

/-- The commit loop of `Dynarmic_mprotect`. -/
def protectGuestPage (perms vaddr : ℕ) : VmProg Unit := do
  let s ← readState
  match s.memory vaddr with
  | none => assertFail
  | some page => do
    setPage vaddr { page with perms := perms, enforceDataPermissions := true }
    storePageTable vaddr
      (guestPageTablePointer { page with perms := perms, enforceDataPermissions := true })

def mprotectArgumentsValid (address size perms : ℕ) : Bool :=
  decide (address % dynPageSize = 0) && decide (size ≠ 0 ∧ size % dynPageSize = 0)
    && guestProtectionIsValid perms && decide (address + size ≤ 2 ^ 64 - 1)
    && guestAddressRangeIsValid32 address size

def dynarmicMprotect (host : HostOutcomes) (address size perms : ℕ) :
    VmProg (Except Errno Unit) :=
  if !mprotectArgumentsValid address size perms then pure (.error .EINVAL)
  else do
    let s ← readState
    if !host.vectorReserve then pure (.error .ENOMEM)
    -- an allocation failure while the pages are collected and a hole answer alike, and neither
    -- has changed anything yet
    else if !(guestPages address size).all (fun vaddr =>
        host.pushBack vaddr && (s.memory vaddr).isSome) then pure (.error .ENOMEM)
    else do
      invalidateGuestMemoryLookupCaches
      -- fast-path pointers go first, so that new accesses enter a callback and wait for the lock
      Prog.forEach (fun vaddr => storePageTable vaddr none) (guestPages address size)
      let widened ← widenHostProtections host
        (backingProtectionUpdates s perms (guestPages address size) [])
      if !widened then do
        Prog.forEach republishGuestPage (guestPages address size)
        pure (.error (.host host.errno))
      else do
        Prog.forEach (protectGuestPage perms) (guestPages address size)
        pure (.ok ())

/-! ## Private replacement -/

/-- The checks the collection loop of `ReplaceGuestMemoryRangeWithPrivateCopy` makes on the page at
    `offset` of a range of `size` bytes. -/
def replacedPageCheck (host : HostOutcomes) (s : VmState) (address size offset : ℕ) :
    Except Errno Unit :=
  match s.memory (address + offset) with
  | none => .error .EFAULT
  | some page =>
    if page.addr = 0 then .error .EFAULT
    else if size - offset < dynPageSize
        ∧ (page.backing.bind s.backings).any (fun backing =>
          !hasBits backing.hostProtection protRead) then .error .EACCES
    else if !host.pushBack (address + offset) then .error .ENOMEM
    else .ok ()

/-- The first failing check in order of the offsets. -/
def replacedPagesCheck (host : HostOutcomes) (s : VmState) (address size : ℕ) :
    List ℕ → Except Errno Unit
  | [] => .ok ()
  | offset :: rest =>
    match replacedPageCheck host s address size offset with
    | .error e => .error e
    | .ok _ => replacedPagesCheck host s address size rest

/-- The bytes of the private mapping: the source, then what the last page held behind it. -/
def privateCopyBytes (s : VmState) (address size : ℕ) (source : ℕ → UInt8) : ℕ → UInt8 :=
  fun offset =>
    if offset < size then source offset
    else
      match s.memory (address + (offset - offset % dynPageSize)) with
      | none => 0
      | some page => s.hostMemory (page.addr + offset % dynPageSize)

/-- Point the page at `vaddr` to its private copy; it is not in the page table meanwhile. -/
def retargetGuestPage (addr backing vaddr : ℕ) : VmProg Unit := do
  let s ← readState
  match s.memory vaddr with
  | none => assertFail
  | some page => do
    setPage vaddr { page with addr := addr, backing := some backing }
    releaseMemoryBackingReference page.backing

def replaceGuestMemoryRangeWithPrivateCopy (host : HostOutcomes) (address size : ℕ)
    (source : Option (ℕ → UInt8)) : VmProg (Except Errno Unit) :=
  if size = 0 then pure (.ok ())
  else
    match source with
    | none => pure (.error .EINVAL)
    | some bytes =>
      let mappedSize := clearBits (size + dynPageMask) dynPageMask
      if address % dynPageSize ≠ 0 ∨ ¬ guestAddressRangeIsValid32 address size
          ∨ 2 ^ 64 - 1 - dynPageMask < size then pure (.error .EINVAL)
      else if !host.vectorReserve then pure (.error .ENOMEM)
      else do
        let s ← readState
        match replacedPagesCheck host s address size (guestPages 0 mappedSize) with
        | .error e => pure (.error e)
        | .ok _ =>
          match host.mmap ⟨mappedSize, protRead ||| protWrite, mapPrivate ||| mapAnonymous,
            -1, 0⟩ with
          | none => pure (.error (.host host.errno))
          | some mapping =>
            if !host.callocBacking then
              pure (.error (if host.errno = 0 then .ENOMEM else .host host.errno))
            else do
              perform (.mapHost mapping.addr mappedSize
                (privateCopyBytes s address size bytes))
              let backing ← perform (.callocBacking
                { addr := mapping.addr
                  size := mappedSize
                  references := mappedSize / dynPageSize
                  hostProtection := protRead ||| protWrite })
              invalidateGuestMemoryLookupCaches
              Prog.forEach (fun vaddr => storePageTable vaddr none)
                (guestPages address mappedSize)
              Prog.forEach
                (fun vaddr => retargetGuestPage
                  (hostWord (mapping.addr + (vaddr - address))) backing vaddr)
                (guestPages address mappedSize)
              Prog.forEach republishGuestPage (guestPages address mappedSize)
              pure (.ok ())

/-! ## The calls -/

/-- A call of one of the six mutators with all its arguments and the host's answers. -/
inductive VmCall where
  | mmap (host : HostOutcomes) (address size protection flags : ℕ) (fildes : ℤ) (off mask : ℕ)
      (purgable : Bool)
  | directMmap (host : HostOutcomes) (address size protection flags src off : ℕ)
  | vmRemap (host : HostOutcomes) (address size mask flags source : ℕ) (copy : Bool)
  | mprotect (host : HostOutcomes) (address size perms : ℕ)
  | munmap (address size : ℕ)
  | replacePrivate (host : HostOutcomes) (address size : ℕ) (source : Option (ℕ → UInt8))

/-- Whether a result reports success. -/
def reportsSuccess {ε α : Type} : Except ε α → Bool
  | .ok _ => true
  | .error _ => false

/-- The critical section of a call; it answers whether the call reports success. -/
def VmCall.body : VmCall → VmProg Bool
  | .mmap host address size protection flags fildes off mask purgable => do
    let r ← dynarmicMmap host address size protection flags fildes off mask purgable
    pure (reportsSuccess r)
  | .directMmap host address size protection flags src off => do
    let r ← dynarmicDirectMmap host address size protection flags src off
    pure (reportsSuccess r)
  | .vmRemap host address size mask flags source copy => do
    let r ← dynarmicVmRemap host address size mask flags source copy
    pure (reportsSuccess r)
  | .mprotect host address size perms => do
    let r ← dynarmicMprotect host address size perms
    pure (reportsSuccess r)
  | .munmap address size => do
    let r ← dynarmicMunmap address size
    pure (reportsSuccess r)
  | .replacePrivate host address size source => do
    let r ← replaceGuestMemoryRangeWithPrivateCopy host address size source
    pure (reportsSuccess r)

/-- The state after a sequence of calls. -/
def runCalls (calls : List VmCall) (s : VmState) : VmState :=
  calls.foldl (fun t call => (call.body.run t).2) s

end LiveExec32.Vm
