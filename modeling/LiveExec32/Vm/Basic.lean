import LiveExec32.Lib.Program

/-! # The guest address space: data model

The guest map is a hash table from page-aligned guest addresses to `memory_page` objects. Next to it
stand two redundant fast structures: Dynarmic's page table, one host pointer per 4 KiB guest page,
and a lookup generation that stamps per-thread caches. Host storage is owned by reference counted
`memory_backing` objects, one for each host mapping.

A VM mutator runs under `guestVmMutex`, but other threads load page-table entries without that
mutex. The mutators are therefore written as `VmProg`s: programs over the atomic actions
`VmAction`, so that every state between two stores of the source is a state of the model. -/

namespace LiveExec32.Vm

/-! ## Constants and address arithmetic -/

/-- `DYN_PAGE_SIZE`: guest pages are 4 KiB. -/
abbrev dynPageSize : ℕ := 4096

/-- `DYN_PAGE_MASK`. -/
abbrev dynPageMask : ℕ := 4095

/-- The size of the 32-bit guest address space. -/
abbrev addressSpaceSize : ℕ := 2 ^ 32

def protRead : ℕ := 1
def protWrite : ℕ := 2
def protExec : ℕ := 4
def mapShared : ℕ := 0x1
def mapPrivate : ℕ := 0x2
def mapFixed : ℕ := 0x10
def mapAnonymous : ℕ := 0x1000
def vmFlagsAnywhere : ℕ := 0x1
def vmFlagsOverwrite : ℕ := 0x4000

/-- Whether the bit set `x` has a bit in `mask`: `(x & mask) != 0`. -/
def hasBits (x mask : ℕ) : Bool := decide (x &&& mask ≠ 0)

/-- Whether the bit set `x` has no bit outside `mask`: `(x & ~mask) == 0`. -/
def onlyBits (x mask : ℕ) : Bool := decide (x ||| mask = mask)

/-- Host pointers are 64-bit words. -/
def hostWord (x : ℕ) : ℕ := x % 2 ^ 64

/-- `vaddr >> DYN_PAGE_BITS`. -/
def pageIndex (vaddr : ℕ) : ℕ := vaddr / dynPageSize

/-- The addresses visited by `for (vaddr = address; vaddr < address + size; vaddr += DYN_PAGE_SIZE)`
    for a size that is a multiple of the page size. -/
def guestPages (address size : ℕ) : List ℕ :=
  (List.range (size / dynPageSize)).map (fun i => address + i * dynPageSize)

def guestAddressRangeIsValid32 (address size : ℕ) : Bool :=
  decide (address < addressSpaceSize ∧ size ≤ addressSpaceSize - address)

def guestProtectionIsValid (protection : ℕ) : Bool :=
  onlyBits protection (protRead ||| protWrite ||| protExec)

/-- Guest execution reads instruction bytes, so execute permission asks the host for read. -/
def hostProtectionForGuestPermissions (permissions : ℕ) : ℕ :=
  (permissions &&& (protRead ||| protWrite))
    ||| (if hasBits permissions protExec then protRead else 0)

/-! ## Pages, backings and the shared state -/

/-- `struct memory_page`. `self` is the identity of the object (the pointer `t_memory_page`), `addr`
    its host address (`0` is the null pointer) and `backing` names a `MemoryBacking`. -/
structure MemoryPage where
  self : ℕ
  addr : ℕ
  perms : ℕ
  enforceDataPermissions : Bool
  backing : Option ℕ
deriving DecidableEq, Repr

/-- A page object as `calloc` returns it. -/
def MemoryPage.zero (self : ℕ) : MemoryPage := ⟨self, 0, 0, false, none⟩

/-- `struct memory_backing`: one host mapping shared by the guest pages that point into it. -/
structure MemoryBacking where
  addr : ℕ
  size : ℕ
  references : ℕ
  hostProtection : ℕ
deriving DecidableEq, Repr

/-- A host pointer together with the backing whose storage it was made from. Only `addr` exists at
    run time; `owner` is its provenance. -/
structure HostPointer where
  addr : ℕ
  owner : Option ℕ
deriving DecidableEq, Repr

/-- What `guestVmMutex` guards, and the page table. Backings are named by their allocation number,
    so `backings b = none` for a name that was never allocated or whose backing was retired. -/
structure VmState where
  memory : ℕ → Option MemoryPage
  pageTable : ℕ → Option HostPointer
  /-- `sharedHandle.page_table != nullptr`. -/
  pageTableMapped : Bool
  numPageTableEntries : ℕ
  backings : ℕ → Option MemoryBacking
  nextBacking : ℕ
  nextPage : ℕ
  /-- The backings handed to `RetireMemoryBacking`, latest first. -/
  retired : List ℕ
  lookupGeneration : ℕ
  /-- Set once an assertion fails, or a missing entry or a dead backing is dereferenced. -/
  assertFailed : Bool
  hostMemory : ℕ → UInt8

/-- The state `Dynarmic_nativeInitialize` leaves: no page, an empty table (absent when its `mmap`
    failed), and the lookup generation bumped once. -/
def VmState.initial (pageTableMapped : Bool) (numPageTableEntries : ℕ) : VmState where
  memory := fun _ => none
  pageTable := fun _ => none
  pageTableMapped := pageTableMapped
  numPageTableEntries := numPageTableEntries
  backings := fun _ => none
  nextBacking := 0
  nextPage := 0
  retired := []
  lookupGeneration := 2
  assertFailed := false
  hostMemory := fun _ => 0

/-- The page-table slot `index` exists. -/
def VmState.hasEntry (s : VmState) (index : ℕ) : Bool :=
  s.pageTableMapped && decide (index < s.numPageTableEntries)

/-- The backing of the page mapped at `vaddr`. -/
def VmState.backingAt (s : VmState) (vaddr : ℕ) : Option ℕ :=
  (s.memory vaddr).bind MemoryPage.backing

/-- The reference counter of `b`, `0` once it is gone. -/
def VmState.references (s : VmState) (b : ℕ) : ℕ :=
  match s.backings b with
  | none => 0
  | some backing => backing.references

/-- Host memory without the mapping of `b`. Zero stands for a byte where nothing is mapped. -/
def VmState.unmapHost (s : VmState) (b : ℕ) : ℕ → UInt8 := fun a =>
  if (s.backings b).any (fun backing => backing.addr ≤ a && a < backing.addr + backing.size) then 0
  else s.hostMemory a

/-- `GuestPageTablePointer` with the memory watch off: strictly permissioned pages that are not
    readable and writable stay out of the page table. -/
def guestPageTablePointer (page : MemoryPage) : Option HostPointer :=
  if page.addr = 0 then none
  else if page.enforceDataPermissions &&
      decide (page.perms &&& (protRead ||| protWrite) ≠ (protRead ||| protWrite)) then none
  else some ⟨page.addr, page.backing⟩

/-! ## Atomic actions -/

/-- The effects a mutator performs one at a time. `read` consults the tables the mutex guards. -/
inductive VmAction where
  | read
  | callocPage
  | setPage (vaddr : ℕ) (page : MemoryPage)
  | khDel (vaddr : ℕ)
  | storePageTable (index : ℕ) (pointer : Option HostPointer)
  | invalidateGuestMemoryLookupCaches
  | mapHost (addr size : ℕ) (bytes : ℕ → UInt8)
  | callocBacking (backing : MemoryBacking)
  | setBacking (b : ℕ) (backing : MemoryBacking)
  | retireMemoryBacking (b : ℕ)
  | assertFail

/-- What an action answers. -/
abbrev VmAction.Reply : VmAction → Type
  | .read => VmState
  | .callocPage => ℕ
  | .callocBacking _ => ℕ
  | _ => Unit

def VmAction.apply : (a : VmAction) → VmState → a.Reply × VmState
  | .read, s => (s, s)
  | .callocPage, s => (s.nextPage, { s with nextPage := s.nextPage + 1 })
  | .setPage vaddr page, s =>
    ((), { s with memory := Function.update s.memory vaddr (some page) })
  | .khDel vaddr, s => ((), { s with memory := Function.update s.memory vaddr none })
  | .storePageTable index pointer, s =>
    ((), if s.hasEntry index then
      { s with pageTable := Function.update s.pageTable index pointer } else s)
  | .invalidateGuestMemoryLookupCaches, s =>
    ((), { s with lookupGeneration := s.lookupGeneration + 1 })
  | .mapHost addr size bytes, s =>
    ((), { s with hostMemory := fun a =>
      if addr ≤ a ∧ a < addr + size then bytes (a - addr) else s.hostMemory a })
  | .callocBacking backing, s =>
    (s.nextBacking,
      { s with
        backings := Function.update s.backings s.nextBacking (some backing)
        nextBacking := s.nextBacking + 1 })
  | .setBacking b backing, s =>
    ((), { s with backings := Function.update s.backings b (some backing) })
  | .retireMemoryBacking b, s =>
    -- the mapping goes as soon as nobody can use it any more; until then only those read it who
    -- loaded a pointer before
    ((), { s with
      backings := Function.update s.backings b none
      retired := b :: s.retired
      hostMemory := s.unmapHost b })
  | .assertFail, s => ((), { s with assertFailed := true })

/-- Code that runs under `guestVmMutex`. -/
abbrev VmProg := Prog VmAction VmAction.Reply

/-- Run a mutator with nobody else acting on the VM state. -/
abbrev VmProg.run {α : Type} (p : VmProg α) (s : VmState) : α × VmState :=
  Prog.run VmAction.apply p s

/-- Perform one action. -/
abbrev perform (a : VmAction) : VmProg a.Reply := Prog.perform a

def readState : VmProg VmState := perform .read

def setPage (vaddr : ℕ) (page : MemoryPage) : VmProg Unit := perform (.setPage vaddr page)

def khDel (vaddr : ℕ) : VmProg Unit := perform (.khDel vaddr)

/-- `__atomic_store_n(&page_table[vaddr >> DYN_PAGE_BITS], pointer)`, when that slot exists. -/
def storePageTable (vaddr : ℕ) (pointer : Option HostPointer) : VmProg Unit :=
  perform (.storePageTable (pageIndex vaddr) pointer)

def invalidateGuestMemoryLookupCaches : VmProg Unit := perform .invalidateGuestMemoryLookupCaches

def setBacking (b : ℕ) (backing : MemoryBacking) : VmProg Unit := perform (.setBacking b backing)

def retireMemoryBacking (b : ℕ) : VmProg Unit := perform (.retireMemoryBacking b)

def assertFail : VmProg Unit := perform .assertFail

/-! ## Releasing backing references -/

def releaseMemoryBackingReference : Option ℕ → VmProg Unit
  | none => pure ()
  | some b => do
    let s ← readState
    match s.backings b with
    | none => assertFail
    | some backing =>
      if backing.references = 0 then assertFail
      else do
        setBacking b { backing with references := backing.references - 1 }
        if backing.references - 1 ≠ 0 then pure ()
        else retireMemoryBacking b

/-- `page` is the object mapped at `vaddr`. -/
def releaseMemoryPageBacking (vaddr : ℕ) (page : MemoryPage) : VmProg Unit := do
  setPage vaddr { page with backing := none }
  releaseMemoryBackingReference page.backing

/-- `++backing->references`. -/
def retainMemoryBackingReference (b : ℕ) : VmProg Unit := do
  let s ← readState
  match s.backings b with
  | none => assertFail
  | some backing =>
    setBacking b { backing with references := backing.references + 1 }

end LiveExec32.Vm
