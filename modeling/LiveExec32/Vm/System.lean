import LiveExec32.Lib.Execution
import LiveExec32.Vm.Calls
import LiveExec32.Vm.Epoch

/-! # The concurrent guest VM

Any number of threads share the VM state. One mutator at a time holds `guestVmMutex` and performs
its actions one by one; between two of them other threads enter and leave epoch guards and load
page-table entries, which takes no lock. Lookups through the per-thread cache take `guestVmMutex`,
so they run while no mutator does.

`exposed p` is a ghost: the backings participant `p` can have loaded a pointer to since it entered
its outermost guard, namely all that were published at some moment since then. -/

namespace LiveExec32.Vm

/-! ## Lookups -/

/-- `struct GuestMemoryLookupCache`. `filled` is `cache.memory == memory`. -/
structure GuestMemoryLookupCache where
  filled : Bool := false
  generation : ℕ := 0
  guestPageAddress : ℕ := 2 ^ 64 - 1
  hostPageAddress : ℕ := 0
  permissions : ℕ := 0
deriving DecidableEq, Repr

/-- `vaddr & ~DYN_PAGE_MASK`. -/
def pageBase (vaddr : ℕ) : ℕ := vaddr - vaddr % dynPageSize

/-- `host` if the permissions cover the required ones, else null. -/
def permitted (permissions required host : ℕ) : ℕ :=
  if permissions &&& required = required then host else 0

/-- The result (null is `0`) and the thread's cache afterwards. -/
def getMemoryPageWithPermissions (s : VmState) (cache : GuestMemoryLookupCache)
    (vaddr required : ℕ) : ℕ × GuestMemoryLookupCache :=
  if cache.filled = true ∧ cache.generation = s.lookupGeneration
      ∧ cache.guestPageAddress = pageBase vaddr ∧ cache.hostPageAddress ≠ 0 then
    (permitted cache.permissions required cache.hostPageAddress, cache)
  else
    match s.memory (pageBase vaddr) with
    | none => (0, cache)
    | some page =>
      if page.addr = 0 then (0, cache)
      else (permitted page.perms required page.addr,
        ⟨true, s.lookupGeneration, pageBase vaddr, page.addr, page.perms⟩)

/-- The lookup without a cache: what the current map says. -/
def lookupMap (s : VmState) (vaddr required : ℕ) : ℕ :=
  match s.memory (pageBase vaddr) with
  | none => 0
  | some page => permitted page.perms required page.addr

/-- The hash-map path of `get_memory_page`. -/
def getMemoryPageSlow (s : VmState) (vaddr : ℕ) : ℕ :=
  match s.memory (pageBase vaddr) with
  | none => 0
  | some page => page.addr

def getMemoryPage (s : VmState) (vaddr : ℕ) : ℕ :=
  if s.hasEntry (pageIndex vaddr) then
    match s.pageTable (pageIndex vaddr) with
    | some fastPage => fastPage.addr
    | none => getMemoryPageSlow s vaddr
  else getMemoryPageSlow s vaddr

/-! ## The system -/

/-- A thread can load a pointer into `b`, from the page table or from the map. -/
def VmState.published (s : VmState) (b : ℕ) : Prop :=
  (∃ i pointer, s.hasEntry i = true ∧ s.pageTable i = some pointer ∧ pointer.owner = some b)
    ∨ ∃ vaddr, s.backingAt vaddr = some b

structure System where
  vm : VmState
  /-- The rest of the mutator that holds `guestVmMutex`. -/
  running : Option (VmProg Bool)
  caches : ℕ → GuestMemoryLookupCache
  epochs : EpochState
  exposed : ℕ → Set ℕ

inductive SystemEvent where
  /-- A mutator takes `guestVmMutex`. -/
  | lock (call : VmCall)
  /-- The holder performs its next action, or releases the mutex after its last one. -/
  | mutate
  | lookup (thread vaddr required : ℕ)
  | register (p : ℕ)
  | unregister (p : ℕ)
  | enterGuard (p : ℕ)
  | exitGuard (p : ℕ)

def System.initial (mapped : Bool) (n : ℕ) : System where
  vm := VmState.initial mapped n
  running := none
  caches := fun _ => {}
  epochs := EpochState.initial
  exposed := fun _ => ∅

/-- The part of an action that concerns the epochs. -/
def VmAction.epochEffect : VmAction → EpochState → EpochState
  | .retireMemoryBacking b, e => e.retire b
  | _, e => e

/-- Note what the participants inside a guard can load now; who is outside can use nothing. -/
def System.observe (c : System) : System :=
  { c with
    exposed := fun p =>
      {b | c.epochs.active p = true ∧ (b ∈ c.exposed p ∨ c.vm.published b)} }

/-- One event, before observation. -/
def System.move (c : System) : SystemEvent → System
  | .lock call =>
    match c.running with
    | none => { c with running := some call.body }
    | some _ => c
  | .mutate =>
    match c.running with
    | none => c
    | some (.ret _) => { c with running := none }
    | some (.act a k) =>
      { c with
        vm := (a.apply c.vm).2
        running := some (k (a.apply c.vm).1)
        epochs := a.epochEffect c.epochs }
  | .lookup thread vaddr required =>
    match c.running with
    | none =>
      { c with
        caches := Function.update c.caches thread
          (getMemoryPageWithPermissions c.vm (c.caches thread) vaddr required).2 }
    | some _ => c
  | .register p => { c with epochs := registerGuestVmEpochParticipant p c.epochs }
  | .unregister p => { c with epochs := unregisterGuestVmEpochParticipant p c.epochs }
  | .enterGuard p => { c with epochs := enterGuestVmEpochGuard p c.epochs }
  | .exitGuard p => { c with epochs := exitGuestVmEpochGuard p c.epochs }

def System.step (c : System) (event : SystemEvent) : System := (c.move event).observe

/-- The system after a list of events. -/
def System.run (mapped : Bool) (n : ℕ) (events : List SystemEvent) : System :=
  Execution.run System.step (System.initial mapped n) events

/-! ## The VM side of a run -/

/-- A filled cache is not from the future, and one of the current generation agrees with the map. -/
def CacheValid (s : VmState) (cache : GuestMemoryLookupCache) : Prop :=
  cache.filled = true → cache.generation ≤ s.lookupGeneration
    ∧ (cache.generation = s.lookupGeneration → ∃ page, s.memory cache.guestPageAddress = some page
      ∧ page.addr = cache.hostPageAddress ∧ page.perms = cache.permissions)

/-- The invariant of the VM side. `base` is the state the current critical section started in; a
    running mutator still meets its specification from there. -/
structure VmSide (base : VmState) (c : System) : Prop where
  base_invariant : VmInvariant 0 ∅ base
  idle : c.running = none → c.vm = base
  busy : ∀ p, c.running = some p →
    ∃ unchanged, VmSpec p c.vm (fun ok t => CallEffect unchanged base ok t)
  safe : SafelyPublished c.vm
  caches : ∀ thread, CacheValid base (c.caches thread)

variable {s : VmState} {cache : GuestMemoryLookupCache}

theorem CacheValid.lookup (h : CacheValid s cache) (vaddr required : ℕ) :
    CacheValid s (getMemoryPageWithPermissions s cache vaddr required).2 := by
  unfold getMemoryPageWithPermissions
  split
  · exact h
  · split
    · exact h
    · rename_i page hpage
      split
      · exact h
      · exact fun _ => ⟨Nat.le_refl _, fun _ => ⟨page, hpage, rfl, rfl⟩⟩

/-- A cache survives a call: either the call bumped the generation or it left the map alone. -/
theorem CacheValid.call {t : VmState} {unchanged : VmState → VmState → Prop} {ok : Bool}
    (h : CacheValid s cache) (he : CallEffect unchanged s ok t) : CacheValid t cache := by
  obtain ⟨k, hevolves, hmemory⟩ := he.evolves
  intro hfilled
  obtain ⟨hle, hcurrent⟩ := h hfilled
  rw [hevolves.generation]
  refine ⟨by omega, fun heq => ?_⟩
  have hzero : k = 0 := by omega
  rw [hmemory hzero]
  exact hcurrent (by omega)

variable {base : VmState} {c : System}

/-- Epoch events leave the VM side alone. -/
theorem VmSide.epochs (h : VmSide base c) (e : EpochState) : VmSide base { c with epochs := e } :=
  ⟨h.base_invariant, h.idle, h.busy, h.safe, h.caches⟩

/-- **Step lemma of the VM side.** -/
theorem VmSide.move (h : VmSide base c) (event : SystemEvent) :
    ∃ base', VmSide base' (c.move event) := by
  cases event with
  | lock call =>
    cases hrun : c.running with
    | none =>
      refine ⟨base, ?_⟩
      simp only [System.move, hrun]
      refine ⟨h.base_invariant, nofun, ?_, h.safe, h.caches⟩
      intro p hp
      simp only [Option.some.injEq] at hp
      subst hp
      rw [h.idle hrun]
      exact ⟨_, call.body_spec h.base_invariant⟩
    | some => exact ⟨base, by simpa only [System.move, hrun] using h⟩
  | mutate =>
    cases hrun : c.running with
    | none => exact ⟨base, by simpa only [System.move, hrun] using h⟩
    | some p =>
      obtain ⟨unchanged, hspec⟩ := h.busy p hrun
      cases p with
      | ret ok =>
        -- the call has ended: its final state is the new base
        refine ⟨c.vm, ?_⟩
        simp only [System.move, hrun]
        have he : CallEffect unchanged base ok c.vm := hspec
        exact ⟨he.invariant, fun _ => rfl, fun p hp => absurd hp (by simp), h.safe,
          fun thread => (h.caches thread).call he⟩
      | act =>
        refine ⟨base, ?_⟩
        simp only [System.move, hrun]
        refine ⟨h.base_invariant, nofun, ?_, hspec.1, h.caches⟩
        intro p hp
        simp only [Option.some.injEq] at hp
        subst hp
        exact ⟨unchanged, hspec.2⟩
  | lookup thread vaddr required =>
    cases hrun : c.running with
    | none =>
      refine ⟨base, ?_⟩
      simp only [System.move, hrun]
      refine ⟨h.base_invariant, fun _ => h.idle hrun, fun p hp => absurd hp (by simp), h.safe,
        fun other => ?_⟩
      by_cases ho : other = thread
      · subst ho
        simpa [h.idle hrun] using (h.caches other).lookup vaddr required
      · simpa [ho] using h.caches other
    | some => exact ⟨base, by simpa only [System.move, hrun] using h⟩
  | register | unregister | enterGuard | exitGuard => exact ⟨base, h.epochs _⟩

/-- Every state of every run has a well-behaved VM side. -/
theorem System.run_vmSide (mapped : Bool) (n : ℕ) (events : List SystemEvent) :
    ∃ base, VmSide base (System.run mapped n events) := by
  refine @Execution.run_invariant _ _ System.step (fun c => ∃ base, VmSide base c)
    (fun c event h => ?_) _ ?_ events
  · obtain ⟨base, hbase⟩ := h
    obtain ⟨base', hmove⟩ := hbase.move event
    exact ⟨base', hmove.base_invariant, hmove.idle, hmove.busy, hmove.safe, hmove.caches⟩
  · exact ⟨VmState.initial mapped n, VmInvariant.initial mapped n, fun _ => rfl,
      fun p hp => absurd hp (by simp [System.initial]),
      (VmInvariant.initial mapped n).safelyPublished,
      fun _ hf => absurd hf (by simp [System.initial])⟩

end LiveExec32.Vm
