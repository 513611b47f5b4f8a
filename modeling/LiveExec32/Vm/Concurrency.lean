import LiveExec32.Vm.System
import LiveExec32.Vm.Guarantees

/-! # What holds across interleavings

The fast lookups agree with the map whenever no mutator is running, and no backing is unmapped under
a thread that can have loaded a pointer into it. Both hold for every list of events. -/

namespace LiveExec32.Vm

/-! ## The fast lookups refine the map -/

theorem pageIndex_mul_eq_pageBase (vaddr : ℕ) : pageIndex vaddr * dynPageSize = pageBase vaddr := by
  simp only [pageIndex, pageBase, dynPageSize]
  omega

theorem guestPageTablePointer_addr {page : MemoryPage} {pointer : HostPointer}
    (h : guestPageTablePointer page = some pointer) : pointer.addr = page.addr := by
  unfold guestPageTablePointer at h
  split_ifs at h
  simp only [Option.some.injEq] at h
  rw [← h]

variable {s : VmState}

/-- With the page table in step with the map, the fast path answers what the hash map would. -/
theorem VmInvariant.getMemoryPage_eq (h : VmInvariant 0 ∅ s) (vaddr : ℕ) :
    getMemoryPage s vaddr = getMemoryPageSlow s vaddr := by
  unfold getMemoryPage
  split
  · rename_i hentry
    split
    · rename_i fastPage hfast
      rw [h.visible _ hentry (by simp), VmState.expectedEntry, pageIndex_mul_eq_pageBase,
        Option.bind_eq_some_iff] at hfast
      obtain ⟨page, hpage, hpointer⟩ := hfast
      rw [guestPageTablePointer_addr hpointer]
      simp [getMemoryPageSlow, hpage]
    · rfl
  · rfl

/-- A valid cache answers what an uncached lookup would. -/
theorem CacheValid.lookup_eq {cache : GuestMemoryLookupCache} (h : CacheValid s cache)
    (vaddr required : ℕ) :
    (getMemoryPageWithPermissions s cache vaddr required).1 = lookupMap s vaddr required := by
  unfold getMemoryPageWithPermissions lookupMap
  split
  · -- a hit: the generation is current, so the cached page is the mapped one
    next hhit =>
      obtain ⟨hfilled, hgeneration, haddress, -⟩ := hhit
      obtain ⟨page, hpage, haddr, hperms⟩ := (h hfilled).2 hgeneration
      rw [haddress] at hpage
      simp [hpage, haddr, hperms]
  · cases hpage : s.memory (pageBase vaddr) with
    | none => rfl
    | some page =>
      by_cases hnull : page.addr = 0
      · simp [hnull, permitted]
      · simp [hnull]

/-- **The fast lookups refine the map.** In every interleaving, whenever `guestVmMutex` is free the
    page table shows exactly what the map asks for, `get_memory_page` answers what its hash-map path
    alone would, and the cached lookup of any thread answers what an uncached one would. -/
theorem fastLookups_refine_map (mapped : Bool) (n : ℕ) (events : List SystemEvent)
    (hfree : (System.run mapped n events).running = none) :
    let c := System.run mapped n events
    (∀ i, c.vm.hasEntry i = true →
      c.vm.pageTable i = (c.vm.memory (i * dynPageSize)).bind guestPageTablePointer)
    ∧ (∀ vaddr, getMemoryPage c.vm vaddr = getMemoryPageSlow c.vm vaddr)
    ∧ ∀ thread vaddr required,
        (getMemoryPageWithPermissions c.vm (c.caches thread) vaddr required).1
          = lookupMap c.vm vaddr required := by
  intro c
  obtain ⟨base, hside⟩ := System.run_vmSide mapped n events
  have hbase : c.vm = base := hside.idle hfree
  have hinv : VmInvariant 0 ∅ c.vm := hbase ▸ hside.base_invariant
  refine ⟨fun i hi => hinv.visible i hi (by simp), hinv.getMemoryPage_eq, ?_⟩
  intro thread vaddr required
  have hcache : CacheValid c.vm (c.caches thread) := hbase ▸ hside.caches thread
  exact hcache.lookup_eq vaddr required

/-- A mutator that mapped a page between two lookups of one thread. -/
def mapBetweenLookups : List SystemEvent :=
  [.lookup 0 0x10000 1, .lock (.directMmap outOfBackings 0x10000 0x1000 3 0x10 0x500000 0)]
    ++ List.replicate 12 .mutate ++ [.lookup 0 0x10008 1]

/-- After that run the mutex is free again and the thread's lookup finds the new page. -/
theorem fastLookups_refine_map_directMmap :
    (System.run true 32 mapBetweenLookups).running.isNone = true
    ∧ lookupMap (System.run true 32 mapBetweenLookups).vm 0x10008 1 = 0x500000
    ∧ (getMemoryPageWithPermissions (System.run true 32 mapBetweenLookups).vm
        ((System.run true 32 mapBetweenLookups).caches 0) 0x10008 1).1
      = lookupMap (System.run true 32 mapBetweenLookups).vm 0x10008 1 :=
  ⟨by decide +kernel, by decide +kernel,
    (fastLookups_refine_map true 32 mapBetweenLookups
      (Option.isNone_iff_eq_none.1 (by decide +kernel))).2.2 0 0x10008 1⟩

/-! ## Reclamation is safe -/

/-- What can be loaded was not retired. -/
theorem SafelyPublished.published_not_retired (h : SafelyPublished s) {b : ℕ} (hb : s.published b) :
    b ∉ s.retired := by
  have hlive : (s.backings b).isSome := by
    rcases hb with ⟨i, pointer, hentry, hpointer, howner⟩ | ⟨vaddr, hv⟩
    · exact h.entry_live i pointer b hentry hpointer howner
    · exact h.page_live vaddr b hv
  intro hmem
  rw [(h.retired_dead b hmem).2] at hlive
  simp at hlive

/-- The epoch side of the invariant. -/
structure EpochSide (c : System) : Prop where
  safe : EpochSafe c.vm.retired c.exposed c.epochs
  outside : ∀ p, c.epochs.active p = false → c.exposed p = ∅

/-- An action extends the retired backings and the epoch state together. -/
theorem EpochSafe.action {exposed : ℕ → Set ℕ} {e : EpochState}
    (h : EpochSafe s.retired exposed e) (a : VmAction) :
    EpochSafe (a.apply s).2.retired exposed (a.epochEffect e) := by
  cases a with
  | retireMemoryBacking b => exact h.retire b
  | storePageTable i pointer =>
    have hretired : (s.withEntry i pointer).retired = s.retired := by
      rw [VmState.withEntry_eq]
    exact hretired ▸ h
  | read | callocPage | setPage | khDel | invalidateGuestMemoryLookupCaches | mapHost
  | callocBacking | setBacking | assertFail => exact h

variable {c : System}

theorem EpochSide.move (h : EpochSide c) (event : SystemEvent) :
    EpochSafe (c.move event).vm.retired c.exposed (c.move event).epochs := by
  cases event with
  | lock => cases hrun : c.running <;> simpa only [System.move, hrun] using h.safe
  | mutate =>
    cases hrun : c.running with
    | none => simpa only [System.move, hrun] using h.safe
    | some p =>
      cases p with
      | ret => simpa only [System.move, hrun] using h.safe
      | act a => simpa only [System.move, hrun] using h.safe.action a
  | lookup =>
    cases hrun : c.running <;> simpa only [System.move, hrun] using h.safe
  | register p => exact h.safe.register p
  | unregister p => exact h.safe.unregister p
  | enterGuard p => exact h.safe.enter p (h.outside p)
  | exitGuard p => exact h.safe.exit p

/-- Moving leaves the ghost alone; it is only updated by observation. -/
theorem System.move_exposed (c : System) (event : SystemEvent) :
    (c.move event).exposed = c.exposed := by
  cases event with
  | lock => cases hrun : c.running <;> simp only [System.move, hrun]
  | mutate =>
    cases hrun : c.running with
    | none => simp only [System.move, hrun]
    | some p => cases p <;> simp only [System.move, hrun]
  | lookup => cases hrun : c.running <;> simp only [System.move, hrun]
  | register | unregister | enterGuard | exitGuard => rfl

/-- **Step lemma of the epoch side.** What becomes visible in a step is live, hence not retired. -/
theorem EpochSide.step (h : EpochSide c) (event : SystemEvent)
    (hsafe : SafelyPublished (c.move event).vm) : EpochSide (c.step event) where
  safe := by
    refine (h.move event).expose (fun p b _ hb => ?_)
    obtain ⟨-, hold | hpublished⟩ := hb
    · rw [System.move_exposed] at hold
      exact .inl hold
    · exact .inr (hsafe.published_not_retired hpublished)
  outside := by
    intro p hp
    ext b
    constructor
    · rintro ⟨hactive, -⟩
      have hidle : (c.move event).epochs.active p = false := hp
      rw [hidle] at hactive
      simp at hactive
    · exact nofun

theorem System.run_epochSide (mapped : Bool) (n : ℕ) (events : List SystemEvent) :
    EpochSide (System.run mapped n events) := by
  have hboth : EpochSide (System.run mapped n events)
      ∧ ∃ base, VmSide base (System.run mapped n events) := by
    refine @Execution.run_invariant _ _ System.step
      (fun c => EpochSide c ∧ ∃ base, VmSide base c) ?_ _ ?_ events
    · rintro c event ⟨hepoch, base, hvm⟩
      obtain ⟨base', hmove⟩ := hvm.move event
      exact ⟨hepoch.step event hmove.safe, base', hmove.base_invariant, hmove.idle, hmove.busy,
        hmove.safe, hmove.caches⟩
    · exact ⟨⟨EpochSafe.initial, fun _ _ => rfl⟩, System.run_vmSide mapped n []⟩
  exact hboth.1

/-- The event retires a backing, unregisters a participant or leaves an outermost guard. -/
def System.reclaims (c : System) : SystemEvent → Bool
  | .mutate =>
    match c.running with
    | some (.act (.retireMemoryBacking _) _) => true
    | _ => false
  | .unregister p =>
    (c.epochs.participant p).registered && decide ((c.epochs.participant p).activeDepth = 0)
  | .exitGuard p => decide ((c.epochs.participant p).activeDepth = 1)
  | _ => false

/-- Such an event ends with a pass over the retired backings. -/
theorem System.reclaims_epochs {event : SystemEvent} (h : c.reclaims event) :
    ∃ e, (c.step event).epochs = reclaimRetiredMemoryBackingsLocked e := by
  cases event with
  | mutate =>
    simp only [System.reclaims] at h
    split at h
    · rename_i b k hrun
      have hepochs : (c.step .mutate).epochs = c.epochs.retire b := by
        simp only [System.step, System.observe, System.move, hrun, VmAction.epochEffect]
      exact ⟨_, hepochs⟩
    · simp at h
  | unregister =>
    simp only [System.reclaims, Bool.and_eq_true, decide_eq_true_eq] at h
    exact unregister_reclaims h.1 h.2
  | exitGuard =>
    simp only [System.reclaims, decide_eq_true_eq] at h
    exact exit_reclaims h
  | lock | lookup | register | enterGuard => simp [System.reclaims] at h

/-- **Epoch reclamation is safe and complete.** In every interleaving nothing that a participant can
    have loaded a pointer to since it entered its outermost guard has been unmapped; and after any
    retirement, unregistration or outermost exit that leaves nobody inside a guard, no retired
    backing is left over. -/
theorem epochReclamation_safe (mapped : Bool) (n : ℕ) (events : List SystemEvent) :
    let c := System.run mapped n events
    (∀ p b, c.epochs.active p = true → b ∈ c.exposed p → b ∉ c.epochs.reclaimed)
    ∧ ∀ event, c.reclaims event = true → (∀ p, (c.step event).epochs.active p = false) →
        (c.step event).epochs.retiredMemoryBackings = [] := by
  refine ⟨(System.run_epochSide mapped n events).safe.kept, ?_⟩
  intro event hreclaims hidle
  obtain ⟨e, he⟩ := System.reclaims_epochs hreclaims
  rw [he] at hidle ⊢
  exact reclaim_empty hidle

end LiveExec32.Vm
