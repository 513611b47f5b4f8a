import LiveExec32.Vm.Calls
import Mathlib.Data.Set.Card

/-! # What the mutators guarantee between calls

Reference counts are exact and backings are retired exactly when their last page goes, after every
sequence of calls and whatever the host answers. A call that reports failure leaves the guest's view
of memory as it was. -/

namespace LiveExec32.Vm

open RefCount VmState

variable {s t : VmState} {hidden : Set ℕ}

/-! ## Reference counts -/

/-- The mapped guest pages whose backing is `b`. -/
def VmState.pagesOf (s : VmState) (b : ℕ) : Set ℕ := {vaddr | s.backingAt vaddr = some b}

/-- The pages of a backing are counted over the keys of the map. -/
theorem VmInvariant.pagesOf_eq (h : VmInvariant 0 hidden s) (b : ℕ) :
    s.pagesOf b = (holders guestPageAddresses s.backingAt b : Set ℕ) := by
  ext vaddr
  simp only [pagesOf, Set.mem_ofPred_eq, Finset.mem_coe, mem_holders]
  constructor
  · intro hb
    obtain ⟨page, hpage, _⟩ := backingAt_eq_some.1 hb
    exact ⟨h.keys vaddr page hpage, hb⟩
  · exact fun hb => hb.2

theorem VmInvariant.references_eq_ncard (h : VmInvariant 0 hidden s) (b : ℕ) :
    s.references b = (s.pagesOf b).ncard := by
  rw [h.pagesOf_eq b, Set.ncard_coe_finset, h.balanced b]
  simp

/-- Between calls a backing is live exactly as long as some page points to it. -/
theorem VmInvariant.live_iff_pages (h : VmInvariant 0 hidden s) (b : ℕ) :
    (s.backings b).isSome ↔ (s.pagesOf b).Nonempty := by
  constructor
  · intro hlive
    obtain ⟨backing, hb⟩ := Option.isSome_iff_exists.1 hlive
    have hpos := h.positive b backing hb
    rw [← references_of_some hb, h.references_eq_ncard b] at hpos
    exact Set.nonempty_of_ncard_ne_zero (Nat.ne_of_gt hpos)
  · rintro ⟨vaddr, hv⟩
    exact h.page_live hv

/-- The backings a call retires are those whose last page it takes away. -/
theorem CallEffect.retires_iff {unchanged : VmState → VmState → Prop} {ok : Bool}
    (h : VmInvariant 0 ∅ s) (he : CallEffect unchanged s ok t) (b : ℕ) :
    (b ∈ t.retired ∧ b ∉ s.retired) ↔ (s.pagesOf b).Nonempty ∧ t.pagesOf b = ∅ := by
  obtain ⟨k, hevolves, -⟩ := he.evolves
  rw [← h.live_iff_pages b, ← Set.not_nonempty_iff_eq_empty, ← he.invariant.live_iff_pages b]
  constructor
  · rintro ⟨hretired, hbefore⟩
    have hlt : b < s.nextBacking := by
      by_contra hge
      exact he.fresh b (Nat.le_of_not_lt hge) hretired
    refine ⟨?_, by simp [((he.invariant.retired_iff b).1 hretired).2]⟩
    by_contra hdead
    exact hbefore ((h.retired_iff b).2 ⟨hlt, by simpa using hdead⟩)
  · rintro ⟨hlive, hdead⟩
    have hlt := Nat.lt_of_lt_of_le (h.allocated b hlive) hevolves.names
    refine ⟨(he.invariant.retired_iff b).2 ⟨hlt, by simpa using hdead⟩, fun hmem => ?_⟩
    simp [((h.retired_iff b).1 hmem).2] at hlive

/-- **Reference counts are exact.** After any sequence of calls from the empty map: every live
    backing counts the pages that point to it; a page with a backing has its 4096 bytes inside the
    backing's storage; no assertion has failed; and no backing was retired twice. Any further call
    retires exactly the backings whose last page it takes away, and forgets no earlier one. -/
theorem runCalls_references_exact (mapped : Bool) (n : ℕ) (calls : List VmCall) :
    let s := runCalls calls (VmState.initial mapped n)
    (∀ b backing, s.backings b = some backing →
      (s.pagesOf b).Finite ∧ backing.references = (s.pagesOf b).ncard)
    ∧ (∀ vaddr page b, s.memory vaddr = some page → page.backing = some b →
        ∃ backing, s.backings b = some backing ∧ backing.addr ≤ page.addr
          ∧ page.addr + dynPageSize ≤ backing.addr + backing.size)
    ∧ s.assertFailed = false
    ∧ s.retired.Nodup
    ∧ ∀ call : VmCall,
        s.retired <:+ (call.body.run s).2.retired
        ∧ ∀ b, (b ∈ (call.body.run s).2.retired ∧ b ∉ s.retired)
            ↔ (s.pagesOf b).Nonempty ∧ (call.body.run s).2.pagesOf b = ∅ := by
  intro s
  have h : VmInvariant 0 ∅ s := runCalls_invariant calls (VmInvariant.initial mapped n)
  refine ⟨?_, ?_, h.no_failure, h.retired_nodup, fun call => ⟨?_, ?_⟩⟩
  · intro b backing hb
    refine ⟨?_, ?_⟩
    · rw [h.pagesOf_eq b]
      exact Finset.finite_toSet _
    · rw [← h.references_eq_ncard b, references_of_some hb]
  · intro vaddr page b hpage hb
    obtain ⟨backing, hbacking⟩ := Option.isSome_iff_exists.1
      (h.page_live (backingAt_eq_some.2 ⟨page, hpage, hb⟩))
    exact ⟨backing, hbacking, h.contained vaddr page b backing hpage hb hbacking⟩
  · obtain ⟨k, hevolves, -⟩ := (call.run_effect h).evolves
    exact hevolves.retired
  · exact (call.run_effect h).retires_iff h

/-! ## Failure atomicity -/

/-- Between calls the page table is a function of the map. -/
theorem VmInvariant.pageTable_eq (h : VmInvariant 0 ∅ s) (ht : VmInvariant 0 ∅ t)
    (hentry : ∀ i, t.hasEntry i = s.hasEntry i) (hmemory : t.memory = s.memory) :
    t.pageTable = s.pageTable := by
  funext i
  by_cases hi : s.hasEntry i = true
  · rw [h.visible i hi (by simp), ht.visible i (by rw [hentry, hi]) (by simp)]
    simp [expectedEntry, hmemory]
  · have hnone : s.hasEntry i = false := by simpa using hi
    rw [h.absent i hnone, ht.absent i (by rw [hentry, hnone])]

theorem Evolves.hasEntry {k : ℕ} (h : Evolves k s t) (i : ℕ) : t.hasEntry i = s.hasEntry i := by
  simp [VmState.hasEntry, h.mapped, h.entries]

theorem SameBackings.references_eq (h : SameBackings s t) : t.references = s.references := by
  funext b
  simp only [references]
  rw [h]

theorem HostProtectionWidened.references_eq (h : HostProtectionWidened s t) :
    t.references = s.references := by
  obtain ⟨extra, hwidened⟩ := h
  funext b
  simp only [references]
  rcases hwidened b with hsame | ⟨backing, hold, hnew⟩
  · rw [hsame]
  · rw [hold, hnew]

variable {call : VmCall}

theorem VmCall.unchangedBackings_references (h : call.unchangedBackings s t) :
    t.references = s.references := by
  cases call with
  | mprotect => exact HostProtectionWidened.references_eq h
  | mmap | directMmap | vmRemap | munmap | replacePrivate => exact SameBackings.references_eq h

/-- Apart from `mprotect`, a failed call leaves the backings alone. -/
theorem VmCall.unchangedBackings_cases (h : call.unchangedBackings s t) (b : ℕ) :
    t.backings b = s.backings b
      ∨ (∃ host address size perms, call = .mprotect host address size perms)
        ∧ ∃ backing extra, s.backings b = some backing ∧ t.backings b = some { backing with
              hostProtection := backing.hostProtection ||| extra } := by
  cases call with
  | mprotect host address size perms =>
    obtain ⟨extra, hwidened⟩ := h
    refine (hwidened b).imp id ?_
    rintro ⟨backing, hold, hnew⟩
    exact ⟨⟨host, address, size, perms, rfl⟩, backing, extra, hold, hnew⟩
  | mmap | directMmap | vmRemap | munmap | replacePrivate => exact .inl (congrFun h b)

/-- **Failure atomicity.** A call that reports failure, at whichever step, leaves the mapped pages
    with all their fields, the page table and the reference counts as they were. The backings are
    equal too, except that a failed `mprotect` may have widened host protections. -/
theorem failedCall_atomic (mapped : Bool) (n : ℕ) (calls : List VmCall) (call : VmCall)
    (hfail : (call.body.run (runCalls calls (VmState.initial mapped n))).1 = false) :
    let s := runCalls calls (VmState.initial mapped n)
    let t := (call.body.run s).2
    t.memory = s.memory ∧ t.pageTable = s.pageTable ∧ t.references = s.references
      ∧ ∀ b, t.backings b = s.backings b
        ∨ (∃ host address size perms, call = .mprotect host address size perms)
          ∧ ∃ backing extra, s.backings b = some backing
            ∧ t.backings b = some { backing with
                hostProtection := backing.hostProtection ||| extra } := by
  intro s t
  have h : VmInvariant 0 ∅ s := runCalls_invariant calls (VmInvariant.initial mapped n)
  have he := call.run_effect h
  obtain ⟨hmemory, hbackings⟩ := he.failure hfail
  obtain ⟨k, hevolves, -⟩ := he.evolves
  exact ⟨hmemory, h.pageTable_eq he.invariant hevolves.hasEntry hmemory,
    VmCall.unchangedBackings_references hbackings, VmCall.unchangedBackings_cases hbackings⟩

/-- A host on which everything works until the backing object is allocated. -/
def outOfBackings : HostOutcomes where
  pageSize := 16384
  vectorReserve := true
  resizePages := true
  callocPage := fun _ => true
  pushBack := fun _ => true
  khPut := fun _ => .inserted
  mmap := fun request =>
    if h : 0x100000 + request.size ≤ 2 ^ 64 then some ⟨0x100000, fun _ => 0, h⟩ else none
  vmAllocate := fun _ => .error .KERN_NO_SPACE
  callocBacking := false
  mprotect := fun _ => true
  errno := 12

/-- A fixed two-page `mmap` that fails after both pages were reserved is undone. -/
theorem failedCall_atomic_mmap :
    ((VmCall.mmap outOfBackings 0x10000 0x2000 3 0x1012 (-1) 0 4095 false).body.run
      (VmState.initial true 32)).1 = false
    ∧ ((VmCall.mmap outOfBackings 0x10000 0x2000 3 0x1012 (-1) 0 4095 false).body.run
      (VmState.initial true 32)).2.memory = (VmState.initial true 32).memory :=
  ⟨by decide +kernel, (failedCall_atomic true 32 []
    (.mmap outOfBackings 0x10000 0x2000 3 0x1012 (-1) 0 4095 false) (by decide +kernel)).1⟩

end LiveExec32.Vm
