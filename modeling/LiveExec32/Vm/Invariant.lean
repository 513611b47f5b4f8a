import LiveExec32.Lib.RefCount
import LiveExec32.Vm.Mutators

/-! # The invariant of the guest VM

`VmInvariant held hidden s` is the invariant inside a mutator. `held` are the backing references the
mutator has in local variables, on top of those the mapped pages stand for; `hidden` are the pages
whose page-table entry it has nulled. Between calls both are empty.

`SafelyPublished` is the weaker property that survives *every* single store: whatever a thread can
load without the lock points into a backing that was not retired. -/

namespace LiveExec32.Vm

open RefCount VmState Function MemoryPage

/-! ## Guest page addresses -/

/-- The keys of the guest map: page-aligned 32-bit addresses. -/
@[irreducible] def guestPageAddresses : Finset ℕ :=
  (Finset.range (addressSpaceSize / dynPageSize)).image (fun i => i * dynPageSize)

variable {backing : MemoryBacking} {vaddr b : ℕ}

theorem mem_guestPageAddresses :
    vaddr ∈ guestPageAddresses ↔ vaddr % dynPageSize = 0 ∧ vaddr < addressSpaceSize := by
  unfold guestPageAddresses
  simp only [Finset.mem_image, Finset.mem_range, dynPageSize, addressSpaceSize]
  constructor
  · omega
  · rintro ⟨haligned, hlt⟩
    exact ⟨vaddr / 4096, by omega, by omega⟩

/-- An aligned address is the address of its page-table slot. -/
theorem mul_eq_iff_pageIndex (h : vaddr ∈ guestPageAddresses) (i : ℕ) :
    i * dynPageSize = vaddr ↔ i = pageIndex vaddr := by
  have haligned := (mem_guestPageAddresses.1 h).1
  simp only [pageIndex, dynPageSize] at haligned ⊢
  omega

/-! ## What is published -/

/-- The page-table entry the map asks for at slot `i`. -/
def VmState.expectedEntry (s : VmState) (i : ℕ) : Option HostPointer :=
  (s.memory (i * dynPageSize)).bind guestPageTablePointer

/-- `s` after a store to slot `i`, if the slot exists. -/
def VmState.withEntry (s : VmState) (i : ℕ) (pointer : Option HostPointer) : VmState :=
  if s.hasEntry i then { s with pageTable := Function.update s.pageTable i pointer } else s

/-- `s` with a page mapped (or unmapped) at `vaddr`. -/
def VmState.withPage (s : VmState) (vaddr : ℕ) (page : Option MemoryPage) : VmState :=
  { s with memory := Function.update s.memory vaddr page }

variable {page : MemoryPage}

theorem guestPageTablePointer_owner {pointer : HostPointer}
    (h : guestPageTablePointer page = some pointer) : pointer.owner = page.backing := by
  unfold guestPageTablePointer at h
  split at h
  · simp at h
  · split at h
    · simp at h
    · simp only [Option.some.injEq] at h
      rw [← h]

/-- Everything reachable without the lock is live, and what was retired is dead. -/
structure SafelyPublished (s : VmState) : Prop where
  entry_live : ∀ i pointer b, s.hasEntry i = true → s.pageTable i = some pointer →
    pointer.owner = some b → (s.backings b).isSome
  page_live : ∀ vaddr b, s.backingAt vaddr = some b → (s.backings b).isSome
  retired_dead : ∀ b ∈ s.retired, b < s.nextBacking ∧ s.backings b = none

/-- The host bytes of `page` lie in the storage of `backing`. -/
def MemoryPage.within (page : MemoryPage) (backing : MemoryBacking) : Prop :=
  backing.addr ≤ page.addr ∧ page.addr + dynPageSize ≤ backing.addr + backing.size

/-- The invariant inside a mutator. -/
structure VmInvariant (held : Multiset ℕ) (hidden : Set ℕ) (s : VmState) : Prop where
  balanced : Balanced guestPageAddresses s.backingAt held s.references
  positive : ∀ b backing, s.backings b = some backing → 0 < backing.references
  contained : ∀ vaddr page b backing, s.memory vaddr = some page → page.backing = some b →
    s.backings b = some backing → page.within backing
  keys : ∀ vaddr page, s.memory vaddr = some page → vaddr ∈ guestPageAddresses
  visible : ∀ i, s.hasEntry i = true → i * dynPageSize ∉ hidden →
    s.pageTable i = s.expectedEntry i
  nulled : ∀ i, s.hasEntry i = true → i * dynPageSize ∈ hidden → s.pageTable i = none
  absent : ∀ i, s.hasEntry i = false → s.pageTable i = none
  retired_nodup : s.retired.Nodup
  retired_iff : ∀ b, b ∈ s.retired ↔ b < s.nextBacking ∧ s.backings b = none
  allocated : ∀ b, (s.backings b).isSome → b < s.nextBacking
  no_failure : s.assertFailed = false

variable {held : Multiset ℕ} {hidden : Set ℕ} {s : VmState}

/-- The state `Dynarmic_nativeInitialize` leaves satisfies the invariant. -/
theorem VmInvariant.initial (mapped : Bool) (n : ℕ) :
    VmInvariant 0 ∅ (VmState.initial mapped n) where
  balanced := by
    intro b
    simp [VmState.references, VmState.initial, holders, VmState.backingAt]
  positive := by intro b backing h; simp [VmState.initial] at h
  contained := by intro v p b m h; simp [VmState.initial] at h
  keys := by intro v p h; simp [VmState.initial] at h
  visible := by intro i _ _; rfl
  nulled := by intro i _ h; simp at h
  absent := by intro i _; rfl
  retired_nodup := List.nodup_nil
  retired_iff := by intro b; simp [VmState.initial]
  allocated := by intro b h; simp [VmState.initial] at h
  no_failure := rfl

/-! ## Consequences -/

theorem VmState.isSome_of_references_pos (h : 0 < s.references b) : (s.backings b).isSome := by
  unfold references at h
  split at h
  · simp at h
  · next backing hb => simp [hb]

theorem VmState.backingAt_eq_some :
    s.backingAt vaddr = some b ↔ ∃ page, s.memory vaddr = some page ∧ page.backing = some b := by
  simp [backingAt, Option.bind_eq_some_iff]

theorem VmInvariant.page_live (h : VmInvariant held hidden s) (hb : s.backingAt vaddr = some b) :
    (s.backings b).isSome := by
  obtain ⟨page, hpage, _⟩ := backingAt_eq_some.1 hb
  exact isSome_of_references_pos
    (h.balanced.pos_of_slot (h.keys vaddr page hpage) hb)

theorem VmInvariant.held_live (h : VmInvariant held hidden s) (hb : b ∈ held) :
    (s.backings b).isSome :=
  isSome_of_references_pos (h.balanced.pos_of_held hb)

/-- Inside a mutator everything that is published is live. -/
theorem VmInvariant.safelyPublished (h : VmInvariant held hidden s) : SafelyPublished s where
  entry_live := by
    intro i pointer b hentry hpointer howner
    by_cases hhidden : i * dynPageSize ∈ hidden
    · rw [h.nulled i hentry hhidden] at hpointer
      simp at hpointer
    · rw [h.visible i hentry hhidden] at hpointer
      obtain ⟨page, hpage, hptr⟩ := Option.bind_eq_some_iff.1 hpointer
      have hbacking : page.backing = some b := by
        rw [← guestPageTablePointer_owner hptr, howner]
      exact h.page_live (backingAt_eq_some.2 ⟨page, hpage, hbacking⟩)
  page_live := fun _ _ hb => h.page_live hb
  retired_dead := fun b hb => (h.retired_iff b).1 hb

/-! ## Page-table stores -/

@[simp] theorem VmState.withEntry_memory (i : ℕ) (pointer : Option HostPointer) :
    (s.withEntry i pointer).memory = s.memory := by
  unfold withEntry
  split <;> rfl

@[simp] theorem VmState.withEntry_backings (i : ℕ) (pointer : Option HostPointer) :
    (s.withEntry i pointer).backings = s.backings := by
  unfold withEntry
  split <;> rfl

@[simp] theorem VmState.withEntry_backingAt (i : ℕ) (pointer : Option HostPointer) :
    (s.withEntry i pointer).backingAt = s.backingAt := by
  funext vaddr
  simp [backingAt]

theorem VmState.withEntry_pageTable (i j : ℕ) (pointer : Option HostPointer) :
    (s.withEntry i pointer).pageTable j
      = if j = i ∧ s.hasEntry i = true then pointer else s.pageTable j := by
  unfold withEntry
  by_cases hentry : s.hasEntry i = true
  · by_cases hji : j = i
    · subst hji; simp [hentry]
    · simp [hentry, hji]
  · simp [hentry]

/-- A page-table store only touches the page table. -/
theorem VmState.withEntry_eq (s : VmState) (i : ℕ) (pointer : Option HostPointer) :
    s.withEntry i pointer = { s with pageTable := (s.withEntry i pointer).pageTable } := by
  unfold withEntry
  split <;> rfl

/-- The invariant is carried over to another page table that shows what `hidden'` asks for. -/
theorem VmInvariant.withTable (h : VmInvariant held hidden s) {hidden' : Set ℕ}
    {table : ℕ → Option HostPointer} (hvisible : ∀ i, s.hasEntry i → i * dynPageSize ∉ hidden' →
      table i = s.expectedEntry i)
    (hnulled : ∀ i, s.hasEntry i → i * dynPageSize ∈ hidden' → table i = none)
    (habsent : ∀ i, s.hasEntry i = false → table i = none) :
    VmInvariant held hidden' { s with pageTable := table } where
  balanced := h.balanced
  positive := h.positive
  contained := h.contained
  keys := h.keys
  visible := hvisible
  nulled := hnulled
  absent := habsent
  retired_nodup := h.retired_nodup
  retired_iff := h.retired_iff
  allocated := h.allocated
  no_failure := h.no_failure

theorem VmInvariant.withEntry_absent (h : VmInvariant held hidden s) (i j : ℕ)
    (pointer : Option HostPointer) (hj : s.hasEntry j = false) :
    (s.withEntry i pointer).pageTable j = none := by
  rw [withEntry_pageTable, if_neg ?_]
  · exact h.absent j hj
  · rintro ⟨rfl, hentry⟩
    rw [hj] at hentry
    simp at hentry

/-- Nulling the entry of a page hides it. -/
theorem VmInvariant.hide (h : VmInvariant held hidden s) (hv : vaddr ∈ guestPageAddresses) :
    VmInvariant held (insert vaddr hidden) (s.withEntry (pageIndex vaddr) none) := by
  rw [withEntry_eq]
  refine h.withTable ?_ ?_ (fun i hi => h.withEntry_absent _ i _ hi)
  · intro i hentry hnot
    have hne : i ≠ pageIndex vaddr := fun he => hnot (.inl ((mul_eq_iff_pageIndex hv i).2 he))
    rw [withEntry_pageTable, if_neg (fun hc => hne hc.1)]
    exact h.visible i hentry (fun hm => hnot (.inr hm))
  · intro i hentry hmem
    rw [withEntry_pageTable]
    split
    · rfl
    · rename_i hc
      rcases hmem with hmem | hmem
      · have hi := (mul_eq_iff_pageIndex hv i).1 hmem
        exact absurd ⟨hi, hi ▸ hentry⟩ hc
      · exact h.nulled i hentry hmem

/-- Storing what the map asks for publishes a page again. -/
theorem VmInvariant.publish (h : VmInvariant held hidden s) (hv : vaddr ∈ guestPageAddresses) :
    VmInvariant held (hidden \ {vaddr})
      (s.withEntry (pageIndex vaddr) ((s.memory vaddr).bind guestPageTablePointer)) := by
  rw [withEntry_eq]
  refine h.withTable ?_ ?_ (fun i hi => h.withEntry_absent _ i _ hi)
  · intro i hentry hnot
    rw [withEntry_pageTable]
    split
    · next hc => rw [expectedEntry, (mul_eq_iff_pageIndex hv i).2 hc.1]
    · rename_i hc
      refine h.visible i hentry (fun hm => hnot ⟨hm, fun he => ?_⟩)
      have hi := (mul_eq_iff_pageIndex hv i).1 he
      exact hc ⟨hi, hi ▸ hentry⟩
  · intro i hentry hmem
    have hne : i ≠ pageIndex vaddr := fun he => hmem.2 ((mul_eq_iff_pageIndex hv i).2 he)
    rw [withEntry_pageTable, if_neg (fun hc => hne hc.1)]
    exact h.nulled i hentry hmem.1

/-- A hidden page that has no pointer to publish counts as published. -/
theorem VmInvariant.unhide (h : VmInvariant held hidden s) (vaddr : ℕ)
    (hnone : (s.memory vaddr).bind guestPageTablePointer = none) :
    VmInvariant held (hidden \ {vaddr}) s := by
  refine h.withTable ?_ (fun i hentry hmem => h.nulled i hentry hmem.1) h.absent
  intro i hentry hnot
  by_cases hm : i * dynPageSize ∈ hidden
  · have he : i * dynPageSize = vaddr := by
      by_contra hne
      exact hnot ⟨hm, hne⟩
    rw [h.nulled i hentry hm, expectedEntry, he, hnone]
  · exact h.visible i hentry hm

/-! ## Map updates -/

theorem VmState.withPage_backingAt (vaddr : ℕ) (page : Option MemoryPage) :
    (s.withPage vaddr page).backingAt
      = Function.update s.backingAt vaddr (page.bind MemoryPage.backing) := by
  funext v
  by_cases hv : v = vaddr
  · subst hv; simp [VmState.backingAt, VmState.withPage]
  · simp [backingAt, withPage, hv]

/-- Storing a held reference in the page at `vaddr` hands back the one it had. The page must be
    hidden, or the change must not concern its page-table pointer. -/
theorem VmInvariant.storePage (new : Option MemoryPage)
    (h : VmInvariant (ofOption (new.bind MemoryPage.backing) + held) hidden s)
    (hv : vaddr ∈ guestPageAddresses)
    (hwithin : ∀ page b backing, new = some page → page.backing = some b →
      s.backings b = some backing → page.within backing) (hpointer : vaddr ∈ hidden
      ∨ new.bind guestPageTablePointer = (s.memory vaddr).bind guestPageTablePointer) :
    VmInvariant (ofOption (s.backingAt vaddr) + held) hidden (s.withPage vaddr new) where
  balanced := by
    rw [withPage_backingAt]
    exact h.balanced.store hv
  positive := h.positive
  contained := by
    intro v page b backing hpage hb hbacking
    by_cases hvv : v = vaddr
    · subst hvv
      exact hwithin page b backing (by simpa [withPage] using hpage) hb hbacking
    · exact h.contained v page b backing (by simpa [withPage, hvv] using hpage) hb hbacking
  keys := by
    intro v page hpage
    by_cases hvv : v = vaddr
    · exact hvv ▸ hv
    · exact h.keys v page (by simpa [withPage, hvv] using hpage)
  visible := by
    intro i hentry hnot
    have hold : s.pageTable i = s.expectedEntry i := h.visible i hentry hnot
    by_cases hi : i * dynPageSize = vaddr
    · have hsame := hpointer.resolve_left (hi ▸ hnot)
      simpa [withPage, expectedEntry, hi, hsame] using hold
    · simpa [withPage, expectedEntry, hi] using hold
  nulled := h.nulled
  absent := h.absent
  retired_nodup := h.retired_nodup
  retired_iff := h.retired_iff
  allocated := h.allocated
  no_failure := h.no_failure

/-- The same for a page without a backing, which takes no reference. -/
theorem VmInvariant.storeUnbacked (h : VmInvariant held hidden s) (new : Option MemoryPage)
    (hnew : new.bind MemoryPage.backing = none) (hv : vaddr ∈ guestPageAddresses)
    (hpointer : vaddr ∈ hidden
      ∨ new.bind guestPageTablePointer = (s.memory vaddr).bind guestPageTablePointer) :
    VmInvariant (ofOption (s.backingAt vaddr) + held) hidden (s.withPage vaddr new) := by
  refine VmInvariant.storePage new ?_ hv ?_ hpointer
  · rwa [hnew, ofOption_none, Multiset.zero_add]
  · rintro page b backing rfl hb
    simp [hb] at hnew

/-- Rewriting a hidden page that keeps its address and backing moves no reference. -/
theorem VmInvariant.rewriteFields (h : VmInvariant held hidden s) (new : MemoryPage)
    (hpage : s.memory vaddr = some page) (haddr : new.addr = page.addr)
    (hbacking : new.backing = page.backing) (hhidden : vaddr ∈ hidden) :
    VmInvariant held hidden (s.withPage vaddr (some new)) where
  balanced := by
    have hsame : Function.update s.backingAt vaddr new.backing = s.backingAt := by
      rw [hbacking, show page.backing = s.backingAt vaddr by simp [VmState.backingAt, hpage],
        Function.update_eq_self]
    rw [VmState.withPage_backingAt, Option.bind_some, hsame]
    exact h.balanced
  positive := h.positive
  contained := by
    intro v other b backing hother hb hlive
    by_cases hvv : v = vaddr
    · subst hvv
      have hnew : new = other := by simpa [VmState.withPage] using hother
      have hin := h.contained v page b backing hpage (by rw [← hbacking, hnew, hb]) hlive
      unfold MemoryPage.within at hin ⊢
      rwa [← hnew, haddr]
    · exact h.contained v other b backing (by simpa [VmState.withPage, hvv] using hother) hb hlive
  keys := by
    intro v other hother
    by_cases hvv : v = vaddr
    · exact hvv ▸ h.keys vaddr page hpage
    · exact h.keys v other (by simpa [VmState.withPage, hvv] using hother)
  visible := by
    intro i hentry hnot
    have hi : i * dynPageSize ≠ vaddr := fun he => hnot (he ▸ hhidden)
    have hold : s.pageTable i = s.expectedEntry i := h.visible i hentry hnot
    simpa [VmState.withPage, VmState.expectedEntry, hi] using hold
  nulled := h.nulled
  absent := h.absent
  retired_nodup := h.retired_nodup
  retired_iff := h.retired_iff
  allocated := h.allocated
  no_failure := h.no_failure

/-- The invariant does not speak about the page counter, the generation or the host's bytes. -/
theorem VmInvariant.withCounters (h : VmInvariant held hidden s) (page generation : ℕ)
    (bytes : ℕ → UInt8) :
    VmInvariant held hidden
      { s with nextPage := page, lookupGeneration := generation, hostMemory := bytes } :=
  { h with }

/-! ## Backing updates -/

theorem VmState.references_of_some (h : s.backings b = some backing) :
    s.references b = backing.references := by
  simp [references, h]

theorem VmState.references_of_none (h : s.backings b = none) : s.references b = 0 := by
  simp [references, h]

/-- `s` with other contents of the backing `b`. -/
def VmState.withBacking (s : VmState) (b : ℕ) (backing : MemoryBacking) : VmState :=
  { s with backings := Function.update s.backings b (some backing) }

theorem VmState.withBacking_isSome {c : ℕ} (h : (s.backings c).isSome) :
    ((s.withBacking b backing).backings c).isSome := by
  by_cases hc : c = b
  · subst hc; simp [withBacking]
  · simpa [withBacking, hc] using h

variable {old : MemoryBacking}

/-- Rewriting a live backing keeps what is published live. -/
theorem SafelyPublished.withBacking (h : SafelyPublished s) (hold : s.backings b = some old) :
    SafelyPublished (s.withBacking b backing) where
  entry_live := fun i pointer c hentry hpointer howner =>
    withBacking_isSome (h.entry_live i pointer c hentry hpointer howner)
  page_live := fun vaddr c hc => withBacking_isSome (h.page_live vaddr c hc)
  retired_dead := by
    intro c hc
    obtain ⟨hlt, hdead⟩ := h.retired_dead c hc
    have hne : c ≠ b := by
      rintro rfl
      rw [hold] at hdead
      simp at hdead
    exact ⟨hlt, by simpa [VmState.withBacking, hne] using hdead⟩

/-- Pointing a page to a live backing keeps what is published live. -/
theorem SafelyPublished.withPage (h : SafelyPublished s) {new : Option MemoryPage}
    (hnew : ∀ b, new.bind MemoryPage.backing = some b → (s.backings b).isSome) :
    SafelyPublished (s.withPage vaddr new) where
  entry_live := h.entry_live
  page_live := by
    intro v b hb
    rw [withPage_backingAt] at hb
    by_cases hv : v = vaddr
    · subst hv
      exact hnew b (by simpa using hb)
    · exact h.page_live v b (by simpa [hv] using hb)
  retired_dead := h.retired_dead

/-- One backing is changed, created or retired. -/
theorem VmInvariant.changeBacking (h : VmInvariant held hidden s) {held' : Multiset ℕ}
    {value : Option MemoryBacking} {nextBacking : ℕ} {retired : List ℕ} {hostMemory : ℕ → UInt8}
    (hbalanced : Balanced guestPageAddresses s.backingAt held'
      (update s.references b (value.elim 0 MemoryBacking.references)))
    (hpos : ∀ backing ∈ value, 0 < backing.references)
    (hcontained : ∀ vaddr page, s.memory vaddr = some page → page.backing = some b →
      ∀ backing ∈ value, page.within backing)
    (hnodup : retired.Nodup)
    (hretired : ∀ c, c ∈ retired ↔ c < nextBacking ∧ update s.backings b value c = none)
    (hallocated : ∀ c, (update s.backings b value c).isSome → c < nextBacking) :
    VmInvariant held' hidden
      { s with backings := update s.backings b value, nextBacking, retired, hostMemory } where
  balanced := by
    refine (congrArg (Balanced guestPageAddresses s.backingAt held') (funext fun c => ?_)).mp
      hbalanced
    by_cases hcb : c = b
    · subst hcb
      cases value <;> simp [references]
    · simp [references, hcb]
  positive := by
    intro c other hc
    by_cases hcb : c = b
    · subst hcb
      exact hpos other (by simpa using hc)
    · exact h.positive c other (by simpa [hcb] using hc)
  contained := by
    intro vaddr page c other hpage hc hother
    by_cases hcb : c = b
    · subst hcb
      exact hcontained vaddr page hpage hc other (by simpa using hother)
    · exact h.contained vaddr page c other hpage hc (by simpa [hcb] using hother)
  keys := h.keys
  visible := h.visible
  nulled := h.nulled
  absent := h.absent
  retired_nodup := hnodup
  retired_iff := hretired
  allocated := hallocated
  no_failure := h.no_failure

/-- The counter or the protection of a live backing changes, its storage stays. -/
theorem VmInvariant.setBacking (h : VmInvariant held hidden s) (backing : MemoryBacking)
    (hold : s.backings b = some old) (haddr : backing.addr = old.addr)
    (hsize : backing.size = old.size) (hpos : 0 < backing.references) {held' : Multiset ℕ}
    (hbalanced : Balanced guestPageAddresses s.backingAt held'
      (update s.references b backing.references)) :
    VmInvariant held' hidden (s.withBacking b backing) := by
  refine h.changeBacking hbalanced (by simpa using hpos) ?_ h.retired_nodup (fun c => ?_)
    (fun c hc => ?_)
  · rintro vaddr page hpage hb _ ⟨⟩
    have hin := h.contained vaddr page b old hpage hb hold
    unfold within at hin ⊢
    rwa [haddr, hsize]
  · rw [h.retired_iff c]
    by_cases hcb : c = b
    · simp [hcb, hold]
    · simp [hcb]
  · by_cases hcb : c = b
    · exact h.allocated c (by simp [hcb, hold])
    · exact h.allocated c (by simpa [hcb] using hc)

/-- `s` with a new backing under the next free name. -/
def VmState.withNewBacking (s : VmState) (backing : MemoryBacking) : VmState :=
  { s with
    backings := Function.update s.backings s.nextBacking (some backing)
    nextBacking := s.nextBacking + 1 }

/-- `s` after the backing `b` went to the retired list. -/
def VmState.withoutBacking (s : VmState) (b : ℕ) : VmState :=
  { s with
    backings := Function.update s.backings b none
    retired := b :: s.retired
    hostMemory := s.unmapHost b }

theorem VmInvariant.nextBacking_free (h : VmInvariant held hidden s) :
    s.backings s.nextBacking = none := by
  cases hb : s.backings s.nextBacking with
  | none => rfl
  | some => exact absurd (h.allocated s.nextBacking (by simp [hb])) (lt_irrefl _)

/-- A new backing comes with all its references held by its creator. -/
theorem VmInvariant.create (h : VmInvariant held hidden s) (backing : MemoryBacking)
    (hpos : 0 < backing.references) :
    VmInvariant (Multiset.replicate backing.references s.nextBacking + held) hidden
      (s.withNewBacking backing) := by
  refine h.changeBacking (h.balanced.create (references_of_none h.nextBacking_free) _)
    (by simpa using hpos) (fun vaddr page hpage hb => ?_) h.retired_nodup (fun c => ?_)
    (fun c hc => ?_)
  · -- no page can point to a name that was free until now
    have hlive := h.page_live (backingAt_eq_some.2 ⟨page, hpage, hb⟩)
    simp [h.nextBacking_free] at hlive
  · rw [h.retired_iff c]
    by_cases hcb : c = s.nextBacking
    · simp [hcb]
    · simp only [ne_eq, hcb, not_false_eq_true, update_of_ne]
      exact and_congr_left (fun _ => by omega)
  · by_cases hcb : c = s.nextBacking
    · omega
    · exact Nat.lt_succ_of_lt (h.allocated c (by simpa [hcb] using hc))

/-- Dropping the last reference retires the backing. -/
theorem VmInvariant.retire (h : VmInvariant (b ::ₘ held) hidden s)
    (hold : s.backings b = some old) (hlast : old.references = 1) :
    VmInvariant held hidden (s.withoutBacking b) := by
  have hlive : b < s.nextBacking := h.allocated b (by simp [hold])
  have hzero : s.references b - 1 = 0 := by simp [references, hold, hlast]
  refine h.changeBacking (hzero ▸ h.balanced.release) (by simp) (by simp)
    (List.nodup_cons.2 ⟨fun hmem => ?_, h.retired_nodup⟩) (fun c => ?_) (fun c hc => ?_)
  · have hdead := ((h.retired_iff b).1 hmem).2
    rw [hold] at hdead
    simp at hdead
  · by_cases hcb : c = b
    · simpa [hcb] using hlive
    · simpa [hcb] using h.retired_iff c
  · by_cases hcb : c = b
    · exact hcb ▸ hlive
    · exact h.allocated c (by simpa [hcb] using hc)

end LiveExec32.Vm
