import LiveExec32.Vm.Invariant

/-! # Specifications of the mutators' building blocks

One rule for each atomic action and one specification for each fragment the mutators share:
releasing and retaining references, replacing, unmapping, retargeting and publishing a page. A
specification carries `SafelyPublished` through every intermediate state, and a `Frame` that says
what the fragment leaves alone. -/

namespace LiveExec32.Vm

open RefCount VmState

variable {held : Multiset ℕ} {hidden : Set ℕ} {s t : VmState}

/-- Started in `s`, the program keeps `SafelyPublished` at each step and ends with `post`. -/
abbrev VmSpec {α : Type} (p : VmProg α) (s : VmState) (post : α → VmState → Prop) : Prop :=
  Prog.Spec VmAction.apply SafelyPublished p s post

/-! ## Rules for the actions -/

@[simp] theorem spec_readState (post : VmState → VmState → Prop) :
    VmSpec readState s post ↔ SafelyPublished s ∧ post s s := Iff.rfl

@[simp] theorem spec_setPage (vaddr : ℕ) (page : MemoryPage) (post : Unit → VmState → Prop) :
    VmSpec (setPage vaddr page) s post ↔ SafelyPublished (s.withPage vaddr (some page))
        ∧ post () (s.withPage vaddr (some page)) := Iff.rfl

@[simp] theorem spec_khDel (vaddr : ℕ) (post : Unit → VmState → Prop) : VmSpec (khDel vaddr) s post
      ↔ SafelyPublished (s.withPage vaddr none) ∧ post () (s.withPage vaddr none) := Iff.rfl

@[simp] theorem spec_storePageTable (vaddr : ℕ) (pointer : Option HostPointer)
    (post : Unit → VmState → Prop) :
    VmSpec (storePageTable vaddr pointer) s post
      ↔ SafelyPublished (s.withEntry (pageIndex vaddr) pointer)
        ∧ post () (s.withEntry (pageIndex vaddr) pointer) := Iff.rfl

@[simp] theorem spec_setBacking (b : ℕ) (backing : MemoryBacking) (post : Unit → VmState → Prop) :
    VmSpec (setBacking b backing) s post
      ↔ SafelyPublished (s.withBacking b backing) ∧ post () (s.withBacking b backing) := Iff.rfl

@[simp] theorem spec_retireMemoryBacking (b : ℕ) (post : Unit → VmState → Prop) :
    VmSpec (retireMemoryBacking b) s post
      ↔ SafelyPublished (s.withoutBacking b) ∧ post () (s.withoutBacking b) := Iff.rfl

/-! ## Frames -/

/-- What a fragment that creates no backing and bumps no generation leaves alone: the shape of the
    page table, the lookup generation, the names of backings and the storage of those that stay. -/
structure Frame (s t : VmState) : Prop where
  mapped : t.pageTableMapped = s.pageTableMapped
  entries : t.numPageTableEntries = s.numPageTableEntries
  generation : t.lookupGeneration = s.lookupGeneration
  names : t.nextBacking = s.nextBacking
  retired : s.retired <:+ t.retired
  storage : ∀ b backing, t.backings b = some backing →
    ∃ old, s.backings b = some old ∧ backing.addr = old.addr ∧ backing.size = old.size

theorem Frame.refl (s : VmState) : Frame s s :=
  ⟨rfl, rfl, rfl, rfl, List.suffix_rfl, fun _ backing h => ⟨backing, h, rfl, rfl⟩⟩

theorem Frame.trans {u : VmState} (h₁ : Frame s t) (h₂ : Frame t u) : Frame s u where
  mapped := h₂.mapped.trans h₁.mapped
  entries := h₂.entries.trans h₁.entries
  generation := h₂.generation.trans h₁.generation
  names := h₂.names.trans h₁.names
  retired := h₁.retired.trans h₂.retired
  storage := by
    intro b backing hb
    obtain ⟨mid, hmid, haddr, hsize⟩ := h₂.storage b backing hb
    obtain ⟨old, hold, haddr', hsize'⟩ := h₁.storage b mid hmid
    exact ⟨old, hold, haddr.trans haddr', hsize.trans hsize'⟩

theorem Frame.withPage (s : VmState) (vaddr : ℕ) (page : Option MemoryPage) :
    Frame s (s.withPage vaddr page) :=
  ⟨rfl, rfl, rfl, rfl, List.suffix_rfl, fun _ backing h => ⟨backing, h, rfl, rfl⟩⟩

theorem Frame.withEntry (s : VmState) (i : ℕ) (pointer : Option HostPointer) :
    Frame s (s.withEntry i pointer) := by
  rw [withEntry_eq]
  exact ⟨rfl, rfl, rfl, rfl, List.suffix_rfl, fun _ backing h => ⟨backing, h, rfl, rfl⟩⟩

variable {b : ℕ}

theorem Frame.withBacking {old backing : MemoryBacking} (hold : s.backings b = some old)
    (haddr : backing.addr = old.addr) (hsize : backing.size = old.size) :
    Frame s (s.withBacking b backing) := by
  refine ⟨rfl, rfl, rfl, rfl, List.suffix_rfl, fun c other hc => ?_⟩
  by_cases hcb : c = b
  · subst hcb
    simp only [VmState.withBacking, Function.update_self, Option.some.injEq] at hc
    exact ⟨old, hold, hc ▸ haddr, hc ▸ hsize⟩
  · exact ⟨other, by simpa [VmState.withBacking, hcb] using hc, rfl, rfl⟩

theorem Frame.withoutBacking (s : VmState) (b : ℕ) : Frame s (s.withoutBacking b) := by
  refine ⟨rfl, rfl, rfl, rfl, List.suffix_cons b s.retired, fun c other hc => ?_⟩
  by_cases hcb : c = b
  · simp [VmState.withoutBacking, hcb] at hc
  · exact ⟨other, by simpa [VmState.withoutBacking, hcb] using hc, rfl, rfl⟩

/-! ## Releasing and retaining -/

/-- Releasing a held reference gives it back, and retires the backing with its last one. The
    assertion `references != 0` cannot fail. -/
theorem releaseMemoryBackingReference_spec {v : Option ℕ}
    (h : VmInvariant (ofOption v + held) hidden s) :
    VmSpec (releaseMemoryBackingReference v) s (fun _ t =>
      VmInvariant held hidden t ∧ t.memory = s.memory ∧ Frame s t) := by
  cases v with
  | none =>
    rw [ofOption_none, Multiset.zero_add] at h
    exact ⟨h, rfl, Frame.refl s⟩
  | some b =>
    have hcons : VmInvariant (b ::ₘ held) hidden s := by
      rwa [ofOption_some, Multiset.singleton_add] at h
    obtain ⟨backing, hb⟩ :=
      Option.isSome_iff_exists.1 (hcons.held_live (Multiset.mem_cons_self b held))
    have hpos := hcons.positive b backing hb
    have hsafe := hcons.safelyPublished
    unfold releaseMemoryBackingReference
    simp only [Prog.spec_bind, spec_readState, hb, if_neg (Nat.ne_of_gt hpos), spec_setBacking]
    refine ⟨hsafe, hsafe.withBacking hb, ?_⟩
    split
    · -- other references remain
      next hrest =>
        have hbalanced := hcons.balanced.release
        rw [references_of_some hb] at hbalanced
        exact ⟨hcons.setBacking { backing with references := backing.references - 1 } hb rfl rfl
          (Nat.pos_of_ne_zero hrest) hbalanced, rfl, Frame.withBacking hb rfl rfl⟩
    · -- this was the last one
      next hlast =>
        have hone : backing.references = 1 := by omega
        have hretired : (s.withBacking b
                { backing with references := backing.references - 1 }).withoutBacking b
              = s.withoutBacking b := by
          have hbytes : (s.withBacking b
              { backing with references := backing.references - 1 }).unmapHost b
              = s.unmapHost b := by
            funext a
            simp [unmapHost, withBacking, hb]
          rw [withoutBacking, hbytes]
          simp [withBacking, withoutBacking]
        have hinv := hcons.retire hb hone
        refine (spec_retireMemoryBacking b _).2 ?_
        rw [hretired]
        exact ⟨hinv.safelyPublished, hinv, rfl, Frame.withoutBacking s b⟩

/-- Retaining a live backing adds a held reference. -/
theorem retainMemoryBackingReference_spec (h : VmInvariant held hidden s)
    (hlive : (s.backings b).isSome) :
    VmSpec (retainMemoryBackingReference b) s (fun _ t =>
      VmInvariant (b ::ₘ held) hidden t ∧ t.memory = s.memory ∧ Frame s t
        ∧ ∀ c, (s.backings c).isSome → (t.backings c).isSome) := by
  obtain ⟨backing, hb⟩ := Option.isSome_iff_exists.1 hlive
  unfold retainMemoryBackingReference
  simp only [Prog.spec_bind, spec_readState, hb, spec_setBacking]
  have hbalanced := h.balanced.retain b
  rw [references_of_some hb] at hbalanced
  have hinv := h.setBacking { backing with references := backing.references + 1 } hb rfl rfl
    (Nat.succ_pos _) hbalanced
  exact ⟨h.safelyPublished, h.safelyPublished.withBacking hb, hinv, rfl,
    Frame.withBacking hb rfl rfl, fun c hc => withBacking_isSome hc⟩

/-! ## Pages -/

variable {page : MemoryPage} {vaddr : ℕ}

theorem VmState.backingAt_of_some (h : s.memory vaddr = some page) :
    s.backingAt vaddr = page.backing := by
  simp [backingAt, h]

/-- A nulled entry is forgotten once the page behind it was rewritten and published. -/
theorem VmState.withEntry_withPage_withEntry (s : VmState) (i vaddr : ℕ)
    (page : Option MemoryPage) (old pointer : Option HostPointer) :
    ((s.withEntry i old).withPage vaddr page).withEntry i pointer
      = (s.withPage vaddr page).withEntry i pointer := by
  unfold withEntry withPage
  by_cases hentry : s.hasEntry i = true
  · have hentry' : s.pageTableMapped ∧ i < s.numPageTableEntries := by
      simpa [hasEntry] using hentry
    simp [hasEntry, hentry']
  · simp [hentry]

/-- Rewriting a page and publishing it at once, as seen after both stores. -/
theorem VmInvariant.rewritePage {new : MemoryPage}
    (h : VmInvariant (ofOption new.backing + held) ∅ s) (hv : vaddr ∈ guestPageAddresses)
    (hwithin : ∀ b backing, new.backing = some b → s.backings b = some backing →
      new.within backing) :
    VmInvariant (ofOption (s.backingAt vaddr) + held) ∅
      ((s.withPage vaddr (some new)).withEntry (pageIndex vaddr)
        (guestPageTablePointer new)) := by
  have hstored := (h.hide hv).storePage (some new) hv
    (by
      rintro page b backing ⟨rfl⟩ hb hbacking
      exact hwithin b backing hb (by simpa using hbacking))
    (.inl (Set.mem_insert vaddr ∅))
  have hpublished := hstored.publish hv
  have hempty : insert vaddr (∅ : Set ℕ) \ {vaddr} = ∅ := by simp
  rw [withEntry_withPage_withEntry, hempty, withEntry_backingAt] at hpublished
  simpa [withPage] using hpublished

theorem replaceGuestPage_spec {fields : MemoryPage → MemoryPage}
    (h : VmInvariant (ofOption (fields page).backing + held) ∅ s)
    (hpage : s.memory vaddr = some page)
    (hwithin : ∀ b backing, (fields page).backing = some b → s.backings b = some backing →
      (fields page).within backing) :
    VmSpec (replaceGuestPage vaddr fields) s (fun _ t =>
      VmInvariant held ∅ t
        ∧ t.memory = Function.update s.memory vaddr (some (fields page)) ∧ Frame s t) := by
  have hinv := h.rewritePage (h.keys vaddr page hpage) hwithin
  rw [backingAt_of_some hpage] at hinv
  unfold replaceGuestPage
  simp only [Prog.spec_bind, spec_readState, hpage, spec_setPage, spec_storePageTable]
  refine ⟨h.safelyPublished, h.safelyPublished.withPage ?_, hinv.safelyPublished, ?_⟩
  · -- between the two stores the page already points to its new backing, which is held
    intro b hb
    have hbacking : (fields page).backing = some b := by simpa using hb
    exact h.held_live (by simp [hbacking])
  · refine (releaseMemoryBackingReference_spec hinv).mono ?_
    rintro _ t ⟨ht, hmemory, hframe⟩
    refine ⟨ht, ?_, ((Frame.withPage s _ _).trans (Frame.withEntry _ _ _)).trans hframe⟩
    rw [hmemory, withEntry_memory]
    rfl

/-- Unmapping a page: its entry is nulled before its backing is released, and the page leaves the
    map last. -/
theorem unmapGuestPage_spec (h : VmInvariant held ∅ s) (hpage : s.memory vaddr = some page) :
    VmSpec (unmapGuestPage vaddr) s (fun _ t =>
      VmInvariant held ∅ t ∧ t.memory = Function.update s.memory vaddr none ∧ Frame s t) := by
  have hv := h.keys vaddr page hpage
  have hmem : vaddr ∈ insert vaddr (∅ : Set ℕ) := Set.mem_insert vaddr ∅
  have hhidden := h.hide hv
  have hstripped := hhidden.storeUnbacked (some { page with backing := none }) rfl hv (.inl hmem)
  rw [withEntry_backingAt, backingAt_of_some hpage] at hstripped
  unfold unmapGuestPage releaseMemoryPageBacking
  simp only [Prog.spec_bind, spec_storePageTable, spec_readState, withEntry_memory, hpage,
    spec_setPage, spec_khDel]
  refine ⟨hhidden.safelyPublished, hhidden.safelyPublished, hstripped.safelyPublished,
    (releaseMemoryBackingReference_spec hstripped).mono ?_⟩
  rintro _ t ⟨ht, hmemory, hframe⟩
  -- the page has no backing any more, so deleting it moves no reference
  have hnone : t.backingAt vaddr = none := by
    simp [backingAt, hmemory, withPage]
  have hdeleted := ht.storeUnbacked none rfl hv (.inl hmem)
  rw [hnone, ofOption_none, Multiset.zero_add] at hdeleted
  have hdone := hdeleted.unhide vaddr (by simp [withPage])
  rw [show insert vaddr (∅ : Set ℕ) \ {vaddr} = ∅ by simp] at hdone
  refine ⟨hdone.safelyPublished, hdone, ?_, ?_⟩
  · simp [withPage, hmemory]
  · exact (((Frame.withEntry s _ _).trans (Frame.withPage _ _ _)).trans hframe).trans
      (Frame.withPage t vaddr none)

/-- Pointing a hidden page to a held backing. -/
theorem retargetGuestPage_spec {addr : ℕ} (h : VmInvariant (b ::ₘ held) hidden s)
    (hpage : s.memory vaddr = some page) (hhidden : vaddr ∈ hidden)
    (hwithin : ∀ backing, s.backings b = some backing →
      MemoryPage.within { page with addr := addr, backing := some b } backing) :
    VmSpec (retargetGuestPage addr b vaddr) s (fun _ t =>
      VmInvariant held hidden t ∧ t.memory = Function.update s.memory vaddr
            (some { page with addr := addr, backing := some b })
        ∧ Frame s t) := by
  have hheld : VmInvariant (ofOption (some b) + held) hidden s := by simpa using h
  have hstored := hheld.storePage (some { page with addr := addr, backing := some b })
    (h.keys vaddr page hpage)
    (by rintro _ c backing ⟨rfl⟩ ⟨rfl⟩ hbacking; exact hwithin backing hbacking) (.inl hhidden)
  rw [backingAt_of_some hpage] at hstored
  unfold retargetGuestPage
  simp only [Prog.spec_bind, spec_readState, hpage, spec_setPage]
  refine ⟨h.safelyPublished, hstored.safelyPublished,
    (releaseMemoryBackingReference_spec hstored).mono ?_⟩
  rintro _ t ⟨ht, hmemory, hframe⟩
  exact ⟨ht, by rw [hmemory]; rfl, (Frame.withPage s _ _).trans hframe⟩

/-- Publishing a hidden page as it stands. -/
theorem republishGuestPage_spec (h : VmInvariant held hidden s)
    (hpage : s.memory vaddr = some page) :
    VmSpec (republishGuestPage vaddr) s (fun _ t =>
      VmInvariant held (hidden \ {vaddr}) t ∧ t.memory = s.memory ∧ t.backings = s.backings
        ∧ Frame s t) := by
  have hpublished := h.publish (h.keys vaddr page hpage)
  rw [hpage] at hpublished
  unfold republishGuestPage
  simp only [Prog.spec_bind, spec_readState, hpage, spec_storePageTable]
  exact ⟨h.safelyPublished, hpublished.safelyPublished, hpublished, withEntry_memory _ _,
    withEntry_backings _ _, Frame.withEntry s _ _⟩

/-- Committing new permissions on a hidden page publishes it. -/
theorem protectGuestPage_spec {perms : ℕ} (h : VmInvariant held hidden s)
    (hpage : s.memory vaddr = some page) (hhidden : vaddr ∈ hidden) :
    VmSpec (protectGuestPage perms vaddr) s (fun _ t =>
      VmInvariant held (hidden \ {vaddr}) t ∧ t.memory = Function.update s.memory vaddr
            (some { page with perms := perms, enforceDataPermissions := true })
        ∧ Frame s t) := by
  have hv := h.keys vaddr page hpage
  have hstored := h.rewriteFields
    { page with perms := perms, enforceDataPermissions := true } hpage rfl rfl hhidden
  have hpublished := hstored.publish hv
  unfold protectGuestPage
  simp only [Prog.spec_bind, spec_readState, hpage, spec_setPage, spec_storePageTable]
  have hentry : ((s.withPage vaddr (some
      { page with perms := perms, enforceDataPermissions := true })).memory vaddr).bind
        guestPageTablePointer
      = guestPageTablePointer { page with perms := perms, enforceDataPermissions := true } := by
    simp [withPage]
  rw [hentry] at hpublished
  refine ⟨h.safelyPublished, hstored.safelyPublished, hpublished.safelyPublished, hpublished, ?_,
    (Frame.withPage s _ _).trans (Frame.withEntry _ _ _)⟩
  rw [withEntry_memory]
  rfl

end LiveExec32.Vm
