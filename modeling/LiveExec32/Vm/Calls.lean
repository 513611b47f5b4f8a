import LiveExec32.Vm.Reservation

/-! # What a call can do

`CallEffect` says once what one call of a mutator does to the VM state; every property of whole runs
is read off it. The specifications below prove it for each of the six mutators, along all their
success and failure paths. -/

namespace LiveExec32.Vm

open RefCount List VmState Function Prog

variable {s t u : VmState} {host : HostOutcomes} {address size protection flags off mask perms : ℕ}

/-! ## Effects -/

/-- `t` comes after `s` with `k` bumps of the lookup generation in between. -/
structure Evolves (k : ℕ) (s t : VmState) : Prop where
  mapped : t.pageTableMapped = s.pageTableMapped
  entries : t.numPageTableEntries = s.numPageTableEntries
  generation : t.lookupGeneration = s.lookupGeneration + k
  names : s.nextBacking ≤ t.nextBacking
  retired : s.retired <:+ t.retired

theorem Evolves.trans {j k : ℕ} (h₁ : Evolves j s t) (h₂ : Evolves k t u) :
    Evolves (j + k) s u where
  mapped := h₂.mapped.trans h₁.mapped
  entries := h₂.entries.trans h₁.entries
  generation := by rw [h₂.generation, h₁.generation, Nat.add_assoc]
  names := Nat.le_trans h₁.names h₂.names
  retired := h₁.retired.trans h₂.retired

theorem Frame.evolves (h : Frame s t) : Evolves 0 s t :=
  ⟨h.mapped, h.entries, h.generation, Nat.le_of_eq h.names.symm, h.retired⟩

theorem Evolves.invalidate (s : VmState) :
    Evolves 1 s { s with lookupGeneration := s.lookupGeneration + 1 } :=
  ⟨rfl, rfl, rfl, Nat.le_refl _, suffix_rfl⟩

/-- The effect of one call that reports success iff `ok`. `unchanged` is what a failed call promises
    about the backings. -/
structure CallEffect (unchanged : VmState → VmState → Prop) (s : VmState) (ok : Bool)
    (t : VmState) : Prop where
  invariant : VmInvariant 0 ∅ t
  evolves : ∃ k, Evolves k s t ∧ (k = 0 → t.memory = s.memory)
  /-- A backing the call created outlives the call. -/
  fresh : ∀ b, s.nextBacking ≤ b → b ∉ t.retired
  failure : ok = false → t.memory = s.memory ∧ unchanged s t

open CallEffect

/-- A backing that is still live has kept its storage, so a page inside it stays inside. -/
theorem Frame.within (h : Frame s t) {page : MemoryPage} {b : ℕ} {backing : MemoryBacking}
    (hbacking : t.backings b = some backing)
    (hwithin : ∀ old, s.backings b = some old → page.within old) : page.within backing := by
  obtain ⟨old, hold, haddr, hsize⟩ := h.storage b backing hbacking
  have hin := hwithin old hold
  unfold MemoryPage.within at hin ⊢
  rwa [haddr, hsize]

/-- The backings are all as they were. -/
def SameBackings (s t : VmState) : Prop := t.backings = s.backings

/-- Only allocated backings are retired. -/
theorem VmInvariant.fresh_of_names (ht : VmInvariant 0 ∅ t)
    (hnames : t.nextBacking = s.nextBacking) : ∀ b, s.nextBacking ≤ b → b ∉ t.retired := by
  intro b hb hmem
  have hlt := ((ht.retired_iff b).1 hmem).1
  omega

/-- A new backing that some page points to is not retired. -/
theorem VmInvariant.fresh_of_created (ht : VmInvariant 0 ∅ t)
    (hnames : t.nextBacking = s.nextBacking + 1) {vaddr : ℕ}
    (hpage : t.backingAt vaddr = some s.nextBacking) :
    ∀ b, s.nextBacking ≤ b → b ∉ t.retired := by
  intro b hb hmem
  obtain ⟨hlt, hdead⟩ := (ht.retired_iff b).1 hmem
  have hlive := ht.page_live hpage
  rw [show s.nextBacking = b by omega, hdead] at hlive
  simp at hlive

/-- A call that fails before it bumps the generation. -/
theorem CallEffect.failed (ht : VmInvariant 0 ∅ t) (hframe : Frame s t)
    (hmemory : t.memory = s.memory) (hbackings : t.backings = s.backings) (ok : Bool) :
    CallEffect SameBackings s ok t :=
  ⟨ht, ⟨0, hframe.evolves, fun _ => hmemory⟩, ht.fresh_of_names hframe.names,
    fun _ => ⟨hmemory, hbackings⟩⟩

/-- A call that changes nothing. -/
theorem CallEffect.rejected (h : VmInvariant 0 ∅ s) (ok : Bool) : CallEffect SameBackings s ok s :=
  failed h (Frame.refl s) rfl rfl ok

/-- A call that bumped the generation and succeeded. -/
theorem CallEffect.committed {unchanged : VmState → VmState → Prop} {k : ℕ}
    (ht : VmInvariant 0 ∅ t) (hevolves : Evolves k s t) (hk : k ≠ 0)
    (hfresh : ∀ b, s.nextBacking ≤ b → b ∉ t.retired) : CallEffect unchanged s true t :=
  ⟨ht, ⟨k, hevolves, fun hzero => absurd hzero hk⟩, hfresh, nofun⟩

@[simp] theorem spec_invalidate (post : Unit → VmState → Prop) :
    VmSpec invalidateGuestMemoryLookupCaches s post
      ↔ SafelyPublished { s with lookupGeneration := s.lookupGeneration + 1 }
        ∧ post () { s with lookupGeneration := s.lookupGeneration + 1 } := Iff.rfl

/-! ## Unmapping -/

theorem validateGuestMunmapRangeLocked_ok
    (h : validateGuestMunmapRangeLocked s address size = .ok ()) :
    ∀ vaddr ∈ guestPages address size, (s.memory vaddr).isSome := by
  unfold validateGuestMunmapRangeLocked at h
  split_ifs at h with _ _ _ hall
  exact fun vaddr hv => all_eq_true.1 hall vaddr hv

/-- A loop over distinct mapped pages whose steps change their own page only: the pages still to
    come stay mapped. -/
theorem forEachPage_spec {body : ℕ → VmProg Unit} (inv : List ℕ → VmState → Prop)
    (hbody : ∀ vaddr rest u page, vaddr ∉ rest → inv (vaddr :: rest) u →
      u.memory vaddr = some page → VmSpec (body vaddr) u (fun _ t => inv rest t
        ∧ (∃ new, t.memory = update u.memory vaddr new) ∧ Frame u t))
    {pages : List ℕ} (hnodup : pages.Nodup) (h : inv pages s)
    (hmapped : ∀ vaddr ∈ pages, (s.memory vaddr).isSome) :
    VmSpec (forEach body pages) s (fun _ t => inv [] t ∧ Frame s t) := by
  refine (Prog.Spec.forEach (fun rest u => inv rest u ∧ Frame s u ∧ rest.Nodup
    ∧ ∀ vaddr ∈ rest, (u.memory vaddr).isSome) ?_ pages s
    ⟨h, Frame.refl s, hnodup, hmapped⟩).mono (fun _ t ht => ⟨ht.1, ht.2.1⟩)
  rintro vaddr rest u ⟨hu, hframe, hnd, hall⟩
  obtain ⟨page, hpage⟩ := Option.isSome_iff_exists.1 (hall vaddr mem_cons_self)
  obtain ⟨hnotin, hrest⟩ := nodup_cons.1 hnd
  refine (hbody vaddr rest u page hnotin hu hpage).mono ?_
  rintro _ t ⟨ht, ⟨new, hmemory⟩, hf⟩
  refine ⟨ht, hframe.trans hf, hrest, fun v hv => ?_⟩
  have hne : v ≠ vaddr := fun he => hnotin (he ▸ hv)
  rw [hmemory, update_of_ne hne]
  exact hall v (mem_cons_of_mem vaddr hv)

theorem dynarmicMunmap_spec (h : VmInvariant 0 ∅ s) :
    VmSpec (dynarmicMunmap address size) s (fun r t =>
      CallEffect SameBackings s (reportsSuccess r) t) := by
  unfold dynarmicMunmap
  simp only [spec_bind, spec_readState]
  refine ⟨h.safelyPublished, ?_⟩
  split
  · exact rejected h _
  · rename_i hvalid
    have hbumped := h.withCounters s.nextPage (s.lookupGeneration + 1) s.hostMemory
    simp only [spec_bind, spec_invalidate]
    refine ⟨hbumped.safelyPublished, (forEachPage_spec (fun _ u => VmInvariant 0 ∅ u) ?_
      (guestPages_nodup address size) hbumped (validateGuestMunmapRangeLocked_ok hvalid)).mono ?_⟩
    · intro vaddr _ u page _ hu hpage
      exact (unmapGuestPage_spec hu hpage).mono fun _ t h => ⟨h.1, ⟨_, h.2.1⟩, h.2.2⟩
    rintro _ t ⟨ht, hframe⟩
    exact committed ht ((Evolves.invalidate s).trans hframe.evolves) (by decide)
      (ht.fresh_of_names hframe.names)

/-! ## Replacing a range of pages -/

/-- The references a loop over `xs` still has to store, `target x` being what the page of `x` will
    point to. -/
def pendingReferences {β : Type} (target : β → Option ℕ) (xs : List β) : Multiset ℕ :=
  ((xs.filterMap target : List ℕ) : Multiset ℕ)

variable {β : Type}

theorem pendingReferences_cons (target : β → Option ℕ) (x : β) (rest : List β) :
    pendingReferences target (x :: rest) = ofOption (target x) + pendingReferences target rest := by
  unfold pendingReferences
  cases hx : target x with
  | none => simp [hx]
  | some => simp [hx]

/-- **The replacement loop** of `Dynarmic_mmap`, `Dynarmic_direct_mmap` and `Dynarmic_vm_remap`.
    It stores all the references its caller holds. -/
theorem replaceGuestPages_spec (address : β → ℕ) (fields : β → MemoryPage → MemoryPage)
    (target : β → Option ℕ) (xs : List β) (h : VmInvariant (pendingReferences target xs) ∅ s)
    (htarget : ∀ x page, (fields x page).backing = target x)
    (hmapped : ∀ x ∈ xs, (s.memory (address x)).isSome)
    (hwithin : ∀ x ∈ xs, ∀ page b backing, target x = some b → s.backings b = some backing →
      (fields x page).within backing) :
    VmSpec (forEach (fun x => replaceGuestPage (address x) (fields x)) xs) s
      (fun _ t => VmInvariant 0 ∅ t ∧ Frame s t
        ∧ (xs = [] ∨ ∃ x ∈ xs, t.backingAt (address x) = target x)) := by
  -- the last disjunct is about the page written last
  refine (Prog.Spec.forEach (fun rest u => VmInvariant (pendingReferences target rest) ∅ u
    ∧ Frame s u ∧ rest ⊆ xs ∧ (∀ x ∈ rest, (u.memory (address x)).isSome)
    ∧ (xs = rest ∨ ∃ x ∈ xs, u.backingAt (address x) = target x)) ?_ xs s
    ⟨h, Frame.refl s, List.Subset.refl xs, hmapped, .inl rfl⟩).mono
    (fun _ t ht => ⟨ht.1, ht.2.1, ht.2.2.2.2⟩)
  rintro x rest u ⟨hu, hframe, hsub, hall, -⟩
  obtain ⟨page, hpage⟩ := Option.isSome_iff_exists.1 (hall x mem_cons_self)
  rw [pendingReferences_cons, ← htarget x page] at hu
  refine (replaceGuestPage_spec hu hpage ?_).mono ?_
  · intro b backing hb hbacking
    exact hframe.within hbacking fun old hold =>
      hwithin x (hsub mem_cons_self) page b old (by rw [← htarget x page, hb]) hold
  · rintro _ t ⟨ht, hmemory, hf⟩
    refine ⟨ht, hframe.trans hf, fun y hy => hsub (mem_cons_of_mem x hy), fun y hy => ?_,
      .inr ⟨x, hsub mem_cons_self, by simp [backingAt, hmemory, htarget]⟩⟩
    by_cases hyx : address y = address x
    · simp [hmemory, hyx]
    · rw [hmemory, update_of_ne hyx]
      exact hall y (mem_cons_of_mem x hy)

theorem dynarmicDirectMmap_spec {src : ℕ} (h : VmInvariant 0 ∅ s) :
    VmSpec (dynarmicDirectMmap host address size protection flags src off) s (fun r t =>
      CallEffect SameBackings s (reportsSuccess r) t) := by
  unfold dynarmicDirectMmap
  split
  · exact rejected h _
  · simp only [spec_bind]
    refine (dynarmicMemReserve_spec host address size _ dynPageMask h).mono ?_
    rintro (e | ⟨start, reservations⟩) u hout
    · obtain ⟨hu, hmemory, hbackings, hframe⟩ := hout
      exact failed hu hframe hmemory hbackings _
    · obtain ⟨-, hu, -, -, hframe, -, hall⟩ := hout
      have hbumped := hu.withCounters u.nextPage (u.lookupGeneration + 1) u.hostMemory
      -- no page of the range will have a backing, so no reference has to be held
      have hpending : VmInvariant (pendingReferences (fun _ => none) (guestPages start size)) ∅
          { u with lookupGeneration := u.lookupGeneration + 1 } := by
        simpa [pendingReferences] using hbumped
      simp only [spec_bind, spec_invalidate]
      refine ⟨hbumped.safelyPublished, (replaceGuestPages_spec (fun vaddr => vaddr)
        (fun vaddr => mappedPage (src + off + (vaddr - start)) protection none) (fun _ => none) _
        hpending (fun _ _ => rfl) hall (by simp)).mono ?_⟩
      rintro _ t ⟨ht, hf, -⟩
      exact committed ht
        ((hframe.evolves.trans (Evolves.invalidate u)).trans hf.evolves) (by decide)
        (ht.fresh_of_names (hf.names.trans hframe.names))

/-! ## Mapping -/

variable {α : Type}

/-- Giving up after a reservation leaves no trace of the call. -/
theorem rollback_callEffect {reservations : List GuestPageReservation} {start size : ℕ}
    (hout : ReserveOutcome 0 s.memory s (guestPages start size) (.ok reservations) u)
    (result : Except Errno α) :
    VmSpec (do
      rollbackGuestPageReservations reservations
      pure result) u (fun r t => CallEffect SameBackings s (reportsSuccess r) t) := by
  obtain ⟨hu, hres, hbackings, hframe, -, -⟩ := hout
  simp only [spec_bind, pure_eq, spec_ret]
  refine (rollbackGuestPageReservations_spec hu hres).mono ?_
  rintro _ t ⟨ht, hmemory, hb, hf⟩
  exact failed ht (hframe.trans hf) hmemory (hb.trans hbackings) _

theorem pendingReferences_const (b : ℕ) (xs : List β) :
    pendingReferences (fun _ => some b) xs = Multiset.replicate xs.length b := by
  simp [pendingReferences, filterMap_eq_map', map_const', Multiset.coe_replicate]

/-- The host address of the page at `vaddr`, `skip` bytes into a host mapping of `size + skip`
    bytes, has its whole page inside that mapping. -/
theorem hostWord_within {mapping size skip start vaddr : ℕ} {backing : MemoryBacking}
    (haddr : backing.addr = mapping) (hsize : backing.size = size + skip)
    (hfits : mapping + (size + skip) ≤ 2 ^ 64) (hv : vaddr ∈ guestPages start size) :
    backing.addr ≤ hostWord (mapping + skip + (vaddr - start))
      ∧ hostWord (mapping + skip + (vaddr - start)) + dynPageSize
        ≤ backing.addr + backing.size := by
  obtain ⟨i, hi, rfl⟩ := mem_guestPages.1 hv
  have hlast : (i + 1) * dynPageSize ≤ size := by
    have hle := Nat.mul_le_mul_right dynPageSize (Nat.succ_le_of_lt hi)
    exact Nat.le_trans hle (Nat.div_mul_le_self size dynPageSize)
  unfold hostWord
  simp only [dynPageSize] at hlast ⊢
  omega

/-- The success paths that create a backing give it one reference for each element of `xs`; the loop
    that follows stores all of them. -/
theorem newBacking_spec (h : VmInvariant 0 ∅ u) (addr size hostProtection : ℕ) (bytes : ℕ → UInt8)
    (xs : List β) {references : ℕ} (hrefs : references = xs.length) (hpos : 0 < references)
    {rest : ℕ → VmProg α} {post : α → VmState → Prop}
    (hrest : ∀ t, VmInvariant (pendingReferences (fun _ => some u.nextBacking) xs) ∅ t →
      t.memory = u.memory →
      t.backings u.nextBacking = some ⟨addr, size, references, hostProtection⟩ →
      t.nextBacking = u.nextBacking + 1 → Evolves 1 u t → VmSpec (rest u.nextBacking) t post) :
    VmSpec (do
      perform (.mapHost addr size bytes)
      let backing ← perform (.callocBacking ⟨addr, size, references, hostProtection⟩)
      invalidateGuestMemoryLookupCaches
      rest backing) u post := by
  simp only [spec_bind, spec_perform, VmAction.apply, spec_invalidate]
  -- the host's bytes change, then the backing is created, then the generation is bumped
  have hhost := h.withCounters u.nextPage u.lookupGeneration (fun a =>
    if addr ≤ a ∧ a < addr + size then bytes (a - addr) else u.hostMemory a)
  subst hrefs
  have hcreated := hhost.create ⟨addr, size, xs.length, hostProtection⟩ hpos
  rw [Multiset.add_zero, ← pendingReferences_const] at hcreated
  have hbumped := hcreated.withCounters u.nextPage (u.lookupGeneration + 1) (fun a =>
    if addr ≤ a ∧ a < addr + size then bytes (a - addr) else u.hostMemory a)
  exact ⟨hhost.safelyPublished, hcreated.safelyPublished, hbumped.safelyPublished,
    hrest _ hbumped rfl (update_self ..) rfl
      ⟨rfl, rfl, rfl, Nat.le_succ u.nextBacking, suffix_rfl⟩⟩

theorem dynarmicMmap_spec {fildes : ℤ} {purgable : Bool} (h : VmInvariant 0 ∅ s) :
    VmSpec (dynarmicMmap host address size protection flags fildes off mask purgable) s
      (fun r t => CallEffect SameBackings s (reportsSuccess r) t) := by
  unfold dynarmicMmap
  split
  · exact rejected h _
  · simp only [spec_bind]
    refine (dynarmicMemReserve_spec host address size _ mask h).mono ?_
    rintro (e | ⟨start, reservations⟩) u hout
    · obtain ⟨hu, hmemory, hbackings, hframe⟩ := hout
      exact failed hu hframe hmemory hbackings _
    · obtain ⟨hrange, hreserved⟩ := hout
      dsimp only
      split
      · exact rollback_callEffect hreserved _
      · rename_i mapping _
        split
        · exact rollback_callEffect hreserved _
        obtain ⟨hu, -, -, hframe, -, hall⟩ := hreserved
        have hpos : 0 < size / dynPageSize := by
          have hsize := hrange.size_pos
          have haligned := hrange.size_aligned
          simp only [dynPageSize] at haligned ⊢
          omega
        refine newBacking_spec hu _ _ _ _ (guestPages start size)
          (length_guestPages start size).symm hpos fun v hv hmemory hcreated hnames hevolves => ?_
        rw [← hmemory] at hall
        refine Prog.Spec.seq (replaceGuestPages_spec (fun vaddr => vaddr) _
          (fun _ => some u.nextBacking) _ hv (fun _ _ => rfl) hall ?_) ?_
        · rintro vaddr hvaddr page b backing ⟨rfl⟩ hbacking
          cases hcreated.symm.trans hbacking
          exact hostWord_within rfl rfl mapping.fits hvaddr
        · rintro _ t ⟨ht, hf, hwritten⟩
          obtain ⟨vaddr, -, hvaddr⟩ := hwritten.resolve_left (guestPages_ne_nil hpos)
          rw [hframe.names] at hvaddr hnames
          exact committed ht ((hframe.evolves.trans hevolves).trans hf.evolves)
            (by decide) (ht.fresh_of_created (hf.names.trans hnames) hvaddr)

/-! ## Shared aliases -/

variable {addresses : List ℕ} {pages : List MemoryPage}

/-- The collected source pages are those mapped at the addresses, in order. -/
theorem remapSourcePages_ok (h : remapSourcePages s addresses = .ok pages) :
    addresses.map s.memory = pages.map some := by
  induction addresses generalizing pages with
  | nil =>
    simp only [remapSourcePages, Except.ok.injEq] at h
    subst h
    rfl
  | cons _ _ ih =>
    simp only [remapSourcePages] at h
    split at h
    · simp at h
    · rename_i page hpage
      split_ifs at h
      split at h
      · simp at h
      · rename_i others hothers
        simp only [Except.ok.injEq] at h
        subst h
        rw [map_cons, map_cons, hpage, ih hothers]

/-- Retaining a list of live backings. -/
theorem retainMemoryBackingReferences_spec (bs : List ℕ) (h : VmInvariant 0 ∅ s)
    (hlive : ∀ b ∈ bs, (s.backings b).isSome) :
    VmSpec (forEach retainMemoryBackingReference bs) s (fun _ t =>
      VmInvariant (bs : Multiset ℕ) ∅ t ∧ t.memory = s.memory ∧ Frame s t) := by
  refine (Prog.Spec.forEach (fun rest u => ∃ retained : List ℕ, retained.reverse ++ rest = bs
    ∧ VmInvariant (retained : Multiset ℕ) ∅ u ∧ u.memory = s.memory ∧ Frame s u
    ∧ ∀ c, (s.backings c).isSome → (u.backings c).isSome) ?_ bs s
    ⟨[], rfl, by simpa using h, rfl, Frame.refl s, fun _ hc => hc⟩).mono ?_
  · rintro b rest u ⟨retained, hsplit, hu, hmemory, hframe, hkept⟩
    have hb : b ∈ bs := by rw [← hsplit]; simp
    refine (retainMemoryBackingReference_spec hu (hkept b (hlive b hb))).mono ?_
    rintro _ t ⟨ht, hm, hf, hk⟩
    exact ⟨b :: retained, by simp [← hsplit], by simpa using ht, hm.trans hmemory,
      hframe.trans hf, fun c hc => hk c (hkept c hc)⟩
  · rintro _ t ⟨retained, hsplit, ht, hmemory, hframe, -⟩
    subst hsplit
    exact ⟨by simpa [Multiset.coe_reverse] using ht, hmemory, hframe⟩

theorem pendingReferences_zip (h : pages.length = addresses.length) :
    pendingReferences (fun entry : ℕ × MemoryPage => entry.2.backing) (addresses.zip pages)
      = ((pages.filterMap MemoryPage.backing : List ℕ) : Multiset ℕ) := by
  have hsnd : (addresses.zip pages).map Prod.snd = pages := map_snd_zip (Nat.le_of_eq h)
  conv_rhs => rw [← hsnd, filterMap_map]
  rfl

theorem dynarmicVmRemap_spec {source : ℕ} {copy : Bool} (h : VmInvariant 0 ∅ s) :
    VmSpec (dynarmicVmRemap host address size mask flags source copy) s (fun r t =>
      CallEffect SameBackings s (reportsSuccess r) t) := by
  unfold dynarmicVmRemap
  split
  · exact rejected h _
  next length destination _ =>
  split
  · exact rejected h _
  simp only [spec_bind, spec_readState]
  refine ⟨h.safelyPublished, ?_⟩
  split
  · exact rejected h _
  next pages hpages =>
  have hsources := remapSourcePages_ok hpages
  split
  · exact rejected h _
  simp only [spec_bind]
  refine (dynarmicMemReserve_spec host destination length _ _ h).mono ?_
  rintro (e | ⟨mapped, reservations⟩) u hout
  · obtain ⟨hu, hmemory, hbackings, hframe⟩ := hout
    exact failed hu hframe hmemory hbackings _
  obtain ⟨-, hu, hres, -, hframe, -, hall⟩ := hout
  -- the reservation has not touched the source pages
  have hstill : ∀ page ∈ pages, ∃ vaddr, u.memory vaddr = some page := by
    intro page hp
    obtain ⟨vaddr, -, hv⟩ := mem_map.1 (hsources ▸ mem_map_of_mem hp)
    exact ⟨vaddr, hres.of_mapped hv⟩
  simp only [spec_bind]
  refine (retainMemoryBackingReferences_spec (pages.filterMap MemoryPage.backing) hu ?_).mono ?_
  · intro b hb
    obtain ⟨page, hp, hbacking⟩ := mem_filterMap.1 hb
    obtain ⟨vaddr, hv⟩ := hstill page hp
    exact hu.page_live (backingAt_eq_some.2 ⟨page, hv, hbacking⟩)
  rintro _ w ⟨hw, hmemory, hf⟩
  have hbumped := hw.withCounters w.nextPage (w.lookupGeneration + 1) w.hostMemory
  have hlen : pages.length = (guestPages mapped length).length := by
    simpa [length_guestPages] using (congrArg List.length hsources).symm
  rw [← pendingReferences_zip hlen] at hbumped
  refine ⟨hbumped.safelyPublished, (replaceGuestPages_spec Prod.fst
    (fun entry => remappedPage entry.2) (fun entry => entry.2.backing) _ hbumped
    (fun _ _ => rfl) ?_ ?_).mono ?_⟩
  · rintro ⟨vaddr, page⟩ hentry
    have hv := hall vaddr (of_mem_zip hentry).1
    simpa [hmemory] using hv
  · -- the alias has the address of its source, which lies in the same storage
    rintro ⟨vaddr, page⟩ hentry old b backing hb hbacking
    obtain ⟨source, hsrc⟩ := hstill page (of_mem_zip hentry).2
    exact hf.within hbacking fun before hbefore =>
      hu.contained source page b before hsrc hb hbefore
  · rintro _ t ⟨ht, hlast, -⟩
    exact committed ht (((hframe.trans hf).evolves.trans
      (Evolves.invalidate w)).trans hlast.evolves) (by decide)
      (ht.fresh_of_names (hlast.names.trans (hframe.trans hf).names))

/-! ## Hiding and publishing a range -/

section Ranges

variable {held : Multiset ℕ}

/-- Nulling the entries of `pages` hides exactly these pages. -/
theorem hideGuestPages_spec (pages : List ℕ) (h : VmInvariant held ∅ s)
    (hmapped : ∀ vaddr ∈ pages, (s.memory vaddr).isSome) :
    VmSpec (forEach (fun vaddr => storePageTable vaddr none) pages) s (fun _ t =>
      VmInvariant held {vaddr | vaddr ∈ pages} t ∧ t.memory = s.memory
        ∧ t.backings = s.backings ∧ Frame s t) := by
  refine (Prog.Spec.forEach (fun rest u => ∃ nulled : List ℕ, nulled.reverse ++ rest = pages
    ∧ VmInvariant held {vaddr | vaddr ∈ nulled} u ∧ u.memory = s.memory
    ∧ u.backings = s.backings ∧ Frame s u) ?_ pages s
    ⟨[], rfl, by simpa using h, rfl, rfl, Frame.refl s⟩).mono ?_
  · rintro vaddr rest u ⟨nulled, hsplit, hu, hmemory, hbackings, hframe⟩
    have hmem : vaddr ∈ pages := by rw [← hsplit]; simp
    obtain ⟨page, hpage⟩ := Option.isSome_iff_exists.1 (hmapped vaddr hmem)
    have hhidden := hu.hide (h.keys vaddr page hpage)
    rw [show insert vaddr {v | v ∈ nulled} = {v | v ∈ vaddr :: nulled} by
      ext v; simp [mem_cons]] at hhidden
    exact ⟨hhidden.safelyPublished, vaddr :: nulled, by simp [← hsplit], hhidden,
      (withEntry_memory _ _).trans hmemory,
      (withEntry_backings _ _).trans hbackings, hframe.trans (Frame.withEntry u _ _)⟩
  · rintro _ t ⟨nulled, hsplit, ht, hmemory, hbackings, hframe⟩
    rw [append_nil] at hsplit
    subst hsplit
    exact ⟨by simpa using ht, hmemory, hbackings, hframe⟩

/-- Removing the head of a duplicate-free list from the hidden pages. -/
theorem hidden_tail {vaddr : ℕ} {rest : List ℕ} (h : vaddr ∉ rest) :
    {v | v ∈ vaddr :: rest} \ {vaddr} = {v | v ∈ rest} := by
  ext v
  simp only [mem_cons, Set.mem_sdiff, Set.mem_ofPred_eq, Set.mem_singleton_iff]
  constructor
  · rintro ⟨hv | hv, hne⟩
    · exact absurd hv hne
    · exact hv
  · intro hv
    exact ⟨.inr hv, fun he => h (he ▸ hv)⟩

/-- Publishing hidden pages again, as they stand. -/
theorem republishGuestPages_spec (pages : List ℕ) (hnodup : pages.Nodup)
    (h : VmInvariant held {vaddr | vaddr ∈ pages} s)
    (hmapped : ∀ vaddr ∈ pages, (s.memory vaddr).isSome) :
    VmSpec (forEach republishGuestPage pages) s (fun _ t =>
      VmInvariant held ∅ t ∧ t.memory = s.memory ∧ t.backings = s.backings ∧ Frame s t) := by
  refine (forEachPage_spec (fun rest u => VmInvariant held {vaddr | vaddr ∈ rest} u
    ∧ u.memory = s.memory ∧ u.backings = s.backings) ?_ hnodup ⟨h, rfl, rfl⟩ hmapped).mono ?_
  · rintro vaddr rest u page hnotin ⟨hu, hmemory, hbackings⟩ hpage
    refine (republishGuestPage_spec hu hpage).mono ?_
    rintro _ t ⟨ht, hm, hb, hf⟩
    rw [hidden_tail hnotin] at ht
    exact ⟨⟨ht, hm.trans hmemory, hb.trans hbackings⟩,
      ⟨_, hm.trans (update_eq_self vaddr _).symm⟩, hf⟩
  · rintro _ t ⟨⟨ht, hmemory, hbackings⟩, hframe⟩
    exact ⟨by simpa using ht, hmemory, hbackings, hframe⟩

end Ranges

/-! ## Changing protections -/

/-- The backings of `t` are those of `s`, some with `extra` added to their host protection. -/
def WidenedBy (extra : ℕ) (s t : VmState) : Prop :=
  ∀ b, t.backings b = s.backings b ∨ ∃ backing, s.backings b = some backing
    ∧ t.backings b = some { backing with hostProtection := backing.hostProtection ||| extra }

/-- The only difference between the backings is a wider host protection on some of them. -/
def HostProtectionWidened (s t : VmState) : Prop := ∃ extra, WidenedBy extra s t

theorem backingProtectionUpdates_mem {updates : List (ℕ × ℕ)} {b required : ℕ}
    (h : (b, required) ∈ backingProtectionUpdates s perms addresses updates) :
    (b, required) ∈ updates ∨ ∃ backing, s.backings b = some backing
      ∧ required = backing.hostProtection ||| hostProtectionForGuestPermissions perms := by
  induction addresses generalizing updates with
  | nil => exact .inl h
  | cons _ _ ih =>
    simp only [backingProtectionUpdates] at h
    split at h
    · exact ih h
    · split at h
      · exact ih h
      · split at h
        · exact ih h
        · rename_i backing hbacking
          rcases ih h with hold | hnew
          · rcases mem_append.1 hold with hold | hlast
            · exact .inl hold
            · simp only [mem_singleton, Prod.mk.injEq] at hlast
              obtain ⟨rfl, rfl⟩ := hlast
              exact .inr ⟨backing, hbacking, rfl⟩
          · exact .inr hnew

variable {hidden : Set ℕ}

/-- Widening one backing at a time keeps the invariant, whether or not the host goes along. -/
theorem widenHostProtections_spec (host : HostOutcomes) (extra : ℕ) {held : Multiset ℕ}
    (updates : List (ℕ × ℕ)) (h : VmInvariant held hidden u) (hwidened : WidenedBy extra s u)
    (hupdates : ∀ b required, (b, required) ∈ updates → ∃ backing, s.backings b = some backing
      ∧ required = backing.hostProtection ||| extra) :
    VmSpec (widenHostProtections host updates) u (fun _ t =>
      VmInvariant held hidden t ∧ t.memory = u.memory ∧ WidenedBy extra s t ∧ Frame u t) := by
  induction updates generalizing u with
  | nil => exact ⟨h, rfl, hwidened, Frame.refl u⟩
  | cons update _ ih =>
    obtain ⟨b, required⟩ := update
    obtain ⟨original, horiginal, hrequired⟩ := hupdates b required mem_cons_self
    have hrest := fun c r hm => hupdates c r (mem_cons_of_mem (b, required) hm)
    -- the current contents differ from the original ones at most in the protection
    obtain ⟨current, hcurrent, hresult⟩ : ∃ current, u.backings b = some current
        ∧ { current with hostProtection := required }
          = { original with hostProtection := original.hostProtection ||| extra } := by
      rcases hwidened b with hsame | ⟨other, hother, hnow⟩
      · exact ⟨original, by rw [hsame, horiginal], by rw [hrequired]⟩
      · rw [horiginal, Option.some.injEq] at hother
        subst hother
        exact ⟨_, hnow, by rw [hrequired]⟩
    unfold widenHostProtections
    simp only [spec_bind, spec_readState, hcurrent]
    refine ⟨h.safelyPublished, ?_⟩
    split
    · exact ih h hwidened hrest
    · split
      · exact ⟨h, rfl, hwidened, Frame.refl u⟩
      · have hbalanced : update u.references b current.references = u.references := by
          rw [← references_of_some hcurrent, update_eq_self]
        have hset := h.setBacking { current with hostProtection := required } hcurrent rfl rfl
          (h.positive b current hcurrent) (by rw [hbalanced]; exact h.balanced)
        have hnext : WidenedBy extra s
            (u.withBacking b { current with hostProtection := required }) := by
          intro c
          by_cases hcb : c = b
          · subst hcb
            exact .inr ⟨original, horiginal, by simp [withBacking, hresult]⟩
          · simpa [withBacking, hcb] using hwidened c
        have hstep : Frame u (u.withBacking b { current with hostProtection := required }) :=
          Frame.withBacking hcurrent rfl rfl
        refine ⟨hset.safelyPublished, (ih hset hnext hrest).mono ?_⟩
        rintro _ t ⟨ht, hm, hwt, hf⟩
        exact ⟨ht, hm, hwt, hstep.trans hf⟩

theorem dynarmicMprotect_spec (h : VmInvariant 0 ∅ s) :
    VmSpec (dynarmicMprotect host address size perms) s (fun r t =>
      CallEffect HostProtectionWidened s (reportsSuccess r) t) := by
  have hrejected : ∀ ok, CallEffect HostProtectionWidened s ok s := fun ok =>
    ⟨h, ⟨0, (Frame.refl s).evolves, fun _ => rfl⟩, h.fresh_of_names rfl,
      fun _ => ⟨rfl, 0, fun _ => .inl rfl⟩⟩
  unfold dynarmicMprotect
  split
  · exact hrejected _
  simp only [spec_bind, spec_readState]
  refine ⟨h.safelyPublished, ?_⟩
  split
  · exact hrejected _
  split
  · exact hrejected _
  next hall =>
  have hmapped : ∀ vaddr ∈ guestPages address size, (s.memory vaddr).isSome := by
    intro vaddr hv
    simp only [Bool.not_eq_true', Bool.not_eq_false] at hall
    have hpage := all_eq_true.1 hall vaddr hv
    simp only [Bool.and_eq_true] at hpage
    exact hpage.2
  have hbumped := h.withCounters s.nextPage (s.lookupGeneration + 1) s.hostMemory
  simp only [spec_bind, spec_invalidate]
  refine ⟨hbumped.safelyPublished, (hideGuestPages_spec _ hbumped hmapped).mono ?_⟩
  rintro _ u ⟨hu, humemory, hubackings, huframe⟩
  refine (widenHostProtections_spec host (hostProtectionForGuestPermissions perms) _ hu
    (fun b => .inl (by rw [hubackings]))
    (fun b required hm => (backingProtectionUpdates_mem hm).resolve_left (by simp))).mono ?_
  rintro widened w ⟨hw, hwmemory, hwidened, hwframe⟩
  have hwmapped : ∀ vaddr ∈ guestPages address size, (w.memory vaddr).isSome := by
    rw [hwmemory, humemory]
    exact hmapped
  have hevolves := (Evolves.invalidate s).trans (huframe.trans hwframe).evolves
  split
  · -- the host refused: the entries are restored, some protections stay widened
    simp only [spec_bind]
    refine (republishGuestPages_spec _ (guestPages_nodup address size) hw hwmapped).mono ?_
    rintro _ t ⟨ht, hmemory, hbackings, hframe⟩
    have hsame : t.memory = s.memory := by rw [hmemory, hwmemory, humemory]
    exact ⟨ht, ⟨_, hevolves.trans hframe.evolves, fun _ => hsame⟩,
      ht.fresh_of_names (hframe.names.trans (huframe.trans hwframe).names),
      fun _ => ⟨hsame, _, fun b => by rw [hbackings]; exact hwidened b⟩⟩
  · simp only [spec_bind]
    -- committing the permissions of a hidden page publishes it
    refine (forEachPage_spec (fun rest u => VmInvariant 0 {vaddr | vaddr ∈ rest} u) ?_
      (guestPages_nodup address size) hw hwmapped).mono ?_
    · intro vaddr rest u page hnotin hu hpage
      refine (protectGuestPage_spec hu hpage mem_cons_self).mono ?_
      rintro _ t ⟨ht, hm, hf⟩
      rw [hidden_tail hnotin] at ht
      exact ⟨ht, ⟨_, hm⟩, hf⟩
    · rintro _ t ⟨ht, hframe⟩
      have ht : VmInvariant 0 ∅ t := by simpa using ht
      exact committed ht (hevolves.trans hframe.evolves) (by decide)
        (ht.fresh_of_names (hframe.names.trans (huframe.trans hwframe).names))

/-! ## Private replacement -/

theorem replacedPagesCheck_ok {offsets : List ℕ}
    (h : replacedPagesCheck host s address size offsets = .ok ()) :
    ∀ offset ∈ offsets, (s.memory (address + offset)).isSome := by
  induction offsets with
  | nil => exact by simp
  | cons _ _ ih =>
    simp only [replacedPagesCheck] at h
    split at h
    · simp at h
    · rename_i hcheck
      intro o ho
      rcases mem_cons.1 ho with rfl | ho
      · unfold replacedPageCheck at hcheck
        split at hcheck
        · simp at hcheck
        · next page hpage => simp [hpage]
      · exact ih h o ho

/-- The retargeting loop stores the references of the new backing in hidden pages. -/
theorem retargetGuestPages_spec (b : ℕ) (addr : ℕ → ℕ) (pages : List ℕ)
    (h : VmInvariant (pendingReferences (fun _ => some b) pages) hidden s)
    (hhidden : ∀ vaddr ∈ pages, vaddr ∈ hidden) (hmapped : ∀ vaddr ∈ pages, (s.memory vaddr).isSome)
    (hwithin : ∀ vaddr ∈ pages, ∀ backing, s.backings b = some backing →
      backing.addr ≤ addr vaddr ∧ addr vaddr + dynPageSize ≤ backing.addr + backing.size) :
    VmSpec (forEach (fun vaddr => retargetGuestPage (addr vaddr) b vaddr) pages) s
      (fun _ t => VmInvariant 0 hidden t ∧ Frame s t
        ∧ (∀ vaddr, (s.memory vaddr).isSome → (t.memory vaddr).isSome)
        ∧ (pages = [] ∨ ∃ vaddr, t.backingAt vaddr = some b)) := by
  refine (Prog.Spec.forEach (fun rest u =>
    VmInvariant (pendingReferences (fun _ => some b) rest) hidden u ∧ rest ⊆ pages ∧ Frame s u
    ∧ (∀ vaddr, (s.memory vaddr).isSome → (u.memory vaddr).isSome)
    ∧ (pages = rest ∨ ∃ vaddr, u.backingAt vaddr = some b)) ?_ pages s
    ⟨h, List.Subset.refl pages, Frame.refl s, fun _ hv => hv, .inl rfl⟩).mono
    (fun _ t ht => ⟨ht.1, ht.2.2.1, ht.2.2.2⟩)
  rintro vaddr rest u ⟨hu, hsub, hframe, hgrows, -⟩
  have hmem := hsub mem_cons_self
  obtain ⟨page, hpage⟩ := Option.isSome_iff_exists.1 (hgrows vaddr (hmapped vaddr hmem))
  rw [pendingReferences_cons, ofOption_some, Multiset.singleton_add] at hu
  refine (retargetGuestPage_spec hu hpage (hhidden vaddr hmem) ?_).mono ?_
  · intro backing hbacking
    exact hframe.within hbacking fun old hold => hwithin vaddr hmem old hold
  · rintro _ t ⟨ht, hm, hf⟩
    refine ⟨ht, fun v hv => hsub (mem_cons_of_mem vaddr hv), hframe.trans hf, fun v hv => ?_,
      .inr ⟨vaddr, by simp [backingAt, hm]⟩⟩
    by_cases hvv : v = vaddr
    · simp [hm, hvv]
    · rw [hm, update_of_ne hvv]
      exact hgrows v hv

/-- The size of a private copy: `size` rounded up to whole pages. -/
theorem clearBits_pages (size : ℕ) (h : size ≠ 0) :
    0 < clearBits (size + dynPageMask) dynPageMask / dynPageSize := by
  unfold clearBits
  have hmod : (size + dynPageMask) &&& dynPageMask = (size + dynPageMask) % 2 ^ 12 :=
    Nat.and_two_pow_sub_one_eq_mod _ 12
  rw [hmod]
  simp only [dynPageMask, dynPageSize]
  omega

theorem replaceGuestMemoryRangeWithPrivateCopy_spec {source : Option (ℕ → UInt8)}
    (h : VmInvariant 0 ∅ s) :
    VmSpec (replaceGuestMemoryRangeWithPrivateCopy host address size source) s (fun r t =>
      CallEffect SameBackings s (reportsSuccess r) t) := by
  unfold replaceGuestMemoryRangeWithPrivateCopy
  split
  · exact rejected h _
  next hsize =>
  split
  · exact rejected h _
  split
  · exact rejected h _
  split
  · exact rejected h _
  simp only [spec_bind, spec_readState]
  refine ⟨h.safelyPublished, ?_⟩
  split
  · exact rejected h _
  next hcheck =>
  split
  · exact rejected h _
  next mapping _ =>
  split
  · exact rejected h _
  have hpos := clearBits_pages size hsize
  generalize clearBits (size + dynPageMask) dynPageMask = mappedSize at *
  have hpages : ∀ vaddr ∈ guestPages address mappedSize, (s.memory vaddr).isSome := by
    intro vaddr hv
    obtain ⟨i, hi, rfl⟩ := mem_guestPages.1 hv
    exact replacedPagesCheck_ok hcheck (i * dynPageSize) (mem_guestPages.2 ⟨i, hi, by simp⟩)
  refine newBacking_spec h _ _ _ _ (guestPages address mappedSize)
    (length_guestPages address mappedSize).symm hpos fun v hv hmemory hcreated hnames hevolves => ?_
  rw [← hmemory] at hpages
  refine Prog.Spec.seq (hideGuestPages_spec _ hv hpages) ?_
  rintro _ u ⟨hu, humemory, hubackings, huframe⟩
  rw [← humemory] at hpages
  refine Prog.Spec.seq (retargetGuestPages_spec s.nextBacking
    (fun vaddr => hostWord (mapping.addr + (vaddr - address))) _ hu (fun _ hv => hv) hpages ?_) ?_
  · intro vaddr hv backing hbacking
    rw [hubackings] at hbacking
    cases hcreated.symm.trans hbacking
    exact @hostWord_within mapping.addr mappedSize 0 address vaddr _ rfl rfl mapping.fits hv
  rintro _ w ⟨hw, hwframe, hgrows, hwritten⟩
  obtain ⟨vaddr, hvaddr⟩ := hwritten.resolve_left (guestPages_ne_nil hpos)
  refine Prog.Spec.seq (republishGuestPages_spec _ (guestPages_nodup address mappedSize) hw
    (fun vaddr hv => hgrows vaddr (hpages vaddr hv))) ?_
  rintro _ t ⟨ht, htmemory, -, htframe⟩
  have hframe := (huframe.trans hwframe).trans htframe
  have hpage : t.backingAt vaddr = some s.nextBacking := by
    simpa [backingAt, htmemory] using hvaddr
  exact committed ht (hevolves.trans hframe.evolves) (by decide)
    (ht.fresh_of_created (hframe.names.trans hnames) hpage)

/-! ## Every call -/

/-- What a failed call promises about the backings: `mprotect` may have widened host protections. -/
def VmCall.unchangedBackings : VmCall → VmState → VmState → Prop
  | .mprotect _ _ _ _ => HostProtectionWidened
  | _ => SameBackings

/-- **Every call has a `CallEffect`**, and publishes only live backings on the way. -/
theorem VmCall.body_spec (call : VmCall) (h : VmInvariant 0 ∅ s) :
    VmSpec call.body s (fun ok t => CallEffect call.unchangedBackings s ok t) := by
  cases call with
  | mmap => exact Prog.Spec.seq (dynarmicMmap_spec h) (fun _ _ ht => ht)
  | directMmap => exact Prog.Spec.seq (dynarmicDirectMmap_spec h) (fun _ _ ht => ht)
  | vmRemap => exact Prog.Spec.seq (dynarmicVmRemap_spec h) (fun _ _ ht => ht)
  | mprotect => exact Prog.Spec.seq (dynarmicMprotect_spec h) (fun _ _ ht => ht)
  | munmap => exact Prog.Spec.seq (dynarmicMunmap_spec h) (fun _ _ ht => ht)
  | replacePrivate =>
    exact Prog.Spec.seq (replaceGuestMemoryRangeWithPrivateCopy_spec h) (fun _ _ ht => ht)

/-- The effect of a call that nobody interrupts. -/
theorem VmCall.run_effect (call : VmCall) (h : VmInvariant 0 ∅ s) :
    CallEffect call.unchangedBackings s (call.body.run s).1 (call.body.run s).2 :=
  (call.body_spec h).run

/-- The invariant holds after every sequence of calls. -/
theorem runCalls_invariant (calls : List VmCall) (h : VmInvariant 0 ∅ s) :
    VmInvariant 0 ∅ (runCalls calls s) := by
  induction calls generalizing s with
  | nil => exact h
  | cons call _ ih => exact ih (call.run_effect h).invariant

end LiveExec32.Vm
