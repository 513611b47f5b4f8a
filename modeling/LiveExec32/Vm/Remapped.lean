import LiveExec32.Vm.AddressChoice

/-! # Remapping takes a snapshot

`Dynarmic_vm_remap` copies the source pages before it writes the first destination page, so the
result is that of a simultaneous assignment however the two ranges overlap. -/

namespace LiveExec32.Vm

open List VmAction Function Prog

variable {s : VmState}

/-! ## What the steps do to the map -/

/-- What the guest can see: its map and the bytes behind it. -/
def VmState.contents (s : VmState) : (ℕ → Option MemoryPage) × (ℕ → UInt8) :=
  (s.memory, s.hostMemory)

/-- A program that leaves the map and host memory alone. -/
abbrev KeepsContents {α : Type} (p : VmProg α) : Prop :=
  Prog.Keeps apply VmState.contents p

/-- From `s` to `t` no backing has moved, and host memory has changed only inside backings that are
    gone. -/
structure Unmaps (s t : VmState) : Prop where
  extents : ∀ b backing, t.backings b = some backing →
    ∃ old, s.backings b = some old ∧ old.addr = backing.addr ∧ old.size = backing.size
  bytes : ∀ a, (∀ b backing, s.backings b = some backing → t.backings b = none →
    ¬ (backing.addr ≤ a ∧ a < backing.addr + backing.size)) → t.hostMemory a = s.hostMemory a

theorem Unmaps.of_eq {t : VmState} (hbackings : t.backings = s.backings)
    (hbytes : t.hostMemory = s.hostMemory) : Unmaps s t :=
  ⟨fun _ backing hb => ⟨backing, hbackings ▸ hb, rfl, rfl⟩, fun _ _ => congrFun hbytes _⟩

theorem Unmaps.trans {t u : VmState} (h : Unmaps s u) (h' : Unmaps u t) : Unmaps s t := by
  constructor
  · intro b backing hb
    obtain ⟨mid, hmid, haddr, hsize⟩ := h'.extents b backing hb
    obtain ⟨old, hold, haddr', hsize'⟩ := h.extents b mid hmid
    exact ⟨old, hold, haddr'.trans haddr, hsize'.trans hsize⟩
  · intro a ha
    refine (h'.bytes a fun b backing hb hgone => ?_).trans (h.bytes a fun b backing hb hgone => ?_)
    · obtain ⟨old, hold, haddr, hsize⟩ := h.extents b backing hb
      exact haddr ▸ hsize ▸ ha b old hold hgone
    · refine ha b backing hb (Option.eq_none_iff_forall_ne_some.2 fun other hother => ?_)
      obtain ⟨mid, hmid, -⟩ := h'.extents b other hother
      cases hgone.symm.trans hmid

/-- Releasing a reference leaves the map, and unmaps the backing if that was its last one. -/
theorem releaseMemoryBackingReference_unmaps (backing : Option ℕ) :
    VmTriple (releaseMemoryBackingReference backing) s
      (fun _ t => t.memory = s.memory ∧ Unmaps s t) := by
  cases backing with
  | none => exact ⟨rfl, .of_eq rfl rfl⟩
  | some b =>
    refine ⟨trivial, ?_⟩
    simp only [Prog.bind, VmAction.apply]
    cases hb : s.backings b with
    | none => exact ⟨trivial, rfl, .of_eq rfl rfl⟩
    | some backing =>
      have hextents : ∀ references c other, Function.update s.backings b
          (some { backing with references := references }) c = some other →
          ∃ old, s.backings c = some old ∧ old.addr = other.addr ∧ old.size = other.size := by
        intro references c other hc
        by_cases hcb : c = b
        · subst hcb
          rw [Function.update_self] at hc
          exact ⟨backing, hb, by rw [← Option.some.inj hc], by rw [← Option.some.inj hc]⟩
        · rw [Function.update_of_ne hcb] at hc
          exact ⟨other, hc, rfl, rfl⟩
      simp only
      split_ifs
      · exact ⟨trivial, rfl, .of_eq rfl rfl⟩
      · exact ⟨trivial, rfl, hextents _, fun _ _ => rfl⟩
      · refine ⟨trivial, trivial, rfl, fun c other hc => ?_, fun a ha => ?_⟩
        · have hcb : c ≠ b := fun h => by simp [VmAction.apply, h] at hc
          simp only [VmAction.apply, Function.update_of_ne hcb] at hc
          exact ⟨other, hc, rfl, rfl⟩
        · have hout := ha b backing hb (by simp [VmAction.apply])
          have hbyte : backing.addr ≤ a → a < backing.addr + backing.size → 0 = s.hostMemory a :=
            fun hlow hhigh => absurd ⟨hlow, hhigh⟩ hout
          simpa [VmAction.apply, VmState.unmapHost] using hbyte

theorem retainMemoryBackingReference_keeps (b : ℕ) :
    KeepsContents (retainMemoryBackingReference b) := by
  refine ⟨fun _ => rfl, fun s => ?_⟩
  simp only [Prog.bind]
  cases s.backings b with
  | none | some => exact ⟨fun _ => rfl, fun _ => trivial⟩

theorem storePageTable_contents (vaddr : ℕ) (pointer : Option HostPointer) (s : VmState) :
    ((VmAction.storePageTable (pageIndex vaddr) pointer).apply s).2.contents = s.contents := by
  simp only [apply]
  split <;> rfl

theorem replaceGuestPage_memory (vaddr : ℕ) (fields : MemoryPage → MemoryPage) :
    VmTriple (replaceGuestPage vaddr fields) s (fun _ t =>
      t.memory = Function.update s.memory vaddr ((s.memory vaddr).map fields)) := by
  refine ⟨trivial, ?_⟩
  simp only [Prog.bind, VmAction.apply]
  cases hpage : s.memory vaddr with
  | none => exact ⟨trivial, by rw [Option.map_none, ← hpage, Function.update_eq_self]; rfl⟩
  | some page =>
    refine ⟨trivial, trivial, (releaseMemoryBackingReference_unmaps page.backing).mono ?_⟩
    intro _ t ht
    exact ht.1.trans (congrArg Prod.fst (storePageTable_contents _ _ _))

/-- Replacing distinct pages: each gets the fields meant for it, and nothing else changes. -/
theorem replaceGuestPages_memory {β : Type} (vaddr : β → ℕ) (fields : β → MemoryPage → MemoryPage)
    (xs : List β) (hnodup : (xs.map vaddr).Nodup) :
    VmTriple (forEach (fun x => replaceGuestPage (vaddr x) (fields x)) xs) s (fun _ t =>
      (∀ x ∈ xs, t.memory (vaddr x) = (s.memory (vaddr x)).map (fields x))
      ∧ ∀ v ∉ xs.map vaddr, t.memory v = s.memory v) := by
  induction xs generalizing s with
  | nil => exact ⟨by simp, fun _ _ => rfl⟩
  | cons x rest ih =>
    obtain ⟨hnotin, hrest⟩ := nodup_cons.1 hnodup
    refine Prog.Spec.seq (replaceGuestPage_memory (vaddr x) _) fun _ u hmemory =>
      (ih hrest).mono ?_
    rintro _ t ⟨hreplaced, hkept⟩
    refine ⟨fun y hy => ?_, fun v hv => ?_⟩
    · rcases mem_cons.1 hy with rfl | hy
      · rw [hkept _ hnotin, hmemory, update_self]
      · have hne : vaddr y ≠ vaddr x := fun he => hnotin (he ▸ mem_map_of_mem hy)
        rw [hreplaced y hy, hmemory, update_of_ne hne]
    · rw [map_cons, mem_cons, not_or] at hv
      rw [hkept v hv.2, hmemory, update_of_ne hv.1]

variable {memory : ℕ → Option MemoryPage}

/-- After a reservation, every page of the range is mapped. -/
theorem Inserted.mapped {old : ℕ → Option MemoryPage} {pages : List ℕ}
    {new : List GuestPageReservation} (h : Inserted old pages new memory) {vaddr : ℕ}
    (hv : vaddr ∈ pages) : ∃ page, memory vaddr = some page := by
  cases hold : old vaddr with
  | none =>
    have hmem : vaddr ∈ (unmapped old pages).reverse :=
      mem_reverse.2 (mem_filter.2 ⟨hv, by simp [hold]⟩)
    rw [← h.addresses] at hmem
    obtain ⟨r, hr, rfl⟩ := mem_map.1 hmem
    exact ⟨_, h.empty r hr⟩
  | some page =>
    exact ⟨page, by rw [h.kept vaddr (by simp [unmapped, hold]), hold]⟩

variable {address size : ℕ}

theorem getElem?_guestPages {i : ℕ} (hi : i < size / dynPageSize) :
    (guestPages address size)[i]? = some (address + i * dynPageSize) := by
  simp [guestPages, hi]

/-! ## The call -/

/-- A bit of the common protection is one that every source page has. -/
theorem testBit_commonProtection (pages : List MemoryPage) (initial i : ℕ) :
    (pages.foldl (fun common page => common &&& page.perms) initial).testBit i
      ↔ initial.testBit i ∧ ∀ page ∈ pages, page.perms.testBit i := by
  induction pages generalizing initial with
  | nil => simp
  | cons page rest ih => simp [ih, and_assoc]

/-- A fixed reservation at an aligned address does not move. -/
theorem reserveAddress_of_aligned {mask start : ℕ} (haligned : address &&& mask = 0)
    (h : reserveAddress memory address size true mask = .ok start) : start = address := by
  simp only [reserveAddress, true_and, if_true, Bool.true_eq_false, false_and, if_false] at h
  split at h
  · simp at h
  next hargs =>
  simp only [not_or, not_not] at hargs
  have hmask : (mask + 1) &&& mask = 0 := by
    rw [Nat.and_comm]
    exact hargs.2.2.2.2
  split at h
  · simp at h
  simp only [alignGuestAddress, haligned, Nat.sub_zero, hmask, Nat.add_zero] at h
  split at h
  · simp at h
  · rename_i first hfirst
    split_ifs at hfirst h
    rw [← Except.ok.inj h, Option.some.inj hfirst]

/-- What the argument checks of a remap leave: the rounded size, and an aligned destination. -/
theorem remapArguments_ok {mask flags source length destination : ℕ} {copy : Bool}
    (h : remapArguments address size mask flags source copy = .ok (length, destination)) :
    length / dynPageSize = (size + dynPageMask) / dynPageSize
      ∧ (hasBits flags vmFlagsAnywhere = false → destination &&& (mask ||| dynPageMask) = 0) := by
  simp only [remapArguments] at h
  split_ifs at h with _ _ _ _ hspace <;> simp only [Except.ok.injEq, Prod.mk.injEq] at h
  all_goals
    obtain ⟨rfl, rfl⟩ := h
    refine ⟨?_, fun hanywhere => ?_⟩
    · rw [clearBits, show dynPageMask = 2 ^ 12 - 1 from rfl, Nat.and_two_pow_sub_one_eq_mod]
      simp only [dynPageSize]
      omega
    · simp_all

/-- What a successful remap of `count` pages leaves. -/
structure Remapped (s t : VmState) (source mapped count protection : ℕ) (overwrite : Bool) :
    Prop where
  aliased : ∀ i < count, ∃ old page, s.memory (source + i * dynPageSize) = some old
    ∧ t.memory (mapped + i * dynPageSize) = some page
    ∧ page.addr = old.addr ∧ page.perms = old.perms ∧ page.backing = old.backing
    ∧ page.enforceDataPermissions = true
  kept : ∀ vaddr, (∀ i < count, vaddr ≠ mapped + i * dynPageSize) → t.memory vaddr = s.memory vaddr
  protection : ∀ bit, protection.testBit bit ↔ bit < 3 ∧ ∀ i < count, ∀ old,
    s.memory (source + i * dynPageSize) = some old → old.perms.testBit bit
  fresh : overwrite = false → ∀ i < count, s.memory (mapped + i * dynPageSize) = none

theorem dynarmicVmRemap_remapped (host : HostOutcomes) (address size mask flags source : ℕ)
    (copy : Bool) :
    VmTriple (dynarmicVmRemap host address size mask flags source copy) s (fun result t =>
      ∀ mapped protection, result = .ok (mapped, protection) →
        Remapped s t source mapped ((size + dynPageMask) / dynPageSize) protection
          (hasBits flags vmFlagsOverwrite)) := by
  unfold dynarmicVmRemap
  split
  · exact by simp
  next length destination harguments =>
  split
  · exact by simp
  refine ⟨trivial, ?_⟩
  dsimp only [Prog.bind, VmAction.apply]
  cases hpages : remapSourcePages s (guestPages source length) with
  | error k => exact by simp
  | ok pages =>
  simp only
  split
  · exact by simp
  next hcollision =>
  refine Prog.Spec.seq (dynarmicMemReserve_inserted host destination length _ _) ?_
  rintro (e | ⟨mapped, reservations⟩) u hreserved
  · exact by simp
  obtain ⟨hstart, hinserted⟩ := hreserved
  refine Prog.Spec.seq ((Prog.Keeps.forEach retainMemoryBackingReference_keeps _).spec u)
    fun _ v hv => ?_
  have hdistinct : (((guestPages mapped length).zip pages).map Prod.fst).Nodup := by
    rw [map_fst_zip (by
      have := congrArg List.length (remapSourcePages_ok hpages)
      simp only [length_map, length_guestPages] at this ⊢
      omega)]
    exact guestPages_nodup mapped length
  simp only [Prog.spec_bind]
  refine ⟨trivial, (replaceGuestPages_memory Prod.fst (fun entry => remappedPage entry.2) _
    hdistinct).mono ?_⟩
  rintro _ t ⟨hreplaced, hkept⟩ _ _ hresult
  obtain ⟨rfl, rfl⟩ := Prod.mk.inj (Except.ok.inj hresult)
  obtain ⟨hlength, haligned⟩ := remapArguments_ok harguments
  rw [← hlength]
  have hbefore : (VmAction.invalidateGuestMemoryLookupCaches.apply v).2.memory = u.memory :=
    congrArg Prod.fst hv
  rw [hbefore] at hreplaced hkept
  -- the snapshot of the source pages, taken in `s`
  have hsource : ∀ i < length / dynPageSize, ∃ old, pages[i]? = some old
      ∧ s.memory (source + i * dynPageSize) = some old := by
    intro i hi
    have hi' := congrArg (fun l => l[i]?) (remapSourcePages_ok hpages)
    simp only [getElem?_map, getElem?_guestPages hi, Option.map_some] at hi'
    obtain ⟨old, hold, heq⟩ := Option.map_eq_some_iff.1 hi'.symm
    exact ⟨old, hold, heq.symm⟩
  refine ⟨fun i hi => ?_, fun vaddr hv => ?_, fun bit => ?_, fun hoverwrite i hi => ?_⟩
  · obtain ⟨old, hold, hmem⟩ := hsource i hi
    obtain ⟨page, hpage⟩ := hinserted.mapped (mem_of_getElem? (getElem?_guestPages hi))
    have hentry := hreplaced (mapped + i * dynPageSize, old) (mem_of_getElem?
      (getElem?_zip_eq_some.2 ⟨getElem?_guestPages hi, hold⟩))
    rw [hpage, Option.map_some] at hentry
    exact ⟨old, _, hmem, hentry, rfl, rfl, rfl, rfl⟩
  · have hout : vaddr ∉ guestPages mapped length := by
      intro hmem
      obtain ⟨i, hi, heq⟩ := mem_guestPages.1 hmem
      exact hv i hi heq
    rw [hkept vaddr fun hmem => ?_, hinserted.kept vaddr fun hmem => ?_]
    · exact hout (mem_filter.1 hmem).1
    · obtain ⟨entry, hentry, rfl⟩ := mem_map.1 hmem
      exact hout (of_mem_zip hentry).1
  · rw [testBit_commonProtection, show protRead ||| protWrite ||| protExec = 2 ^ 3 - 1 from rfl,
      Nat.testBit_two_pow_sub_one, decide_eq_true_eq]
    refine and_congr_right fun _ => ⟨fun hall i hi old hold => ?_, fun hall page hp => ?_⟩
    · obtain ⟨page, hpage, hmem⟩ := hsource i hi
      rw [hold, Option.some.injEq] at hmem
      exact hmem ▸ hall page (mem_of_getElem? hpage)
    · obtain ⟨i, hi⟩ := getElem?_of_mem hp
      have hcount := congrArg List.length (remapSourcePages_ok hpages)
      simp only [length_map, length_guestPages] at hcount
      have hlt : i < length / dynPageSize := hcount ▸ (List.getElem?_eq_some_iff.1 hi).1
      obtain ⟨old, hold, hmem⟩ := hsource i hlt
      rw [hi, Option.some.injEq] at hold
      exact hall i hlt page (hold ▸ hmem)
  · have hv : mapped + i * dynPageSize ∈ guestPages mapped length :=
      mem_of_getElem? (getElem?_guestPages hi)
    by_cases hanywhere : hasBits flags vmFlagsAnywhere = true
    · exact (reserveAddress_ok hstart).free (by simp [hanywhere]) _ hv
    · -- the destination is fixed, and it was found free
      have hfixed : hasBits flags vmFlagsAnywhere = false := by simpa using hanywhere
      rw [hfixed, Bool.not_false] at hstart
      rw [reserveAddress_of_aligned (haligned hfixed) hstart] at hv ⊢
      simp only [hfixed, hoverwrite, true_and, any_eq_true, not_exists, not_and] at hcollision
      exact Option.not_isSome_iff_eq_none.1 (hcollision _ hv)

/-- **Remapping takes a snapshot.** After a successful `Dynarmic_vm_remap`, destination page `i` has
    the host address, permissions and backing that source page `i` had before the call, with strict
    permission checking on, however the two ranges overlap; no other page has changed; the reported
    protection has the bits that every source page had; and without `VM_FLAGS_OVERWRITE` no page was
    replaced. -/
theorem vmRemap_snapshot (host : HostOutcomes) (s : VmState) (address size mask flags source : ℕ)
    (copy : Bool) (mapped protection : ℕ)
    (h : ((dynarmicVmRemap host address size mask flags source copy).run s).1
      = .ok (mapped, protection)) :
    Remapped s ((dynarmicVmRemap host address size mask flags source copy).run s).2 source mapped
      ((size + dynPageMask) / dynPageSize) protection (hasBits flags vmFlagsOverwrite) :=
  (dynarmicVmRemap_remapped host address size mask flags source copy).run mapped protection h

/-- Two anonymous pages at `0x10000`. -/
def twoPages : VmState :=
  runCalls [.mmap { outOfBackings with callocBacking := true } 0x10000 0x2000 3 0x1012 (-1) 0 4095
    false] (VmState.initial true 32)

/-- Two pages remapped onto the second of them and the one behind it. -/
theorem vmRemap_snapshot_overlapping :
    ∃ t, Remapped twoPages t 0x10000 0x11000 2 3 true :=
  ⟨_, vmRemap_snapshot outOfBackings twoPages 0x11000 0x2000 0 vmFlagsOverwrite
    0x10000 false 0x11000
    3 (by decide +kernel)⟩

/-! ## Unmapping and protecting -/

/-- What the guest can see once the pages of a range are changed. -/
def VmState.changed (s : VmState) (address size : ℕ)
    (change : Option MemoryPage → Option MemoryPage) : (ℕ → Option MemoryPage) × (ℕ → UInt8) :=
  (fun v => if v ∈ guestPages address size then change (s.memory v) else s.memory v, s.hostMemory)

/-- A loop over a range that changes each page in the same way. `R` is what a round does to the rest
    of the state. -/
theorem forEachPage_changed {R : VmState → VmState → Prop} (hrefl : ∀ u, R u u)
    (htrans : ∀ {u v w}, R u v → R v w → R u w) (change : Option MemoryPage → Option MemoryPage)
    {body : ℕ → VmProg Unit} (hbody : ∀ vaddr u, VmTriple (body vaddr) u (fun _ t =>
      t.memory = update u.memory vaddr (change (u.memory vaddr)) ∧ R u t))
    (address size : ℕ) :
    VmTriple (forEach body (guestPages address size)) s (fun _ t =>
      t.memory = (s.changed address size change).1 ∧ R s t) := by
  have hnodup := guestPages_nodup address size
  unfold VmState.changed
  generalize guestPages address size = pages at hnodup
  induction pages generalizing s with
  | nil => exact ⟨by simp, hrefl s⟩
  | cons vaddr rest ih =>
    obtain ⟨hnotin, hrest⟩ := nodup_cons.1 hnodup
    refine Prog.Spec.seq (hbody vaddr s) fun _ u hu => (ih hrest).mono fun _ t ht => ?_
    refine ⟨?_, htrans hu.2 ht.2⟩
    rw [ht.1, hu.1]
    funext v
    by_cases hv : v = vaddr
    · simp [hv, hnotin]
    · simp [hv]

theorem unmapGuestPage_unmaps (vaddr : ℕ) (u : VmState) :
    VmTriple (unmapGuestPage vaddr) u (fun _ t =>
      t.memory = Function.update u.memory vaddr none ∧ Unmaps u t) := by
  have hstored : (VmAction.apply (.storePageTable (pageIndex vaddr) none) u).2.memory = u.memory
      ∧ Unmaps u (VmAction.apply (.storePageTable (pageIndex vaddr) none) u).2 := by
    simp only [VmAction.apply]
    split <;> exact ⟨rfl, .of_eq rfl rfl⟩
  refine ⟨trivial, trivial, ?_⟩
  generalize (VmAction.apply (.storePageTable (pageIndex vaddr) none) u).2 = v at hstored
  obtain ⟨hmemory, hv⟩ := hstored
  rw [← hmemory]
  simp only [Prog.bind, VmAction.apply]
  cases hpage : v.memory vaddr with
  | none =>
    exact ⟨trivial, by rw [← hpage, Function.update_eq_self]; rfl, hv.trans (.of_eq rfl rfl)⟩
  | some page =>
    refine ⟨trivial, Prog.Spec.seq (releaseMemoryBackingReference_unmaps page.backing)
      fun _ t ht => ⟨trivial, by simp [VmAction.apply, ht.1], ?_⟩⟩
    have hset : Unmaps v (VmAction.apply (.setPage vaddr { page with backing := none }) v).2 :=
      .of_eq rfl rfl
    exact hv.trans (hset.trans (ht.2.trans (.of_eq rfl rfl)))

/-- **`Dynarmic_munmap` removes the pages of its range** and no other page, and unmaps no host
    memory but that of the backings that go with them; or it changes nothing. -/
theorem dynarmicMunmap_contents (s : VmState) (address size : ℕ) :
    VmTriple (dynarmicMunmap address size) s (fun result t =>
      if reportsSuccess result then
        t.memory = (s.changed address size (fun _ => none)).1 ∧ Unmaps s t
      else t.contents = s.contents) := by
  refine ⟨trivial, ?_⟩
  simp only [Prog.bind, VmAction.apply]
  split
  · rfl
  · refine ⟨trivial, ?_⟩
    simp only [Prog.bind]
    refine Prog.Spec.seq (forEachPage_changed (R := Unmaps) (fun _ => .of_eq rfl rfl) Unmaps.trans
      (fun _ => none) unmapGuestPage_unmaps address size) fun _ t ht => ⟨ht.1, ?_⟩
    have hbumped : Unmaps s (VmAction.apply .invalidateGuestMemoryLookupCaches s).2 :=
      .of_eq rfl rfl
    exact hbumped.trans ht.2

/-- The fields that `Dynarmic_mprotect` stores. -/
def protectedPage (perms : ℕ) (page : MemoryPage) : MemoryPage :=
  { page with perms := perms, enforceDataPermissions := true }

theorem protectGuestPage_contents (perms vaddr : ℕ) (u : VmState) :
    VmTriple (protectGuestPage perms vaddr) u (fun _ t =>
      t.memory = Function.update u.memory vaddr ((u.memory vaddr).map (protectedPage perms))
        ∧ t.hostMemory = u.hostMemory) := by
  refine ⟨trivial, ?_⟩
  simp only [Prog.bind, VmAction.apply]
  cases hpage : u.memory vaddr with
  | none => exact ⟨trivial, by rw [Option.map_none, ← hpage, Function.update_eq_self]; rfl, rfl⟩
  | some page => exact ⟨trivial, trivial, Prod.mk.inj (storePageTable_contents _ _ _)⟩

theorem widenHostProtections_keeps (host : HostOutcomes) (updates : List (ℕ × ℕ)) :
    KeepsContents (widenHostProtections host updates) := by
  induction updates with
  | nil => exact trivial
  | cons update rest ih =>
    refine ⟨fun _ => rfl, fun s => ?_⟩
    simp only [Prog.bind]
    cases s.backings update.1 with
    | none => exact ⟨fun _ => rfl, fun _ => ih⟩
    | some backing =>
      simp only
      split_ifs
      · exact ih
      · exact trivial
      · exact ⟨fun _ => rfl, fun _ => ih⟩

theorem republishGuestPage_keeps (vaddr : ℕ) : KeepsContents (republishGuestPage vaddr) := by
  refine ⟨fun _ => rfl, fun s => ?_⟩
  simp only [Prog.bind]
  cases s.memory vaddr with
  | none => exact ⟨fun _ => rfl, fun _ => trivial⟩
  | some page => exact ⟨storePageTable_contents vaddr _, fun _ => trivial⟩

/-- **`Dynarmic_mprotect` gives the pages of its range their permissions**, with strict checking on,
    or changes nothing that the guest can see. -/
theorem dynarmicMprotect_contents (host : HostOutcomes) (s : VmState) (address size perms : ℕ) :
    VmTriple (dynarmicMprotect host address size perms) s (fun result t => t.contents
      = if reportsSuccess result then s.changed address size (·.map (protectedPage perms))
        else s.contents) := by
  unfold dynarmicMprotect
  split
  · exact rfl
  simp only [spec_bind]
  refine ⟨trivial, ?_⟩
  simp only [spec_ret, apply]
  split
  · exact rfl
  split
  · exact rfl
  simp only [spec_bind]
  have hhide : ∀ vaddr, KeepsContents (storePageTable vaddr none) := fun vaddr =>
    ⟨storePageTable_contents vaddr none, fun _ => trivial⟩
  refine ⟨trivial, ((Prog.Keeps.forEach hhide _).spec _).mono fun _ u hu =>
    ((widenHostProtections_keeps host _).spec u).mono fun widened v hv => ?_⟩
  have hsame : v.contents = s.contents := hv.trans hu
  split
  · exact Prog.Spec.seq ((Prog.Keeps.forEach republishGuestPage_keeps _).spec v)
      fun _ t ht => ht.trans hsame
  · obtain ⟨hmemory, hbytes⟩ := Prod.mk.inj hsame
    refine Prog.Spec.seq (forEachPage_changed (R := fun u t => t.hostMemory = u.hostMemory)
      (fun _ => rfl) (fun h h' => h'.trans h) _ (protectGuestPage_contents perms) address size)
        fun _ t ht => ?_
    rw [VmState.changed, hmemory] at ht
    exact Prod.ext ht.1 (ht.2.trans hbytes)

end LiveExec32.Vm
