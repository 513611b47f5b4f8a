import LiveExec32.Vm.MutatorSpecs

/-! # Reserving guest pages

`Dynarmic_mem_reserve` picks an aligned range and inserts an empty page at each address of it that
has none. It can fail after some insertions; `RollbackGuestPageReservations` then removes exactly
the pages it inserted. `Reserved` is what relates the map before and during a reservation. -/

namespace LiveExec32.Vm

open RefCount List VmState MemoryPage Function

variable {held : Multiset ℕ} {s : VmState}

/-! ## Page ranges -/

variable {address size vaddr : ℕ}

theorem mem_guestPages : vaddr ∈ guestPages address size
      ↔ ∃ i, i < size / dynPageSize ∧ vaddr = address + i * dynPageSize := by
  simp only [guestPages, mem_map, mem_range]
  constructor
  · rintro ⟨i, hi, rfl⟩
    exact ⟨i, hi, rfl⟩
  · rintro ⟨i, hi, rfl⟩
    exact ⟨i, hi, rfl⟩

theorem guestPages_nodup (address size : ℕ) : (guestPages address size).Nodup := by
  refine List.Nodup.map ?_ nodup_range
  intro i j hij
  simp only [dynPageSize] at hij
  omega

theorem length_guestPages (address size : ℕ) :
    (guestPages address size).length = size / dynPageSize := by
  simp [guestPages]

theorem guestPages_ne_nil (h : 0 < size / dynPageSize) : guestPages address size ≠ [] := by
  intro hnil
  have hlength := length_guestPages address size
  rw [hnil, length_nil] at hlength
  omega

/-- The pages of an aligned range inside the guest address space are keys of the map. -/
theorem guestPages_subset (haligned : address % dynPageSize = 0)
    (hrange : guestAddressRangeIsValid32 address size) :
    ∀ vaddr ∈ guestPages address size, vaddr ∈ guestPageAddresses := by
  intro vaddr hv
  obtain ⟨i, hi, rfl⟩ := mem_guestPages.1 hv
  simp only [guestAddressRangeIsValid32, decide_eq_true_eq] at hrange
  rw [mem_guestPageAddresses]
  simp only [dynPageSize, addressSpaceSize] at *
  omega

/-! ## Alignment -/

section AddressChoice

variable {memory : ℕ → Option MemoryPage} {size mask k address : ℕ} {a : ℕ}

/-- Rounding up gives the least multiple. -/
theorem roundUp_least {unit b : ℕ} (hunit : 0 < unit) (hb : b % unit = 0) (hle : a ≤ b) :
    a + (unit - a % unit) % unit ≤ b := by
  obtain ⟨c, rfl⟩ := Nat.dvd_of_mod_eq_zero hb
  have hsplit := Nat.div_add_mod a unit
  by_cases hzero : a % unit = 0
  · simpa [hzero] using hle
  · rw [Nat.mod_eq_of_lt (by omega)]
    have hlt : a / unit < c := Nat.div_lt_of_lt_mul (Nat.lt_of_le_of_ne hle fun heq => hzero (by
      rw [heq, Nat.mul_mod_right]))
    have hnext := Nat.mul_le_mul_left unit (Nat.succ_le_of_lt hlt)
    rw [Nat.mul_succ] at hnext
    omega

theorem roundUp_mod (unit a : ℕ) (hunit : 0 < unit) :
    (a + (unit - a % unit) % unit) % unit = 0 := by
  have hmod := Nat.mod_lt a hunit
  rw [Nat.add_mod_mod, ← Nat.mod_add_mod, Nat.add_sub_cancel' (Nat.le_of_lt hmod), Nat.mod_self]

/-- `AlignGuestAddress` answers the least multiple of the alignment at or above the address. -/
theorem alignGuestAddress_isLeast {aligned : ℕ} (hmask : mask + 1 = 2 ^ k)
    (h : alignGuestAddress address mask = some aligned) :
    IsLeast {a | a % 2 ^ k = 0 ∧ address ≤ a} aligned := by
  have hpos : 0 < 2 ^ k := Nat.two_pow_pos k
  obtain rfl : mask = 2 ^ k - 1 := by omega
  simp only [alignGuestAddress, Nat.and_two_pow_sub_one_eq_mod, Nat.sub_add_cancel hpos] at h
  split_ifs at h
  cases h
  exact ⟨⟨roundUp_mod _ _ hpos, Nat.le_add_right _ _⟩, fun a ha => roundUp_least hpos ha.1 ha.2⟩

/-- It answers nothing only where no multiple is left below the end of the address space. -/
theorem alignGuestAddress_none (hmask : mask + 1 = 2 ^ k)
    (h : alignGuestAddress address mask = none) (ha : a % 2 ^ k = 0) (hle : address ≤ a) :
    addressSpaceSize ≤ a := by
  have hpos : 0 < 2 ^ k := Nat.two_pow_pos k
  obtain rfl : mask = 2 ^ k - 1 := by omega
  have hleast := roundUp_least hpos ha hle
  simp only [alignGuestAddress, Nat.and_two_pow_sub_one_eq_mod, Nat.sub_add_cancel hpos] at h
  split_ifs at h with hfar hend
  · omega
  · omega

theorem page_dvd (hk : 12 ≤ k) (h : a % 2 ^ k = 0) : a % dynPageSize = 0 :=
  Nat.mod_eq_zero_of_dvd (Nat.dvd_trans (Nat.pow_dvd_pow 2 hk) (Nat.dvd_of_mod_eq_zero h))

/-- A mask that passes the argument checks covers a page and is one less than a power of two. -/
theorem exists_pow_of_mask (hmask : mask &&& (mask + 1) = 0) (hpage : dynPageMask ≤ mask) :
    ∃ k, 12 ≤ k ∧ mask + 1 = 2 ^ k := by
  obtain ⟨k, hk⟩ := (Nat.and_sub_one_eq_zero_iff_isPowerOfTwo (Nat.succ_ne_zero mask)).1
    (by rwa [Nat.succ_sub_one, Nat.and_comm])
  refine ⟨k, ?_, hk⟩
  by_contra hlt
  have hle : 2 ^ k ≤ 2 ^ 11 := Nat.pow_le_pow_right (by decide) (by omega)
  simp only [dynPageMask] at hpage
  omega

/-! ## The chosen address -/

/-- The range at `a` is inside the address space, and no page of it is mapped. -/
def FreeRange (memory : ℕ → Option MemoryPage) (size a : ℕ) : Prop :=
  a + size ≤ addressSpaceSize ∧ ∀ vaddr ∈ guestPages a size, memory vaddr = none

theorem valid_of_free (hsize : 0 < size) (h : FreeRange memory size a) :
    guestAddressRangeIsValid32 a size := by
  have hend := h.1
  simp only [guestAddressRangeIsValid32, decide_eq_true_eq]
  omega

/-- A free range at or above a candidate that collides starts behind the page that collided. -/
theorem collision_before (hcollision : firstCollision memory address size = some vaddr)
    (haddress : address % dynPageSize = 0) (ha : a % dynPageSize = 0) (hle : address ≤ a)
    (hfree : FreeRange memory size a) : vaddr + dynPageSize ≤ a := by
  obtain ⟨i, hi, rfl⟩ := mem_guestPages.1 (mem_of_find?_eq_some hcollision)
  have hmapped := find?_some hcollision
  by_contra hlt
  -- the page would be one of the free range
  have hmem : address + i * dynPageSize ∈ guestPages a size := by
    refine mem_guestPages.2 ⟨(address + i * dynPageSize - a) / dynPageSize, ?_, ?_⟩
    all_goals
      simp only [dynPageSize] at haddress ha hi hlt ⊢
      omega
  rw [hfree.2 _ hmem] at hmapped
  simp at hmapped

/-- **The search is exhaustive.** It answers the least aligned free range from its start on. -/
theorem searchFreeRange_least (hmask : mask + 1 = 2 ^ k) (hk : 12 ≤ k) (hsize : 0 < size)
    (haddress : address % 2 ^ k = 0) (hrange : guestAddressRangeIsValid32 address size) :
    match searchFreeRange memory size mask address with
    | some found => IsLeast {a | a % 2 ^ k = 0 ∧ address ≤ a ∧ FreeRange memory size a} found
    | none => ∀ a, a % 2 ^ k = 0 → address ≤ a → ¬ FreeRange memory size a := by
  fun_induction searchFreeRange memory size mask address with
  | case1 _ hnext =>
    unfold nextCandidate at hnext
    split at hnext
    · rename_i hcollision
      simp only [guestAddressRangeIsValid32, decide_eq_true_eq] at hrange
      refine ⟨⟨haddress, le_rfl, by omega, fun vaddr hv => ?_⟩, fun a ha => ha.2.1⟩
      simpa using find?_eq_none.1 hcollision vaddr hv
    · simp at hnext
  | case2 _ hnext =>
    intro a ha hle hfree
    unfold nextCandidate at hnext
    split at hnext
    · simp at hnext
    · rename_i vaddr hcollision
      have hbehind := collision_before hcollision (page_dvd hk haddress)
        (page_dvd hk ha) hle hfree
      have hend := hfree.1
      cases halign : alignGuestAddress (vaddr + dynPageSize) mask with
      | none =>
        have hfar := alignGuestAddress_none hmask halign ha hbehind
        omega
      | some =>
        have hleast := (alignGuestAddress_isLeast hmask halign).2 ⟨ha, hbehind⟩
        simp only [halign, Option.some.injEq, Option.filter_some, ite_eq_right_iff,
          reduceCtorEq, imp_false, guestAddressRangeIsValid32, decide_eq_true_eq] at hnext
        omega
  | case3 address next hnext ih =>
    unfold nextCandidate at hnext
    split at hnext
    · simp at hnext
    · rename_i vaddr hcollision
      simp only [Option.some.injEq, Option.filter_eq_some_iff] at hnext
      have hleast := alignGuestAddress_isLeast hmask hnext.1
      have hstart := le_of_mem_guestPages (mem_of_find?_eq_some hcollision)
      have hup : address ≤ next := by
        have := hleast.1.2
        omega
      have hskip : ∀ a, a % 2 ^ k = 0 → address ≤ a → FreeRange memory size a → next ≤ a :=
        fun a ha hle hfree => hleast.2 ⟨ha, collision_before hcollision
          (page_dvd hk haddress) (page_dvd hk ha) hle hfree⟩
      have hrest := ih hleast.1.1 hnext.2
      split at hrest
      · obtain ⟨⟨hmod, hle, hfree⟩, hmin⟩ := hrest
        exact ⟨⟨hmod, hup.trans hle, hfree⟩,
          fun a ha => hmin ⟨ha.1, hskip a ha.1 ha.2.1 ha.2.2, ha.2.2⟩⟩
      · exact fun a ha hle hfree => hrest a ha (hskip a ha hle hfree) hfree

end AddressChoice

/-- What a chosen address guarantees. -/
structure ReservableRange (memory : ℕ → Option MemoryPage) (start size : ℕ) (fixed : Bool) :
    Prop where
  size_pos : size ≠ 0
  size_aligned : size % dynPageSize = 0
  aligned : start % dynPageSize = 0
  inRange : guestAddressRangeIsValid32 start size = true
  free : fixed = false → ∀ vaddr ∈ guestPages start size, memory vaddr = none

theorem reserveAddress_ok {memory : ℕ → Option MemoryPage} {mask start : ℕ} {fixed : Bool}
    (h : reserveAddress memory address size fixed mask = .ok start) :
    ReservableRange memory start size fixed := by
  simp only [reserveAddress] at h
  split at h
  · simp at h
  next hargs =>
  simp only [not_or, not_lt, not_not] at hargs
  obtain ⟨hsize, hsizeAligned, hpage, -, hmask⟩ := hargs
  split at h
  · simp at h
  split at h
  · simp at h
  next first hfirst =>
  obtain ⟨k, hk, hpower⟩ := exists_pow_of_mask hmask hpage
  have hmultiple := (alignGuestAddress_isLeast hpower hfirst).1.1
  split at h
  · simp at h
  next hrange =>
  simp only [Bool.not_eq_true, Bool.not_eq_false] at hrange
  split at h
  · rename_i hfixed
    simp only [Except.ok.injEq] at h
    subst h
    exact ⟨hsize, hsizeAligned, page_dvd hk hmultiple, hrange,
      fun hf => absurd hfixed (by simp [hf])⟩
  · split at h
    · simp at h
    · rename_i found hfound
      simp only [Except.ok.injEq] at h
      subst h
      have hsearch := @searchFreeRange_least memory _ _ _ _ hpower hk
        (Nat.pos_of_ne_zero hsize) hmultiple hrange
      rw [hfound] at hsearch
      obtain ⟨⟨hfoundMultiple, -, hfree⟩, -⟩ := hsearch
      exact ⟨hsize, hsizeAligned, page_dvd hk hfoundMultiple,
        valid_of_free (Nat.pos_of_ne_zero hsize) hfree, fun _ => hfree.2⟩

/-! ## Reserving and rolling back -/

/-- `memory` is `old` with some of the reserved pages inserted, all at addresses that were free. -/
structure Reserved (old : ℕ → Option MemoryPage) (reservations : List GuestPageReservation)
    (memory : ℕ → Option MemoryPage) : Prop where
  fresh : ∀ r ∈ reservations, old r.address = none
    ∧ (memory r.address = none ∨ memory r.address = some (MemoryPage.zero r.page))
  kept : ∀ vaddr, (∀ r ∈ reservations, r.address ≠ vaddr) → memory vaddr = old vaddr

theorem Reserved.nil (memory : ℕ → Option MemoryPage) : Reserved memory [] memory :=
  ⟨by simp, fun _ _ => rfl⟩

variable {old memory : ℕ → Option MemoryPage} {reservations : List GuestPageReservation}

/-- With nothing left to undo, the map is what it was. -/
theorem Reserved.eq_old (h : Reserved old [] memory) : memory = old :=
  funext fun vaddr => h.kept vaddr (by simp)

/-- Pages that were mapped before are untouched. -/
theorem Reserved.of_mapped (h : Reserved old reservations memory) {page : MemoryPage}
    (hpage : old vaddr = some page) : memory vaddr = some page := by
  rw [h.kept vaddr, hpage]
  rintro r hr rfl
  rw [(h.fresh r hr).1] at hpage
  simp at hpage

/-- Undoing the latest reservation, whether or not its page was inserted. -/
theorem Reserved.undo {r : GuestPageReservation} (h : Reserved old (r :: reservations) memory) :
    Reserved old reservations (update memory r.address none) where
  fresh := by
    intro q hq
    obtain ⟨hfree, hcases⟩ := h.fresh q (mem_cons_of_mem r hq)
    refine ⟨hfree, ?_⟩
    by_cases hqr : q.address = r.address
    · exact .inl (by simp [hqr])
    · simpa [hqr] using hcases
  kept := by
    intro vaddr hv
    by_cases hvr : vaddr = r.address
    · subst hvr
      simp [(h.fresh r mem_cons_self).1]
    · rw [update_of_ne hvr]
      refine h.kept vaddr (fun q hq => ?_)
      rcases mem_cons.1 hq with rfl | hq
      · exact fun he => hvr he.symm
      · exact hv q hq

variable {page : ℕ}

/-- A reservation recorded at a free address, before its page is inserted. -/
theorem Reserved.record (h : Reserved old reservations memory) (hfree : memory vaddr = none) :
    Reserved old (⟨vaddr, page⟩ :: reservations) memory where
  fresh := by
    intro q hq
    rcases mem_cons.1 hq with rfl | hq
    · refine ⟨?_, .inl hfree⟩
      cases hold : old vaddr with
      | none => rfl
      | some =>
        rw [h.of_mapped hold] at hfree
        simp at hfree
    · exact h.fresh q hq
  kept := fun v hv => h.kept v (fun q hq => hv q (mem_cons_of_mem _ hq))

/-- Inserting the page of a reservation at a free address. -/
theorem Reserved.insert (h : Reserved old reservations memory)
    (hinserted : ∀ r ∈ reservations, memory r.address ≠ none) (hfree : memory vaddr = none) :
    Reserved old (⟨vaddr, page⟩ :: reservations)
      (update memory vaddr (some (zero page))) where
  fresh := by
    intro q hq
    obtain ⟨hold, hcases⟩ := (h.record hfree).fresh q hq
    refine ⟨hold, ?_⟩
    rcases mem_cons.1 hq with rfl | hq
    · exact .inr (by simp)
    · have hne : q.address ≠ vaddr := by
        intro he
        exact hinserted q hq (he ▸ hfree)
      simpa [hne] using hcases
  kept := by
    intro v hv
    have hne : v ≠ vaddr := fun he => hv ⟨vaddr, page⟩ mem_cons_self he.symm
    rw [update_of_ne hne]
    exact h.kept v (fun q hq => hv q (mem_cons_of_mem _ hq))

@[simp] theorem guestPageTablePointer_zero (page : ℕ) :
    guestPageTablePointer (zero page) = none := by
  simp [guestPageTablePointer, zero]

/-- An empty page can come and go: it has neither a backing nor a pointer to publish. -/
theorem VmInvariant.storeEmpty (h : VmInvariant held ∅ s) (new : Option MemoryPage)
    (hv : vaddr ∈ guestPageAddresses)
    (hold : s.memory vaddr = none ∨ ∃ page, s.memory vaddr = some (zero page))
    (hnew : new = none ∨ ∃ page, new = some (zero page)) :
    VmInvariant held ∅ (s.withPage vaddr new) := by
  have hbacking : s.backingAt vaddr = none := by
    rcases hold with hold | ⟨page, hold⟩ <;> simp [backingAt, hold, zero]
  have hpointer : (s.memory vaddr).bind guestPageTablePointer = none := by
    rcases hold with hold | ⟨page, hold⟩ <;> simp [hold]
  have hstored := h.storeUnbacked new
    (by rcases hnew with rfl | ⟨page, rfl⟩ <;> simp [zero]) hv
    (.inr (by rw [hpointer]; rcases hnew with rfl | ⟨page, rfl⟩ <;> simp))
  rwa [hbacking, ofOption_none, Multiset.zero_add] at hstored

/-- **Rollback.** Undoing the reservations restores the map. -/
theorem rollbackGuestPageReservations_spec (h : VmInvariant held ∅ s)
    (hres : Reserved old reservations s.memory) :
    VmSpec (rollbackGuestPageReservations reservations) s (fun _ t =>
      VmInvariant held ∅ t ∧ t.memory = old ∧ t.backings = s.backings ∧ Frame s t) := by
  induction reservations generalizing s with
  | nil => exact ⟨h, hres.eq_old, rfl, Frame.refl s⟩
  | cons r _ ih =>
    have hundone := hres.undo
    unfold rollbackGuestPageReservations
    simp only [Prog.spec_bind, spec_readState]
    refine ⟨h.safelyPublished, ?_⟩
    rcases (hres.fresh r mem_cons_self).2 with hnone | hzero
    · -- the hash insertion of this page had failed
      rw [if_neg (by simp [hnone])]
      rw [show update s.memory r.address none = s.memory by
        rw [← hnone, update_eq_self]] at hundone
      exact ih h hundone
    · rw [if_pos (by simp [hzero, zero])]
      have hv := h.keys r.address _ hzero
      have hdeleted := h.storeEmpty none hv (.inr ⟨_, hzero⟩) (.inl rfl)
      refine ⟨hdeleted.safelyPublished, (ih hdeleted hundone).mono ?_⟩
      rintro _ t ⟨ht, hmemory, hbackings, hframe⟩
      exact ⟨ht, hmemory, hbackings, (Frame.withPage s _ _).trans hframe⟩

/-- How a reservation of `pages` started in `s`, whose map was `old` at first, can end: with every
    page mapped, or with the map as it was. -/
def ReserveOutcome (held : Multiset ℕ) (old : ℕ → Option MemoryPage) (s : VmState)
    (pages : List ℕ) : Except Errno (List GuestPageReservation) → VmState → Prop
  | .error _, t => VmInvariant held ∅ t ∧ t.memory = old ∧ t.backings = s.backings ∧ Frame s t
  | .ok reservations, t =>
    VmInvariant held ∅ t ∧ Reserved old reservations t.memory ∧ t.backings = s.backings
      ∧ Frame s t ∧ (∀ vaddr, (s.memory vaddr).isSome → (t.memory vaddr).isSome)
      ∧ ∀ vaddr ∈ pages, (t.memory vaddr).isSome

variable {u : VmState}

/-- An outcome of the remaining pages is one of all pages. -/
theorem ReserveOutcome.step {rest : List ℕ} {result : Except Errno (List GuestPageReservation)}
    {t : VmState} (h : ReserveOutcome held old u rest result t) (hframe : Frame s u)
    (hbackings : u.backings = s.backings)
    (hgrows : ∀ v, (s.memory v).isSome → (u.memory v).isSome) (hmapped : (u.memory vaddr).isSome) :
    ReserveOutcome held old s (vaddr :: rest) result t := by
  cases result with
  | error =>
    obtain ⟨ht, hmemory, hb, hf⟩ := h
    exact ⟨ht, hmemory, hb.trans hbackings, hframe.trans hf⟩
  | ok =>
    obtain ⟨ht, hres, hb, hf, hmono, hall⟩ := h
    refine ⟨ht, hres, hb.trans hbackings, hframe.trans hf, fun v hv => hmono v (hgrows v hv), ?_⟩
    intro v hv
    rcases mem_cons.1 hv with rfl | hv
    · exact hmono v hmapped
    · exact hall v hv

/-- Giving up rolls back to `old`, whatever was reserved so far. -/
theorem rollbackGuestPageReservations_outcome (hu : VmInvariant held ∅ u)
    (hres : Reserved old reservations u.memory) (hframe : Frame s u)
    (hbackings : u.backings = s.backings) (pages : List ℕ) (e : Errno) :
    VmSpec (do
      rollbackGuestPageReservations reservations
      pure (.error e)) u (ReserveOutcome held old s pages) := by
  simp only [Prog.spec_bind, Prog.pure_eq, Prog.spec_ret]
  refine (rollbackGuestPageReservations_spec hu hres).mono ?_
  rintro _ t ⟨ht, hmemory, hb, hf⟩
  exact ⟨ht, hmemory, hb.trans hbackings, hframe.trans hf⟩

theorem reserveGuestPages_spec (host : HostOutcomes) (fixed : Bool) (pages : List ℕ)
    (hkeys : ∀ vaddr ∈ pages, vaddr ∈ guestPageAddresses) (hnodup : pages.Nodup)
    (h : VmInvariant held ∅ s) (hres : Reserved old reservations s.memory)
    (hinserted : ∀ r ∈ reservations, s.memory r.address ≠ none)
    (hfree : fixed = false → ∀ vaddr ∈ pages, s.memory vaddr = none) :
    VmSpec (reserveGuestPages host fixed pages reservations) s
      (ReserveOutcome held old s pages) := by
  induction pages generalizing s reservations with
  | nil => exact ⟨h, hres, rfl, Frame.refl s, fun _ hv => hv, by simp⟩
  | cons vaddr _ ih =>
    obtain ⟨hnotin, hrest⟩ := nodup_cons.1 hnodup
    have hv := hkeys vaddr mem_cons_self
    have hkeys' := fun v hmem => hkeys v (mem_cons_of_mem vaddr hmem)
    unfold reserveGuestPages
    simp only [Prog.spec_bind, spec_readState]
    refine ⟨h.safelyPublished, ?_⟩
    split
    · rename_i hmapped
      -- only a fixed mapping can meet an existing page: the assertion holds
      have hfixed : fixed := by
        by_contra hf
        simp [hfree (by simpa using hf) vaddr mem_cons_self] at hmapped
      rw [if_pos hfixed]
      refine (ih hkeys' hrest h hres hinserted (fun hf => absurd hfixed (by simp [hf]))).mono ?_
      exact fun _ _ hout => hout.step (Frame.refl s) rfl (fun _ hm => hm) hmapped
    · rename_i hmapped
      have hnone : s.memory vaddr = none := by simpa using hmapped
      split
      · exact rollbackGuestPageReservations_outcome h hres (Frame.refl s) rfl _ _
      · have hcalloc := h.withCounters (s.nextPage + 1) s.lookupGeneration s.hostMemory
        have hframe : Frame s { s with nextPage := s.nextPage + 1 } :=
          ⟨rfl, rfl, rfl, rfl, suffix_rfl, fun _ b hb => ⟨b, hb, rfl, rfl⟩⟩
        refine ⟨hcalloc.safelyPublished, ?_⟩
        split
        · exact rollbackGuestPageReservations_outcome hcalloc hres hframe rfl _ _
        · split
          · exact rollbackGuestPageReservations_outcome hcalloc (hres.record hnone) hframe rfl
              _ _
          · exact rollbackGuestPageReservations_outcome hcalloc (hres.record hnone) hframe rfl
              _ _
          · -- the page is inserted and the loop goes on
            have hstored := hcalloc.storeEmpty (some (zero s.nextPage)) hv
              (.inl hnone) (.inr ⟨_, rfl⟩)
            refine ⟨hstored.safelyPublished, (ih hkeys' hrest hstored
              (hres.insert hinserted hnone) ?_ ?_).mono ?_⟩
            · intro r hr
              rcases mem_cons.1 hr with rfl | hr
              · simp [withPage]
              · by_cases hra : r.address = vaddr
                · simp [withPage, hra]
                · simpa [withPage, hra] using hinserted r hr
            · intro hf v hmem
              have hne : v ≠ vaddr := fun he => hnotin (he ▸ hmem)
              simpa [withPage, hne] using hfree hf v (mem_cons_of_mem vaddr hmem)
            · refine fun _ _ hout => hout.step (hframe.trans (Frame.withPage _ _ _)) rfl ?_
                (by simp [withPage])
              intro v hm
              by_cases hvv : v = vaddr
              · simp [withPage, hvv]
              · simpa [withPage, hvv] using hm

/-- How `Dynarmic_mem_reserve` can end. -/
def MemReserveOutcome (held : Multiset ℕ) (s : VmState) (size : ℕ) (fixed : Bool) :
    Except Errno (ℕ × List GuestPageReservation) → VmState → Prop
  | .error e, t => ReserveOutcome held s.memory s [] (.error e) t
  | .ok (start, reservations), t =>
    ReservableRange s.memory start size fixed
      ∧ ReserveOutcome held s.memory s (guestPages start size) (.ok reservations) t

/-- **Reservation.** Either the whole range is mapped and only empty pages were added, or nothing
    has changed. -/
theorem dynarmicMemReserve_spec (host : HostOutcomes) (address size : ℕ) (fixed : Bool) (mask : ℕ)
    (h : VmInvariant held ∅ s) :
    VmSpec (dynarmicMemReserve host address size fixed mask) s
      (MemReserveOutcome held s size fixed) := by
  have hunchanged : ∀ e, ReserveOutcome held s.memory s [] (.error e) s :=
    fun _ => ⟨h, rfl, rfl, Frame.refl s⟩
  unfold dynarmicMemReserve
  simp only [Prog.spec_bind, spec_readState]
  refine ⟨h.safelyPublished, ?_⟩
  split
  · next e _ => exact hunchanged e
  · rename_i start hstart
    have hrange := reserveAddress_ok hstart
    split
    · exact hunchanged .ENOMEM
    · simp only [Prog.spec_bind]
      refine (reserveGuestPages_spec host fixed (guestPages start size)
        (guestPages_subset hrange.aligned hrange.inRange) (guestPages_nodup start size) h
        (Reserved.nil s.memory) (by simp) hrange.free).mono ?_
      intro result t hout
      cases result with
      | error => exact hout
      | ok => exact ⟨hrange, hout⟩

end LiveExec32.Vm
