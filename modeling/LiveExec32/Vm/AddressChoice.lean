import LiveExec32.Vm.Guarantees

/-! # Which address a reservation gets

`Dynarmic_mem_reserve` looks for a range from the hint on and restarts its scan after every page it
collides with. Its answer is the least suitable address for every map, and what it records as
reserved is what it inserted. -/

namespace LiveExec32.Vm

variable {s : VmState}

/-- No allocation of a reservation fails. -/
structure AllocationsSucceed (host : HostOutcomes) : Prop where
  vectorReserve : host.vectorReserve = true
  callocPage : ∀ vaddr, host.callocPage vaddr = true
  pushBack : ∀ vaddr, host.pushBack vaddr = true
  khPut : ∀ vaddr, host.khPut vaddr = .inserted

/-- The hint of a reservation that is not fixed, moved off low addresses. -/
def raisedHint (address : ℕ) : ℕ :=
  if address < 0x10000000 then address + 0x10000000 else address

/-- The addresses a reservation may be given: aligned, from the hint on, with a free range. -/
def suitable (memory : ℕ → Option MemoryPage) (size k hint : ℕ) : Set ℕ :=
  {a | a % 2 ^ k = 0 ∧ hint ≤ a ∧ FreeRange memory size a}

/-- The pages of a range that are not mapped. -/
def unmapped (memory : ℕ → Option MemoryPage) (pages : List ℕ) : List ℕ :=
  pages.filter fun vaddr => (memory vaddr).isNone

/-! ## The address -/

theorem mask_and_succ (k : ℕ) : (2 ^ k - 1) &&& (2 ^ k - 1 + 1) = 0 := by
  rw [Nat.sub_add_cancel (Nat.two_pow_pos k), Nat.and_comm, Nat.and_two_pow_sub_one_eq_mod,
    Nat.mod_self]

variable {size k : ℕ}

/-- Masks of up to 32 bits pass the argument checks. -/
theorem arguments_accepted (hk : 12 ≤ k) (hk32 : k ≤ 32) (hsize : 0 < size)
    (haligned : size % dynPageSize = 0) :
    ¬ (size = 0 ∨ size % dynPageSize ≠ 0 ∨ 2 ^ k - 1 < dynPageMask ∨ 2 ^ 32 - 1 < 2 ^ k - 1
      ∨ (2 ^ k - 1) &&& (2 ^ k - 1 + 1) ≠ 0) := by
  have hlow : 2 ^ 12 ≤ 2 ^ k := Nat.pow_le_pow_right (by decide) hk
  have hhigh : 2 ^ k ≤ 2 ^ 32 := Nat.pow_le_pow_right (by decide) hk32
  have hpower := mask_and_succ k
  simp only [dynPageMask]
  omega

/-- Without `fixed`, the answer is the least suitable address, and `ENOMEM` where there is none. -/
theorem reserveAddress_least (address : ℕ) (memory : ℕ → Option MemoryPage) (hk : 12 ≤ k)
    (hk32 : k ≤ 32) (hsize : 0 < size) (haligned : size % dynPageSize = 0) :
    match reserveAddress memory address size false (2 ^ k - 1) with
    | .ok start => IsLeast (suitable memory size k (raisedHint address)) start
    | .error e => e = .ENOMEM ∧ suitable memory size k (raisedHint address) = ∅ := by
  have hmask : 2 ^ k - 1 + 1 = 2 ^ k := Nat.sub_add_cancel (Nat.two_pow_pos k)
  simp only [reserveAddress, if_neg (arguments_accepted hk hk32 hsize haligned),
    Bool.false_eq_true, false_and, true_and, if_false]
  rw [← raisedHint]
  cases halign : alignGuestAddress (raisedHint address) (2 ^ k - 1) with
  | none =>
    refine ⟨rfl, Set.eq_empty_of_forall_notMem ?_⟩
    rintro a ⟨ha, hle, hfree⟩
    have hfar := alignGuestAddress_none hmask halign ha hle
    have hend := hfree.1
    omega
  | some start =>
    have hleast := alignGuestAddress_isLeast hmask halign
    -- every suitable address is at or above the first candidate
    have hfrom : ∀ a ∈ suitable memory size k (raisedHint address), start ≤ a :=
      fun a ha => hleast.2 ⟨ha.1, ha.2.1⟩
    by_cases hrange : guestAddressRangeIsValid32 start size = true
    · have hsearch := @searchFreeRange_least memory _ _ _ _ hmask hk hsize hleast.1.1 hrange
      simp only [hrange, not_true_eq_false, if_false]
      cases hfound : searchFreeRange memory size (2 ^ k - 1) start with
      | none =>
        rw [hfound] at hsearch
        refine ⟨rfl, Set.eq_empty_of_forall_notMem fun a ha => ?_⟩
        exact hsearch a ha.1 (hfrom a ha) ha.2.2
      | some =>
        rw [hfound] at hsearch
        obtain ⟨⟨hmod, hle, hfree⟩, hmin⟩ := hsearch
        exact ⟨⟨hmod, hleast.1.2.trans hle, hfree⟩, fun a ha => hmin ⟨ha.1, hfrom a ha, ha.2.2⟩⟩
    · simp only [hrange]
      refine ⟨rfl, Set.eq_empty_of_forall_notMem fun a ha => ?_⟩
      have hle := hfrom a ha
      have hend := ha.2.2.1
      simp only [guestAddressRangeIsValid32, decide_eq_true_eq] at hrange
      omega

/-- An aligned fixed address is kept, unless it is in the null page or its range does not fit. -/
theorem reserveAddress_fixed {address : ℕ} (memory : ℕ → Option MemoryPage) (hk : 12 ≤ k)
    (hk32 : k ≤ 32) (hsize : 0 < size) (haligned : size % dynPageSize = 0)
    (haddress : address % 2 ^ k = 0) :
    match reserveAddress memory address size true (2 ^ k - 1) with
    | .ok start => start = address ∧ dynPageSize ≤ address ∧ address + size ≤ addressSpaceSize
    | .error _ => address < dynPageSize ∨ addressSpaceSize < address + size := by
  have hmask : 2 ^ k - 1 + 1 = 2 ^ k := Nat.sub_add_cancel (Nat.two_pow_pos k)
  simp only [reserveAddress, if_neg (arguments_accepted hk hk32 hsize haligned), true_and,
    Bool.true_eq_false, false_and, if_true, if_false]
  split_ifs with hnull
  · exact .inl hnull
  · cases halign : alignGuestAddress address (2 ^ k - 1) with
    | none =>
      have hfar := alignGuestAddress_none hmask halign haddress le_rfl
      exact .inr (by omega)
    | some start =>
      have hleast := alignGuestAddress_isLeast hmask halign
      have hstart : start = address := Nat.le_antisymm (hleast.2 ⟨haddress, le_rfl⟩) hleast.1.2
      subst hstart
      by_cases hrange : guestAddressRangeIsValid32 start size = true
      · simp only [hrange, not_true_eq_false, if_false]
        simp only [guestAddressRangeIsValid32, decide_eq_true_eq] at hrange
        exact ⟨trivial, by omega, by omega⟩
      · simp only [hrange]
        simp only [guestAddressRangeIsValid32, decide_eq_true_eq] at hrange
        exact .inr (by omega)

/-! ## What is inserted -/

/-- The plain pre- and postconditions of a mutator, with nothing asked of the states in between. -/
abbrev VmTriple {α : Type} (p : VmProg α) (s : VmState) (post : α → VmState → Prop) : Prop :=
  Prog.Spec VmAction.apply (fun _ => True) p s post

/-- A program that leaves every byte of host memory alone. -/
abbrev KeepsBytes {α : Type} (p : VmProg α) : Prop :=
  Prog.Keeps VmAction.apply VmState.hostMemory p

theorem rollback_keeps (reservations : List GuestPageReservation) :
    KeepsBytes (rollbackGuestPageReservations reservations) := by
  induction reservations with
  | nil => exact trivial
  | cons _ _ ih =>
    refine ⟨fun _ => rfl, fun s => ?_⟩
    change KeepsBytes (if _ then _ else _)
    split
    · exact ⟨fun _ => rfl, fun _ => ih⟩
    · exact ih

/-- `memory` is `old` with an empty page at each unmapped address of `pages`; `new` records them,
    latest first. -/
structure Inserted (old : ℕ → Option MemoryPage) (pages : List ℕ)
    (new : List GuestPageReservation) (memory : ℕ → Option MemoryPage) : Prop where
  addresses : new.map GuestPageReservation.address = (unmapped old pages).reverse
  empty : ∀ r ∈ new, memory r.address = some (MemoryPage.zero r.page)
  kept : ∀ vaddr ∉ unmapped old pages, memory vaddr = old vaddr

variable {old memory : ℕ → Option MemoryPage} {vaddr : ℕ} {rest : List ℕ}
  {new : List GuestPageReservation}

/-- A page that is mapped already is left alone. -/
theorem Inserted.skip (hmapped : (old vaddr).isSome) (h : Inserted old rest new memory) :
    Inserted old (vaddr :: rest) new memory := by
  have hskip : unmapped old (vaddr :: rest) = unmapped old rest := by
    rw [unmapped, List.filter_cons_of_neg (by simp [Option.isSome_iff_ne_none.1 hmapped]), unmapped]
  exact ⟨by rw [hskip, h.addresses], h.empty, fun v hv => h.kept v (hskip ▸ hv)⟩

/-- An insertion in front of others that do not touch its page. -/
theorem Inserted.cons {page : ℕ} (hnotin : vaddr ∉ rest) (hfree : old vaddr = none)
    (h : Inserted (Function.update old vaddr (some (MemoryPage.zero page))) rest new memory) :
    Inserted old (vaddr :: rest) (new ++ [⟨vaddr, page⟩]) memory := by
  have hrest : unmapped (Function.update old vaddr (some (MemoryPage.zero page))) rest
      = unmapped old rest := by
    refine List.filter_congr fun v hv => ?_
    have hne : v ≠ vaddr := fun he => hnotin (he ▸ hv)
    rw [Function.update_of_ne hne]
  have hcons : unmapped old (vaddr :: rest) = vaddr :: unmapped old rest := by
    simp [unmapped, hfree]
  have hfirst : vaddr ∉ unmapped old rest := fun hv => hnotin (List.mem_filter.1 hv).1
  obtain ⟨haddresses, hempty, hkept⟩ := h
  rw [hrest] at haddresses hkept
  refine ⟨?_, ?_, ?_⟩
  · simp [hcons, haddresses]
  · intro r hr
    rcases List.mem_append.1 hr with hr | hr
    · exact hempty r hr
    · obtain rfl := List.mem_singleton.1 hr
      rw [hkept vaddr hfirst, Function.update_self]
  · intro v hv
    rw [hcons, List.mem_cons, not_or] at hv
    rw [hkept v hv.2, Function.update_of_ne hv.1]

/-- How the insertion loop ends: with the pages inserted, or because an allocation failed. -/
def InsertOutcome (host : HostOutcomes) (s : VmState) (pages : List ℕ)
    (reservations : List GuestPageReservation) :
    Except Errno (List GuestPageReservation) → VmState → Prop
  | .ok all, t => ∃ new, all = new ++ reservations ∧ Inserted s.memory pages new t.memory
  | .error _, _ => ¬ AllocationsSucceed host

theorem InsertOutcome.skip {host : HostOutcomes} {t : VmState}
    {reservations : List GuestPageReservation} {result : Except Errno (List GuestPageReservation)}
    (hmapped : (s.memory vaddr).isSome) (h : InsertOutcome host s rest reservations result t) :
    InsertOutcome host s (vaddr :: rest) reservations result t := by
  cases result with
  | error => exact h
  | ok =>
    obtain ⟨new, hall, hnew⟩ := h
    exact ⟨new, hall, hnew.skip hmapped⟩

theorem reserveGuestPages_inserted (host : HostOutcomes) (fixed : Bool) (pages : List ℕ)
    (reservations : List GuestPageReservation) (hnodup : pages.Nodup) :
    VmTriple (reserveGuestPages host fixed pages reservations) s
      (InsertOutcome host s pages reservations) := by
  induction pages generalizing s reservations with
  | nil => exact ⟨[], rfl, rfl, by simp, fun _ _ => rfl⟩
  | cons vaddr rest ih =>
    obtain ⟨hnotin, hrest⟩ := List.nodup_cons.1 hnodup
    have hgiveUp : ∀ (undo : List GuestPageReservation) (e : Errno) (u : VmState),
        ¬ AllocationsSucceed host → VmTriple (do
          rollbackGuestPageReservations undo
          pure (.error e)) u (InsertOutcome host s (vaddr :: rest) reservations) :=
      fun undo e u hfails => Prog.Spec.seq ((rollback_keeps undo).spec u) fun _ _ _ => hfails
    unfold reserveGuestPages
    refine ⟨trivial, ?_⟩
    change VmTriple (if (s.memory vaddr).isSome then _ else _) s _
    split_ifs with hmapped hfixed hcalloc hpush
    · exact (ih reservations hrest).mono fun result t hout => hout.skip hmapped
    · exact ⟨trivial, (ih reservations hrest).mono fun result t hout => hout.skip hmapped⟩
    · exact hgiveUp _ _ _ fun h => absurd hcalloc (by simp [h.callocPage])
    · exact ⟨trivial, hgiveUp _ _ _ fun h => absurd hpush (by simp [h.pushBack])⟩
    · refine ⟨trivial, ?_⟩
      split
      · next hput => exact hgiveUp _ _ _ fun h => absurd (h.khPut vaddr) (by simp [hput])
      · next hput => exact hgiveUp _ _ _ fun h => absurd (h.khPut vaddr) (by simp [hput])
      · refine ⟨trivial, (ih _ hrest).mono fun result t hout => ?_⟩
        cases result with
        | error => exact hout
        | ok =>
          obtain ⟨new, rfl, hnew⟩ := hout
          refine ⟨new ++ [⟨vaddr, s.nextPage⟩], by rw [List.append_assoc]; rfl, ?_⟩
          exact @Inserted.cons s.memory _ _ _ _ _ hnotin (by simpa using hmapped) hnew

/-- How a reservation ends: at the address the checks and the search chose, or with their error,
    or because an allocation failed. -/
theorem dynarmicMemReserve_inserted (host : HostOutcomes) (address size : ℕ) (fixed : Bool)
    (mask : ℕ) :
    VmTriple (dynarmicMemReserve host address size fixed mask) s (fun result t =>
      match result with
      | .ok (start, reservations) =>
        reserveAddress s.memory address size fixed mask = .ok start
          ∧ Inserted s.memory (guestPages start size) reservations t.memory
      | .error e => reserveAddress s.memory address size fixed mask = .error e
          ∨ (∃ start, reserveAddress s.memory address size fixed mask = .ok start)
            ∧ ¬ AllocationsSucceed host) := by
  refine ⟨trivial, ?_⟩
  simp only [Prog.bind, VmAction.apply]
  cases hstart : reserveAddress s.memory address size fixed mask with
  | error => exact .inl rfl
  | ok start =>
    by_cases hreserve : host.vectorReserve = true
    · simp only [hreserve, Bool.not_true, Bool.false_eq_true, if_false]
      refine Prog.Spec.seq (reserveGuestPages_inserted host fixed (guestPages start size) []
        (guestPages_nodup start size)) fun result t hout => ?_
      cases result with
      | error => exact .inr ⟨⟨start, rfl⟩, hout⟩
      | ok =>
        obtain ⟨new, rfl, hnew⟩ := hout
        exact ⟨rfl, by rwa [List.append_nil]⟩
    · simp only [hreserve, Bool.not_false, if_true]
      exact .inr ⟨⟨start, rfl⟩, fun h => hreserve h.vectorReserve⟩

/-- **Address choice.** With an alignment of up to 32 bits, a reservation that is not fixed gets the
    least suitable address, or `ENOMEM` when there is none, and an aligned fixed one its own
    address, unless that is in the null page or the range ends past the address space. Wider masks
    are invalid arguments. What is inserted are the unmapped pages of the range, and they are what
    the reservation records. -/
theorem memReserve_choice (host : HostOutcomes) (s : VmState) (address size k : ℕ) (fixed : Bool)
    (hk : 12 ≤ k) (hsize : 0 < size) (haligned : size % dynPageSize = 0) :
    let outcome := (dynarmicMemReserve host address size fixed (2 ^ k - 1)).run s
    (k ≤ 32 → AllocationsSucceed host → fixed = false →
      match outcome.1 with
      | .ok (start, _) => IsLeast (suitable s.memory size k (raisedHint address)) start
      | .error e => e = .ENOMEM ∧ suitable s.memory size k (raisedHint address) = ∅)
    ∧ (k ≤ 32 → AllocationsSucceed host → fixed = true → address % 2 ^ k = 0 →
      match outcome.1 with
      | .ok (start, _) => start = address ∧ dynPageSize ≤ address
          ∧ address + size ≤ addressSpaceSize
      | .error _ => address < dynPageSize ∨ addressSpaceSize < address + size)
    ∧ (32 < k → outcome.1 = .error .EINVAL)
    ∧ ∀ start reservations, outcome.1 = .ok (start, reservations) →
        Inserted s.memory (guestPages start size) reservations outcome.2.memory := by
  intro outcome
  have hrun := (dynarmicMemReserve_inserted (s := s) host address size fixed (2 ^ k - 1)).run
  change match outcome.1 with
    | .ok (start, reservations) =>
      reserveAddress s.memory address size fixed (2 ^ k - 1) = .ok start
        ∧ Inserted s.memory (guestPages start size) reservations outcome.2.memory
    | .error e => reserveAddress s.memory address size fixed (2 ^ k - 1) = .error e
        ∨ (∃ start, reserveAddress s.memory address size fixed (2 ^ k - 1) = .ok start)
          ∧ ¬ AllocationsSucceed host at hrun
  refine ⟨fun hk32 hhost hfixed => ?_, fun hk32 hhost hfixed haddress => ?_, fun hwide => ?_, ?_⟩
  · subst hfixed
    have hleast := reserveAddress_least address s.memory hk hk32 hsize haligned
    split at hrun
    · next start _ _ => rwa [hrun.1] at hleast
    · next e _ => rwa [hrun.resolve_right fun h => h.2 hhost] at hleast
  · subst hfixed
    have hkept := reserveAddress_fixed s.memory hk hk32 hsize haligned haddress
    split at hrun
    · rwa [hrun.1] at hkept
    · rwa [hrun.resolve_right fun h => h.2 hhost] at hkept
  · have hlarge : 2 ^ 33 ≤ 2 ^ k := Nat.pow_le_pow_right (by decide) hwide
    have hinvalid : reserveAddress s.memory address size fixed (2 ^ k - 1) = .error .EINVAL := by
      rw [reserveAddress, if_pos (by omega)]
    rw [hinvalid] at hrun
    split at hrun
    · cases hrun.1
    · next e he => simpa [he, eq_comm] using hrun
  · intro start reservations hok
    rw [hok] at hrun
    exact hrun.2

/-- A reservation of one page at a 1 MiB boundary of an empty map. -/
theorem memReserve_choice_empty :
    let outcome := (dynarmicMemReserve outOfBackings 0 4096 false (2 ^ 20 - 1)).run
      (VmState.initial true 16)
    match outcome.1 with
    | .ok (start, _) =>
      IsLeast (suitable (VmState.initial true 16).memory 4096 20 (raisedHint 0)) start
    | .error e => e = .ENOMEM
        ∧ suitable (VmState.initial true 16).memory 4096 20 (raisedHint 0) = ∅ :=
  (memReserve_choice outOfBackings (VmState.initial true 16) 0 4096 20 false (by decide)
    (by decide) (by decide)).1 (by decide) ⟨rfl, fun _ => rfl, fun _ => rfl, fun _ => rfl⟩ rfl

/-- A mask of 33 bits: no address is suitable, and the answer is not `ENOMEM`. -/
theorem memReserve_wideMask :
    suitable (VmState.initial true 16).memory 4096 33 (raisedHint 0) = ∅
      ∧ ((dynarmicMemReserve outOfBackings 0 4096 false (2 ^ 33 - 1)).run
        (VmState.initial true 16)).1 = .error .EINVAL := by
  refine ⟨Set.eq_empty_of_forall_notMem ?_, rfl⟩
  intro a ha
  have hmod : a % 2 ^ 33 = 0 := ha.1
  have hle : 0x10000000 ≤ a := ha.2.1
  have hend : a + 4096 ≤ 2 ^ 32 := ha.2.2.1
  omega

end LiveExec32.Vm
