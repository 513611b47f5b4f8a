import LiveExec32.Debugger.Sites
import LiveExec32.Lib.Overlay

/-! # Sites as patches

The cells of guest memory are the bytes of its host pages, and a mapped address has one of them
(`cell`). A physical write that succeeds writes the cells of its range (`cells_store`), so a planted
site is a list of patches in the sense of `Overlay`. -/

namespace LiveExec32.Guest.Memory

/-- A host page, or none, and an offset. -/
abbrev Cell := Option ℕ × ℕ

/-- The byte of the host that an address is mapped to; it has no page if the address is unmapped. -/
def cell (g : Memory) (address : ℕ) : Cell := (g.page (address / pageSize), address % pageSize)

def cells (g : Memory) : Cell → UInt8 := fun c => c.1.elim 0 (g.host · c.2)

variable {g : Memory}

theorem byte_eq (address : ℕ) :
    g.byte address = if g.mapped address then g.cells (g.cell address) else 0 := by
  unfold byte mapped cells cell
  cases g.page (address / pageSize) with
  | none => rfl
  | some => rfl

theorem cell_congr {g' : Memory} (h : g'.page = g.page) : g'.cell = g.cell := by
  unfold cell
  rw [h]

theorem mapped_congr {g' : Memory} (h : g'.page = g.page) : g'.mapped = g.mapped := by
  unfold mapped
  rw [h]

variable {address : ℕ}

theorem cells_poke (h : g.mapped address) (value : UInt8) :
    (g.poke address value).cells = Function.update g.cells (g.cell address) value := by
  unfold mapped at h
  unfold poke cells cell
  cases hpage : g.page (address / pageSize) with
  | none =>
    rw [hpage] at h
    simp at h
  | some hostPage =>
    funext c
    by_cases hc : c = (some hostPage, address % pageSize)
    · rw [hc]
      simp
    · rw [Function.update_of_ne hc]
      obtain ⟨_ | other, offset⟩ := c
      · rfl
      · by_cases hfirst : other = hostPage
        · have hsecond : offset ≠ address % pageSize := fun h => hc (by rw [hfirst, h])
          simp [hfirst, Function.update_of_ne hsecond]
        · simp [Function.update_of_ne hfirst]

/-- A write changes the cells of its range, one after the other. -/
theorem cells_store {data : List UInt8} (h : ∀ i < data.length, g.mapped (address + i)) :
    (g.store address data).cells = Overlay.put g.cells (Overlay.entries g.cell address data) := by
  induction data generalizing g address with
  | nil => rfl
  | cons value _ ih =>
    have hpage : (g.poke address value).page = g.page := page_poke g address value
    have hfirst : g.mapped address := h 0 (by simp)
    rw [store, ih fun i hi => ?_, cell_congr hpage, cells_poke hfirst]
    · rfl
    · rw [mapped_congr hpage, Nat.add_right_comm, Nat.add_assoc]
      exact h (i + 1) (by simpa using hi)

end LiveExec32.Guest.Memory

namespace LiveExec32.Debugger

open Guest Overlay List

/-! ## Ranges -/

theorem rangesOverlap_iff {a n b m : ℕ} :
    rangesOverlap a n b m ↔ n ≠ 0 ∧ m ≠ 0 ∧ a < b + m ∧ b < a + n := by
  simp [rangesOverlap, and_assoc]

@[simp] theorem length_patchBytes (address : ℕ) (data : List UInt8) (patchAddress : ℕ)
    (patch : List UInt8) : (patchBytes address data patchAddress patch).length = data.length := by
  unfold patchBytes
  split
  next h =>
    simp only [length_append, length_take, length_drop]
    split <;> split <;> omega
  · rfl

/-- A buffer gets the bytes of the addresses it has in common with the patch. -/
theorem getElem?_patchBytes (address : ℕ) (data : List UInt8) (patchAddress : ℕ)
    (patch : List UInt8) {i : ℕ} (hi : i < data.length) :
    (patchBytes address data patchAddress patch)[i]? =
      if patchAddress ≤ address + i ∧ address + i < patchAddress + patch.length then
        patch[address + i - patchAddress]? else data[i]? := by
  unfold patchBytes
  split
  next h =>
    rw [rangesOverlap_iff] at h
    generalize hstart : (if address > patchAddress then address else patchAddress) = overlapStart
    generalize hend : (if address + data.length < patchAddress + patch.length then
      address + data.length else patchAddress + patch.length) = overlapEnd
    have hbounds : address ≤ overlapStart ∧ patchAddress ≤ overlapStart ∧
        overlapEnd ≤ address + data.length ∧ overlapEnd ≤ patchAddress + patch.length ∧
        overlapStart < overlapEnd ∧ (overlapStart = address ∨ overlapStart = patchAddress) ∧
        (overlapEnd = address + data.length ∨ overlapEnd = patchAddress + patch.length) := by
      subst hstart hend
      split <;> split <;> omega
    have htake : (data.take (overlapStart - address)).length = overlapStart - address := by
      rw [length_take]
      omega
    have hmiddle : ((patch.drop (overlapStart - patchAddress)).take
        (overlapEnd - overlapStart)).length = overlapEnd - overlapStart := by
      rw [length_take, length_drop]
      omega
    by_cases hbefore : i < overlapStart - address
    · rw [append_assoc, getElem?_append_left (by omega), getElem?_take_of_lt hbefore,
        if_neg (by omega)]
    · by_cases hinside : i < overlapEnd - address
      · rw [getElem?_append_left (by rw [length_append]; omega),
          getElem?_append_right (by omega), htake, getElem?_take_of_lt (by omega),
          getElem?_drop, if_pos (by omega)]
        congr 1
        omega
      · rw [getElem?_append_right (by rw [length_append]; omega), length_append, htake,
          hmiddle, getElem?_drop, if_neg (by omega)]
        congr 1
        omega
  next h =>
    rw [if_neg]
    rw [rangesOverlap_iff] at h
    omega

/-- Whether an address is in the site of a breakpoint. -/
def Breakpoint.contains (b : Breakpoint) (address : ℕ) : Bool :=
  b.address ≤ address && address < b.address + b.kind

variable {source : List UInt8} {g : Memory} {address : ℕ} {breakpoints : List Breakpoint}

/-- Patching a buffer with all breakpoints, where each has the bytes of the same contents. -/
theorem foldl_patchBytes {bytes : Breakpoint → List UInt8} {value : ℕ → UInt8}
    (hlength : ∀ b ∈ breakpoints, (bytes b).length = b.kind)
    (hbytes : ∀ b ∈ breakpoints, ∀ j v, (bytes b)[j]? = some v → v = value (b.address + j))
    (data : List UInt8) :
    (breakpoints.foldl (fun dest b => patchBytes address dest b.address (bytes b)) data).length
        = data.length ∧
      ∀ i < data.length,
        (breakpoints.foldl (fun dest b => patchBytes address dest b.address (bytes b)) data)[i]? =
          if breakpoints.any (·.contains (address + i)) then some (value (address + i))
          else data[i]? := by
  induction breakpoints generalizing data with
  | nil => exact ⟨rfl, fun i hi => rfl⟩
  | cons b rest ih =>
    rw [forall_mem_cons] at hlength hbytes
    obtain ⟨hlen, hall⟩ := ih hlength.2 hbytes.2 (patchBytes address data b.address (bytes b))
    rw [length_patchBytes] at hlen hall
    refine ⟨hlen, fun i hi => ?_⟩
    rw [foldl_cons, hall i hi, any_cons, getElem?_patchBytes _ _ _ _ hi, hlength.1]
    by_cases hrest : rest.any (·.contains (address + i)) = true
    · simp [hrest]
    · rw [if_neg hrest]
      by_cases hb : b.contains (address + i) = true
      · have hin := hb
        simp only [Breakpoint.contains, Bool.and_eq_true, decide_eq_true_eq] at hin
        rw [if_pos hin, hb, Bool.true_or, if_pos rfl]
        have hj : address + i - b.address < (bytes b).length := by
          omega
        rw [getElem?_eq_getElem hj, hbytes.1 _ _ (getElem?_eq_getElem hj)]
        congr 2
        omega
      · have hout := hb
        simp only [Breakpoint.contains, Bool.and_eq_true, decide_eq_true_eq] at hout
        rw [if_neg hout, Bool.eq_false_iff.mpr hb, Bool.eq_false_iff.mpr hrest]
        rfl

/-! ## Physical writes -/

variable {host : HostWrites} {finish rounds page : ℕ}

/-- A write that succeeds is an ordinary write. -/
theorem writePhysicalPages_of_true
    (h : (writePhysicalPages host address finish rounds page source g).2) :
    writePhysicalPages host address finish rounds page source g
      = writePages address finish rounds page source g := by
  induction rounds generalizing page source g with
  | zero => rfl
  | succ _ ih =>
    rw [writePhysicalPages] at h ⊢
    rw [writePages]
    cases hpage : g.page page with
    | none => rfl
    | some =>
      simp only [hpage] at h ⊢
      cases hhost : host page with
      | some =>
        rw [hhost] at h
        simp at h
      | none =>
        rw [hhost] at h
        exact ih h

theorem writePhysicalPages_of_none :
    writePhysicalPages (fun _ => none) address finish rounds page source g
      = writePages address finish rounds page source g := by
  induction rounds generalizing page source g with
  | zero => rfl
  | succ _ ih =>
    rw [writePhysicalPages, writePages]
    cases hpage : g.page page with
    | none => rfl
    | some => exact ih

/-- A range of guest addresses, all of them mapped. -/
structure MappedRange (g : Memory) (address size : ℕ) : Prop where
  size_ne : size ≠ 0
  end_le : address + size ≤ 2 ^ 32
  mapped : ∀ i < size, g.mapped (address + i) = true

variable {size : ℕ}

theorem MappedRange.congr {g' : Memory} (h : MappedRange g address size)
    (hpage : g'.page = g.page) : MappedRange g' address size :=
  ⟨h.size_ne, h.end_le, by rw [Memory.mapped_congr hpage]; exact h.mapped⟩

theorem MappedRange.reach_eq (h : MappedRange g address size) : g.reach address size = size := by
  have hend := h.end_le
  have hsize := h.size_ne
  have hvalid : validRange address size := by
    simp only [validRange, Bool.and_eq_true, decide_eq_true_eq]
    omega
  rw [Memory.reach, if_pos hvalid]
  exact (g.mappedPrefix_eq_iff size address).mpr h.mapped

theorem mappedRange_of_reach (hsize : size ≠ 0) (h : g.reach address size = size) :
    MappedRange g address size := by
  unfold Memory.reach at h
  split at h
  next hvalid =>
    simp only [validRange, Bool.and_eq_true, decide_eq_true_eq] at hvalid
    exact ⟨hsize, by omega, (g.mappedPrefix_eq_iff size address).mp h⟩
  · exact absurd h.symm hsize

theorem writePages_of_mappedRange (h : MappedRange g address source.length) :
    writePages address (address + source.length) (pageCount address (address + source.length))
      (address / pageSize) source g = (g.store address source, true) := by
  have hwrite := memWrite_eq g address source
  have hend := h.end_le
  have hsize := h.size_ne
  have hvalid : validRange address source.length := by
    simp only [validRange, Bool.and_eq_true, decide_eq_true_eq]
    omega
  rw [h.reach_eq, take_length, decide_eq_true rfl, Guest.memWrite, if_neg hsize,
    hvalid] at hwrite
  exact hwrite

/-- **A physical write to a mapped range**, if it succeeds. -/
theorem writePhysicalMemory_of_true (hmapped : MappedRange g address source.length)
    (h : (writePhysicalMemory host g address source).2) :
    (writePhysicalMemory host g address source).1 = g.store address source := by
  rw [writePhysicalMemory, writePhysicalPages_of_true h, writePages_of_mappedRange hmapped]

theorem writePhysicalMemory_of_none (hmapped : MappedRange g address source.length) :
    writePhysicalMemory (fun _ => none) g address source = (g.store address source, true) := by
  rw [writePhysicalMemory, writePhysicalPages_of_none, writePages_of_mappedRange hmapped]

@[simp] theorem length_trapBytes {kind : ℕ} (h : kind = 2 ∨ kind = 4) :
    (trapBytes kind).length = kind := by
  rcases h with rfl | rfl <;> rfl

/-- **Planting a trap**, where the host accepts the write: nothing happens, or the site holds the
    trap and what stood there is returned. -/
theorem plantTrap_spec {guestAddress kind : ℕ} (hkind : kind = 2 ∨ kind = 4) :
    plantTrap (fun _ => none) g guestAddress kind = (g, none) ∨ (MappedRange g guestAddress kind ∧
        plantTrap (fun _ => none) g guestAddress kind =
          (g.store guestAddress (trapBytes kind), some (bytesFrom g guestAddress kind))) := by
  have hlength := length_trapBytes hkind
  unfold plantTrap
  rw [memRead_eq]
  by_cases hreach : g.reach guestAddress kind = kind
  · have hmapped := mappedRange_of_reach (by omega) hreach
    refine .inr ⟨hmapped, ?_⟩
    rw [hreach, decide_eq_true rfl]
    rw [writePhysicalMemory_of_none (by rw [hlength]; exact hmapped)]
  · refine .inl ?_
    rw [decide_eq_false hreach]

/-! ## What the requests do -/

theorem findBreakpoint_eq_none {guestAddress kind : ℕ}
    (h : findBreakpoint guestAddress kind breakpoints = none) :
    ∀ b ∈ breakpoints, rangesOverlap guestAddress kind b.address b.kind = false := by
  induction breakpoints with
  | nil => exact by simp
  | cons _ _ ih =>
    rw [findBreakpoint] at h
    split at h
    · simp at h
    · split at h
      · simp at h
      next hoverlap =>
        exact forall_mem_cons.mpr ⟨Bool.eq_false_iff.mpr hoverlap, ih h⟩

/-- A site that can be planted: it is mapped, and it overlaps no breakpoint. -/
structure Plantable (d : State) (guestAddress kind : ℕ) : Prop where
  kind_eq : kind = 2 ∨ kind = 4
  mapped : MappedRange d.memory guestAddress kind
  breakpoints : ∀ b ∈ d.breakpoints, rangesOverlap guestAddress kind b.address b.kind = false

/-- A request for a breakpoint at `site` comes to plant its trap. -/
structure Plants (d : State) (site kind : ℕ) : Prop extends Plantable d site kind where
  aligned : site % kind = 0
  tracepoints : ∀ t ∈ d.tracepoints, rangesOverlap site kind t.address t.kind = false

/-- A request for a breakpoint does nothing, whatever the host does, or its trap is planted. -/
theorem setBreakpoint_eq (d : State) (address kind : ℕ) {site : ℕ}
    (hsite : normalizeBreakpointAddress address kind = site) :
    (∀ host, (setBreakpoint host d address kind).1 = d) ∨ (kind = 2 ∨ kind = 4) ∧ site % kind = 0 ∧
        (∀ b ∈ d.breakpoints, rangesOverlap site kind b.address b.kind = false) ∧
        (∀ t ∈ d.tracepoints, rangesOverlap site kind t.address t.kind = false) ∧
        ∀ host, setBreakpoint host d address kind = match plantTrap host d.memory site kind with
          | (memory, none) => ({ d with memory := memory }, false)
          | (memory, some original) =>
            ({ d with
                memory := memory
                breakpoints := d.breakpoints ++ [⟨site, kind, original, trapBytes kind⟩] },
              true) := by
  unfold setBreakpoint
  rw [hsite]
  split
  · exact .inl fun _ => rfl
  · simp only
    split
    · exact .inl fun _ => rfl
    · split
      · exact .inl fun _ => rfl
      · rename_i htracepoints
        split
        · exact .inl fun _ => rfl
        · rename_i hfind
          refine .inr ⟨by omega, ?_, findBreakpoint_eq_none hfind, fun t ht => ?_, fun _ => rfl⟩
          · unfold normalizeBreakpointAddress at hsite
            have hkinds : kind = 2 ∨ kind = 4 := by omega
            rcases hkinds with rfl | rfl
            · simp only [if_true] at hsite
              split at hsite <;> omega
            · omega
          · exact Bool.eq_false_iff.mpr fun h => htracepoints (any_eq_true.mpr ⟨t, ht, h⟩)

/-- **Setting a breakpoint** does nothing, or plants one beside all sites. -/
theorem setBreakpoint_cases (d : State) (address kind : ℕ) :
    (setBreakpoint (fun _ => none) d address kind).1 = d ∨
      (Plants d (normalizeBreakpointAddress address kind) kind ∧
        (setBreakpoint (fun _ => none) d address kind).1 = { d with
            memory := d.memory.store (normalizeBreakpointAddress address kind) (trapBytes kind)
            breakpoints := d.breakpoints ++ [⟨normalizeBreakpointAddress address kind, kind,
                bytesFrom d.memory (normalizeBreakpointAddress address kind) kind,
                trapBytes kind⟩] }) := by
  obtain hsame | ⟨hkind, haligned, hbreakpoints, htracepoints, hset⟩ :=
    setBreakpoint_eq d address kind rfl
  · exact .inl (hsame _)
  · rw [hset]
    obtain hplant | ⟨hmapped, hplant⟩ := plantTrap_spec hkind
    · rw [hplant]
      exact .inl rfl
    · rw [hplant]
      exact .inr ⟨⟨⟨hkind, hmapped, hbreakpoints⟩, haligned, htracepoints⟩, rfl⟩

/-- **Setting a tracepoint** does nothing, or plants one beside the breakpoints. -/
theorem tracepointSet_cases (d : State) (address : ℕ) :
    (tracepointSet (fun _ => none) d address).1 = d ∨
      (Plantable d (address / 2 * 2) (tracepointKind address) ∧
        (∀ t ∈ d.tracepoints, t.address ≠ address / 2 * 2) ∧
        (tracepointSet (fun _ => none) d address).1 = { d with
            memory := d.memory.store (address / 2 * 2) (trapBytes (tracepointKind address))
            tracepoints := d.tracepoints ++ [⟨address / 2 * 2, tracepointKind address,
                bytesFrom d.memory (address / 2 * 2) (tracepointKind address), false⟩] }) := by
  have hkinds : tracepointKind address = 2 ∨ tracepointKind address = 4 := by
    unfold tracepointKind
    split <;> simp
  unfold tracepointSet
  split
  · exact .inl rfl
  · simp only
    split
    · exact .inl rfl
    next hfind =>
      split
      · exact .inl rfl
      next hbreakpoints =>
        rcases @plantTrap_spec d.memory (address / 2 * 2) (tracepointKind address) hkinds with
          hplant | ⟨hmapped, hplant⟩
        · rw [hplant]
          exact .inl rfl
        · rw [hplant]
          refine .inr ⟨⟨hkinds, hmapped, fun b hb => ?_⟩, fun t ht => ?_, rfl⟩
          · exact Bool.eq_false_iff.mpr fun h => hbreakpoints (any_eq_true.mpr ⟨b, hb, h⟩)
          · simpa using find?_eq_none.mp hfind t ht

/-- What is found can be put in front. -/
theorem perm_of_find? {α : Type} {p : α → Bool} {xs : List α} {x : α} (h : xs.find? p = some x) :
    xs.Perm (x :: xs.eraseP p) := by
  induction xs with
  | nil => simp at h
  | cons y _ ih =>
    rw [find?_cons] at h
    split at h
    next hy =>
      cases h
      rw [eraseP_cons_of_pos hy]
    next hy =>
      rw [eraseP_cons_of_neg (by simp [hy])]
      exact ((ih h).cons y).trans (List.Perm.swap x y _)

/-- **Deleting a breakpoint** whose site is mapped does nothing, or restores one. -/
theorem deleteBreakpoint_cases {d : State}
    (hmapped : ∀ b ∈ d.breakpoints, MappedRange d.memory b.address b.original.length)
    (address : ℕ) :
    (deleteBreakpoint (fun _ => none) d address).1 = d ∨ ∃ b rest, d.breakpoints.Perm (b :: rest) ∧
        (deleteBreakpoint (fun _ => none) d address).1 =
          { d with memory := d.memory.store b.address b.original, breakpoints := rest } := by
  unfold deleteBreakpoint
  split
  · exact .inl rfl
  · simp only
    split
    · exact .inl rfl
    next b hfind =>
      have haddress : b.address = address / 2 * 2 := by simpa using find?_some hfind
      rw [← haddress] at hfind ⊢
      rw [writePhysicalMemory_of_none (hmapped b (mem_of_find?_eq_some hfind))]
      exact .inr ⟨b, _, perm_of_find? hfind, rfl⟩

end LiveExec32.Debugger
