import LiveExec32.Debugger.Patched
import LiveExec32.Lib.Execution

/-! # Breakpoints are transparent to the debugger

The logical memory is the one in which only the debugger's writes take place. Guest memory with the
breakpoints refines it (`Refines`): it is the logical memory with the traps planted, and every
record keeps the logical bytes. Every request of the debugger keeps this, as long as no breakpoint
is set where another guest address is mapped to the same byte of the host. -/

namespace LiveExec32.Debugger

open Guest Overlay List Memory Execution

/-! ## Requests -/

inductive Request where
  | setBreakpoint (address kind : ℕ)
  | deleteBreakpoint (address kind : ℕ)
  | memRead (address size : ℕ)
  | memWrite (address : ℕ) (source : List UInt8)
  deriving DecidableEq, Repr

/-- A request of the debugger, where the host accepts every write. -/
def step (d : State) : Request → State
  | .setBreakpoint address kind => (setBreakpoint (fun _ => none) d address kind).1
  | .deleteBreakpoint address _ => (deleteBreakpoint (fun _ => none) d address).1
  | .memRead _ _ => d
  | .memWrite address source => (memWrite (fun _ => none) d address source).1

/-- A write to the logical memory, if its range is mapped. -/
def logicalWrite (l : Memory) (address : ℕ) (source : List UInt8) : Memory :=
  if l.reach address source.length = source.length then l.store address source else l

/-- Only writes change the logical memory. -/
def logicalStep (l : Memory) : Request → Memory
  | .memWrite address source => logicalWrite l address source
  | _ => l

/-- No other guest address is mapped to the same byte of the host. -/
def Unaliased (g : Memory) (address : ℕ) : Prop :=
  ∀ other < 2 ^ 32, g.mapped other = true → g.cell other = g.cell address → other = address

/-- A breakpoint is planted only where the bytes of its site have no other address. -/
def Request.Unaliased (d : State) : Request → Prop
  | .setBreakpoint address kind => Plants d (normalizeBreakpointAddress address kind) kind →
    ∀ i < kind, Debugger.Unaliased d.memory (normalizeBreakpointAddress address kind + i)
  | _ => True

/-- The trap that is planted at an address. -/
def State.trapAt (d : State) (address : ℕ) : Option UInt8 :=
  (d.breakpoints.find? (·.contains address)).map fun b => b.trap.getD (address - b.address) 0

/-! ## Refinement -/

/-- A record of a site: all its bytes are mapped, and no other address is mapped to them. -/
structure Breakpoint.Sound (g : Memory) (b : Breakpoint) : Prop where
  mapped : MappedRange g b.address b.kind
  length_original : b.original.length = b.kind
  length_trap : b.trap.length = b.kind
  unaliased : ∀ i < b.kind, Unaliased g (b.address + i)

/-- The site of a breakpoint, as patches. -/
def Breakpoint.patches (cell : ℕ → Cell) (b : Breakpoint) : List (Patch Cell UInt8) :=
  patchesAt cell b.address b.original b.trap

/-- Guest memory is the logical memory with the traps of the breakpoints planted. -/
structure Refines (l : Memory) (d : State) : Prop where
  page_eq : d.memory.page = l.page
  sound : ∀ b ∈ d.breakpoints, b.Sound l
  overlaid : Overlaid l.cells d.memory.cells (d.breakpoints.flatMap (·.patches l.cell))

variable {b : Breakpoint} {source : List UInt8} {address : ℕ} {g g' : Memory}

theorem Unaliased.congr (hpage : g'.page = g.page) (h : Unaliased g address) :
    Unaliased g' address := by
  unfold Unaliased at h ⊢
  rw [mapped_congr hpage, cell_congr hpage]
  exact h

theorem Breakpoint.Sound.congr (hpage : g'.page = g.page) (h : b.Sound g) : b.Sound g' :=
  ⟨h.mapped.congr hpage, h.length_original, h.length_trap,
    fun i hi => (h.unaliased i hi).congr hpage⟩

section

variable {l : Memory} {d : State}

theorem Breakpoint.contains_iff : b.contains address ↔ ∃ i < b.kind, address = b.address + i := by
  simp only [Breakpoint.contains, Bool.and_eq_true, decide_eq_true_eq]
  constructor
  · intro h
    exact ⟨address - b.address, by omega, by omega⟩
  · omega

variable {i : ℕ}

/-- The patch of a byte of a site. -/
theorem Refines.patch_of_contains (h : Refines l d) (hb : b ∈ d.breakpoints) (hi : i < b.kind) :
    ∃ p ∈ d.breakpoints.flatMap (·.patches l.cell), p.key = l.cell (b.address + i) ∧
      b.original[i]? = some p.saved ∧ b.trap[i]? = some p.planted := by
  have hsound := h.sound b hb
  have horiginal : i < b.original.length := by rw [hsound.length_original]; exact hi
  have htrap : i < b.trap.length := by rw [hsound.length_trap]; exact hi
  refine ⟨⟨l.cell (b.address + i), b.original[i], b.trap[i]⟩, ?_, rfl,
    getElem?_eq_getElem horiginal, getElem?_eq_getElem htrap⟩
  refine mem_flatMap.mpr ⟨b, hb, mem_patchesAt.mpr ⟨i, ?_, ?_, rfl⟩⟩
  · exact getElem?_eq_getElem horiginal
  · exact getElem?_eq_getElem htrap

/-- A patch belongs to a byte of a site. -/
theorem Refines.contains_of_patch (h : Refines l d) {p : Patch Cell UInt8}
    (hp : p ∈ d.breakpoints.flatMap (·.patches l.cell)) :
    ∃ b ∈ d.breakpoints, ∃ i < b.kind, p.key = l.cell (b.address + i) ∧
      b.original[i]? = some p.saved ∧ b.trap[i]? = some p.planted := by
  obtain ⟨b, hb, hmem⟩ := mem_flatMap.mp hp
  obtain ⟨i, hsaved, hplanted, hkey⟩ := mem_patchesAt.mp hmem
  have hi := (List.getElem?_eq_some_iff.mp hsaved).1
  rw [(h.sound b hb).length_original] at hi
  exact ⟨b, hb, i, hi, hkey, hsaved, hplanted⟩

/-- A cell of a site has no address outside it. -/
theorem Refines.contains_of_cell (h : Refines l d) (haddress : address < 2 ^ 32)
    (hmapped : l.mapped address)
    (hkey : l.cell address ∈ (d.breakpoints.flatMap (·.patches l.cell)).map Patch.key) :
    d.breakpoints.any (·.contains address) := by
  obtain ⟨p, hp, hcell⟩ := mem_map.mp hkey
  obtain ⟨b, hb, i, hi, hsame, -⟩ := h.contains_of_patch hp
  refine any_eq_true.mpr ⟨b, hb, Breakpoint.contains_iff.mpr ⟨i, hi, ?_⟩⟩
  exact (h.sound b hb).unaliased i hi address haddress hmapped (hcell.symm.trans hsame)

/-- The range that a record restores is mapped. -/
theorem Refines.mapped_original (h : Refines l d) (hb : b ∈ d.breakpoints) :
    MappedRange d.memory b.address b.original.length := by
  rw [(h.sound b hb).length_original]
  exact (h.sound b hb).mapped.congr h.page_eq

theorem Refines.byte_memory (h : Refines l d) (address : ℕ) :
    d.memory.byte address = if l.mapped address then d.memory.cells (l.cell address) else 0 := by
  rw [byte_eq, mapped_congr h.page_eq, cell_congr h.page_eq]

/-- Outside the sites both memories are the same. -/
theorem Refines.byte_of_clear (h : Refines l d) (haddress : address < 2 ^ 32)
    (hclear : d.breakpoints.any (·.contains address) = false) :
    d.memory.byte address = l.byte address := by
  rw [h.byte_memory, byte_eq]
  by_cases hmapped : l.mapped address = true
  · rw [if_pos hmapped, if_pos hmapped]
    refine h.overlaid.clear _ fun hkey => ?_
    rw [h.contains_of_cell haddress hmapped hkey] at hclear
    simp at hclear
  · rw [if_neg hmapped, if_neg hmapped]

variable {v : UInt8}

/-- A record keeps the logical bytes. -/
theorem Refines.original_eq (h : Refines l d) (hb : b ∈ d.breakpoints)
    (hv : b.original[i]? = some v) : v = l.byte (b.address + i) := by
  have hi := (List.getElem?_eq_some_iff.mp hv).1
  rw [(h.sound b hb).length_original] at hi
  obtain ⟨p, hp, hkey, hsaved, -⟩ := h.patch_of_contains hb hi
  rw [hv] at hsaved
  rw [byte_eq, if_pos ((h.sound b hb).mapped.mapped i hi), ← hkey, ← h.overlaid.saved_eq p hp]
  exact Option.some.inj hsaved

/-- A site holds its trap. -/
theorem Refines.trap_eq (h : Refines l d) (hb : b ∈ d.breakpoints) (hv : b.trap[i]? = some v) :
    v = d.memory.byte (b.address + i) := by
  have hi := (List.getElem?_eq_some_iff.mp hv).1
  rw [(h.sound b hb).length_trap] at hi
  obtain ⟨p, hp, hkey, -, hplanted⟩ := h.patch_of_contains hb hi
  rw [hv] at hplanted
  rw [h.byte_memory, if_pos ((h.sound b hb).mapped.mapped i hi), ← hkey, h.overlaid.planted_eq p hp]
  exact Option.some.inj hplanted

/-! ## Reads -/

variable {size : ℕ}

/-- **A read returns the logical bytes.** -/
theorem Refines.memRead_eq (h : Refines l d) {bytes : List UInt8}
    (hread : memRead d address size = some bytes) : bytes = bytesFrom l address size := by
  unfold memRead at hread
  split at hread
  · simp at hread
  next hvalid =>
    have hend : address + size ≤ 2 ^ 32 := by
      simp only [Bool.not_eq_true', Bool.not_eq_false, validRange, Bool.and_eq_true,
        decide_eq_true_eq] at hvalid
      omega
    rw [Guest.memRead_eq] at hread
    by_cases hreach : d.memory.reach address size = size
    · rw [hreach, decide_eq_true rfl] at hread
      cases hread
      obtain ⟨hlength, hbytes⟩ := @foldl_patchBytes address d.breakpoints (·.original) l.byte
        (fun b hb => (h.sound b hb).length_original) (fun b hb j v hv => h.original_eq hb hv)
        (bytesFrom d.memory address size)
      rw [length_bytesFrom] at hlength hbytes
      refine ext_getElem? fun i => ?_
      by_cases hi : i < size
      · rw [hbytes i hi, getElem?_bytesFrom hi, getElem?_bytesFrom hi]
        split
        · rfl
        next hclear =>
          rw [h.byte_of_clear (by omega) (Bool.eq_false_iff.mpr hclear)]
      · rw [getElem?_eq_none (by rw [hlength]; omega),
          getElem?_eq_none (by rw [length_bytesFrom]; omega)]
    · rw [decide_eq_false hreach] at hread
      simp at hread

/-- **Guest memory is the logical memory with the traps.** -/
theorem Refines.physical_eq (h : Refines l d) (haddress : address < 2 ^ 32) :
    d.memory.byte address = (d.trapAt address).getD (l.byte address) := by
  unfold State.trapAt
  cases hfind : d.breakpoints.find? (·.contains address) with
  | none =>
    refine h.byte_of_clear haddress (any_eq_false.mpr fun b hb => ?_)
    exact Bool.not_eq_true _ ▸ find?_eq_none.mp hfind b hb
  | some b =>
    have hb := mem_of_find?_eq_some hfind
    have hcontains := find?_some hfind
    obtain ⟨i, hi, rfl⟩ := Breakpoint.contains_iff.mp hcontains
    have htrap : i < b.trap.length := by
      rw [(h.sound b hb).length_trap]
      exact hi
    have hbyte := h.trap_eq hb (getElem?_eq_getElem htrap)
    simp [← hbyte, htrap]

/-! ## Writes -/

theorem rangeIsMapped_iff (hsize : size ≠ 0) :
    rangeIsMapped g address size ↔ ∀ i < size, g.mapped (address + i) := by
  simp only [rangeIsMapped, all_eq_true, mem_range, pageCount, mapped, pageSize]
  constructor
  · intro h i hi
    have hpage := h ((address + i) / 4096 - address / 4096) (by omega)
    rwa [show address / 4096 + ((address + i) / 4096 - address / 4096) = (address + i) / 4096 by
      omega] at hpage
  · intro h k hk
    have hpage := h ((address / 4096 + k) * 4096 - address) (by omega)
    by_cases hfirst : k = 0
    · have hzero := h 0 (by omega)
      rw [hfirst]
      exact hzero
    · rwa [show (address + ((address / 4096 + k) * 4096 - address)) / 4096 = address / 4096 + k by
        omega] at hpage

/-- What the debugger's write does to the logical memory at a cell without other addresses. -/
theorem put_entries_of_unaliased (hmapped : MappedRange g address source.length) {site : ℕ}
    (hsite : Unaliased g site) (m : Cell → UInt8) :
    put m (entries g.cell address source) (g.cell site) =
      if address ≤ site ∧ site < address + source.length then source.getD (site - address) 0
      else m (g.cell site) := by
  have hend := hmapped.end_le
  have honly : ∀ e ∈ entries g.cell address source, e.1 = g.cell site →
      address ≤ site ∧ site < address + source.length ∧ e.2 = source.getD (site - address) 0 := by
    intro e he hkey
    obtain ⟨i, hvalue, hcell⟩ := mem_entries.mp he
    have hi := (List.getElem?_eq_some_iff.mp hvalue).1
    have hsame := hsite (address + i) (by omega) (hmapped.mapped i hi) (hcell.symm.trans hkey)
    subst hsame
    refine ⟨by omega, by omega, ?_⟩
    rw [Nat.add_sub_cancel_left, getD_eq_getElem?_getD, hvalue]
    rfl
  split
  next hin =>
    refine put_of_forall (fun e he hkey => (honly e he hkey).2.2) (.inr ?_)
    have hi : site - address < source.length := by omega
    have hmem : (g.cell site, source[site - address]) ∈ entries g.cell address source :=
      mem_entries.mpr ⟨site - address, getElem?_eq_getElem hi, by
        rw [Nat.add_sub_cancel' hin.1]⟩
    exact mem_map_of_mem hmem
  next hout =>
    refine put_of_notMem (fun hmem => hout ?_) m
    obtain ⟨e, he, hkey⟩ := mem_map.mp hmem
    obtain ⟨hstart, hstop, -⟩ := honly e he hkey
    exact ⟨hstart, hstop⟩

/-- The physical bytes of a write: traps where there are breakpoints, and the source elsewhere. -/
theorem Refines.covers (h : Refines l d) (hmapped : MappedRange l address source.length) :
    (physicalBytes d.breakpoints address source).length = source.length ∧
      List.Forall₂ (Overlaid.Covers (d.breakpoints.flatMap (·.patches l.cell)))
        (entries l.cell address source)
        (entries l.cell address (physicalBytes d.breakpoints address source)) := by
  have hend := hmapped.end_le
  obtain ⟨hlength, hbytes⟩ := @foldl_patchBytes address d.breakpoints (·.trap) d.memory.byte
    (fun b hb => (h.sound b hb).length_trap) (fun b hb j v hv => h.trap_eq hb hv) source
  refine ⟨hlength, forall₂_entries hlength.symm fun i v v' hv hv' => ?_⟩
  have hi := (List.getElem?_eq_some_iff.mp hv).1
  rw [physicalBytes, hbytes i hi, hv] at hv'
  refine ⟨rfl, fun p hp hkey => ?_, fun hkey => ?_⟩
  · have hin : d.breakpoints.any (·.contains (address + i)) := by
      refine h.contains_of_cell (by omega) (hmapped.mapped i hi) ?_
      rw [← show p.key = l.cell (address + i) from hkey]
      exact mem_map_of_mem hp
    rw [if_pos hin] at hv'
    have hv'' : d.memory.byte (address + i) = v' := Option.some.inj hv'
    rw [← h.overlaid.planted_eq p hp, hkey, ← hv'', h.byte_memory, if_pos (hmapped.mapped i hi)]
  · have hout : d.breakpoints.any (·.contains (address + i)) ≠ true := by
      intro hin
      obtain ⟨b, hb, hcontains⟩ := any_eq_true.mp hin
      obtain ⟨j, hj, hsame⟩ := Breakpoint.contains_iff.mp hcontains
      obtain ⟨p, hp, hpkey, -⟩ := h.patch_of_contains hb hj
      rw [← hsame] at hpkey
      exact hkey (hpkey ▸ mem_map_of_mem hp)
    rw [if_neg hout] at hv'
    exact (Option.some.inj hv').symm

/-- The records after a write keep the new logical bytes. -/
theorem Refines.refreshes (h : Refines l d) (hmapped : MappedRange l address source.length) :
    List.Forall₂ (Overlaid.Refreshes (put l.cells (entries l.cell address source)))
      (d.breakpoints.flatMap (·.patches l.cell))
      ((d.breakpoints.map (·.refresh address source)).flatMap (·.patches l.cell)) := by
  have hone : ∀ b ∈ d.breakpoints,
      List.Forall₂ (Overlaid.Refreshes (put l.cells (entries l.cell address source)))
        (b.patches l.cell) ((b.refresh address source).patches l.cell) := by
    intro b hb
    have hsound := h.sound b hb
    refine forall₂_patchesAt (length_patchBytes _ _ _ _).symm fun i s s' v hs hs' hv => ?_
    have hi := (List.getElem?_eq_some_iff.mp hs).1
    refine ⟨rfl, rfl, ?_⟩
    rw [Breakpoint.refresh, getElem?_patchBytes _ _ _ _ hi, hs] at hs'
    rw [hsound.length_original] at hi
    rw [put_entries_of_unaliased hmapped (hsound.unaliased i hi)]
    split at hs'
    next hin =>
      rw [if_pos hin, getD_eq_getElem?_getD, hs']
      rfl
    next hout =>
      have hsaved := h.original_eq hb hs
      rw [byte_eq, if_pos (hsound.mapped.mapped i hi)] at hsaved
      rw [if_neg hout, ← hsaved]
      exact (Option.some.inj hs').symm
  generalize d.breakpoints = breakpoints at hone
  induction breakpoints with
  | nil => exact .nil
  | cons _ _ ih =>
    rw [forall_mem_cons] at hone
    exact rel_append hone.1 (ih hone.2)

/-- **A write through the breakpoints is a write to the logical memory.** -/
theorem Refines.memWrite (h : Refines l d) (address : ℕ) (source : List UInt8) :
    Refines (logicalWrite l address source)
      (Debugger.memWrite (fun _ => none) d address source).1 := by
  unfold Debugger.memWrite logicalWrite
  by_cases hzero : source.length = 0
  · have hnil := length_eq_zero_iff.mp hzero
    subst hnil
    have hstore : l.store address [] = l := rfl
    rw [hstore, ite_self]
    split
    all_goals exact h
  by_cases hreach : l.reach address source.length = source.length
  · have hmapped := mappedRange_of_reach hzero hreach
    have hphysical := hmapped.congr h.page_eq
    have hend := hmapped.end_le
    have hvalid : validRange address source.length := by
      simp only [validRange, Bool.and_eq_true, decide_eq_true_eq]
      omega
    obtain ⟨hlength, hcovers⟩ := h.covers hmapped
    rw [if_pos hreach, hvalid, (rangeIsMapped_iff hzero).mpr hphysical.mapped, if_neg (by simp),
      if_neg hzero, writePhysicalMemory_of_none (by rw [hlength]; exact hphysical)]
    refine ⟨by simp [h.page_eq], ?_, ?_⟩
    · intro b' hb'
      obtain ⟨b, hb, rfl⟩ := mem_map.mp hb'
      have hsound : b.Sound (l.store address source) := (h.sound b hb).congr (by simp)
      exact ⟨hsound.mapped, (length_patchBytes _ _ _ _).trans hsound.length_original,
        hsound.length_trap, hsound.unaliased⟩
    · rw [cell_congr (page_store l address source), cells_store hmapped.mapped,
        cells_store (by rw [hlength]; exact hphysical.mapped), cell_congr h.page_eq]
      exact h.overlaid.write hcovers (h.refreshes hmapped)
  · rw [if_neg hreach, if_pos]
    · exact h
    · by_contra hnot
      simp only [Bool.or_eq_true, Bool.not_eq_true', not_or, Bool.not_eq_false] at hnot
      have hall := (rangeIsMapped_iff hzero).mp hnot.2
      rw [mapped_congr h.page_eq] at hall
      have hvalid := hnot.1
      simp only [validRange, Bool.and_eq_true, decide_eq_true_eq] at hvalid
      exact hreach (MappedRange.reach_eq ⟨hzero, by omega, hall⟩)

/-! ## Setting and deleting -/

/-- A new breakpoint beside the others. -/
theorem Refines.plant (h : Refines l d) {guestAddress kind : ℕ}
    (hplant : Plantable d guestAddress kind)
    (hunaliased : ∀ i < kind, Unaliased l (guestAddress + i)) :
    Refines l { d with
      memory := d.memory.store guestAddress (trapBytes kind)
      breakpoints := d.breakpoints ++
        [⟨guestAddress, kind, bytesFrom d.memory guestAddress kind, trapBytes kind⟩] } := by
  have hmapped := hplant.mapped
  have hlogical := hmapped.congr h.page_eq.symm
  have hend := hlogical.end_le
  have hlength := length_trapBytes hplant.kind_eq
  refine ⟨by simp [h.page_eq], ?_, ?_⟩
  · intro b hb
    rcases mem_append.mp hb with hb | hb
    · exact h.sound b hb
    · obtain rfl := mem_singleton.mp hb
      exact ⟨hlogical, length_bytesFrom _ _, hlength, hunaliased⟩
  · have hstore : (d.memory.store guestAddress (trapBytes kind)).cells =
        put d.memory.cells (plantings (patchesAt l.cell guestAddress
          (bytesFrom d.memory guestAddress kind) (trapBytes kind))) := by
      rw [(writes_patchesAt (by rw [length_bytesFrom, hlength])).1,
        cells_store (by rw [hlength]; exact hmapped.mapped), cell_congr h.page_eq]
    rw [flatMap_append, flatMap_singleton]
    simp only [hstore]
    refine h.overlaid.plant ?_ ?_ ?_
    · refine nodup_patchesAt fun i hi j hj hcell => ?_
      rw [length_bytesFrom] at hi hj
      have hsame := hunaliased j hj (guestAddress + i) (by omega) (hlogical.mapped i hi) hcell
      omega
    · intro p hp q hq hkey
      obtain ⟨b, hb, i, hi, hpkey, -⟩ := h.contains_of_patch hp
      obtain ⟨j, hsaved, -, hqkey⟩ := mem_patchesAt.mp hq
      have hj := (List.getElem?_eq_some_iff.mp hsaved).1
      rw [length_bytesFrom] at hj
      rw [hpkey, hqkey] at hkey
      have hsound := h.sound b hb
      have hbend := hsound.mapped.end_le
      have hsame := hunaliased j hj (b.address + i) (by omega) (hsound.mapped.mapped i hi) hkey
      have hno := Bool.eq_false_iff.mp (hplant.breakpoints b hb)
      rw [Ne, rangesOverlap_iff] at hno
      omega
    · intro q hq
      obtain ⟨j, hsaved, -, hqkey⟩ := mem_patchesAt.mp hq
      have hj := (List.getElem?_eq_some_iff.mp hsaved).1
      rw [length_bytesFrom] at hj
      rw [getElem?_bytesFrom hj, h.byte_memory, if_pos (hlogical.mapped j hj)] at hsaved
      rw [hqkey]
      exact (Option.some.inj hsaved).symm

theorem Refines.setBreakpoint (h : Refines l d) {kind : ℕ}
    (hrequest : Request.Unaliased d (.setBreakpoint address kind)) :
    Refines l (Debugger.setBreakpoint (fun _ => none) d address kind).1 := by
  rcases setBreakpoint_cases d address kind with hsame | ⟨hplants, hset⟩
  · rw [hsame]
    exact h
  · rw [hset]
    exact h.plant hplants.toPlantable fun i hi => (hrequest hplants i hi).congr h.page_eq.symm

/-- One breakpoint less. -/
theorem Refines.restore {rest : List Breakpoint}
    (h : Refines l { d with breakpoints := b :: rest }) :
    Refines l { d with memory := d.memory.store b.address b.original, breakpoints := rest } := by
  have hsound := h.sound b mem_cons_self
  have hmapped : MappedRange d.memory b.address b.original.length := h.mapped_original mem_cons_self
  refine ⟨by simpa using h.page_eq, fun b' hb' => h.sound b' (mem_cons_of_mem _ hb'), ?_⟩
  have hpage : d.memory.page = l.page := h.page_eq
  have hoverlaid := h.overlaid
  rw [flatMap_cons] at hoverlaid
  have hrestored := hoverlaid.restore
  rw [Breakpoint.patches,
    (writes_patchesAt (by rw [hsound.length_original, hsound.length_trap])).2,
    ← cell_congr hpage, ← cells_store hmapped.mapped, cell_congr hpage] at hrestored
  exact hrestored

theorem Refines.perm (h : Refines l d) {breakpoints : List Breakpoint}
    (hperm : d.breakpoints.Perm breakpoints) : Refines l { d with breakpoints := breakpoints } :=
  ⟨h.page_eq, fun b hb => h.sound b (hperm.mem_iff.mpr hb), h.overlaid.perm (hperm.flatMap_right _)⟩

theorem Refines.deleteBreakpoint (h : Refines l d) (address : ℕ) :
    Refines l (Debugger.deleteBreakpoint (fun _ => none) d address).1 := by
  rcases deleteBreakpoint_cases (fun _ hb => h.mapped_original hb) address with
    hsame | ⟨b, rest, hperm, hdelete⟩
  · rw [hsame]
    exact h
  · rw [hdelete]
    exact (h.perm hperm).restore

/-- Once all breakpoints are restored, guest memory is the logical memory. -/
theorem Refines.restoreBreakpoints {host : Breakpoint → HostWrites} (h : Refines l d)
    (hall : (Debugger.restoreBreakpoints host d.memory d.breakpoints).2.2) :
    Refines l { d with
      memory := (Debugger.restoreBreakpoints host d.memory d.breakpoints).1,
      breakpoints := [] } := by
  obtain ⟨memory, breakpoints, tracepoints⟩ := d
  induction breakpoints generalizing memory with
  | nil => exact h
  | cons b _ ih =>
    rw [Debugger.restoreBreakpoints] at hall ⊢
    split at hall
    · simp at hall
    next g hwrite =>
      have hstore := writePhysicalMemory_of_true (h.mapped_original mem_cons_self) (by rw [hwrite])
      rw [hwrite] at hstore
      obtain rfl : g = memory.store b.address b.original := hstore
      exact ih _ (Refines.restore (d := ⟨memory, [], tracepoints⟩) h) hall

end

/-! ## Runs -/

/-- **What the debugger sees.** Its reads return the logical bytes, guest memory is the logical
    memory with the traps of the registered breakpoints, and without any once all are removed. -/
structure Transparent (l : Memory) (d : State) : Prop where
  read : ∀ address size bytes, memRead d address size = some bytes →
    bytes = bytesFrom l address size
  physical : ∀ address < 2 ^ 32, d.memory.byte address = (d.trapAt address).getD (l.byte address)
  removed : ∀ host, (removeAllBreakpoints host d).2 = true →
    ∀ address, (removeAllBreakpoints host d).1.memory.byte address = l.byte address

variable {l : Memory} {d : State}

theorem Refines.transparent (h : Refines l d) : Transparent l d := by
  refine ⟨fun _ _ _ hread => h.memRead_eq hread, fun _ haddress => h.physical_eq haddress,
    fun host hremoved address => ?_⟩
  have hall : (Debugger.restoreBreakpoints host d.memory d.breakpoints).2.2 :=
    (Bool.and_eq_true_iff.mp hremoved).1
  have hrestored := h.restoreBreakpoints hall
  have hcells := hrestored.overlaid.eq_of_nil
  have hbyte := hrestored.byte_memory address
  rw [hcells, ← byte_eq] at hbyte
  exact hbyte

/-- Guest memory and the logical memory after the same request. -/
theorem Refines.step (h : Refines l d) (request : Request)
    (hrequest : request.Unaliased d) :
    Refines (logicalStep l request) (Debugger.step d request) := by
  cases request with
  | setBreakpoint => exact h.setBreakpoint hrequest
  | deleteBreakpoint address => exact h.deleteBreakpoint address
  | memRead => exact h
  | memWrite address source => exact h.memWrite address source

theorem page_logicalStep (l : Memory) (request : Request) :
    (logicalStep l request).page = l.page := by
  cases request with
  | setBreakpoint => rfl
  | deleteBreakpoint => rfl
  | memRead => rfl
  | memWrite =>
    rw [logicalStep, logicalWrite]
    split
    · simp
    · rfl

theorem Refines.run (h : Refines l d) {requests : List Request}
    (hrequests : Execution.Always Request.Unaliased Debugger.step d requests) :
    Refines (run logicalStep l requests) (run Debugger.step d requests) := by
  induction requests generalizing l d with
  | nil => exact h
  | cons request _ ih => exact ih (h.step request hrequests.1) hrequests.2

/-- **Breakpoints are transparent to the debugger**, in every run in which a breakpoint is planted
    only where the bytes of its site have no other guest address. -/
theorem breakpoints_transparent (g : Memory) (requests : List Request)
    (h : Execution.Always Request.Unaliased step { memory := g } requests) :
    Transparent (run logicalStep g requests)
      (run step { memory := g } requests) := by
  have hstart : Refines g { memory := g } :=
    ⟨rfl, by simp, Overlaid.of_nil _⟩
  exact (hstart.run h).transparent

/-- One guest page, with zeros. -/
def onePage : Memory := ⟨fun page => if page = 1 then some 0 else none, fun _ _ => 0⟩

theorem unaliased_onePage (h : address / 4096 = 1) : Unaliased onePage address := by
  intro other _ hmapped hcell
  have hpage : other / 4096 = 1 := by
    by_contra hother
    simp [mapped, onePage, hother] at hmapped
  have hoffset : other % 4096 = address % 4096 := (Prod.mk.inj hcell).2
  omega

theorem breakpoints_transparent_onePage :
    Transparent (run logicalStep onePage [.setBreakpoint 0x1001 2, .memWrite 0x1000 [1]])
      (run step { memory := onePage }
        [.setBreakpoint 0x1001 2, .memWrite 0x1000 [1]]) := by
  refine breakpoints_transparent onePage _ ⟨fun _ i (hi : i < 2) => ?_, trivial, trivial⟩
  exact unaliased_onePage (show (0x1000 + i) / 4096 = 1 by omega)

/-- Two guest pages in one host page, with zeros. -/
def sharedPage : Memory :=
  ⟨fun page => if page = 1 ∨ page = 2 then some 0 else none, fun _ _ => 0⟩

/-- A trap is seen at the other address of its site; and with a breakpoint at each of the two
    addresses, a trap is left when all breakpoints have been removed. -/
theorem trap_seen_at_alias :
    (memRead (run step { memory := sharedPage } [.setBreakpoint 0x1000 2]) 0x2000 2
        = some [0x00, 0xBE] ∧
      bytesFrom (run logicalStep sharedPage [.setBreakpoint 0x1000 2]) 0x2000 2 = [0, 0]) ∧
    ∃ d, d = run step { memory := sharedPage }
        [.setBreakpoint 0x1000 2, .setBreakpoint 0x2000 2] ∧
      (removeAllBreakpoints (fun _ _ => none) d).2 = true ∧
      (removeAllBreakpoints (fun _ _ => none) d).1.memory.byte 0x1001 = 0xBE := by
  refine ⟨by decide +kernel, _, rfl, by decide +kernel, by decide +kernel⟩

/-! ## Reading back -/

theorem Refines.memRead_of_mapped (h : Refines l d) {size : ℕ}
    (hmapped : MappedRange l address size) :
    memRead d address size = some (bytesFrom l address size) := by
  have hend := hmapped.end_le
  have hsize := hmapped.size_ne
  cases hread : memRead d address size with
  | some => rw [h.memRead_eq hread]
  | none =>
    simp [memRead, validRange, Guest.memRead_eq, (hmapped.congr h.page_eq).reach_eq] at hread
    omega

theorem bytesFrom_store (hmapped : MappedRange g address source.length)
    (hunaliased : ∀ i < source.length, Unaliased g (address + i)) :
    bytesFrom (g.store address source) address source.length = source := by
  refine ext_getElem (by simp) fun i _ hi => ?_
  have hpage := page_store g address source
  rw [← Option.some_inj, ← getElem?_eq_getElem, ← getElem?_eq_getElem, getElem?_bytesFrom hi,
    byte_eq, mapped_congr hpage, cell_congr hpage, if_pos (hmapped.mapped i hi),
    cells_store hmapped.mapped, put_entries_of_unaliased hmapped (hunaliased i hi),
    if_pos (by omega)]
  simp [hi]

/-- **The debugger reads back what it wrote**, whatever breakpoints are set in the range. -/
theorem memRead_memWrite (g : Memory) (requests : List Request)
    (h : Execution.Always Request.Unaliased step { memory := g } requests)
    (address : ℕ) (source : List UInt8)
    (hmapped : MappedRange g address source.length)
    (hunaliased : ∀ i < source.length, Unaliased g (address + i)) :
    memRead (step (run step { memory := g } requests) (.memWrite address source))
      address source.length = some source := by
  have hstart : Refines g { memory := g } := ⟨rfl, by simp, Overlaid.of_nil _⟩
  have hpage : (run logicalStep g requests).page = g.page :=
    @run_invariant _ _ logicalStep (·.page = g.page)
      (fun l request hl => (page_logicalStep l request).trans hl) g rfl requests
  have hthere := hmapped.congr hpage
  have hrefines := (hstart.run h).step (.memWrite address source) trivial
  rw [logicalStep, logicalWrite, if_pos hthere.reach_eq] at hrefines
  rw [hrefines.memRead_of_mapped (hthere.congr (page_store ..)),
    bytesFrom_store hthere fun i hi => (hunaliased i hi).congr hpage]

theorem memRead_memWrite_onePage :
    memRead (step (run step { memory := onePage } [.setBreakpoint 0x1000 4])
      (.memWrite 0x1002 [1, 2, 3])) 0x1002 3 = some [1, 2, 3] := by
  refine memRead_memWrite onePage [.setBreakpoint 0x1000 4] ⟨fun _ i (hi : i < 4) => ?_, trivial⟩
    0x1002 [1, 2, 3] ⟨by simp, by simp, by decide⟩
    fun i hi => unaliased_onePage (by simp at hi; omega)
  exact unaliased_onePage (show (0x1000 + i) / 4096 = 1 by omega)

end LiveExec32.Debugger
