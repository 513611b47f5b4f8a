import LiveExec32.Debugger.Patched

/-! # Failed breakpoints

`DebuggerWriteHostMemory` copies region by region. Where a region is read-only it asks for write
access, copies, and takes the access back; it can fail when the bytes are already there. Nobody puts
them back: `Dynarmic_debugger_set_breakpoint` only drops its record. -/

namespace LiveExec32.Debugger

open Guest

/-! ## Writes through the host's regions -/

/-- What the host says about the region at a destination: `vm_region_64`'s range and protections,
    and whether the `vm_protect` before and the one after the copy succeed. -/
structure HostRegion where
  address : ℕ
  size : ℕ
  writable : Bool
  maxWritable : Bool
  grants : Bool
  restores : Bool

/-- The host: `vm_page_size`, where its pages lie, and its answers for each destination. -/
structure HostVm where
  vmPageSize : ℕ
  base : ℕ → ℕ
  /-- `none` where `vm_region_64` fails. -/
  region : ℕ → Option HostRegion

/-- The bytes that a round copies into the region. -/
def HostRegion.room (region : HostRegion) (dest size : ℕ) : ℕ :=
  let available := region.size - (dest - region.address)
  if size < available then size else available

/-- The loop of `DebuggerWriteHostMemory`, which has copied `copied` bytes: `none` if it succeeds,
    or the number of bytes that are copied when it fails. A round copies a byte at least, so there
    are at most `size` of them. -/
def HostVm.writeRounds (v : HostVm) : (rounds dest size copied : ℕ) → Option ℕ
  | 0, _, _, _ => none
  | rounds + 1, dest, size, copied =>
    if size = 0 then none
    else
      match v.region dest with
      | none => some copied
      | some region =>
        if dest < region.address ∨ dest - region.address ≥ region.size then some copied
        else
          let chunk := region.room dest size
          if !region.writable && (!region.maxWritable || v.vmPageSize == 0 ||
              dest > 2 ^ 64 - 1 - chunk - (v.vmPageSize - 1) || !region.grants) then
            some copied
          else if !region.writable && !region.restores then some (copied + chunk)
          else v.writeRounds rounds (dest + chunk) (size - chunk) (copied + chunk)

/-- `DebuggerWriteHostMemory` for the parts of a write in the guest's pages. -/
def HostVm.writes (v : HostVm) (g : Memory) (address size : ℕ) : HostWrites := fun page =>
  (g.page page).bind fun hostPage =>
    let length := chunkStop (address + size) page - chunkStart address page
    v.writeRounds length (v.base hostPage + chunkStart address page) length 0

/-- `Dynarmic_debugger_set_breakpoint` on this host. -/
def HostVm.setBreakpoint (v : HostVm) (d : State) (address kind : ℕ) : State × Bool :=
  Debugger.setBreakpoint (v.writes d.memory (normalizeBreakpointAddress address kind) kind)
    d address kind

/-! ## The rounds of a write -/

/-- The region takes back the write access it granted. -/
def HostRegion.Closes (region : HostRegion) : Prop := region.writable ∨ region.restores

/-- `vm_region_64` finds the region at a destination, and it is writable or is made writable. -/
structure HostVm.Opens (v : HostVm) (dest size : ℕ) (region : HostRegion) : Prop where
  found : v.region dest = some region
  starts : region.address ≤ dest
  covers : dest - region.address < region.size
  access : region.writable ∨ region.maxWritable ∧ v.vmPageSize ≠ 0
    ∧ dest ≤ 2 ^ 64 - 1 - region.room dest size - (v.vmPageSize - 1) ∧ region.grants

/-- A round of the write starts when `copied` bytes are copied: every region before was opened and
    closed again. -/
inductive HostVm.Reaches (v : HostVm) (dest size : ℕ) : ℕ → Prop
  | start : v.Reaches dest size 0
  | next {copied : ℕ} {region : HostRegion} (hreaches : v.Reaches dest size copied)
      (hmore : copied < size) (hopens : v.Opens (dest + copied) (size - copied) region)
      (hcloses : region.Closes) :
      v.Reaches dest size (copied + region.room (dest + copied) (size - copied))

/-- A write fails when `copied` bytes are copied: the next region refuses, or the last one was
    opened and cannot be closed. -/
inductive HostVm.Fails (v : HostVm) (dest size : ℕ) : ℕ → Prop
  | refused {copied : ℕ} (hreaches : v.Reaches dest size copied) (hmore : copied < size)
      (hrefuses : ∀ region, ¬ v.Opens (dest + copied) (size - copied) region) :
      v.Fails dest size copied
  | stuck {copied : ℕ} {region : HostRegion} (hreaches : v.Reaches dest size copied)
      (hmore : copied < size) (hopens : v.Opens (dest + copied) (size - copied) region)
      (hstuck : ¬ region.Closes) :
      v.Fails dest size (copied + region.room (dest + copied) (size - copied))

section Rounds

variable {v : HostVm} {region : HostRegion} {dest size copied rounds : ℕ}

theorem HostVm.Opens.room_pos (h : v.Opens dest size region) (hsize : 0 < size) :
    0 < region.room dest size := by
  have hcovers := h.covers
  simp only [HostRegion.room]
  split <;> omega

theorem HostRegion.room_le : region.room dest size ≤ size := by
  simp only [HostRegion.room]
  split <;> omega

/-- A round into a region that opens. -/
theorem HostVm.writeRounds_of_opens (h : v.Opens dest size region) (hsize : 0 < size) :
    v.writeRounds (rounds + 1) dest size copied =
      if region.writable || region.restores then
        v.writeRounds rounds (dest + region.room dest size) (size - region.room dest size)
          (copied + region.room dest size)
      else some (copied + region.room dest size) := by
  obtain ⟨hfound, hstarts, hcovers, haccess⟩ := h
  rw [HostVm.writeRounds, if_neg (by omega)]
  simp only [hfound, Nat.not_lt.2 hstarts, Nat.not_le.2 hcovers, or_self, if_false]
  cases hwritable : region.writable with
  | true => simp
  | false =>
    obtain ⟨hmax, hpageSize, hfits, hgrants⟩ := haccess.resolve_left (by simp [hwritable])
    simp only [Nat.reducePow, Nat.reduceSub] at hfits
    cases hrestores : region.restores <;> simp [hmax, hpageSize, Nat.not_lt.2 hfits, hgrants]

/-- A round that finds no region it can write. -/
theorem HostVm.writeRounds_of_refused (h : ∀ region, ¬ v.Opens dest size region)
    (hsize : 0 < size) : v.writeRounds (rounds + 1) dest size copied = some copied := by
  rw [HostVm.writeRounds, if_neg (by omega)]
  split
  · rfl
  next region hfound =>
  split
  · rfl
  next hcovers =>
  have hrefused := mt (HostVm.Opens.mk hfound (by omega) (by omega)) (h region)
  refine if_pos ?_
  simp only [not_or, not_and, Bool.not_eq_true] at hrefused
  simp only [hrefused.1, Bool.not_false, Bool.true_and, Bool.or_eq_true, Bool.not_eq_true',
    beq_iff_eq, decide_eq_true_eq]
  grind

/-- More rounds than bytes make no difference. -/
theorem HostVm.writeRounds_congr {rounds' : ℕ} (hrounds : size ≤ rounds)
    (hrounds' : size ≤ rounds') :
    v.writeRounds rounds dest size copied = v.writeRounds rounds' dest size copied := by
  induction rounds generalizing rounds' dest size copied with
  | zero => cases rounds' <;> simp [HostVm.writeRounds, Nat.le_zero.1 hrounds]
  | succ rounds ih =>
    obtain rfl | hsize := Nat.eq_zero_or_pos size
    · cases rounds' <;> simp [HostVm.writeRounds]
    obtain ⟨rounds', rfl⟩ := Nat.exists_eq_succ_of_ne_zero (by omega : rounds' ≠ 0)
    by_cases hopens : ∃ region, v.Opens dest size region
    · obtain ⟨region, hopens⟩ := hopens
      have hroom := hopens.room_pos hsize
      rw [writeRounds_of_opens hopens hsize, writeRounds_of_opens hopens hsize,
        ih (by omega) (by omega : size - region.room dest size ≤ rounds')]
    · rw [not_exists] at hopens
      rw [writeRounds_of_refused hopens hsize, writeRounds_of_refused hopens hsize]

/-- From a round that is reached the loop goes on as from its start. -/
theorem HostVm.Reaches.writeRounds_eq (h : v.Reaches dest size copied) :
    copied ≤ size ∧ v.writeRounds size dest size 0
      = v.writeRounds (size - copied) (dest + copied) (size - copied) copied := by
  induction h with
  | start => exact ⟨Nat.zero_le _, rfl⟩
  | @next copied region hreaches hmore hopens hcloses ih =>
    have hroom := hopens.room_pos (Nat.sub_pos_of_lt hmore)
    have hfits : region.room (dest + copied) (size - copied) ≤ size - copied := region.room_le
    obtain ⟨rest, hrest⟩ := Nat.exists_eq_succ_of_ne_zero (Nat.sub_ne_zero_of_lt hmore)
    refine ⟨by omega, ih.2.trans ?_⟩
    rw [writeRounds_congr le_rfl hrest.le, writeRounds_of_opens hopens (Nat.sub_pos_of_lt hmore),
      if_pos (by simpa [HostRegion.Closes] using hcloses), Nat.add_assoc, Nat.sub_sub]
    exact writeRounds_congr (by omega) (by omega)

theorem HostVm.Fails.writeRounds_eq (h : v.Fails dest size copied) :
    v.writeRounds size dest size 0 = some copied := by
  cases h with
  | refused hreaches hmore hrefuses =>
    obtain ⟨rest, hrest⟩ := Nat.exists_eq_succ_of_ne_zero (Nat.sub_ne_zero_of_lt hmore)
    rw [hreaches.writeRounds_eq.2, writeRounds_congr le_rfl hrest.le,
      writeRounds_of_refused hrefuses (Nat.sub_pos_of_lt hmore)]
  | stuck hreaches hmore hopens hstuck =>
    obtain ⟨rest, hrest⟩ := Nat.exists_eq_succ_of_ne_zero (Nat.sub_ne_zero_of_lt hmore)
    rw [hreaches.writeRounds_eq.2, writeRounds_congr le_rfl hrest.le,
      writeRounds_of_opens hopens (Nat.sub_pos_of_lt hmore),
      if_neg (by simpa [HostRegion.Closes] using hstuck)]

theorem HostVm.Fails.copied_le (h : v.Fails dest size copied) : copied ≤ size := by
  cases h with
  | refused _ hmore => exact hmore.le
  | @stuck copied region _ hmore =>
    have hroom : region.room (dest + copied) (size - copied) ≤ size - copied := region.room_le
    omega

theorem HostVm.fails_of_writeRounds {stop : ℕ} (hreaches : v.Reaches dest size copied)
    (h : v.writeRounds rounds (dest + copied) (size - copied) copied = some stop) :
    v.Fails dest size stop := by
  induction rounds generalizing copied with
  | zero => cases h
  | succ rounds ih =>
    obtain hend | hmore := Nat.lt_or_ge copied size |>.symm
    · simp [HostVm.writeRounds, Nat.sub_eq_zero_of_le hend] at h
    have hsize := Nat.sub_pos_of_lt hmore
    by_cases hopens : ∃ region, v.Opens (dest + copied) (size - copied) region
    · obtain ⟨region, hopens⟩ := hopens
      rw [writeRounds_of_opens hopens hsize] at h
      split at h
      next hcloses =>
        refine ih (.next hreaches hmore hopens (by simpa [HostRegion.Closes] using hcloses)) ?_
        rwa [← Nat.add_assoc, ← Nat.sub_sub]
      next hstuck =>
        cases h
        exact .stuck hreaches hmore hopens (by simpa [HostRegion.Closes] using hstuck)
    · rw [not_exists] at hopens
      rw [writeRounds_of_refused hopens hsize] at h
      cases h
      exact .refused hreaches hmore hopens

/-- The loop fails with the bytes that the host's answers say. -/
theorem HostVm.writeRounds_eq_some_iff :
    v.writeRounds size dest size 0 = some copied ↔ v.Fails dest size copied :=
  ⟨fun h => fails_of_writeRounds .start h, fun h => h.writeRounds_eq⟩

end Rounds

/-! ## What a failure leaves behind -/

variable {g : Memory} {address : ℕ} {hostPage : ℕ}

/-- A copy into the page of an address changes nothing iff the bytes are there already. -/
theorem copyTo_eq_self_iff {data : List UInt8} (hpage : g.page (address / pageSize) = some hostPage)
    (hfits : address % pageSize + data.length ≤ pageSize) :
    g.copyTo hostPage (address % pageSize) data = g ↔ data = bytesFrom g address data.length := by
  have hbytes : bytesFrom g address data.length
      = (g.host hostPage).slice (address % pageSize) data.length :=
    List.map_congr_left fun i hi => by
      rw [← byte_of_page hpage (by rw [List.mem_range] at hi; omega), ← Nat.add_assoc,
        Nat.div_add_mod']
  rw [hbytes, ← Bytes.write_eq_self_iff]
  refine ⟨fun h => Function.update_eq_self_iff.mp (congrArg Memory.host h), fun h => ?_⟩
  rw [Memory.copyTo, h, Function.update_eq_self]

/-- The part of a range in its first page, when it ends there. -/
theorem chunk_of_fits {size : ℕ} (hsize : 0 < size) (hfits : address % pageSize + size ≤ pageSize) :
    chunkStart address (address / pageSize) = address % pageSize
      ∧ chunkStop (address + size) (address / pageSize) = address % pageSize + size := by
  simp only [chunkStart, chunkStop, pageSize] at hfits ⊢
  constructor <;> split <;> omega

/-- A physical write inside one page. -/
theorem writePhysicalMemory_of_page {host : HostWrites} {source : List UInt8}
    (hsource : source ≠ []) (hfits : address % pageSize + source.length ≤ pageSize)
    (hpage : g.page (address / pageSize) = some hostPage) :
    writePhysicalMemory host g address source = match host (address / pageSize) with
      | some copied => (g.copyTo hostPage (address % pageSize) (source.take copied), false)
      | none => (g.copyTo hostPage (address % pageSize) source, true) := by
  have hlength := List.length_pos_iff.mpr hsource
  have hcount : pageCount address (address + source.length) = 1 := by
    simp only [pageCount, pageSize] at hfits ⊢
    omega
  obtain ⟨hstart, hstop⟩ := chunk_of_fits hlength hfits
  rw [writePhysicalMemory, hcount, writePhysicalPages]
  simp only [hpage, hstart, hstop, Nat.add_sub_cancel_left, List.take_length]
  cases host (address / pageSize) with
  | none => rfl
  | some => rfl

theorem findBreakpoint_of_clear {breakpoints : List Breakpoint} {kind : ℕ} (hkind : kind ≠ 0)
    (h : ∀ b ∈ breakpoints, rangesOverlap address kind b.address b.kind = false) :
    findBreakpoint address kind breakpoints = none := by
  induction breakpoints with
  | nil => rfl
  | cons breakpoint rest ih =>
    obtain ⟨hclear, hrest⟩ := List.forall_mem_cons.1 h
    have hother : ¬ (breakpoint.address = address ∧ breakpoint.kind = kind) := by
      rintro ⟨rfl, rfl⟩
      simp [rangesOverlap, hkind, Nat.pos_of_ne_zero hkind] at hclear
    rw [findBreakpoint, if_neg hother, hclear]
    exact ih hrest

/-- A request that comes to plant its trap ends as the write of the trap does. -/
theorem Plants.setBreakpoint_eq {d : State} {site kind : ℕ} (h : Plants d site kind)
    (hsite : normalizeBreakpointAddress address kind = site) (host : HostWrites) :
    setBreakpoint host d address kind =
      match writePhysicalMemory host d.memory site (trapBytes kind) with
      | (memory, false) => ({ d with memory := memory }, false)
      | (memory, true) =>
        ({ d with
            memory := memory
            breakpoints := d.breakpoints
              ++ [⟨site, kind, bytesFrom d.memory site kind, trapBytes kind⟩] }, true) := by
  have hkind := h.kind_eq
  have haligned : ¬ (site = uint32Max ∨ kind = 4 ∧ site % 4 ≠ 0) := by
    have haligned := h.aligned
    simp only [uint32Max]
    rcases hkind with rfl | rfl <;> omega
  have htracepoints : ¬ (d.tracepoints.any fun t => rangesOverlap site kind t.address t.kind) := by
    simpa using h.tracepoints
  rw [setBreakpoint, if_neg (by omega), hsite]
  simp only [haligned, htracepoints, if_false, findBreakpoint_of_clear (by omega) h.breakpoints,
    plantTrap, memRead_eq, h.mapped.reach_eq, decide_true]
  rcases writePhysicalMemory host d.memory site (trapBytes kind) with ⟨memory, _ | _⟩ <;> rfl

/-- Any other request changes nothing. -/
theorem setBreakpoint_of_not_plants {d : State} {kind : ℕ} (host : HostWrites)
    (h : ¬ Plants d (normalizeBreakpointAddress address kind) kind) :
    (setBreakpoint host d address kind).1 = d := by
  obtain hsame | ⟨hkind, haligned, hbreakpoints, htracepoints, hset⟩ :=
    setBreakpoint_eq d address kind rfl
  · exact hsame host
  · have hunmapped : d.memory.reach (normalizeBreakpointAddress address kind) kind ≠ kind :=
      fun hreach => h ⟨⟨hkind, mappedRange_of_reach (by omega) hreach, hbreakpoints⟩, haligned,
        htracepoints⟩
    simp [hset, plantTrap, memRead_eq, hunmapped]

/-- The write of an aligned trap fails with the bytes that the host's answers for its place say. -/
theorem HostVm.writes_eq_some_iff {v : HostVm} {site kind copied : ℕ}
    (hpage : g.page (site / pageSize) = some hostPage) (hkind : 0 < kind)
    (hfits : site % pageSize + kind ≤ pageSize) :
    v.writes g site kind (site / pageSize) = some copied
      ↔ v.Fails (v.base hostPage + site % pageSize) kind copied := by
  obtain ⟨hstart, hstop⟩ := chunk_of_fits hkind hfits
  rw [← writeRounds_eq_some_iff]
  simp only [writes, hpage, Option.bind_some, hstart, hstop, Nat.add_sub_cancel_left]

/-- **A failed breakpoint leaves everything as it was** iff it does not come to plant its trap, or
    wherever a region refuses or cannot be closed, the trap up to there is what stands there. -/
theorem setBreakpoint_unchanged_iff (v : HostVm) (d : State) (address kind : ℕ) :
    let site := normalizeBreakpointAddress address kind
    ((v.setBreakpoint d address kind).2 = false → (v.setBreakpoint d address kind).1 = d) ↔
      (Plants d site kind → ∀ hostPage, d.memory.page (site / pageSize) = some hostPage →
        ∀ copied, v.Fails (v.base hostPage + site % pageSize) kind copied →
          (trapBytes kind).take copied = bytesFrom d.memory site copied) := by
  intro site
  have hsite : normalizeBreakpointAddress address kind = site := rfl
  by_cases hplants : Plants d site kind
  swap
  · exact iff_of_true (fun _ => setBreakpoint_of_not_plants _ hplants) fun h => absurd h hplants
  have hkind := hplants.kind_eq
  have hlength := length_trapBytes hkind
  obtain ⟨hostPage, hpage⟩ : ∃ hostPage, d.memory.page (site / pageSize) = some hostPage :=
    Option.isSome_iff_exists.mp (hplants.mapped.mapped 0 (by omega))
  have hfits : site % pageSize + kind ≤ pageSize := by
    have haligned := hplants.aligned
    simp only [pageSize]
    rcases hkind with rfl | rfl <;> omega
  rw [HostVm.setBreakpoint, hplants.setBreakpoint_eq hsite, hsite,
    writePhysicalMemory_of_page (List.ne_nil_of_length_pos (by omega)) (by omega) hpage]
  have hwrites : ∀ copied, v.Fails (v.base hostPage + site % pageSize) kind copied
      ↔ v.writes d.memory site kind (site / pageSize) = some copied :=
    fun _ => (HostVm.writes_eq_some_iff hpage (by omega) hfits).symm
  simp only [hplants, true_imp_iff, hpage, Option.some.injEq, forall_eq', hwrites]
  cases hstop : v.writes d.memory site kind (site / pageSize) with
  | none => simp
  | some copied =>
    have hcopied : copied ≤ kind := ((hwrites copied).2 hstop).copied_le
    have htaken : ((trapBytes kind).take copied).length = copied := by simp [hlength, hcopied]
    have hsame : d.memory.copyTo hostPage (site % pageSize) ((trapBytes kind).take copied)
        = d.memory
        ↔ (trapBytes kind).take copied = bytesFrom d.memory site copied := by
      rw [copyTo_eq_self_iff hpage (by omega), htaken]
    simp only [true_imp_iff, Option.some.injEq, forall_eq', ← hsame]
    exact ⟨congrArg State.memory, fun h => by rw [h]⟩

/-- Read-only code that the host lets be written, but not be protected again. -/
def stubbornHost : HostVm :=
  ⟨4096, fun _ => 0, fun _ => some ⟨0, 4096, false, true, true, false⟩⟩

/-- One page of zeros. -/
def zeroPage : State := { memory := ⟨fun page => if page = 0 then some 0 else none, fun _ _ => 0⟩ }

/-- A breakpoint that could not be set, with its trap in memory and no record of it. -/
theorem setBreakpoint_leaves_trap :
    (stubbornHost.setBreakpoint zeroPage 0 4).2 = false ∧
      (stubbornHost.setBreakpoint zeroPage 0 4).1.breakpoints = [] ∧
      bytesFrom zeroPage.memory 0 4 = [0, 0, 0, 0] ∧
      bytesFrom (stubbornHost.setBreakpoint zeroPage 0 4).1.memory 0 4 = trapBytes 4 := by
  decide +kernel

end LiveExec32.Debugger
