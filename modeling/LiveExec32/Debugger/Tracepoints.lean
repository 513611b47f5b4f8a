import LiveExec32.Debugger.Transparency

/-! # Sites that do not overlap

Breakpoints and tracepoints patch the same memory, from two registries. The planted sites are those
of all breakpoints and of the tracepoints that have not fired. If no site is planted over another,
every record keeps the bytes that stood there before any site was planted (`Patched`), and restoring
the records in any order yields that memory.

A breakpoint is checked against all sites, and a tracepoint against all breakpoints. But of the
other tracepoints only one at the same address counts, so that two of them can overlap. -/

namespace LiveExec32.Debugger

open Guest Overlay List Memory Execution

/-- The part that the records of breakpoints and tracepoints have in common. -/
structure Site where
  address : ℕ
  kind : ℕ
  original : List UInt8
  deriving DecidableEq, Repr

def Breakpoint.site (b : Breakpoint) : Site := ⟨b.address, b.kind, b.original⟩

def Tracepoint.site (t : Tracepoint) : Site := ⟨t.address, t.kind, t.original⟩

/-- The sites that are planted. -/
def State.sites (d : State) : List Site :=
  d.breakpoints.map (·.site) ++ (d.tracepoints.filter (!·.fired)).map (·.site)

/-- Restore the sites one after the other. -/
def restoreSites (g : Memory) (sites : List Site) : Memory :=
  sites.foldl (fun g s => g.store s.address s.original) g

/-! ## Events -/

inductive SiteEvent where
  | tracepointSet (address : ℕ)
  | consumeTracepoint (pc : ℕ)
  | setBreakpoint (address kind : ℕ)
  | deleteBreakpoint (address kind : ℕ)
  deriving DecidableEq, Repr

/-- An event, where the host accepts every write. -/
def siteStep (d : State) : SiteEvent → State
  | .tracepointSet address => (tracepointSet (fun _ => none) d address).1
  | .consumeTracepoint pc => (consumeTracepoint (fun _ => none) d pc).1
  | .setBreakpoint address kind => (setBreakpoint (fun _ => none) d address kind).1
  | .deleteBreakpoint address _ => (deleteBreakpoint (fun _ => none) d address).1

/-- The `kind` bytes at an address do not overlap a tracepoint that has not fired, and none of them
    lies in the same byte of the host as another address of a planted site. -/
structure Clear (d : State) (address kind : ℕ) : Prop where
  tracepoints : ∀ t ∈ d.tracepoints, t.fired = false →
    rangesOverlap address kind t.address t.kind = false
  unaliased : ∀ t ∈ d.sites, ∀ i < kind, ∀ j < t.kind,
    d.memory.cell (address + i) = d.memory.cell (t.address + j) → address + i = t.address + j

instance (d : State) (address kind : ℕ) : Decidable (Clear d address kind) :=
  decidable_of_iff
    ((∀ t ∈ d.tracepoints, t.fired = false →
        rangesOverlap address kind t.address t.kind = false) ∧
      ∀ t ∈ d.sites, ∀ i < kind, ∀ j < t.kind,
        d.memory.cell (address + i) = d.memory.cell (t.address + j) →
          address + i = t.address + j)
    ⟨fun h => ⟨h.1, h.2⟩, fun h => ⟨h.1, h.2⟩⟩

/-- The site that a request asks for is clear, unless the request is refused: the site of a
    tracepoint is mapped, beside the breakpoints and at an address of its own, that of a breakpoint
    is one at which a trap is planted. -/
def PlantsClear (d : State) : SiteEvent → Prop
  | .tracepointSet address => Plantable d (address / 2 * 2) (tracepointKind address) →
    (∀ t ∈ d.tracepoints, t.address ≠ address / 2 * 2) →
      Clear d (address / 2 * 2) (tracepointKind address)
  | .setBreakpoint address kind => Plants d (normalizeBreakpointAddress address kind) kind →
    Clear d (normalizeBreakpointAddress address kind) kind
  | _ => True

/-! ## Patched memory -/

/-- The site as patches. -/
def Site.patches (cell : ℕ → Cell) (s : Site) : List (Patch Cell UInt8) :=
  patchesAt cell s.address s.original (trapBytes s.kind)

structure Site.Sound (g : Memory) (s : Site) : Prop where
  kind_eq : s.kind = 2 ∨ s.kind = 4
  mapped : MappedRange g s.address s.kind
  length_original : s.original.length = s.kind

/-- The memory is `base` with the sites planted. -/
structure Patched (base memory : Memory) (sites : List Site) : Prop where
  page_eq : memory.page = base.page
  sound : ∀ s ∈ sites, s.Sound base
  overlaid : Overlaid base.cells memory.cells (sites.flatMap (·.patches base.cell))

variable {guestAddress : ℕ}

section

variable {base memory : Memory} {sites : List Site} {g : Memory} {cell : ℕ → Cell}

theorem mem_patches_iff {s : Site} (h : s.Sound g) {p : Patch Cell UInt8} :
    p ∈ s.patches cell ↔ ∃ i < s.kind, s.original[i]? = some p.saved ∧
      (trapBytes s.kind)[i]? = some p.planted ∧ p.key = cell (s.address + i) := by
  rw [Site.patches, mem_patchesAt]
  constructor
  · rintro ⟨i, hsaved, hplanted, hkey⟩
    have hi := (List.getElem?_eq_some_iff.mp hsaved).1
    rw [h.length_original] at hi
    exact ⟨i, hi, hsaved, hplanted, hkey⟩
  · rintro ⟨i, -, hsaved, hplanted, hkey⟩
    exact ⟨i, hsaved, hplanted, hkey⟩

/-- Every byte of a site has a patch. -/
theorem exists_patch {s : Site} (h : s.Sound g) {i : ℕ} (hi : i < s.kind) :
    ∃ p ∈ s.patches cell, p.key = cell (s.address + i) ∧ s.original[i]? = some p.saved := by
  have horiginal : i < s.original.length := by
    rw [h.length_original]
    exact hi
  have htrap : i < (trapBytes s.kind).length := by
    rw [length_trapBytes h.kind_eq]
    exact hi
  refine ⟨⟨cell (s.address + i), s.original[i], (trapBytes s.kind)[i]⟩, ?_, rfl,
    getElem?_eq_getElem horiginal⟩
  exact (mem_patches_iff h).mpr
    ⟨i, hi, getElem?_eq_getElem horiginal, getElem?_eq_getElem htrap, rfl⟩

theorem Patched.perm (h : Patched base memory sites) {sites' : List Site}
    (hperm : sites.Perm sites') :
    Patched base memory sites' :=
  ⟨h.page_eq, fun s hs => h.sound s (hperm.mem_iff.mpr hs), h.overlaid.perm (hperm.flatMap_right _)⟩

/-- A record keeps the bytes of the memory without sites. -/
theorem Patched.original_eq (h : Patched base memory sites) {s : Site} (hs : s ∈ sites) :
    s.original = bytesFrom base s.address s.kind := by
  have hsound := h.sound s hs
  refine ext_getElem? fun i => ?_
  by_cases hi : i < s.kind
  · obtain ⟨p, hp, hkey, hsaved⟩ := @exists_patch base base.cell s hsound i hi
    have hmem : p ∈ sites.flatMap (·.patches base.cell) := mem_flatMap.mpr ⟨s, hs, hp⟩
    rw [hsaved, getElem?_bytesFrom hi, byte_eq, if_pos (hsound.mapped.mapped i hi), ← hkey,
      h.overlaid.saved_eq p hmem]
  · rw [getElem?_eq_none (by rw [hsound.length_original]; omega),
      getElem?_eq_none (by rw [length_bytesFrom]; omega)]

/-- Planted sites do not overlap. -/
theorem Patched.apart (h : Patched base memory sites) :
    sites.Pairwise fun s t => rangesOverlap s.address s.kind t.address t.kind = false := by
  have hnodup := h.overlaid.nodup
  rw [map_flatMap, nodup_flatMap] at hnodup
  refine (List.Pairwise.and_mem.mp hnodup.2).imp fun {s t} hst => ?_
  obtain ⟨hs, ht, hdisjoint⟩ := hst
  refine Bool.eq_false_iff.mpr fun hoverlap => ?_
  rw [rangesOverlap_iff] at hoverlap
  -- the later of the two starts lies in both
  obtain ⟨i, hi, j, hj, hsame⟩ : ∃ i < s.kind, ∃ j < t.kind, s.address + i = t.address + j :=
    ⟨max s.address t.address - s.address, by omega, max s.address t.address - t.address, by omega,
      by omega⟩
  obtain ⟨p, hp, hpkey, -⟩ := @exists_patch base base.cell s (h.sound s hs) i hi
  obtain ⟨q, hq, hqkey, -⟩ := @exists_patch base base.cell t (h.sound t ht) j hj
  refine hdisjoint (mem_map_of_mem hp) ?_
  rw [hpkey, hsame, ← hqkey]
  exact mem_map_of_mem hq

/-- The first site is restored. -/
theorem Patched.restore {s : Site} (h : Patched base memory (s :: sites)) :
    Patched base (memory.store s.address s.original) sites := by
  have hsound := h.sound s mem_cons_self
  have hmapped : MappedRange memory s.address s.original.length := by
    rw [hsound.length_original]
    exact hsound.mapped.congr h.page_eq
  refine ⟨by simpa using h.page_eq, fun t ht => h.sound t (mem_cons_of_mem _ ht), ?_⟩
  have hrestored := h.overlaid
  rw [flatMap_cons] at hrestored
  have hcells := hrestored.restore
  rw [Site.patches, (writes_patchesAt (by
      rw [hsound.length_original, length_trapBytes hsound.kind_eq])).2,
    ← cell_congr h.page_eq, ← cells_store hmapped.mapped,
    cell_congr h.page_eq] at hcells
  exact hcells

/-- **Restoring all sites yields the memory without them.** -/
theorem Patched.restoreSites (h : Patched base memory sites) (address : ℕ) :
    (restoreSites memory sites).byte address = base.byte address := by
  induction sites generalizing memory with
  | nil =>
    show memory.byte address = base.byte address
    rw [byte_eq, byte_eq, h.overlaid.eq_of_nil, mapped_congr h.page_eq, cell_congr h.page_eq]
  | cons _ _ ih => exact ih h.restore

/-- A site is planted that shares no byte of the host with the others. -/
theorem Patched.plant (h : Patched base memory sites) {kind : ℕ} (hkind : kind = 2 ∨ kind = 4)
    (hmapped : MappedRange memory guestAddress kind)
    (hapart : ∀ s ∈ sites, ∀ i < kind, ∀ j < s.kind,
      base.cell (guestAddress + i) ≠ base.cell (s.address + j)) :
    Patched base (memory.store guestAddress (trapBytes kind))
      (sites ++ [⟨guestAddress, kind, bytesFrom memory guestAddress kind⟩]) := by
  have hbase := hmapped.congr h.page_eq.symm
  have hlength := length_trapBytes hkind
  have hnew : Site.Sound base ⟨guestAddress, kind, bytesFrom memory guestAddress kind⟩ :=
    ⟨hkind, hbase, length_bytesFrom _ _⟩
  refine ⟨by simp [h.page_eq], ?_, ?_⟩
  · intro s hs
    rcases mem_append.mp hs with hs | hs
    · exact h.sound s hs
    · obtain rfl := mem_singleton.mp hs
      exact hnew
  · have hstore : (memory.store guestAddress (trapBytes kind)).cells =
        put memory.cells (plantings (Site.patches base.cell
          ⟨guestAddress, kind, bytesFrom memory guestAddress kind⟩)) := by
      rw [Site.patches, (writes_patchesAt (by rw [length_bytesFrom, hlength])).1,
        cells_store (by rw [hlength]; exact hmapped.mapped), cell_congr h.page_eq]
    rw [flatMap_append, flatMap_singleton, hstore]
    refine h.overlaid.plant ?_ ?_ ?_
    · -- two bytes of a site never have the same offset in a page
      refine nodup_patchesAt fun i hi j hj hcell => ?_
      rw [length_bytesFrom] at hi hj
      have hoffset := (Prod.mk.inj hcell).2
      simp only [pageSize] at hoffset
      omega
    · intro p hp q hq hkey
      obtain ⟨s, hs, hmem⟩ := mem_flatMap.mp hp
      obtain ⟨j, hj, -, -, hpkey⟩ := (mem_patches_iff (h.sound s hs)).mp hmem
      obtain ⟨i, hi, -, -, hqkey⟩ := (mem_patches_iff hnew).mp hq
      rw [hpkey, hqkey] at hkey
      exact hapart s hs i hi j hj hkey.symm
    · intro q hq
      obtain ⟨i, hi, hsaved, -, hqkey⟩ := (mem_patches_iff hnew).mp hq
      rw [getElem?_bytesFrom hi, byte_eq, if_pos (hmapped.mapped i hi),
        cell_congr h.page_eq] at hsaved
      rw [hqkey]
      exact (Option.some.inj hsaved).symm

end

/-! ## Steps -/

section

variable {base : Memory} {d : State}

/-- A site that overlaps no planted one, and is clear, shares no byte of the host with them. -/
theorem Clear.cell_ne {kind : ℕ} (h : Clear d guestAddress kind) (hpage : d.memory.page = base.page)
    (hbreakpoints : ∀ b ∈ d.breakpoints,
      rangesOverlap guestAddress kind b.address b.kind = false) :
    ∀ t ∈ d.sites, ∀ i < kind, ∀ j < t.kind,
      base.cell (guestAddress + i) ≠ base.cell (t.address + j) := by
  intro t ht i hi j hj hcell
  rw [← cell_congr hpage] at hcell
  have hsame := h.unaliased t ht i hi j hj hcell
  have hnone : rangesOverlap guestAddress kind t.address t.kind = false := by
    rcases mem_append.mp ht with ht | ht
    · obtain ⟨b, hb, rfl⟩ := mem_map.mp ht
      exact hbreakpoints b hb
    · obtain ⟨t', ht', rfl⟩ := mem_map.mp ht
      obtain ⟨hmem, hfired⟩ := mem_filter.mp ht'
      exact h.tracepoints t' hmem (by simpa using hfired)
  have hno := Bool.eq_false_iff.mp hnone
  rw [Ne, rangesOverlap_iff] at hno
  omega

theorem sites_append_breakpoint (d : State) (memory : Memory) (b : Breakpoint) :
    d.sites ++ [b.site] |>.Perm
      (State.sites { d with memory := memory, breakpoints := d.breakpoints ++ [b] }) := by
  unfold State.sites
  rw [map_append, append_assoc, append_assoc]
  exact List.Perm.append_left _ perm_append_comm

theorem sites_append_tracepoint (d : State) (memory : Memory) (t : Tracepoint)
    (ht : t.fired = false) :
    State.sites { d with memory := memory, tracepoints := d.tracepoints ++ [t] } =
      d.sites ++ [t.site] := by
  simp [State.sites, filter_append, ht]

/-- A tracepoint that fires is no longer planted. -/
theorem filter_fire {tracepoints : List Tracepoint} {t : Tracepoint}
    (h : tracepoints.find? (·.address == guestAddress) = some t) (ht : t.fired = false) :
    (tracepoints.filter (!·.fired)).Perm
      (t :: (fire guestAddress tracepoints).filter (!·.fired)) := by
  induction tracepoints with
  | nil => simp at h
  | cons first _ ih =>
    rw [find?_cons] at h
    rw [fire]
    split at h
    next hfirst =>
      cases h
      rw [if_pos (by simpa using hfirst)]
      simp [ht]
    next hfirst =>
      rw [if_neg (by simpa using hfirst)]
      by_cases hfired : first.fired = true
      · simpa [hfired] using ih h
      · simp only [filter_cons, hfired, Bool.not_false, if_true]
        exact ((ih h).cons first).trans (List.Perm.swap t first _)

variable {address : ℕ}

/-- A new site that is clear. -/
theorem Patched.plantClear (h : Patched base d.memory d.sites) {kind : ℕ}
    (hplant : Plantable d guestAddress kind) (hclear : Clear d guestAddress kind) :
    Patched base (d.memory.store guestAddress (trapBytes kind))
      (d.sites ++ [⟨guestAddress, kind, bytesFrom d.memory guestAddress kind⟩]) :=
  h.plant hplant.kind_eq hplant.mapped (hclear.cell_ne h.page_eq hplant.breakpoints)

theorem Patched.tracepointSet (h : Patched base d.memory d.sites)
    (hclear : PlantsClear d (.tracepointSet address)) :
    Patched base (siteStep d (.tracepointSet address)).memory
      (siteStep d (.tracepointSet address)).sites := by
  rw [siteStep]
  rcases tracepointSet_cases d address with hsame | ⟨hplant, htracepoints, hset⟩
  · rw [hsame]
    exact h
  · rw [hset, sites_append_tracepoint _ _ _ rfl]
    exact h.plantClear hplant (hclear hplant htracepoints)

theorem Patched.setBreakpoint (h : Patched base d.memory d.sites) {kind : ℕ}
    (hclear : PlantsClear d (.setBreakpoint address kind)) :
    Patched base (siteStep d (.setBreakpoint address kind)).memory
      (siteStep d (.setBreakpoint address kind)).sites := by
  rw [siteStep]
  rcases setBreakpoint_cases d address kind with hsame | ⟨hplants, hset⟩
  · rw [hsame]
    exact h
  · rw [hset]
    have hperm := sites_append_breakpoint d
      (d.memory.store (normalizeBreakpointAddress address kind) (trapBytes kind))
      ⟨normalizeBreakpointAddress address kind, kind,
        bytesFrom d.memory (normalizeBreakpointAddress address kind) kind, trapBytes kind⟩
    exact (h.plantClear hplants.toPlantable (hclear hplants)).perm hperm

theorem Patched.consumeTracepoint (h : Patched base d.memory d.sites) (pc : ℕ) :
    Patched base (siteStep d (.consumeTracepoint pc)).memory
      (siteStep d (.consumeTracepoint pc)).sites := by
  rw [siteStep, Debugger.consumeTracepoint]
  split
  · exact h
  next t hfind =>
    split
    · exact h
    next hfired =>
      have hfired : t.fired = false := Bool.eq_false_iff.mpr hfired
      have haddress : t.address = pc / 2 * 2 := by simpa using find?_some hfind
      have hperm : d.sites.Perm (t.site :: State.sites
          { d with tracepoints := fire (pc / 2 * 2) d.tracepoints }) := by
        refine (List.Perm.append_left _ ((filter_fire hfind hfired).map _)).trans ?_
        exact perm_middle
      have hrestore := (h.perm hperm).restore
      have hsound := (h.perm hperm).sound _ mem_cons_self
      have hmapped : MappedRange d.memory (pc / 2 * 2) t.original.length := by
        rw [← haddress, show t.original.length = t.kind from hsound.length_original]
        exact hsound.mapped.congr h.page_eq
      rw [writePhysicalMemory_of_none hmapped, ← haddress]
      rw [← haddress] at hrestore
      exact hrestore

theorem Patched.deleteBreakpoint (h : Patched base d.memory d.sites) (address kind : ℕ) :
    Patched base (siteStep d (.deleteBreakpoint address kind)).memory
      (siteStep d (.deleteBreakpoint address kind)).sites := by
  have hmapped : ∀ b ∈ d.breakpoints, MappedRange d.memory b.address b.original.length := by
    intro b hb
    have hsound := h.sound b.site (mem_append_left _ (mem_map_of_mem hb))
    rw [show b.original.length = b.kind from hsound.length_original]
    exact hsound.mapped.congr h.page_eq
  rw [siteStep]
  rcases deleteBreakpoint_cases hmapped address with hsame | ⟨b, rest, hperm, hdelete⟩
  · rw [hsame]
    exact h
  · rw [hdelete]
    exact (h.perm (List.Perm.append_right _ (hperm.map _))).restore

/-- **Every event keeps the memory patched**, if what it plants is clear. -/
theorem Patched.step (h : Patched base d.memory d.sites) {event : SiteEvent}
    (hclear : PlantsClear d event) :
    Patched base (siteStep d event).memory (siteStep d event).sites := by
  cases event with
  | tracepointSet => exact h.tracepointSet hclear
  | consumeTracepoint pc => exact h.consumeTracepoint pc
  | setBreakpoint => exact h.setBreakpoint hclear
  | deleteBreakpoint address kind => exact h.deleteBreakpoint address kind

end

/-! ## Runs -/

/-- The planted sites do not overlap, every record keeps the bytes of the memory without sites, and
    restoring the records in any order yields that memory. -/
structure Intact (base : Memory) (d : State) : Prop where
  apart : d.sites.Pairwise fun s t => rangesOverlap s.address s.kind t.address t.kind = false
  original : ∀ s ∈ d.sites, s.original = bytesFrom base s.address s.kind
  restore : ∀ order : List Site, order.Perm d.sites →
    ∀ address, (restoreSites d.memory order).byte address = base.byte address

/-- **Sites stay intact** in every run in which each site that is planted overlaps no unfired
    tracepoint and shares no byte of the host with another address of a planted site. -/
theorem sites_intact (g : Memory) (events : List SiteEvent)
    (h : Execution.Always PlantsClear siteStep { memory := g } events) :
    Intact g (run siteStep { memory := g } events) := by
  have hstart : Patched g (State.memory { memory := g }) (State.sites { memory := g }) :=
    ⟨rfl, by simp [State.sites], Overlaid.of_nil _⟩
  have hpatched : Patched g (run siteStep { memory := g } events).memory
      (run siteStep { memory := g } events).sites :=
    @run_invariant_of_always State SiteEvent siteStep
      (fun d => Patched g d.memory d.sites) PlantsClear
        (fun _ _ hd hclear => hd.step hclear) _ hstart
      _ h
  exact ⟨hpatched.apart, fun s hs => hpatched.original_eq hs,
    fun order hperm address => (hpatched.perm hperm.symm).restoreSites address⟩

theorem sites_intact_onePage :
    Intact onePage (run siteStep { memory := onePage }
      [.tracepointSet 0x1000, .setBreakpoint 0x1004 4, .consumeTracepoint 0x1000,
        .tracepointSet 0x1003]) :=
  sites_intact onePage _ ⟨fun _ _ => by decide +kernel, fun _ => by decide +kernel, trivial,
    fun _ _ => by decide +kernel, trivial⟩

/-- A Thumb tracepoint in the second half of an ARM tracepoint: its record keeps a part of the trap.
    -/
theorem tracepoints_overlap :
    ¬ Intact onePage (run siteStep { memory := onePage }
      [.tracepointSet 0x1000, .tracepointSet 0x1003]) := by
  intro h
  have horiginal := h.original ⟨0x1002, 2, [0x20, 0xE1]⟩ (by decide +kernel)
  exact absurd horiginal (by decide +kernel)

end LiveExec32.Debugger
