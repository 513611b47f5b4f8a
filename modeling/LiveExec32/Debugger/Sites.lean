import LiveExec32.Guest.Memory

/-! # Breakpoints and tracepoints in guest memory

A software breakpoint is a trap instruction in guest code. `debuggerSoftwareBreakpoints` records
what stood in its place, and the debugger's reads and writes go through these records. A tracepoint
is a trap of the same kind, with a registry of its own; it is taken out when a thread runs into it,
and its record stays. -/

namespace LiveExec32.Debugger

open Guest

/-- `DebuggerSoftwareBreakpoint`; the arrays hold `kind` bytes that count. -/
structure Breakpoint where
  address : ℕ
  kind : ℕ
  original : List UInt8
  trap : List UInt8
  deriving DecidableEq, Repr

/-- `GuestSoftwareTracepoint`. -/
structure Tracepoint where
  address : ℕ
  kind : ℕ
  original : List UInt8
  fired : Bool
  deriving DecidableEq, Repr

/-- Guest memory, `debuggerSoftwareBreakpoints` and `guestSoftwareTracepoints`. -/
structure State where
  memory : Memory
  breakpoints : List Breakpoint := []
  tracepoints : List Tracepoint := []

/-! ## Ranges -/

/-- `DebuggerRangesOverlap`; the ranges end below `2 ^ 33`. -/
def rangesOverlap (firstAddress firstSize secondAddress secondSize : ℕ) : Bool :=
  firstSize != 0 && secondSize != 0 && firstAddress < secondAddress + secondSize &&
    secondAddress < firstAddress + firstSize

/-- `DebuggerMemoryRangeIsMapped`. -/
def rangeIsMapped (g : Memory) (address size : ℕ) : Bool :=
  (List.range (pageCount address (address + size))).all fun i =>
    (g.page (address / pageSize + i)).isSome

/-- `memcpy` of what a buffer for the range at `address` has in common with one at `patchAddress`.
    -/
def patchBytes (address : ℕ) (data : List UInt8) (patchAddress : ℕ) (patch : List UInt8) :
    List UInt8 :=
  if rangesOverlap address data.length patchAddress patch.length then
    let overlapStart := if address > patchAddress then address else patchAddress
    let overlapEnd :=
      if address + data.length < patchAddress + patch.length then address + data.length
      else patchAddress + patch.length
    data.take (overlapStart - address) ++
      (patch.drop (overlapStart - patchAddress)).take (overlapEnd - overlapStart) ++
      data.drop (overlapEnd - address)
  else data

/-! ## Physical writes -/

/-- What `DebuggerWriteHostMemory` does for the part of a write in a page: `none` if it succeeds, or
    the number of bytes that are copied before it fails. -/
abbrev HostWrites := ℕ → Option ℕ

/-- The loop of `DebuggerWritePhysicalMemory`. -/
def writePhysicalPages (host : HostWrites) (address finish : ℕ) :
    (rounds page : ℕ) → List UInt8 → Memory → Memory × Bool
  | 0, _, _, g => (g, true)
  | rounds + 1, page, source, g =>
    match g.page page with
    | none => (g, false)
    | some hostPage =>
      let length := chunkStop finish page - chunkStart address page
      match host page with
      | some copied =>
        (g.copyTo hostPage (chunkStart address page) ((source.take length).take copied), false)
      | none =>
        writePhysicalPages host address finish rounds (page + 1) (source.drop length)
          (g.copyTo hostPage (chunkStart address page) (source.take length))

/-- `DebuggerWritePhysicalMemory`. -/
def writePhysicalMemory (host : HostWrites) (g : Memory) (address : ℕ) (source : List UInt8) :
    Memory × Bool :=
  writePhysicalPages host address (address + source.length)
    (pageCount address (address + source.length)) (address / pageSize) source g

/-! ## Memory through the breakpoints -/

/-- `Dynarmic_debugger_mem_read` into a buffer that is there. -/
def memRead (d : State) (address size : ℕ) : Option (List UInt8) :=
  if !validRange address size then none
  else
    match Guest.memRead d.memory address size with
    | (_, false) => none
    | (bytes, true) =>
      some (d.breakpoints.foldl
        (fun dest breakpoint => patchBytes address dest breakpoint.address breakpoint.original)
        bytes)

/-- What is written physically: where there are breakpoints, their traps. -/
def physicalBytes (breakpoints : List Breakpoint) (address : ℕ) (source : List UInt8) :
    List UInt8 :=
  breakpoints.foldl
    (fun physical breakpoint => patchBytes address physical breakpoint.address breakpoint.trap)
    source

/-- The record of a breakpoint after a write. -/
def Breakpoint.refresh (address : ℕ) (source : List UInt8) (breakpoint : Breakpoint) : Breakpoint :=
  { breakpoint with
    original := patchBytes breakpoint.address breakpoint.original address source }

/-- `Dynarmic_debugger_mem_write`. -/
def memWrite (host : HostWrites) (d : State) (address : ℕ) (source : List UInt8) : State × Bool :=
  if !validRange address source.length || !rangeIsMapped d.memory address source.length then
    (d, false)
  else if source.length = 0 then (d, true)
  else
    match writePhysicalMemory host d.memory address
        (physicalBytes d.breakpoints address source) with
    | (memory, false) => ({ d with memory := memory }, false)
    | (memory, true) =>
      ({ d with
          memory := memory
          breakpoints := d.breakpoints.map (·.refresh address source) }, true)

/-! ## Breakpoints -/

/-- `UINT32_MAX`. -/
abbrev uint32Max : ℕ := 2 ^ 32 - 1

/-- `NormalizeDebuggerBreakpointAddress`. -/
def normalizeBreakpointAddress (address kind : ℕ) : ℕ :=
  if address > uint32Max then uint32Max else if kind = 2 then address / 2 * 2 else address

/-- The trap instruction of a kind: `BKPT` for Thumb or for ARM. -/
def trapBytes (kind : ℕ) : List UInt8 :=
  (Bytes.encodeWord (if kind = 2 then 0x0000BE00 else 0xE1200070)).take kind

/-- The loop over the breakpoints: whether the request is done, or cannot be done. -/
def findBreakpoint (guestAddress kind : ℕ) : List Breakpoint → Option Bool
  | [] => none
  | breakpoint :: rest =>
    if breakpoint.address = guestAddress ∧ breakpoint.kind = kind then some true
    else if rangesOverlap guestAddress kind breakpoint.address breakpoint.kind then some false
    else findBreakpoint guestAddress kind rest

/-- What stands at a site, and its trap in its place; `none` if one of the two fails. -/
def plantTrap (host : HostWrites) (g : Memory) (guestAddress kind : ℕ) :
    Memory × Option (List UInt8) :=
  match Guest.memRead g guestAddress kind with
  | (_, false) => (g, none)
  | (original, true) =>
    match writePhysicalMemory host g guestAddress (trapBytes kind) with
    | (memory, false) => (memory, none)
    | (memory, true) => (memory, some original)

/-- `Dynarmic_debugger_set_breakpoint`. -/
def setBreakpoint (host : HostWrites) (d : State) (address kind : ℕ) : State × Bool :=
  if kind ≠ 2 ∧ kind ≠ 4 then (d, false)
  else
    let guestAddress := normalizeBreakpointAddress address kind
    if guestAddress = uint32Max ∨ (kind = 4 ∧ guestAddress % 4 ≠ 0) then (d, false)
    else if d.tracepoints.any fun t => rangesOverlap guestAddress kind t.address t.kind then
      (d, false)
    else
      match findBreakpoint guestAddress kind d.breakpoints with
      | some done => (d, done)
      | none =>
        match plantTrap host d.memory guestAddress kind with
        | (memory, none) => ({ d with memory := memory }, false)
        | (memory, some original) =>
          ({ d with
              memory := memory
              breakpoints :=
                d.breakpoints ++ [⟨guestAddress, kind, original, trapBytes kind⟩] }, true)

/-- `Dynarmic_debugger_delete_breakpoint`; the kind that is passed does not count. -/
def deleteBreakpoint (host : HostWrites) (d : State) (address : ℕ) : State × Bool :=
  if address > uint32Max then (d, false)
  else
    let guestAddress := address / 2 * 2
    match d.breakpoints.find? (·.address == guestAddress) with
    | none => (d, true)
    | some breakpoint =>
      match writePhysicalMemory host d.memory guestAddress breakpoint.original with
      | (memory, false) => ({ d with memory := memory }, false)
      | (memory, true) =>
        ({ d with
            memory := memory
            breakpoints := d.breakpoints.eraseP (·.address == guestAddress) }, true)

/-- The loop of `Dynarmic_debugger_remove_all_breakpoints`: the memory, the records that are kept,
    and whether all were restored. -/
def restoreBreakpoints (host : Breakpoint → HostWrites) :
    Memory → List Breakpoint → Memory × List Breakpoint × Bool
  | g, [] => (g, [], true)
  | g, breakpoint :: rest =>
    match writePhysicalMemory (host breakpoint) g breakpoint.address breakpoint.original with
    | (g, false) =>
      let (g, kept, _) := restoreBreakpoints host g rest
      (g, breakpoint :: kept, false)
    | (g, true) => restoreBreakpoints host g rest

/-- `Dynarmic_debugger_remove_all_breakpoints`. -/
def removeAllBreakpoints (host : Breakpoint → HostWrites) (d : State) : State × Bool :=
  let (memory, kept, restoredAll) := restoreBreakpoints host d.memory d.breakpoints
  ({ d with memory := memory, breakpoints := kept }, restoredAll && kept.isEmpty)

/-! ## Tracepoints -/

/-- The size of the instruction at an address; its lowest bit says Thumb. -/
def tracepointKind (address : ℕ) : ℕ := if address % 2 = 1 then 2 else 4

/-- `Dynarmic_guest_tracepoint_set`. -/
def tracepointSet (host : HostWrites) (d : State) (address : ℕ) : State × Bool :=
  if address > uint32Max then (d, false)
  else
    let guestAddress := address / 2 * 2
    let kind := tracepointKind address
    match d.tracepoints.find? (·.address == guestAddress) with
    | some tracepoint => (d, tracepoint.kind == kind)
    | none =>
      if d.breakpoints.any fun b => rangesOverlap guestAddress kind b.address b.kind then (d, false)
      else
        match plantTrap host d.memory guestAddress kind with
        | (memory, none) => ({ d with memory := memory }, false)
        | (memory, some original) =>
          ({ d with
              memory := memory
              tracepoints := d.tracepoints ++ [⟨guestAddress, kind, original, false⟩] }, true)

/-- The first tracepoint at an address has fired. -/
def fire (guestAddress : ℕ) : List Tracepoint → List Tracepoint
  | [] => []
  | tracepoint :: rest =>
    if tracepoint.address = guestAddress then { tracepoint with fired := true } :: rest
    else tracepoint :: fire guestAddress rest

/-- `ConsumeGuestSoftwareTracepoint`. -/
def consumeTracepoint (host : HostWrites) (d : State) (pc : ℕ) : State × Bool :=
  let guestAddress := pc / 2 * 2
  match d.tracepoints.find? (·.address == guestAddress) with
  | none => (d, false)
  | some tracepoint =>
    if tracepoint.fired then (d, true)
    else
      match writePhysicalMemory host d.memory guestAddress tracepoint.original with
      | (memory, false) => ({ d with memory := memory }, false)
      | (memory, true) =>
        ({ d with memory := memory, tracepoints := fire guestAddress d.tracepoints }, true)

end LiveExec32.Debugger
