import LiveExec32.Guest.Memory
import Mathlib.Data.Nat.Bitwise

/-! # The staging memory of system calls

`guest_write`, `guest_writev`, `guest_getentropy`, `guest_getattrlist`, `guest_getrlimit`,
`guest_proc_info` and `guest_sigaction` pass a buffer between the guest and the host kernel through
a host object of their own: a `malloc` block, a local variable, or the static table of actions. Each
of them ignores what the copy from or to guest memory returns, and copies out whatever the host call
left in the buffer.

A call is a function of what its staging memory held before. `Isolated` says that it touches nothing
but its staging objects and that nothing of the previous contents gets out. The outcome of a host
call is a parameter: whether `malloc` has the memory, which bytes the kernel stored, how many it
took. -/

namespace LiveExec32.Guest

open List

/-- A host access to a staging object: the object's size, or `none` where `malloc` returned null,
    and the bytes touched, relative to where the object starts. -/
structure Touch where
  object : Option ℕ
  start : ℤ
  length : ℕ

/-- The access stays inside its object. -/
def Touch.Inside (touch : Touch) : Prop :=
  touch.length = 0 ∨
    ∃ size, touch.object = some size ∧ 0 ≤ touch.start ∧ touch.start + touch.length ≤ size

/-- What a call does: its accesses to staging objects, the bytes the descriptor gets, the bytes
    written to guest memory in order, and guest memory afterwards. -/
structure Effect where
  touches : List Touch
  descriptor : List UInt8
  copiedOut : List UInt8
  memory : Memory

/-- All accesses are inside, and two runs that start with different staging memory show the same. -/
def Isolated {β : Type} (call : β → Effect) : Prop :=
  (∀ before, ∀ touch ∈ (call before).touches, touch.Inside) ∧
    ∀ before before', (call before).descriptor = (call before').descriptor ∧
      (call before).copiedOut = (call before').copiedOut ∧
      (call before).memory = (call before').memory

/-! ## Pieces the calls share -/

/-- The size of the block `malloc` returns; no request of half the address space is granted. -/
def malloc (available : Bool) (size : ℕ) : Option ℕ :=
  if available && size < 2 ^ 63 then some size else none

/-- The kernel is handed the first `size` bytes of a staging object. It faults on a null pointer
    instead of touching anything. -/
def kernelTouch (object : Option ℕ) (size : ℕ) : Touch :=
  ⟨object, 0, if object.isSome then size else 0⟩

/-- A staging object after `Dynarmic_mem_1read` into it. -/
def copyIn (g : Memory) (address size : ℕ) (object : Option ℕ) (before : Bytes) : Bytes :=
  match object with
  | none => before
  | some _ => before.write 0 (memRead g address size).1

def copyInTouch (g : Memory) (address size : ℕ) (object : Option ℕ) : Touch :=
  ⟨object, 0, if object.isSome then g.reach address size else 0⟩

/-- A buffer of `size` bytes after the kernel stored the bytes `written` in it. -/
def kernelFill (size : ℕ) (written : ℕ → Option UInt8) (before : Bytes) : Bytes :=
  fun i => if i < size then (written i).getD (before i) else before i

/-- `Dynarmic_mem_1write` of the first `size` bytes of a staging object, after the accesses
    `touches`. -/
def copyOut (g : Memory) (address size : ℕ) (object : Option ℕ) (touches : List Touch)
    (content : Bytes) : Effect :=
  match object with
  | none => ⟨touches, [], [], g⟩
  | some _ =>
    ⟨touches ++ [⟨object, 0, g.reach address size⟩], [],
      (content.slice 0 size).take (g.reach address size),
      (memWrite g address (content.slice 0 size)).1⟩

/-- A C `int` converted to `size_t`. -/
def sizeOfInt (value : Int32) : ℕ := (value.toInt % 2 ^ 64).toNat

/-! ## The calls -/

/-- How a host `write` ends: whether the block was there, and how many bytes the descriptor takes.
    -/
structure WriteOutcome where
  available : Bool
  accepted : ℕ

/-- `guest_write`. -/
def guestWrite (g : Memory) (guestBuf nbyte : ℕ) (outcome : WriteOutcome)
    (before : Bytes) : Effect :=
  let hostBuf := malloc outcome.available nbyte
  let staged := copyIn g guestBuf nbyte hostBuf before
  { touches := [copyInTouch g guestBuf nbyte hostBuf, kernelTouch hostBuf nbyte]
    descriptor := if hostBuf.isSome then staged.slice 0 (min outcome.accepted nbyte) else []
    copiedOut := []
    memory := g }

/-- What the staging memory of `guest_writev` held: the block of the vector, and the block of each
    `guest_write`. -/
structure WritevBefore where
  vector : Bytes
  buffer : ℕ → Bytes

/-- `guest_writev`. -/
def guestWritev (g : Memory) (guestIov : ℕ) (iovcnt : Int32) (available : Bool)
    (outcome : ℕ → WriteOutcome) (before : WritevBefore) : Effect :=
  let iovsize := (8 * sizeOfInt iovcnt) % 2 ^ 64
  let hostIov := malloc available iovsize
  let vector := copyIn g guestIov iovsize hostIov before.vector
  let write (i : ℕ) : Effect :=
    guestWrite g (vector.word (8 * i)) (vector.word (8 * i + 4)) (outcome i) (before.buffer i)
  { touches := copyInTouch g guestIov iovsize hostIov ::
      (range iovcnt.toInt.toNat).flatMap fun i : ℕ =>
        ⟨hostIov, 8 * (i : ℤ), 8⟩ :: (write i).touches
    descriptor := (range iovcnt.toInt.toNat).flatMap fun i => (write i).descriptor
    copiedOut := []
    memory := g }

/-- `guest_getentropy`. -/
def guestGetentropy (g : Memory) (guestBuffer length : ℕ) (available : Bool)
    (written : ℕ → Option UInt8) (before : Bytes) : Effect :=
  let hostBuffer := malloc available length
  copyOut g guestBuffer length hostBuffer [kernelTouch hostBuffer length]
    (kernelFill length written before)

/-- `PATH_MAX`. -/
abbrev pathMax : ℕ := 1024

/-- The bytes that `LC32GuestPathToHost` stores for a path, its terminator included. -/
structure HostPath where
  length : ℕ
  fits : length ≤ pathMax

/-- The size of a `struct attrlist`. -/
abbrev attrListSize : ℕ := 24

/-- What the staging memory of `guest_getattrlist` held: the local `host_attrList`, and the block of
    the attributes. -/
structure GetattrlistBefore where
  attrList : Bytes
  attrBuf : Bytes

/-- `guest_getattrlist`; `path` is the translated path unless the translation failed. What the
    kernel stores depends on the attribute list it is handed. -/
def guestGetattrlist (g : Memory) (path : Option HostPath) (guestAttrList guestAttrBuf : ℕ)
    (attrBufSize : ℕ) (available : Bool) (written : List UInt8 → ℕ → Option UInt8)
    (before : GetattrlistBefore) : Effect :=
  match path with
  | none => ⟨[], [], [], g⟩
  | some hostPath =>
    let hostAttrList := copyIn g guestAttrList attrListSize (some attrListSize) before.attrList
    let hostAttrBuf := malloc available attrBufSize
    copyOut g guestAttrBuf attrBufSize hostAttrBuf
      [⟨some pathMax, 0, hostPath.length⟩,
        copyInTouch g guestAttrList attrListSize (some attrListSize),
        kernelTouch (some attrListSize) attrListSize, kernelTouch hostAttrBuf attrBufSize]
      (kernelFill attrBufSize (written (hostAttrList.slice 0 attrListSize)) before.attrBuf)

/-- `guest_getrlimit`. -/
def guestGetrlimit (g : Memory) (guestRlp : ℕ) (written : ℕ → Option UInt8) (before : Bytes) :
    Effect :=
  copyOut g guestRlp 16 (some 16) [kernelTouch (some 16) 16] (kernelFill 16 written before)

/-- Where `pbsi_flags` lies in a `proc_bsdshortinfo`. -/
abbrev flagsOffset : ℕ := 32

/-- Set `PROC_FLAG_TRACED` and clear `PROC_FLAG_LP64` in `pbsi_flags`. -/
def patchFlags (content : Bytes) : Bytes :=
  content.write flagsOffset
    (Bytes.encodeWord ((content.word flagsOffset ||| 2) &&& (2 ^ 32 - 1 - 0x10)))

/-- `callnum == 2 && flavor == PROC_PIDT_SHORTBSDINFO`. -/
def patchesFlags (callnum flavor : Int32) : Bool := callnum == 2 && flavor == 13

/-- `guest_proc_info`. -/
def guestProcInfo (g : Memory) (callnum flavor : Int32) (guestBuffer : ℕ) (buffersize : Int32)
    (available : Bool) (written : ℕ → Option UInt8) (before : Bytes) : Effect :=
  let size := sizeOfInt buffersize
  let hostBuffer := malloc available size
  let content := kernelFill size written before
  if patchesFlags callnum flavor then
    copyOut g guestBuffer size hostBuffer
      [kernelTouch hostBuffer size, ⟨hostBuffer, flagsOffset, 4⟩] (patchFlags content)
  else
    copyOut g guestBuffer size hostBuffer [kernelTouch hostBuffer size] content

/-- The size of a `sigaction_32`, and that of `host_actions[SIGUSR2 + 1]`. -/
abbrev actionSize : ℕ := 12

abbrev actionsSize : ℕ := 32 * actionSize

/-- The byte at an offset from the start of `host_actions`; outside the table it is whatever the
    host keeps there. -/
def actionByte (table : Bytes) (surroundings : ℤ → UInt8) (offset : ℤ) : UInt8 :=
  if 0 ≤ offset ∧ offset < actionsSize then table offset.toNat else surroundings offset

/-- `guest_sigaction`; the debug prints are compiled out. -/
def guestSigaction (g : Memory) (table : Bytes) (sig : Int32) (guestAct guestOact : ℕ)
    (surroundings : ℤ → UInt8) : Effect :=
  let record := (range actionSize).map fun k : ℕ =>
    actionByte table surroundings (actionSize * sig.toInt + (k : ℤ))
  let touch (address : ℕ) : List Touch :=
    if address ≠ 0 then
      [⟨some actionsSize, actionSize * sig.toInt, g.reach address actionSize⟩]
    else []
  { touches := touch guestOact ++ touch guestAct
    descriptor := []
    copiedOut := if guestOact ≠ 0 then record.take (g.reach guestOact actionSize) else []
    memory := if guestOact ≠ 0 then (memWrite g guestOact record).1 else g }

/-! ## Staging objects -/

theorem malloc_eq_some {available : Bool} {size granted : ℕ}
    (h : malloc available size = some granted) : granted = size := by
  unfold malloc at h
  split at h
  · exact (Option.some.inj h).symm
  · simp at h

/-- The kernel touches no more than it was handed. -/
theorem inside_kernelTouch (available : Bool) (size : ℕ) :
    (kernelTouch (malloc available size) size).Inside := by
  cases h : malloc available size with
  | none => exact .inl rfl
  | some granted =>
    have := malloc_eq_some h
    exact .inr ⟨granted, rfl, Int.le_refl 0, by simp [kernelTouch, this]⟩

theorem inside_copyInTouch (g : Memory) (address size : ℕ) (available : Bool) :
    (copyInTouch g address size (malloc available size)).Inside := by
  cases h : malloc available size with
  | none => exact .inl rfl
  | some granted =>
    have hgranted := malloc_eq_some h
    have hreach := g.reach_le address size
    refine .inr ⟨granted, rfl, Int.le_refl 0, ?_⟩
    simp only [copyInTouch, Option.isSome_some, if_true]
    omega

/-- The byte at `i` after a copy into the object. -/
theorem copyIn_some (g : Memory) (address size granted : ℕ) (before : Bytes) (i : ℕ) :
    copyIn g address size (some granted) before i
      = if i < g.reach address size then g.byte (address + i) else before i := by
  simp only [copyIn, memRead_eq, Bytes.write, length_bytesFrom, Nat.zero_le, true_and, Nat.zero_add,
    Nat.sub_zero]
  split
  next hi => simp [bytesFrom, hi]
  next => rfl

/-- What a copy out shows is what it gets through of the object. -/
theorem isolated_copyOut_iff {β : Type} [Nonempty β] {g : Memory} {address size : ℕ}
    {object : Option ℕ} (hobject : ∀ granted, object = some granted → granted = size)
    (touches : List Touch) (content : β → Bytes) :
    Isolated (fun before => copyOut g address size object touches (content before)) ↔
      (∀ touch ∈ touches, touch.Inside) ∧
        (object = none ∨ ∀ before before', ∀ i < g.reach address size,
          content before i = content before' i) := by
  cases object with
  | none => simp [Isolated, copyOut]
  | some granted =>
    have hreach := g.reach_le address size
    have hgranted := hobject granted rfl
    have htouch : (⟨some granted, 0, g.reach address size⟩ : Touch).Inside :=
      .inr ⟨granted, rfl, Int.le_refl 0, by simp only; omega⟩
    have hshown : ∀ before, ((content before).slice 0 size).take (g.reach address size)
        = (range (g.reach address size)).map (content before) := by
      intro before
      rw [Bytes.slice, ← map_take, take_range, Nat.min_eq_left hreach]
      simp
    have hsame : ∀ before before', ((content before).slice 0 size).take (g.reach address size)
        = ((content before').slice 0 size).take (g.reach address size) ↔
          ∀ i < g.reach address size, content before i = content before' i := by
      intro before before'
      simp only [hshown, map_inj_left, mem_range]
    simp only [Isolated, copyOut, forall_mem_append, forall_mem_singleton, htouch,
      and_true, true_and, forall_const, memWrite_eq, Bytes.length_slice, hsame, reduceCtorEq,
      false_or]
    refine and_congr_right fun _ => forall₂_congr fun before before' => ?_
    refine ⟨fun h => h.1, fun h => ⟨h, ?_⟩⟩
    rw [(hsame before before').mpr h]

/-- A buffer that the kernel filled holds nothing of before just where the kernel stored. -/
theorem kernelFill_determined_iff {size reach : ℕ} (hreach : reach ≤ size)
    (written : ℕ → Option UInt8) :
    (∀ before before', ∀ i < reach,
      kernelFill size written before i = kernelFill size written before' i) ↔
      ∀ i < reach, (written i).isSome := by
  constructor
  · intro hsame i hi
    have hbyte := hsame (fun _ => 0) (fun _ => 1) i hi
    simp only [kernelFill, if_pos (Nat.lt_of_lt_of_le hi hreach)] at hbyte
    cases hwritten : written i with
    | none =>
      rw [hwritten] at hbyte
      cases hbyte
    | some => rfl
  · intro hwritten before before' i hi
    obtain ⟨value, hvalue⟩ := Option.isSome_iff_exists.mp (hwritten i hi)
    simp [kernelFill, hvalue, Nat.lt_of_lt_of_le hi hreach]

/-- The records that may be handed to the kernel: what guest memory has mapped of the guest's, with
    anything after it. -/
def Handed (g : Memory) (address size : ℕ) (handed : List UInt8) : Prop :=
  handed.length = size ∧
    handed.take (g.reach address size) = bytesFrom g address (g.reach address size)

theorem handed_iff (g : Memory) (address size : ℕ) (handed : List UInt8) :
    Handed g address size handed ↔
      ∃ before, (copyIn g address size (some size) before).slice 0 size = handed := by
  have hreach := g.reach_le address size
  constructor
  · rintro ⟨hlength, htake⟩
    refine ⟨fun i => handed.getD i 0, ext_getElem (by simp [hlength]) fun i hi hi' => ?_⟩
    simp only [Bytes.slice, getElem_map, getElem_range, Nat.zero_add, copyIn_some]
    split
    · next hmapped =>
      have hbyte : handed[i]? = some (g.byte (address + i)) := by
        rw [← getElem?_take_of_lt hmapped, htake, getElem?_bytesFrom hmapped]
      exact (getElem_eq_iff hi').2 hbyte |>.symm
    · simp [hi']
  · rintro ⟨before, rfl⟩
    refine ⟨by simp, ?_⟩
    rw [Bytes.slice, ← map_take, take_range, Nat.min_eq_left hreach]
    refine map_congr_left fun i hi => ?_
    rw [Nat.zero_add, copyIn_some, if_pos (mem_range.1 hi)]

end LiveExec32.Guest
