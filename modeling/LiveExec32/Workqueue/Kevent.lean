import LiveExec32.Lib.Records

/-! # Direct-kevent registrations

The guest's `libdispatch` registers event sources with the default workqueue kqueue. A registration
is a `GuestWorkqueueKevent` in `guestWorkqueueKevents`; a change list adds, deletes, enables,
disables or triggers registrations one change after the other. Changes with filter `EVFILT_TIMER` go
to the timer queue instead.

Every change has a number. It is a ghost: a registration remembers which change added it, with which
flags, and which change enabled it last. -/

namespace LiveExec32.Workqueue

/-- The source's `uint16_t`, `u32` and `uint64_t`. -/
abbrev U16 := BitVec 16
abbrev U32 := BitVec 32
abbrev U64 := BitVec 64

/-- The test `(word & bits) != 0`. -/
def hasAny {w : ℕ} (word bits : BitVec w) : Bool := word &&& bits != 0

theorem hasAny_or {w : ℕ} (a b bits : BitVec w) :
    hasAny (a ||| b) bits = (hasAny a bits || hasAny b bits) := by
  have hdistrib : (a ||| b) &&& bits = (a &&& bits) ||| (b &&& bits) := by
    ext i
    simp [Bool.and_or_distrib_right]
  unfold hasAny
  rw [hdistrib, Bool.eq_iff_iff]
  simp only [bne_iff_ne, ne_eq, Bool.or_eq_true, BitVec.ofNat_eq_ofNat, BitVec.or_eq_zero_iff]
  tauto

/-! ## Constants of `sys/event.h` and `mach_private.h` -/

def evAdd : U16 := 0x0001
def evDelete : U16 := 0x0002
def evEnable : U16 := 0x0004
def evDisable : U16 := 0x0008
def evOneShot : U16 := 0x0010
def evReceipt : U16 := 0x0040
def evDispatch : U16 := 0x0080
def evUdataSpecific : U16 := 0x0100
def evError : U16 := 0x4000

def evfiltTimer : ℤ := -7
def evfiltMachport : ℤ := -8
def evfiltUser : ℤ := -10

def noteTrigger : U32 := 0x01000000
def noteAbsolute : U32 := 0x00000008

def pthreadPriorityOvercommitFlag : U32 := 0x80000000
def pthreadPriorityEventManagerFlag : U32 := 0x02000000

/-- The error numbers that the modelled functions return. -/
inductive Errno where
  | ENOENT | EIO | ENOMEM | EFAULT | EINVAL | ENOSPC | ENOTSUP | EOVERFLOW | ECANCELED
  /-- Any other error that the host reports. -/
  | host (code : ℤ)
deriving DecidableEq, Repr

/-! ## Registrations -/

/-- The guest's `struct kevent_qos_s`. -/
structure KeventQos where
  ident : U64 := 0
  filter : ℤ := 0
  flags : U16 := 0
  qos : U32 := 0
  udata : U64 := 0
  fflags : U32 := 0
  xflags : U32 := 0
  data : ℤ := 0
  ext0 : U64 := 0
  ext1 : U64 := 0
  ext2 : U64 := 0
  ext3 : U64 := 0
deriving DecidableEq, Repr

/-- Delivered to the event manager rather than to an ordinary worker. -/
def KeventQos.eventManager (event : KeventQos) : Bool :=
  hasAny event.qos pthreadPriorityEventManagerFlag

structure GuestWorkqueueKevent where
  event : KeventQos
  enabled : Bool
  triggered : Bool
  /-- Ghost: the change that added the registration last, and its flags. -/
  addedBy : ℕ
  addFlags : U16
  /-- Ghost: the change that enabled the registration last. -/
  enabledBy : ℕ
deriving DecidableEq, Repr

def guestKeventMatches (registered : GuestWorkqueueKevent) (change : KeventQos) : Bool :=
  if registered.event.ident != change.ident || registered.event.filter != change.filter then false
  else if hasAny (registered.event.flags ||| change.flags) evUdataSpecific then
    registered.event.udata == change.udata
  else true

/-- A change that only fires a user event. -/
def KeventQos.isTrigger (change : KeventQos) : Bool :=
  change.filter == evfiltUser && hasAny change.fflags noteTrigger && !hasAny change.flags evAdd

/-- The registration that an `EV_ADD` makes out of the one it finds, if any. -/
def addedKevent (number : ℕ) (change : KeventQos) (old : Option GuestWorkqueueKevent) :
    GuestWorkqueueKevent :=
  let enabled := !hasAny change.flags evDisable
  let triggered := change.filter == evfiltUser && hasAny change.fflags noteTrigger
  { event := change
    enabled := enabled
    triggered := (old.map (·.triggered)).getD false || triggered
    addedBy := number
    addFlags := change.flags
    enabledBy := if enabled then number else (old.map (·.enabledBy)).getD number }

/-- A change of an existing registration without `EV_ADD`: the event is replaced as a whole. -/
def modifiedKevent (number : ℕ) (change : KeventQos) (old : GuestWorkqueueKevent) :
    GuestWorkqueueKevent :=
  if hasAny change.flags evDisable then { old with event := change, enabled := false }
  else if hasAny change.flags evEnable then
    { old with event := change, enabled := true, enabledBy := number }
  else { old with event := change }

/-- One round of the loop in `ApplyGuestKeventChanges`, for a change that is not a timer's. -/
def applyGuestKeventChange (number : ℕ) (change : KeventQos)
    (kevents : List GuestWorkqueueKevent) : List GuestWorkqueueKevent :=
  let found := fun registered => guestKeventMatches registered change
  if change.isTrigger then Records.modifyFirst found (fun r => { r with triggered := true }) kevents
  else if hasAny change.flags evDelete then kevents.eraseP found
  else if hasAny change.flags evAdd then
    Records.recordFirst found (fun r => addedKevent number change (some r))
      (addedKevent number change none) kevents
  else Records.modifyFirst found (modifiedKevent number change) kevents

end LiveExec32.Workqueue
