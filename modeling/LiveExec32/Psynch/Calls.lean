import LiveExec32.Psynch.Rwlock

/-! # The psynch and ulock calls

The functions of this file are what a call does in one critical section of `nativeGuestWaitMutex`,
as functions on the tables. How a call is cut into such sections, and what happens between them, is
the matter of `Psynch/System.lean`. Only the native mode is modelled, in which every guest thread
has its own host thread. -/

namespace LiveExec32.Psynch

/-! ## Return values -/

def EINTR : U32 := 4
def EINVAL : U32 := 22
def ESRCH : U32 := 3
def ENOENT : U32 := 2
def EFAULT : U32 := 14
def EDOM : U32 := 33
def EALREADY : U32 := 37
def ETIMEDOUT : U32 := 60

/-- What `return_with_carry_direct` hands to the guest: a word and the carry flag, which marks an
    error. -/
structure SyscallReturn where
  value : U32
  carry : Bool
deriving DecidableEq, Repr

def SyscallReturn.success (value : U32) : SyscallReturn := ⟨value, false⟩
def SyscallReturn.failure (error : U32) : SyscallReturn := ⟨error, true⟩

/-! ## The calls and their arguments -/

/-- A system call of a native guest thread, with the arguments of its function. -/
inductive Call where
  | mutexWait (mutex mgen ugen flags : U32)
  | mutexDrop (mutex mgen ugen flags : U32)
  | conditionWait (condition conditionSequence conditionSSequence mutex mutexMgen mutexUgen
      flags : U32) (timeoutSeconds : ℤ) (timeoutNanoseconds : U32)
  | conditionSignal (condition conditionSequence conditionSSequence conditionUOrDifference
      targetThread : U32) (broadcast : Bool)
  | rwWait (rwlock lgen rwSequence : U32) (write : Bool)
  | rwUnlock (rwlock lgen ugen rwSequence : U32)
  | ulockWait (operation address : U32) (value : BitVec 64) (timeout : U32)
  | ulockWake (operation address : U32) (wakeValue : BitVec 64)
deriving DecidableEq, Repr

/-- The parameters of `WaitNativeGuestThread`, with its defaults. -/
structure WaitArguments where
  kind : GuestThreadWaitKind
  address : U32
  wakeResult : U32
  mutexSequence : U32 := 0
  mutexFirstFit : Bool := false
  rwlockWaitType : GuestRwlockWaitType := .none
  rwlockSequence : U32 := 0
  rwlockStateSequence : U32 := 0
  conditionSequence : U32 := 0
  conditionSSequence : U32 := 0
  timeoutSeconds : ℤ := 0
  timeoutNanoseconds : U32 := 0
deriving DecidableEq, Repr

/-- The parameters `WaitNativeGuestThread` is called with, for the calls that end in it. -/
def Call.waitArguments : Call → Option WaitArguments
  | .mutexWait mutex mgen _ flags =>
    let lockSequence := mgen &&& guestPsynchCountMask
    some
      { kind := .mutex
        address := mutex
        wakeResult := lockSequence ||| guestPsynchRwKernelBit ||| guestPsynchRwExclusiveBit
        mutexSequence := lockSequence
        mutexFirstFit := guestPsynchMutexIsFirstFit flags }
  | .conditionWait condition conditionSequence conditionSSequence _ _ _ _ timeoutSeconds
      timeoutNanoseconds =>
      some
        { kind := .condition
          address := condition
          wakeResult := 0
          conditionSequence := conditionSequence
          conditionSSequence := conditionSSequence
          timeoutSeconds := timeoutSeconds
          timeoutNanoseconds := timeoutNanoseconds }
  | .rwWait rwlock lgen rwSequence write =>
    some
      { kind := .rwlock
        address := rwlock
        wakeResult := 0
        rwlockWaitType := if write then .write else .read
        rwlockSequence := lgen
        rwlockStateSequence := rwSequence }
  | _ => none

/-- The waiter object a wait creates. -/
def WaitArguments.waiter (args : WaitArguments) (threadPort : U32) : NativeGuestWaiter :=
  { kind := args.kind
    address := args.address
    threadPort := threadPort
    wakeResult := args.wakeResult
    mutexSequence := args.mutexSequence
    rwlockWaitType := args.rwlockWaitType
    rwlockSequence := args.rwlockSequence
    conditionSequence := args.conditionSequence }

def WaitArguments.relativeNanoseconds (args : WaitArguments) : U32 :=
  args.timeoutNanoseconds &&& 0x3fffffff

def WaitArguments.hasConditionTimeout (args : WaitArguments) : Bool :=
  decide (args.kind = .condition)
    && (decide (args.timeoutSeconds ≠ 0) || decide (args.relativeNanoseconds ≠ 0))

/-- The timeout is rejected before anything else happens. -/
def WaitArguments.timeoutInvalid (args : WaitArguments) : Bool :=
  decide (args.kind = .condition)
    && (decide (args.timeoutSeconds < 0) || decide (args.relativeNanoseconds ≥ 1000000000))

/-- The error of a wait that timed out. The extra bit tells libpthread that the last outstanding
    generation is gone. -/
def WaitArguments.timeoutError (args : WaitArguments) : U32 :=
  if guestPsynchSequenceDistance args.conditionSequence args.conditionSSequence ≤ 1 then
    ETIMEDOUT ||| 0x100
  else ETIMEDOUT

/-! ## Mutex drop -/

/-- The generation a drop grants: the next one under the fair-share policy. -/
def dropTarget (mgen ugen flags : U32) : U32 :=
  if guestPsynchMutexIsFirstFit flags then mgen &&& guestPsynchCountMask
  else (ugen + guestPsynchCountIncrement) &&& guestPsynchCountMask

theorem dropTarget_and_countMask (mgen ugen flags : U32) :
    dropTarget mgen ugen flags &&& guestPsynchCountMask = dropTarget mgen ugen flags := by
  unfold dropTarget
  split <;> rw [BitVec.and_assoc, BitVec.and_self]

def guestPsynchMutexDrop (mutex mgen ugen flags : U32) (tables : WaitTables) : WaitTables :=
  let targetSequence := dropTarget mgen ugen flags
  let woken := wakeNativeGuestMutexThreadLocked mutex targetSequence
    (guestPsynchMutexIsFirstFit flags) tables.waiters
  if woken.1 = 0 then
    { tables with
      waiters := woken.2
      mutexPreposts := recordGuestMutexPrepost mutex targetSequence tables.mutexPreposts }
  else { tables with waiters := woken.2 }

/-! ## Condition signal and broadcast -/

/-- The preposts after a signal or broadcast that woke `woken` waiters; a targeted one leaves none.
    -/
def recordConditionPreposts (condition throughSequence targetThread : U32) (broadcast : Bool)
    (outstanding woken : ℕ) (preposts : List GuestConditionPrepost) :
    List GuestConditionPrepost :=
  if machPortValid targetThread then preposts
  else if broadcast then
    recordGuestConditionBroadcastPrepost condition throughSequence (outstanding - woken) preposts
  else if woken = 0 then recordGuestConditionSignalPrepost condition throughSequence preposts
  else preposts

/-- The word a signal returns with. -/
def conditionUpdate (targetThread : U32) (broadcast : Bool) (outstanding woken : ℕ) : U32 :=
  let hasPrepost := !machPortValid targetThread
    && (if broadcast then decide (outstanding > woken) else decide (woken = 0))
  let updateBits := BitVec.ofNat 32
    (min (woken * guestPsynchCountIncrement.toNat) guestPsynchCountMask.toNat)
  if hasPrepost then updateBits ||| 0x02
  else if outstanding ≠ 0 ∧ woken ≥ outstanding then updateBits ||| 0x01
  else updateBits

def guestPsynchConditionSignal (condition conditionSequence conditionSSequence targetThread : U32)
    (broadcast : Bool) (tables : WaitTables) : SyscallReturn × WaitTables :=
  let throughSequence := conditionSequence &&& guestPsynchCountMask
  let outstanding := guestPsynchSequenceDistance conditionSequence conditionSSequence
  let woken := wakeNativeGuestConditionThreadsLocked condition throughSequence broadcast
    targetThread tables.waiters
  let after :=
    { tables with
      waiters := woken.2
      conditionPreposts := recordConditionPreposts condition throughSequence targetThread broadcast
        outstanding woken.1 tables.conditionPreposts }
  if machPortValid targetThread ∧ woken.1 = 0 then (.failure ESRCH, after)
  else (.success (conditionUpdate targetThread broadcast outstanding woken.1), after)

/-! ## Ulocks -/

def guestUlCompareAndWait : BitVec 8 := 1
def guestUlUnfairLock : BitVec 8 := 2
def guestUlOpcodeMask : U32 := 0x000000ff
def guestUlfWakeAll : U32 := 0x00000100
def guestUlfWakeThread : U32 := 0x00000200
def guestUlfWaitWorkqDataContention : U32 := 0x00010000
def guestUlfNoErrno : U32 := 0x01000000
def guestUlfWaitMask : U32 := guestUlfWaitWorkqDataContention ||| guestUlfNoErrno
def guestUlfWakeMask : U32 := guestUlfWakeAll ||| guestUlfWakeThread ||| guestUlfNoErrno

def ulockOpcode (operation : U32) : BitVec 8 := (operation &&& guestUlOpcodeMask).setWidth 8

def ulockFlags (operation : U32) : U32 := operation &&& ~~~guestUlOpcodeMask

/-- `INT32_MAX`. -/
def int32Max : ℕ := 0x7fffffff

def guestUlockReturn (error flags : U32) (successValue : ℕ) : SyscallReturn :=
  if error = 0 then .success (BitVec.ofNat 32 (min successValue int32Max))
  else if flags &&& guestUlfNoErrno ≠ 0 then ⟨-error, false⟩
  else .failure error

def guestUlockOpcodeValid (opcode : BitVec 8) : Bool :=
  decide (opcode = guestUlCompareAndWait) || decide (opcode = guestUlUnfairLock)

/-- The word at `address`, or the error of reading it. -/
def readGuestUlockWord (memory : U32 → Option U32) (address : U32) : Except U32 U32 :=
  if address = 0 ∨ address &&& 3 ≠ 0 then .error EINVAL
  else
    match memory address with
    | none => .error EFAULT
    | some word => .ok word

def isUlockWaiter (address : U32) (waiter : NativeGuestWaiter) : Bool :=
  decide (waiter.kind = .ulock) && decide (waiter.address = address)

def matchingNativeUlockWaitersLocked (address : U32) (opcode : BitVec 8)
    (waiters : List NativeGuestWaiter) : ℕ :=
  waiters.countP (fun waiter =>
    isUlockWaiter address waiter && decide (waiter.ulockOpcode = opcode))

def nativeUlockAddressHasOtherOpcodeLocked (address : U32) (opcode : BitVec 8)
    (waiters : List NativeGuestWaiter) : Bool :=
  waiters.any (fun waiter => isUlockWaiter address waiter && decide (waiter.ulockOpcode ≠ opcode))

/-- The waiter object a ulock wait creates. -/
def ulockWaiter (operation address threadPort : U32) : NativeGuestWaiter :=
  { kind := .ulock
    address := address
    ulockOpcode := ulockOpcode operation
    threadPort := threadPort }

def ulockWaitInvalid (operation : U32) : Bool :=
  !guestUlockOpcodeValid (ulockOpcode operation)
    || decide (ulockFlags operation &&& ~~~guestUlfWaitMask ≠ 0)

def ulockWakeInvalid (operation address : U32) : Bool :=
  !guestUlockOpcodeValid (ulockOpcode operation)
    || decide (ulockFlags operation &&& ~~~guestUlfWakeMask ≠ 0)
    || decide (ulockFlags operation &&& (guestUlfWakeAll ||| guestUlfWakeThread)
        = (guestUlfWakeAll ||| guestUlfWakeThread))
    || decide (address = 0)

def ulockWakeAll (operation : U32) : Bool := decide (ulockFlags operation &&& guestUlfWakeAll ≠ 0)

def ulockTargetWake (operation : U32) : Bool :=
  decide (ulockFlags operation &&& guestUlfWakeThread ≠ 0)

def ulockTarget (wakeValue : BitVec 64) : U32 := wakeValue.setWidth 32

def ulockEligible (operation address : U32) (wakeValue : BitVec 64) (waiter : NativeGuestWaiter) :
    Bool :=
  isUlockWaiter address waiter && decide (waiter.ulockOpcode = ulockOpcode operation)
    && !waiter.signaled
    && (!ulockTargetWake operation || decide (waiter.threadPort = ulockTarget wakeValue))

/-- The critical section of `GuestUlockWake`. -/
def guestUlockWake (operation address : U32) (wakeValue : BitVec 64)
    (waiters : List NativeGuestWaiter) : SyscallReturn × List NativeGuestWaiter :=
  let opcode := ulockOpcode operation
  let flags := ulockFlags operation
  if matchingNativeUlockWaitersLocked address opcode waiters = 0 then
    (guestUlockReturn
      (if nativeUlockAddressHasOtherOpcodeLocked address opcode waiters then EDOM else ENOENT)
      flags 0, waiters)
  else
    let woken := wakeWaiters (ulockEligible operation address wakeValue) .signal
      (ulockWakeAll operation && !ulockTargetWake operation) waiters
    if ulockTargetWake operation ∧ woken.1 = 0 then (guestUlockReturn EALREADY flags 0, woken.2)
    else (guestUlockReturn 0 flags 0, woken.2)

end LiveExec32.Psynch
