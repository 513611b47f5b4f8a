import Mathlib.Data.Fintype.Basic
import Mathlib.Data.Fintype.Pi
import LiveExec32.Lib.Execution

/-! # Thread-state slots

A guest thread has one slot. Others use it to read the thread's registers
(`RequestNativeThreadStateSnapshot`) and to suspend and resume it (`ChangeGuestThreadSuspendCount`),
while its owner runs guest code, services supervisor calls, makes host calls and runs callbacks.

One event is one section of a mutex, or one step of a thread outside of them. A copy of the
registers that another thread makes is not one step: it copies field by field, and the mutexes that
it holds are all that keeps the owner from moving under it. -/

namespace LiveExec32.ThreadState

/-! ## Registers -/

/-- The parts of a `context32`, in the order in which they are copied. -/
inductive Field where
  | regs | extRegs | cpsr | fpscr | uro
deriving DecidableEq, Repr

def Field.all : List Field := [.regs, .extRegs, .cpsr, .fpscr, .uro]

theorem Field.mem_all (field : Field) : field ∈ Field.all := by
  cases field <;> decide

instance : Fintype Field := ⟨⟨Field.all, by decide⟩, Field.mem_all⟩

/-- `context32`, with any values for the parts. -/
abbrev Context (ρ : Type) := Field → ρ

/-! ## Slots -/

/-- The transitions of a host call that wait for a suspension to end. -/
inductive Gate where
  /-- `NativeGuestHostCallEnter`. -/
  | enter
  /-- `NativeGuestHostCallExit`. -/
  | exit
  /-- `Dynarmic_guest_host_call_quiescence_begin`. -/
  | quiescenceBegin
  /-- `Dynarmic_guest_host_call_quiescence_end`. -/
  | quiescenceEnd
  /-- `NativeGuestCallbackRegisterAccessBegin`. -/
  | callbackBegin
deriving DecidableEq, Repr

/-- `NativeThreadStateSlot`. -/
structure Slot (ρ : Type) where
  nextGeneration : ℕ := 0
  requestedGeneration : ℕ := 0
  acknowledgedGeneration : ℕ := 0
  releasedGeneration : ℕ := 0
  snapshot : Context ρ
  snapshotValid : Bool := false
  suspendCount : ℕ := 0
  suspendAcknowledged : Bool := false
  ownerExited : Bool := false
  hostCallDepth : ℕ := 0
  hostCallQuiescenceDepth : ℕ := 0
  guestCallbackDepth : ℕ := 0
  hostRegistersQuiescent : Bool := false
deriving DecidableEq

namespace Slot

variable {ρ : Type}

/-- `NativeThreadStatePauseRequestedForCurrent`. -/
def pauseRequested (s : Slot ρ) : Bool :=
  s.suspendCount != 0 || decide (s.releasedGeneration < s.requestedGeneration)

/-- The condition under which `PublishNativeThreadStateAndWaitIfNeeded` waits. -/
def parks (s : Slot ρ) (retiring : Bool) : Bool :=
  s.pauseRequested && !s.ownerExited && !retiring

/-- The registers are published for all requests so far. -/
def acknowledge (s : Slot ρ) (registers : Context ρ) : Slot ρ :=
  { s with
    snapshot := registers
    snapshotValid := true
    acknowledgedGeneration := s.requestedGeneration
    suspendAcknowledged := s.suspendCount != 0 }

/-- One turn of the loop of `PublishNativeThreadStateAndWaitIfNeeded`. -/
def publish (s : Slot ρ) (registers : Context ρ) : Slot ρ :=
  if s.acknowledgedGeneration < s.requestedGeneration
      ∨ (s.suspendCount ≠ 0 ∧ s.suspendAcknowledged = false) then s.acknowledge registers
  else { s with suspendAcknowledged := s.suspendCount != 0 }

/-- `AcknowledgeNestedNativeThreadStateRequest`. -/
def acknowledgeNested (s : Slot ρ) (registers : Context ρ) : Slot ρ :=
  if ((s.releasedGeneration < s.requestedGeneration
        ∧ s.acknowledgedGeneration < s.requestedGeneration)
      ∨ (s.suspendCount ≠ 0 ∧ s.suspendAcknowledged = false)) ∧ s.ownerExited = false then
    s.acknowledge registers
  else s

/-- The condition of `TryCopyQuiescentNativeThreadState`. -/
def quiescent (s : Slot ρ) : Bool :=
  s.hostRegistersQuiescent && s.hostCallDepth != 0 && s.hostCallQuiescenceDepth != 0
    && s.guestCallbackDepth == 0

/-- Whether a suspension waits for its acknowledgement. -/
def unacknowledged (s : Slot ρ) : Bool :=
  s.suspendCount != 0 && !s.suspendAcknowledged && !s.ownerExited

/-- What a transition does once `LockUnsuspendedGuestRegisters` has returned. -/
def pass (s : Slot ρ) : Gate → Slot ρ
  | .enter => { s with hostCallDepth := s.hostCallDepth + 1, hostRegistersQuiescent := false }
  | .exit => { s with hostCallDepth := s.hostCallDepth - 1, hostRegistersQuiescent := false }
  | .quiescenceBegin =>
    if s.hostCallDepth = 0 then s
    else
      { s with
        hostCallQuiescenceDepth := s.hostCallQuiescenceDepth + 1
        hostRegistersQuiescent := s.guestCallbackDepth == 0 }
  | .quiescenceEnd =>
    { s with
      hostCallQuiescenceDepth := s.hostCallQuiescenceDepth - 1
      hostRegistersQuiescent := false }
  | .callbackBegin =>
    { s with guestCallbackDepth := s.guestCallbackDepth + 1, hostRegistersQuiescent := false }

/-- `NativeGuestCallbackRegisterAccessEnd`. -/
def callbackEnd (s : Slot ρ) : Slot ρ :=
  { s with
    guestCallbackDepth := s.guestCallbackDepth - 1
    hostRegistersQuiescent := s.hostCallQuiescenceDepth != 0 && s.guestCallbackDepth == 1 }

/-- `NativeThreadStateOwnerExited`. -/
def exit (s : Slot ρ) : Slot ρ :=
  { s with
    ownerExited := true
    suspendCount := 0
    suspendAcknowledged := false
    releasedGeneration := max s.releasedGeneration s.requestedGeneration }

end Slot

/-! ## The owner of the slot -/

/-- Where `PublishNativeThreadStateAndWaitIfNeeded` returns to. -/
inductive Back where
  /-- Behind `Jit::Run`, which has returned a supervisor call or not. -/
  | afterRun (svc : Bool)
  | host
deriving DecidableEq, Repr

inductive Place where
  /-- In one of the loops around `Jit::Run`, about to call it. -/
  | ready
  | guest
  /-- `Jit::Run` has returned, with or without the `ThreadState` halt. -/
  | left (halted svc : Bool)
  /-- After `ConsumeNativeThreadStateHalt`. -/
  | ran (svc : Bool)
  /-- In `PublishNativeThreadStateAndWaitIfNeeded`, before a turn of its loop. -/
  | publishing (back : Back)
  /-- In its wait. -/
  | published (back : Back)
  /-- In the service of a supervisor call or in a host call; registers may be written. -/
  | host
  /-- In a request or a suspension of another thread. -/
  | asking
  /-- In a native call whose registers are quiescent. -/
  | native
  /-- In `NativeDebuggerResumeQuiescentHostCall`, on the way out of such a call. -/
  | resuming (gate : Gate)
  /-- In `LockUnsuspendedGuestRegisters`, before a turn of its loop. -/
  | gate (gate : Gate)
  /-- In its wait. -/
  | gated (gate : Gate)
  /-- In `NativeDebuggerPauseHostWaitIfNeeded`, which a host wait or one of the waits above called.
      -/
  | pausedHost
  | pausedPublished (back : Back)
  | pausedGated (gate : Gate)
  /-- The loops have ended; the debugger is to be told. -/
  | stopped
  /-- Waiting for the debugger's command, or not started yet. -/
  | idle
  | exited
deriving DecidableEq, Repr

def Back.place : Back → Place
  | .afterRun svc => .ran svc
  | .host => .host

/-- The thread, its JIT and its part of the debugger's coordinator. -/
structure Target (ρ : Type) where
  registers : Context ρ
  place : Place := .idle
  /-- The `ThreadState` halt is raised. -/
  halted : Bool := false
  guestDeferredSVC : Bool := false
  alive : Bool := true
  nativeGuestThreadRetiring : Bool := false
  /-- `debuggerExecuting`, or `mainExecuting` for the main thread. -/
  debuggerExecuting : Bool := false
  debuggerHostCallQuiescent : Bool := false
  /-- The instructions executed and the results written so far. -/
  instructions : ℕ := 0
  results : ℕ := 0
deriving DecidableEq

/-- What the owner does next. -/
inductive TargetEvent (ρ : Type) where
  /-- A deferred supervisor call is serviced first, except by `Dynarmic_emu_1start`. -/
  | run (servicesDeferred : Bool)
  | instruction (registers : Context ρ)
  | leave (svc : Bool)
  | consume
  | publish
  | recheck
  | again
  | service
  | stop
  | callbackReturned
  | write (registers : Context ρ)
  | enterRun
  | ask
  | nested
  | asked
  | pauseHostWait
  | debuggerPause
  | debuggerWake
  | enterGate (gate : Gate)
  | leaveNative (gate : Gate)
  | resumeNative
  | parkNative
  | checkGate
  | recheckGate
  | callbackEnd
  | terminate
  | retired
  | park
  | command
  | exit
deriving DecidableEq

/-- The events that take `registerAccessMutex`. -/
@[simp] def TargetEvent.locksRegisters {ρ : Type} : TargetEvent ρ → Bool
  | .checkGate | .callbackEnd => true
  | _ => false

/-- The events that take the slot's mutex. -/
@[simp] def TargetEvent.locksSlot {ρ : Type} : TargetEvent ρ → Bool
  | .consume | .publish | .nested | .pauseHostWait | .checkGate | .exit => true
  | _ => false

/-- The events that take the coordinator's mutex. -/
@[simp] def TargetEvent.locksDebugger {ρ : Type} : TargetEvent ρ → Bool
  | .debuggerPause | .debuggerWake | .resumeNative | .parkNative | .park | .command => true
  | _ => false

/-! ## The callers -/

/-- The calls of `TryCopyQuiescentNativeThreadState`. -/
inductive Attempt where
  | first
  /-- While another request is outstanding. -/
  | turn
  /-- While the request of the generation is outstanding. -/
  | outstanding (generation : ℕ)
deriving DecidableEq, Repr

/-- What a copy of the registers is for. -/
inductive Copy where
  | attempt (attempt : Attempt)
  /-- The target is stopped by the debugger. -/
  | stopped
  /-- `AcknowledgeQuiescentGuestSuspension`. -/
  | quiescentSuspension
  /-- `AcknowledgeDebuggerStoppedGuestSuspension`. -/
  | stoppedSuspension
deriving DecidableEq, Repr

/-- A `kern_return_t`. -/
inductive KernReturn where
  | success | failure | aborted | invalidArgument | resourceShortage
deriving DecidableEq, Repr

/-- Where a caller is in `RequestNativeThreadStateSnapshot` or in `ChangeGuestThreadSuspendCount`.
    -/
inductive Caller (ρ : Type) where
  | idle
  | called
  | trying (attempt : Attempt)
  /-- Copying, with the fields that are left and what has been copied. -/
  | copying (copy : Copy) (left : List Field) (copied : Context ρ)
  | askingDebugger
  | waitingTurn
  | deciding (generation : ℕ) (copied : Option (Context ρ))
  | suspending
  | suspendWaiting
  | acknowledging
  | acknowledgingStopped
  | finished (result : KernReturn) (snapshot : Option (Context ρ))
deriving DecidableEq

namespace Caller

variable {ρ : Type}

def holdsRegisters : Caller ρ → Bool
  | .copying (.attempt _) _ _ | .copying .quiescentSuspension _ _ => true
  | _ => false

def holdsSlot : Caller ρ → Bool
  | .copying .quiescentSuspension _ _ | .copying .stoppedSuspension _ _ => true
  | _ => false

def holdsDebugger : Caller ρ → Bool
  | .copying .stopped _ _ | .copying .stoppedSuspension _ _ => true
  | _ => false

/-- A suspension is counted, and its call has not returned. -/
def suspends : Caller ρ → Bool
  | .suspendWaiting | .acknowledging | .acknowledgingStopped
  | .copying .quiescentSuspension _ _ | .copying .stoppedSuspension _ _ => true
  | _ => false

end Caller

inductive CallerEvent where
  /-- A call of `RequestNativeThreadStateSnapshot` begins. -/
  | ask
  /-- A call of `ChangeGuestThreadSuspendCount` to suspend begins. -/
  | suspend
  /-- The call goes on; `allStop` is `debuggerAllStopRequested`, where it is read. -/
  | next (allStop : Bool)
deriving DecidableEq, Repr

/-! ## The system -/

structure Config (ρ : Type) where
  /-- `NativeDebuggerActive`, which a session does not change. -/
  debuggerActive : Bool
  isMain : Bool
  target : Target ρ
  slot : Slot ρ
  callers : List (Caller ρ)
  /-- The suspensions and the resumptions that have succeeded. -/
  suspended : ℕ := 0
  resumed : ℕ := 0
deriving DecidableEq

inductive Event (ρ : Type) where
  | target (event : TargetEvent ρ)
  | caller (k : ℕ) (event : CallerEvent)
  /-- `ChangeGuestThreadSuspendCount` to resume. -/
  | resume
deriving DecidableEq

namespace Config

variable {ρ : Type}

def registersFree (c : Config ρ) : Bool := c.callers.all (!·.holdsRegisters)

def slotFree (c : Config ρ) : Bool := c.callers.all (!·.holdsSlot)

def debuggerFree (c : Config ρ) : Bool := c.callers.all (!·.holdsDebugger)

/-- The owner moves. -/
def setTarget (c : Config ρ) (target : Target ρ) : Config ρ := { c with target := target }

/-- The debugger's part of the worker; the main thread is never parked in a host call. -/
def parksWorker (c : Config ρ) : Bool := c.debuggerActive && !c.isMain

/-- The gates that a host call can come to. -/
def mayEnter (s : Slot ρ) : Gate → Bool
  | .enter | .quiescenceBegin | .callbackBegin => true
  | .exit => s.hostCallDepth != 0
  | .quiescenceEnd => s.hostCallQuiescenceDepth != 0

/-- One turn of `LockUnsuspendedGuestRegisters`, and the transition behind it. -/
def checkGate (c : Config ρ) (gate : Gate) : Config ρ :=
  if c.slot.suspendCount = 0 ∨ c.slot.ownerExited = true
      ∨ c.target.nativeGuestThreadRetiring = true then
    { c with
      slot := c.slot.pass gate
      target := { c.target with
        place := if (c.slot.pass gate).hostRegistersQuiescent ∧ gate = .quiescenceBegin then .native
          else .host } }
  else
    { c with
      slot := c.slot.acknowledge c.target.registers
      target := { c.target with place := .gated gate } }

/-- `PublishNativeThreadStateAndWaitIfNeeded`: one turn, or the way out. -/
def publish (c : Config ρ) (back : Back) : Config ρ :=
  if c.slot.parks c.target.nativeGuestThreadRetiring then
    { c with
      slot := c.slot.publish c.target.registers
      target := { c.target with place := .published back } }
  else c.setTarget { c.target with halted := false, place := back.place }

/-- `NativeDebuggerResumeQuiescentHostCall` after its wait. A retiring worker is not counted. -/
def resumeNative (c : Config ρ) (gate : Gate) : Config ρ :=
  c.setTarget { c.target with
    debuggerHostCallQuiescent := false
    debuggerExecuting := c.target.debuggerExecuting
      || (c.target.debuggerHostCallQuiescent && !c.target.nativeGuestThreadRetiring)
    place := .gate gate }

/-- The wait for the debugger ends; a retiring worker is not counted. -/
def wake (c : Config ρ) (place : Place) : Config ρ :=
  c.setTarget { c.target with
    debuggerExecuting := c.target.debuggerExecuting || !c.target.nativeGuestThreadRetiring
    place := place }

def pause (c : Config ρ) (place : Place) : Config ρ :=
  c.setTarget { c.target with debuggerExecuting := false, place := place }

/-- The owner's step, where the mutexes that it takes are free. -/
def move (c : Config ρ) (event : TargetEvent ρ) : Config ρ :=
  let t := c.target
  match event with
  | .run servicesDeferred =>
    if t.place ≠ .ready then c
    else if t.guestDeferredSVC ∧ servicesDeferred then
      c.setTarget { t with guestDeferredSVC := false, place := .host }
    else c.setTarget { t with place := .guest }
  | .instruction registers =>
    if t.place = .guest ∧ t.halted = false then
      c.setTarget { t with registers := registers, instructions := t.instructions + 1 }
    else c
  | .leave svc =>
    if t.place = .guest then
      c.setTarget { t with halted := false, place := .left t.halted svc }
    else c
  | .consume =>
    match t.place with
    | .left halted svc =>
      if halted ∨ c.slot.pauseRequested then
        c.setTarget { t with place := .publishing (.afterRun svc) }
      else c.setTarget { t with place := .ran svc }
    | _ => c
  | .publish =>
    match t.place with
    | .publishing back => c.publish back
    | _ => c
  | .recheck =>
    match t.place with
    | .published back => c.setTarget { t with place := .publishing back }
    | _ => c
  | .again => if t.place = .ran false then c.setTarget { t with place := .ready } else c
  | .service => if t.place = .ran true then c.setTarget { t with place := .host } else c
  | .stop =>
    match t.place with
    | .ran svc =>
      c.setTarget { t with guestDeferredSVC := t.guestDeferredSVC || svc, place := .stopped }
    | _ => c
  | .callbackReturned => if t.place = .ran false then c.setTarget { t with place := .host } else c
  | .write registers =>
    if t.place = .host then
      c.setTarget { t with registers := registers, results := t.results + 1 }
    else c
  | .enterRun => if t.place = .host then c.setTarget { t with place := .ready } else c
  | .ask => if t.place = .host then c.setTarget { t with place := .asking } else c
  | .nested =>
    if t.place = .asking then { c with slot := c.slot.acknowledgeNested t.registers } else c
  | .asked => if t.place = .asking then c.setTarget { t with place := .publishing .host } else c
  | .pauseHostWait =>
    if t.place = .host ∧ c.slot.pauseRequested then
      c.setTarget { t with place := .publishing .host }
    else c
  | .debuggerPause =>
    if !c.parksWorker then c
    else match t.place with
      | .host => c.pause .pausedHost
      | .published back => c.pause (.pausedPublished back)
      | .gated gate => c.pause (.pausedGated gate)
      | _ => c
  | .debuggerWake =>
    match t.place with
    | .pausedHost => c.wake .host
    | .pausedPublished back => c.wake (.published back)
    | .pausedGated gate => c.wake (.gated gate)
    | _ => c
  | .enterGate gate =>
    -- a native call may open another quiescence scope, as the release of a receiver does
    if t.place = .host ∧ mayEnter c.slot gate ∨ t.place = .native ∧ gate = .quiescenceBegin then
      c.setTarget { t with place := .gate gate }
    else c
  | .leaveNative gate =>
    if t.place = .native ∧ (gate = .quiescenceEnd ∨ gate = .callbackBegin) then
      c.setTarget { t with place := .resuming gate }
    else c
  | .resumeNative =>
    match t.place with
    | .resuming gate => c.resumeNative gate
    | _ => c
  | .parkNative =>
    if t.place = .native ∧ c.parksWorker ∧ t.debuggerHostCallQuiescent = false then
      c.setTarget { t with debuggerHostCallQuiescent := true, debuggerExecuting := false }
    else c
  | .checkGate =>
    match t.place with
    | .gate gate => c.checkGate gate
    | _ => c
  | .recheckGate =>
    match t.place with
    | .gated gate => c.setTarget { t with place := .gate gate }
    | _ => c
  | .callbackEnd =>
    if t.place = .host ∧ c.slot.guestCallbackDepth ≠ 0 then
      { c with
        slot := c.slot.callbackEnd
        target := { t with
          place := if c.slot.callbackEnd.hostRegistersQuiescent then .native else .host } }
    else c
  | .terminate =>
    if t.place = .host ∧ c.isMain = false then
      c.setTarget { t with alive := false, nativeGuestThreadRetiring := true }
    else c
  | .retired =>
    if t.place = .host ∧ t.nativeGuestThreadRetiring then c.setTarget { t with place := .stopped }
    else c
  | .park => if t.place = .stopped then c.pause .idle else c
  | .command =>
    if t.place = .idle ∧ t.nativeGuestThreadRetiring = false then
      c.setTarget { t with debuggerExecuting := c.debuggerActive, place := .ready }
    else c
  | .exit =>
    if t.place = .idle ∧ c.isMain = false
        ∧ (t.nativeGuestThreadRetiring ∨ c.debuggerActive = false) then
      { c with slot := c.slot.exit, target := { t with alive := false, place := .exited } }
    else c

/-- The mutexes that the owner needs are free. -/
def unlocked (c : Config ρ) (event : TargetEvent ρ) : Bool :=
  (!event.locksRegisters || c.registersFree) && (!event.locksSlot || c.slotFree)
    && (!event.locksDebugger || c.debuggerFree)

/-! ### Requests and suspensions -/

/-- Caller `k` moves. -/
def put (c : Config ρ) (k : ℕ) (caller : Caller ρ) : Config ρ :=
  { c with callers := c.callers.set k caller }

/-- A snapshot is requested. -/
def request (c : Config ρ) (k : ℕ) : Config ρ :=
  let generation := c.slot.nextGeneration + 1
  put { c with
    slot := { c.slot with
      nextGeneration := generation
      requestedGeneration := generation
      snapshotValid := false }
    target := { c.target with halted := true } } k (.trying (.outstanding generation))

/-- The request is released, and its call returns. -/
def release (c : Config ρ) (k generation : ℕ) (result : KernReturn)
    (snapshot : Option (Context ρ)) : Config ρ :=
  put { c with
    slot := { c.slot with releasedGeneration := max c.slot.releasedGeneration generation }
    target := { c.target with
      halted := if c.slot.suspendCount = 0 then false else c.target.halted } } k
    (.finished result snapshot)

/-- A turn of the loop that waits for the snapshot. -/
def decideSnapshot (c : Config ρ) (k generation : ℕ) (copied : Option (Context ρ))
    (allStop : Bool) :
    Config ρ :=
  if copied.isSome ∧ c.slot.requestedGeneration = generation
      ∧ c.slot.releasedGeneration < generation then c.release k generation .success copied
  else if generation ≤ c.slot.acknowledgedGeneration ∧ c.slot.snapshotValid then
    c.release k generation .success (some c.slot.snapshot)
  else if c.slot.ownerExited ∨ allStop then c.release k generation .aborted none
  else c.put k (.trying (.outstanding generation))

/-- The first section of `ChangeGuestThreadSuspendCount`, to suspend. -/
def suspend (c : Config ρ) (k : ℕ) : Config ρ :=
  if c.slot.ownerExited then c.put k (.finished .invalidArgument none)
  else if c.slot.suspendCount = 2147483647 then c.put k (.finished .resourceShortage none)
  else
    put { c with
      slot := { c.slot with
        suspendCount := c.slot.suspendCount + 1
        suspendAcknowledged := c.slot.suspendCount != 0 && c.slot.suspendAcknowledged }
      target := { c.target with halted := true } } k .suspendWaiting

/-- A turn of the loop that waits for the acknowledgement. -/
def suspendWait (c : Config ρ) (k : ℕ) : Config ρ :=
  if c.slot.unacknowledged then c.put k .acknowledging
  else if c.slot.ownerExited then c.put k (.finished .invalidArgument none)
  else put { c with suspended := c.suspended + 1 } k (.finished .success none)

/-- The registers are copied. -/
def copied (c : Config ρ) (k : ℕ) (copy : Copy) (snapshot : Context ρ) : Config ρ :=
  match copy with
  | .attempt .first | .attempt .turn | .stopped => c.put k (.finished .success (some snapshot))
  | .attempt (.outstanding generation) => c.put k (.deciding generation (some snapshot))
  | .quiescentSuspension =>
    put { c with slot := c.slot.acknowledge snapshot } k .acknowledgingStopped
  | .stoppedSuspension => put { c with slot := c.slot.acknowledge snapshot } k .suspendWaiting

/-- Where a caller goes on when the registers are not quiescent. -/
def missed : Attempt → Caller ρ
  | .first => .askingDebugger
  | .turn => .waitingTurn
  | .outstanding generation => .deciding generation none

variable [Inhabited ρ]

def startCopy (copy : Copy) : Caller ρ := .copying copy Field.all fun _ => default

/-- Caller `k` goes on. -/
def advance (c : Config ρ) (k : ℕ) (allStop : Bool) : Caller ρ → Config ρ
  | .idle | .finished _ _ => c
  | .called =>
    if !c.slotFree then c
    else if c.slot.suspendCount ≠ 0 ∧ c.slot.suspendAcknowledged ∧ c.slot.snapshotValid then
      c.put k (.finished .success (some c.slot.snapshot))
    else c.put k (.trying .first)
  | .trying attempt =>
    if !c.registersFree then c
    else c.put k (if c.slot.quiescent then startCopy (.attempt attempt) else missed attempt)
  | .copying copy (field :: left) copied =>
    c.put k (.copying copy left (Function.update copied field (c.target.registers field)))
  | .copying copy [] copied => c.copied k copy copied
  | .askingDebugger =>
    if !c.debuggerActive then c.put k .waitingTurn
    else if !c.debuggerFree then c
    else c.put k (if c.target.debuggerExecuting then .waitingTurn else startCopy .stopped)
  | .waitingTurn =>
    if !c.slotFree then c
    else if c.slot.releasedGeneration < c.slot.requestedGeneration ∧ !c.slot.ownerExited then
      c.put k (.trying .turn)
    else if c.slot.ownerExited then c.put k (.finished .failure none)
    else c.request k
  | .deciding generation copied =>
    if !c.slotFree then c else c.decideSnapshot k generation copied allStop
  | .suspending => if !c.slotFree then c else c.suspend k
  | .suspendWaiting => if !c.slotFree then c else c.suspendWait k
  | .acknowledging =>
    if !c.registersFree ∨ !c.slotFree then c
    else c.put k (if c.slot.quiescent ∧ c.slot.unacknowledged then startCopy .quiescentSuspension
      else .acknowledgingStopped)
  | .acknowledgingStopped =>
    if !c.debuggerFree ∨ !c.slotFree then c
    else c.put k (if c.parksWorker ∧ !c.target.debuggerExecuting ∧ c.slot.unacknowledged then
      startCopy .stoppedSuspension else .suspendWaiting)

/-- Whether caller `k` can begin a call: it has none, and it finds the target in the registry. -/
def available (c : Config ρ) : Caller ρ → Bool
  | .idle | .finished _ _ => c.target.alive
  | _ => false

def callerStep (c : Config ρ) (k : ℕ) (caller : Caller ρ) : CallerEvent → Config ρ
  | .ask => if c.available caller then c.put k .called else c
  | .suspend =>
    -- the main thread cannot be suspended under the debugger
    if c.available caller ∧ ¬ (c.isMain ∧ c.debuggerActive) then c.put k .suspending else c
  | .next allStop => c.advance k allStop caller

/-- `ChangeGuestThreadSuspendCount` to resume, with its result. -/
def resume (c : Config ρ) : KernReturn × Config ρ :=
  if c.slot.ownerExited then (.invalidArgument, c)
  else if c.slot.suspendCount = 0 then (.failure, c)
  else if c.slot.suspendCount = 1 then
    (.success, { c with
      slot := { c.slot with suspendCount := 0, suspendAcknowledged := false }
      target := { c.target with
        halted := if c.slot.requestedGeneration ≤ c.slot.releasedGeneration then false
          else c.target.halted }
      resumed := c.resumed + 1 })
  else
    (.success, { c with
      slot := { c.slot with suspendCount := c.slot.suspendCount - 1 }
      resumed := c.resumed + 1 })

/-- One event; an event that cannot happen changes nothing. -/
def step (c : Config ρ) : Event ρ → Config ρ
  | .target event => if c.unlocked event then c.move event else c
  | .caller k event =>
    match c.callers[k]? with
    | none => c
    | some caller => c.callerStep k caller event
  | .resume => if c.slotFree ∧ c.target.alive then c.resume.2 else c

end Config

/-- A thread that has not started, and any number of callers. -/
def initial {ρ : Type} [Inhabited ρ] (debuggerActive isMain : Bool) (registers : Context ρ)
    (callers : ℕ) : Config ρ where
  debuggerActive := debuggerActive
  isMain := isMain
  target := { registers := registers }
  slot := { snapshot := fun _ => default }
  callers := List.replicate callers .idle

end LiveExec32.ThreadState
