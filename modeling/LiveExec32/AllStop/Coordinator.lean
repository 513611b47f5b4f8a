import LiveExec32.Lib.Execution
import Mathlib.Data.Finset.Basic
import Mathlib.Data.Finset.SDiff
import Mathlib.Data.Finset.Insert

/-! # The debugger's all-stop coordinator

With native guest threads every guest thread has a JIT of its own, and the debugger stops and
resumes them together. The main runner is the thread that owns the first JIT and also serves the
debugger's protocol: it hands a command to the threads (`NativeDebuggerBeginExecution`), runs its
own JIT if the command asks for it, and then collects the stop (`NativeDebuggerCompleteStop`). A
worker waits for a command, runs its JIT and acknowledges the stop. In between a worker may wait in
a host call, be parked in a native call that leaves its registers alone, or retire.

A run starts when the debugger is enabled, with no worker yet; the states `Disabled` and
`ShuttingDown` are those before and after it. Every event is one section under the coordinator's
mutex, or one step of a thread between such sections. Worker `i` has the debugger id `i + 3`.
`NativeDebuggerRequestStop` is an event of its own: any thread may ask at any time and with any
arguments, which covers the calls of the workers, of the main runner and of the socket reader.

The ghost fields of `Config` are `assertionFailed`, the answers to the debugger's commands and the
number of guest instructions that were executed. -/

namespace LiveExec32.AllStop

/-! ## Halt reasons and stop signals -/

/-- The bits of `Dynarmic::HaltReason` with the ones that the emulator defines. -/
inductive HaltBit where
  | step | cacheInvalidation | memoryAbort | svc | retFromGuest | exit | trap | interrupt
  | workqueue | debuggerPause | threadState
deriving DecidableEq, Repr

abbrev HaltReason := Finset HaltBit

def visibleReason (reason : HaltReason) : HaltReason := reason \ {.debuggerPause, .threadState}

/-- What `Dynarmic_emu_1resume` and `Dynarmic_emu_1step` keep of a workqueue halt's reason. -/
def remainingReason (stepping : Bool) (reason : HaltReason) : HaltReason :=
  reason \ (if stepping then {.workqueue, .step} else {.workqueue})

abbrev SIGINT : ℤ := 2
abbrev SIGTRAP : ℤ := 5
abbrev SIGABRT : ℤ := 6
abbrev SIGSEGV : ℤ := 11
abbrev NSIG : ℤ := 32

def normalizeGuestStopSignal (signal : ℤ) : ℤ :=
  if signal ≤ 0 ∨ NSIG ≤ signal then SIGABRT else signal

structure GuestStopRequest where
  signal : ℤ := SIGTRAP
  pending : Bool := false
  valid : Bool := false
deriving DecidableEq, Repr

/-- `CurrentGuestStopRequestForReason`; `current` is the thread's own `currentGuestStopRequest`. -/
def GuestStopRequest.forReason (current : GuestStopRequest) (reason : HaltReason) :
    GuestStopRequest :=
  if current.valid then current
  else if .interrupt ∈ visibleReason reason then ⟨SIGINT, current.pending, true⟩
  else if .memoryAbort ∈ visibleReason reason then ⟨SIGSEGV, true, true⟩
  else ⟨SIGTRAP, current.pending, true⟩

/-- `guestStopSignal`, `pendingGuestFatalSignal` and `reemitPendingGuestStop`. -/
structure StopSignals where
  guestStopSignal : ℤ := SIGTRAP
  pendingGuestFatalSignal : ℤ := 0
  reemitPendingGuestStop : Bool := false
deriving DecidableEq, Repr

def StopSignals.commit (s : StopSignals) (signal : ℤ) (pending : Bool) : StopSignals :=
  if pending then
    { s with
      guestStopSignal := normalizeGuestStopSignal signal
      pendingGuestFatalSignal := normalizeGuestStopSignal signal }
  else ⟨normalizeGuestStopSignal signal, 0, false⟩

/-- `Dynarmic_emu_1set_1resume_1signal`. -/
def StopSignals.setResumeSignal (s : StopSignals) (signal : ℤ) : StopSignals :=
  if 0 < s.pendingGuestFatalSignal ∧ (signal = 0 ∨ signal = s.pendingGuestFatalSignal) then
    { s with reemitPendingGuestStop := true }
  else { s with pendingGuestFatalSignal := 0, reemitPendingGuestStop := false }

/-- `Dynarmic_debugger_resolve_pending_stop`. -/
def StopSignals.resolvePendingStop (s : StopSignals) : StopSignals :=
  { s with pendingGuestFatalSignal := 0, reemitPendingGuestStop := false }

/-! ## The coordinator -/

inductive RunState where
  | stopped | running | stopping
deriving DecidableEq, Repr

inductive ResumeMode where
  | continueAll | continueOne | stepOne | stepOneContinueOthers
deriving DecidableEq, Repr

/-- `NativeDebuggerCoordinator`. -/
structure Coordinator where
  state : RunState := .stopped
  resumeMode : ResumeMode := .continueAll
  stopOwner : ℕ := 1
  stepThread : ℕ := 1
  stopReason : HaltReason := {.trap}
  stopSignal : ℤ := SIGTRAP
  generation : ℕ := 0
  executingWorkers : ℕ := 0
  mainExecuting : Bool := false
  resumeStarting : Bool := false
  pendingInterrupt : Bool := false
deriving DecidableEq

namespace Coordinator

/-- `NativeDebuggerRunsThreadLocked`. -/
def runsThread (d : Coordinator) (threadId : ℕ) : Bool :=
  match d.resumeMode with
  | .continueAll | .stepOneContinueOthers => true
  | .continueOne | .stepOne => d.stepThread == threadId

/-- `NativeDebuggerStepsThreadLocked`. -/
def stepsThread (d : Coordinator) (threadId : ℕ) : Bool :=
  (d.resumeMode == .stepOne || d.resumeMode == .stepOneContinueOthers) && d.stepThread == threadId

/-- The condition that a parked thread waits for, apart from its own retirement. -/
def admits (d : Coordinator) (threadId : ℕ) : Bool :=
  d.state == .running && d.runsThread threadId

end Coordinator

/-! ## Workers -/

/-- Where the host thread of a worker is. -/
inductive Place where
  /-- In `NativeDebuggerWaitForWorkerCommand`. -/
  | idle
  /-- Back from there, before `Dynarmic_emu_1resume` or `Dynarmic_emu_1step`. -/
  | commanded
  /-- In one of the loops around `Jit::Run`, about to call it. -/
  | ready
  /-- In `Jit::Run` or `Jit::Step`. -/
  | guest
  /-- In the service of a supervisor call, or in a host call. -/
  | host
  /-- In a native call that has published its registers as quiescent. -/
  | native
  /-- In `NativeDebuggerPauseHostWaitIfNeeded`, before the lock; it will go on at `back`. -/
  | pausing (back : Place)
  /-- Waiting there. -/
  | paused (back : Place)
  /-- In `bsdthread_terminate`, no longer alive in the registry. -/
  | terminated
  /-- `Dynarmic_emu_1resume` or `Dynarmic_emu_1step` has returned. -/
  | returned (reason : HaltReason)
  /-- Out of the worker's loop. -/
  | exited
deriving DecidableEq

/-- `NativeGuestJit` with the worker's thread-local state and its entry in the registry. -/
structure Worker where
  debuggerExecuting : Bool := false
  debuggerHostWaitPaused : Bool := false
  debuggerHostCallQuiescent : Bool := false
  alive : Bool := true
  nativeGuestThreadRetiring : Bool := false
  /-- The halts that are raised and that no `Jit::Run` has returned yet. -/
  halts : HaltReason := ∅
  singleStep : Bool := false
  commandGeneration : ℕ := 0
  /-- The generation of `nativeDebuggerHostWaitStep`, while that is set. -/
  hostWaitStep : Option ℕ := none
  guestDeferredSVC : Bool := false
  guestCallbackDepth : ℕ := 0
  hostCallQuiescenceDepth : ℕ := 0
  place : Place := .idle
deriving DecidableEq

/-- What a worker does next. -/
inductive WorkerEvent where
  /-- `NativeDebuggerWaitForWorkerCommand` returns. -/
  | takeCommand
  /-- A stop that lost to another one is published instead of running. -/
  | republishPendingStop
  | start
  | run
  /-- `Jit::Run` executes an instruction. -/
  | instruction
  /-- `Jit::Run` returns; `raised` are the halts that the guest code raised itself. A workqueue halt
      is raised on the main JIT only. -/
  | leave (raised : HaltReason)
  | serviceDone
  | quiescenceBegin
  | quiescenceEnd
  | callbackBegin
  | pauseHostWait
  | pauseLock
  | pauseWake
  | terminate
  | stopped
deriving DecidableEq

namespace Worker

/-- `NativeDebuggerParkQuiescentHostCall`. -/
def parkQuiescentHostCall (w : Worker) : Worker :=
  if w.debuggerHostCallQuiescent then w
  else { w with debuggerHostCallQuiescent := true, debuggerExecuting := false }

/-- The deferred step of `PauseHostWaitIfNeeded` and of `ResumeQuiescentHostCall`: the old `Run`
    must unwind before the worker's loop can step. -/
def prepareStep (w : Worker) (d : Coordinator) (id : ℕ) : Worker :=
  if d.stepsThread id then
    { w with hostWaitStep := some d.generation, halts := insert .debuggerPause w.halts }
  else { w with hostWaitStep := none }

/-- Whether `NativeDebuggerResumeQuiescentHostCall` does not have to wait. -/
def mayResume (w : Worker) (d : Coordinator) (id : ℕ) : Bool :=
  !w.debuggerHostCallQuiescent || w.nativeGuestThreadRetiring || d.admits id

/-- `NativeDebuggerResumeQuiescentHostCall` after its wait. A retiring worker comes back without
    being counted; the callers do not look at the result. -/
def resumeQuiescentHostCall (w : Worker) (d : Coordinator) (id : ℕ)
    (prepareDeferredStep : Bool) : Worker :=
  if !w.debuggerHostCallQuiescent then w
  else if w.nativeGuestThreadRetiring then
    { w with debuggerHostCallQuiescent := false, hostWaitStep := none }
  else
    let w := { w with debuggerHostCallQuiescent := false, debuggerExecuting := true }
    if prepareDeferredStep then w.prepareStep d id else w

/-- `LC32InvokeGuestC` returns into the host call: `NativeGuestCallbackRegisterAccessEnd`. -/
def endCallback (w : Worker) : Worker :=
  let w := { w with guestCallbackDepth := w.guestCallbackDepth - 1 }
  if w.hostCallQuiescenceDepth ≠ 0 ∧ w.guestCallbackDepth = 0 then
    { w.parkQuiescentHostCall with place := .native }
  else { w with place := .host }

/-- `Dynarmic_emu_1resume` or `Dynarmic_emu_1step` after `Jit::Run` returned `reason`. -/
def afterRun (w : Worker) (reason : HaltReason) : Worker :=
  if .workqueue ∈ reason then
    if remainingReason w.singleStep reason = ∅ then { w with place := .ready }
    else { w with place := .returned (remainingReason w.singleStep reason) }
  else if .svc ∉ reason then { w with place := .returned reason }
  else if reason \ {.svc} ≠ ∅ then
    { w with guestDeferredSVC := true, place := .returned (reason \ {.svc}) }
  else { w with place := .host }

/-- The loop of `Dynarmic_emu_1start`, which runs a callback. A supervisor call is serviced at once,
    and the other reasons are dropped. -/
def afterCallbackRun (w : Worker) (reason : HaltReason) : Worker :=
  if .workqueue ∈ reason then
    if reason \ {.workqueue} = ∅ then { w with place := .ready } else w.endCallback
  else if .svc ∉ reason then w.endCallback
  else { w with place := .host }

def leave (w : Worker) (raised : HaltReason) : Worker :=
  let reason := (raised ∪ w.halts) \ {.threadState, .cacheInvalidation}
  let w := { w with halts := ∅ }
  if reason = ∅ then { w with place := .ready }
  else if w.guestCallbackDepth = 0 then w.afterRun reason
  else w.afterCallbackRun reason

def serviceDone (w : Worker) : Worker :=
  if w.guestCallbackDepth = 0 then
    if w.nativeGuestThreadRetiring then { w with place := .returned {.exit} }
    else if w.singleStep then { w with place := .returned {.step} }
    else { w with place := .ready }
  else if w.nativeGuestThreadRetiring then w.endCallback
  else { w with place := .ready }

/-- The places from which `NativeDebuggerPauseHostWaitIfNeeded` is called. In a native call that is
    done by a nested `quiescence_begin`, while the thread is suspended. -/
def mayPause : Place → Bool
  | .ready | .host | .native | .returned _ => true
  | _ => false

/-- One step of a worker with the id `id`; the coordinator is as the section reads it, and `allStop`
    is `debuggerAllStopRequested`. -/
def step (d : Coordinator) (allStop : Bool) (id : ℕ) (w : Worker) : WorkerEvent → Worker
  | .takeCommand =>
    if w.place = .idle ∧ d.admits id then
      { w with
        singleStep := d.stepsThread id
        commandGeneration := d.generation
        debuggerExecuting := true
        place := .commanded }
    else w
  | .republishPendingStop =>
    if w.place = .commanded then
      { w with hostWaitStep := none, place := .returned {.debuggerPause} }
    else w
  | .start =>
    if w.place = .commanded then
      { w with
        halts := if w.hostWaitStep = some w.commandGeneration ∧ w.singleStep
          then w.halts \ {.debuggerPause} else w.halts
        hostWaitStep := none
        place := .ready }
    else w
  | .run =>
    if w.place = .ready then
      if w.guestDeferredSVC ∧ w.guestCallbackDepth = 0 then
        { w with guestDeferredSVC := false, place := .host }
      else { w with place := .guest }
    else w
  | .instruction =>
    if w.place = .guest ∧ w.halts = ∅ ∧ w.singleStep ∧ w.guestCallbackDepth = 0 then
      { w with halts := {.step} }
    else w
  | .leave raised => if w.place = .guest then w.leave (raised \ {.workqueue}) else w
  | .serviceDone => if w.place = .host then w.serviceDone else w
  | .quiescenceBegin =>
    if w.place = .host ∨ w.place = .native then
      let w := { w with hostCallQuiescenceDepth := w.hostCallQuiescenceDepth + 1 }
      if w.guestCallbackDepth = 0 then { w.parkQuiescentHostCall with place := .native } else w
    else w
  | .quiescenceEnd =>
    if w.hostCallQuiescenceDepth = 0 then w
    else if w.place = .host then
      { w with hostCallQuiescenceDepth := w.hostCallQuiescenceDepth - 1 }
    else if w.place = .native ∧ w.mayResume d id then
      let w := w.resumeQuiescentHostCall d id true
      { w with hostCallQuiescenceDepth := w.hostCallQuiescenceDepth - 1, place := .host }
    else w
  | .callbackBegin =>
    if (w.place = .host ∨ w.place = .native) ∧ w.mayResume d id then
      let w := w.resumeQuiescentHostCall d id false
      { w with guestCallbackDepth := w.guestCallbackDepth + 1, place := .ready }
    else w
  | .pauseHostWait =>
    if mayPause w.place ∧ allStop then { w with place := .pausing w.place } else w
  | .pauseLock =>
    match w.place with
    | .pausing back =>
      if d.state = .running then { w with place := back }
      else
        { w with
          debuggerHostWaitPaused := true
          debuggerExecuting := false
          place := .paused back }
    | _ => w
  | .pauseWake =>
    match w.place with
    | .paused back =>
      if w.nativeGuestThreadRetiring then
        { w with debuggerHostWaitPaused := false, hostWaitStep := none, place := back }
      else if d.admits id then
        { w.prepareStep d id with
          debuggerHostWaitPaused := d.stepsThread id
          debuggerExecuting := true
          place := back }
      else w
    | _ => w
  | .terminate =>
    if w.place = .host ∧ w.alive then { w with alive := false, place := .terminated } else w
  | .stopped =>
    match w.place with
    | .returned _ =>
      { w with
        debuggerHostWaitPaused := w.debuggerHostWaitPaused && w.hostWaitStep.isNone
        debuggerExecuting := false
        place := if w.nativeGuestThreadRetiring then .exited else .idle }
    | _ => w

/-- `bsdthread_terminate` after it has handed on the stop: the `Exit` halt stays raised. -/
def retire (w : Worker) : Worker :=
  { w with nativeGuestThreadRetiring := true, halts := insert .exit w.halts, place := .host }

end Worker

/-! ## The main runner -/

/-- A loop around the main JIT's `Run`. -/
inductive LoopKind where
  /-- `Dynarmic_emu_1start`, in a callback. -/
  | start
  /-- `Dynarmic_emu_1resume`, in `Dynarmic_debugger_continue` or `Dynarmic_debugger_step`. -/
  | resume
  /-- `Dynarmic_emu_1step`, with the command's generation. -/
  | step (generation : ℕ)
  /-- The same while it drains the internal worker that the stepped instruction has spawned. -/
  | drain (generation : ℕ)
deriving DecidableEq, Repr

/-- What a service or a context transition of the main runner comes to. -/
inductive ServiceOutcome where
  /-- The loop goes on. -/
  | continues
  /-- The overlay was entered in a step. -/
  | drains
  /-- The step is done. -/
  | steps
  /-- `HandleGuestContextTransition` failed. -/
  | fails
deriving DecidableEq, Repr

inductive MainPlace where
  /-- In the protocol, between two commands. -/
  | protocol
  /-- Between the two sections of `NativeDebuggerBeginExecution`, before or after the old halts are
      cleared. -/
  | selected (mode : ResumeMode) (stepThread : ℕ) (runMain cleared : Bool)
  | ready
  | guest
  | host
  /-- A context transition is done; the stop is to be handed from `previous` to `replacement`. -/
  | switching (previous replacement : ℕ)
  /-- Before `NativeDebuggerCompleteStop`. -/
  | returned (reason : HaltReason)
  /-- In `NativeDebuggerCompleteStop`. -/
  | completing
deriving DecidableEq

structure Main where
  place : MainPlace := .protocol
  /-- The loops on the stack, the innermost first. -/
  loops : List LoopKind := []
  halts : HaltReason := ∅
  guestDeferredSVC : Bool := false
deriving DecidableEq

/-- The answer to a command. -/
inductive Reply where
  | stop (reason : HaltReason) (signal : ℤ)
  /-- The callback that the command resumed has returned, and the threads run on. -/
  | callbackReturned
deriving DecidableEq

/-- The thread of a command; the special ids ask for the current thread or for all. -/
inductive Target where
  | any | all
  | thread (id : ℕ)
deriving DecidableEq, Repr

inductive Command where
  | continue (target : Target)
  | step (target : Target) (continueOtherThreads : Bool)
deriving DecidableEq, Repr

structure Config where
  coordinator : Coordinator := {}
  debuggerAllStopRequested : Bool := true
  signals : StopSignals := {}
  workers : List Worker := []
  /-- `guestWorkqueueUpcallActive` and `guestWorkqueueWaitingContextValid`. -/
  overlayActive : Bool := false
  main : Main := {}
  /-- The stop requests that were granted and have not halted the JITs yet. -/
  haltsDue : ℕ := 0
  assertionFailed : Bool := false
  replies : List Reply := []
  executed : ℕ := 0
deriving DecidableEq

inductive Event where
  | worker (i : ℕ) (event : WorkerEvent)
  /-- `bsdthread_terminate` hands on the stop that the worker owns. -/
  | workerTransfer (i : ℕ)
  | createWorker
  | requestStop (owner : ℕ) (reason : HaltReason) (forcedSignal : ℤ)
      (forcedPendingSignal queueWhileStopped : Bool) (current : GuestStopRequest)
  | haltAll
  | setResumeSignal (signal : ℤ)
  | resolvePendingStop
  | command (command : Command)
  | clearHalts
  | publish
  | mainRepublish
  | mainRun
  | mainInstruction
  | mainLeave (raised : HaltReason)
  | mainServiceDone (outcome : ServiceOutcome)
  | mainCallback
  | overlayEnter
  | overlayLeave
  | mainTransfer
  /-- A step that a nested command has overtaken goes on as `Dynarmic_emu_1resume`. -/
  | mainSuperseded
  | completeBegin
  | completeStop
deriving DecidableEq

/-- `Dynarmic_emu_1stop`, with the owner that it found. -/
abbrev Event.interrupt (owner : ℕ) : Event :=
  .requestStop owner {.interrupt} SIGINT false true {}

namespace Config

/-- `NativeDebuggerStopOwnerAlive`; the main JIT lives as long as the session. -/
def stopOwnerAlive (c : Config) (owner : ℕ) : Bool :=
  if owner = 1 then true
  else if owner = 2 then c.overlayActive
  else match c.workers[owner - 3]? with
    | some w => w.alive && owner != 0
    | none => false

/-- `NativeDebuggerNormalizeStopOwnerLocked`. -/
def normalizeStopOwner (c : Config) (owner : ℕ) : ℕ :=
  if owner = 1 ∧ c.stopOwnerAlive 2 then 2
  else if c.stopOwnerAlive owner then owner
  else if c.stopOwnerAlive 2 then 2
  else 1

/-- `ActiveMainDebuggerThread`. -/
def activeMainDebuggerThread (c : Config) : ℕ := if c.overlayActive then 2 else 1

/-- `Dynarmic_debugger_thread_resumable`; the overlay always interrupts thread 1. -/
def threadResumable (c : Config) (id : ℕ) : Bool :=
  c.stopOwnerAlive id && (!c.overlayActive || id != 1)

/-- `NativeDebuggerMainContextMayRun` for the main runner. -/
def mainContextMayRun (c : Config) : Bool := c.coordinator.admits c.activeMainDebuggerThread

/-- `NativeDebuggerSetWorkerExecutingLocked`, where worker `i` becomes `w`. -/
def put (c : Config) (i : ℕ) (w : Worker) : Config :=
  match c.workers[i]? with
  | none => c
  | some old =>
    let d := c.coordinator
    let c := { c with workers := c.workers.set i w }
    if old.debuggerExecuting = w.debuggerExecuting then c
    else if w.debuggerExecuting then
      { c with coordinator := { d with executingWorkers := d.executingWorkers + 1 } }
    else
      { c with
        assertionFailed := c.assertionFailed || d.executingWorkers == 0
        coordinator := { d with executingWorkers := d.executingWorkers - 1 } }

/-- `NativeDebuggerTransferStopOwner`. -/
def transferStopOwner (c : Config) (previousOwner replacementOwner : ℕ) : Config :=
  let d := c.coordinator
  if (d.state = .stopping ∨ d.state = .stopped) ∧ d.stopOwner = previousOwner then
    { c with coordinator := { d with stopOwner := c.normalizeStopOwner replacementOwner } }
  else c

/-- The request that `NativeDebuggerRequestStop` commits. -/
def stopRequest (reason : HaltReason) (forcedSignal : ℤ) (forcedPendingSignal : Bool)
    (current : GuestStopRequest) : GuestStopRequest :=
  if 0 < forcedSignal then ⟨normalizeGuestStopSignal forcedSignal, forcedPendingSignal, true⟩
  else current.forReason (visibleReason reason)

/-- The reason that `NativeDebuggerRequestStop` publishes. -/
def publishedReason (reason : HaltReason) : HaltReason :=
  if visibleReason reason ≠ ∅ then visibleReason reason else {.trap}

/-- `NativeDebuggerRequestStop` up to the end of its section. -/
def requestStop (c : Config) (owner : ℕ) (reason : HaltReason) (forcedSignal : ℤ)
    (forcedPendingSignal queueWhileStopped : Bool) (current : GuestStopRequest) : Config :=
  let d := c.coordinator
  let request := stopRequest reason forcedSignal forcedPendingSignal current
  if d.state = .running then
    { c with
      coordinator := { d with
        state := .stopping
        stopOwner := c.normalizeStopOwner owner
        stopReason := publishedReason reason
        stopSignal := normalizeGuestStopSignal request.signal }
      signals := c.signals.commit (normalizeGuestStopSignal request.signal) request.pending
      debuggerAllStopRequested := true
      haltsDue := c.haltsDue + 1 }
  else if queueWhileStopped ∧ d.state = .stopped then
    { c with coordinator := { d with pendingInterrupt := true } }
  else c

/-- `HaltAllGuestJits(LC32HaltReasonDebuggerPause)`. It halts the workers under
    `nativeGuestJitMutex` and the main JIT outside of it; here that is one step, as in `clearHalts`.
    -/
def haltAll (c : Config) : Config :=
  if c.haltsDue = 0 then c
  else
    { c with
      haltsDue := c.haltsDue - 1
      main := { c.main with halts := insert .debuggerPause c.main.halts }
      workers := c.workers.map fun w => { w with halts := insert .debuggerPause w.halts } }

/-! ### Commands -/

/-- A command is answered, and the protocol goes on. The main runner's own loop is left. -/
def answer (c : Config) (reply : Reply) : Config :=
  { c with replies := reply :: c.replies, main := { c.main with place := .protocol } }

/-- Both sections of `NativeDebuggerBeginExecution` consume an interrupt that was queued. -/
def consumeInterrupt (c : Config) (mode : ResumeMode) (stepThread : ℕ) : Config :=
  let candidate := if mode = .continueAll then 1 else stepThread
  { c with
    coordinator := { c.coordinator with
      stopOwner := c.normalizeStopOwner (if candidate ≠ 0 then candidate else 1)
      stopReason := {.interrupt}
      stopSignal := SIGINT
      pendingInterrupt := false
      resumeStarting := false
      mainExecuting := false }
    signals := c.signals.commit SIGINT false
    main := { c.main with place := .returned ∅ } }

/-- The first section of `NativeDebuggerBeginExecution`. -/
def beginExecution (c : Config) (mode : ResumeMode) (stepThread : ℕ) (runMain : Bool) :
    Config :=
  let d := c.coordinator
  let c : Config := { c with
    assertionFailed := c.assertionFailed || d.executingWorkers != 0 || d.state != RunState.stopped
    coordinator := { d with resumeMode := mode, stepThread := stepThread } }
  if d.pendingInterrupt then c.consumeInterrupt mode stepThread
  else
    { c with
      coordinator := { c.coordinator with resumeStarting := true }
      main := { c.main with place := .selected mode stepThread runMain false } }

/-- `NativeDebuggerReemitPendingStop`, after `ConsumePendingGuestStop`. -/
def reemitPendingStop (c : Config) : Config :=
  let signal := c.signals.pendingGuestFatalSignal
  let c : Config := { c with
    signals := { c.signals with guestStopSignal := signal, reemitPendingGuestStop := false }
    coordinator := { c.coordinator with state := .stopped, stopSignal := signal } }
  c.answer (.stop c.coordinator.stopReason signal)

/-- A command for a thread that cannot be resumed. The debugger is told the coordinator's signal,
    which is that of the last stop. -/
def refuse (c : Config) : Config :=
  answer { c with signals := c.signals.commit SIGTRAP false }
    (.stop {.trap} c.coordinator.stopSignal)

/-- The thread that a command names. -/
def targetThread (c : Config) : Target → ℕ
  | .thread id => id
  | .any | .all => c.coordinator.stopOwner

/-- `Dynarmic_debugger_continue` and `Dynarmic_debugger_step` up to the first section of
    `NativeDebuggerBeginExecution`. -/
def handOut (c : Config) : Command → Config
  | .continue .all => c.beginExecution .continueAll 0 true
  | .continue target =>
    let id := c.targetThread target
    if !c.threadResumable id then c.refuse
    else c.beginExecution .continueOne id (id == 1 || id == 2)
  | .step target continueOtherThreads =>
    let id := c.targetThread target
    if !c.threadResumable id then c.refuse
    else
      c.beginExecution (if continueOtherThreads then .stepOneContinueOthers else .stepOne) id
        (id == 1 || id == 2 || continueOtherThreads)

def command (c : Config) (command : Command) : Config :=
  if c.main.place ≠ .protocol then c
  else if c.signals.reemitPendingGuestStop ∧ 0 < c.signals.pendingGuestFatalSignal then
    c.reemitPendingStop
  else
    handOut { c with signals := { c.signals with reemitPendingGuestStop := false } } command

/-- `ClearAllGuestJitHalts(LC32HaltReasonDebuggerPause)` between the two sections. -/
def clearHalts (c : Config) : Config :=
  match c.main.place with
  | .selected mode stepThread runMain _ =>
    { c with
      main := { c.main with
        halts := c.main.halts \ {.debuggerPause}
        place := .selected mode stepThread runMain true }
      workers := c.workers.map fun w => { w with halts := w.halts \ {.debuggerPause} } }
  | _ => c

/-- The loop that a command runs on the main runner. -/
def commandLoop (mode : ResumeMode) (stepThread : ℕ) (generation : ℕ) : LoopKind :=
  if (mode = .stepOne ∨ mode = .stepOneContinueOthers) ∧ (stepThread = 1 ∨ stepThread = 2) then
    .step generation
  else .resume

/-- The second section of `NativeDebuggerBeginExecution`. -/
def publish (c : Config) : Config :=
  match c.main.place with
  | .selected mode stepThread runMain true =>
    let d := c.coordinator
    if d.pendingInterrupt then c.consumeInterrupt mode stepThread
    else
      { c with
        coordinator := { d with
          state := .running
          mainExecuting := runMain
          resumeStarting := false
          generation := d.generation + 1 }
        debuggerAllStopRequested := false
        main := if runMain then { c.main with
            place := .ready
            loops := commandLoop mode stepThread (d.generation + 1) :: c.main.loops }
          else { c.main with place := .returned ∅, loops := .resume :: c.main.loops } }
  | _ => c

/-! ### The main runner's loops -/

/-- `LC32InvokeGuestC` returns into the host call. -/
def endMainCallback (c : Config) : Config :=
  { c with main := { c.main with place := .host, loops := c.main.loops.tail } }

/-- `Dynarmic_emu_1start` has returned without the callback being done:
    `Dynarmic_debugger_begin_main_callback_stop`. -/
def callbackStop (c : Config) (reason : HaltReason) : Config :=
  if .exit ∈ reason ∨ c.coordinator.state = .stopped then c.endMainCallback
  else { c with main := { c.main with place := .returned reason } }

def afterCallbackRun (c : Config) (reason : HaltReason) : Config :=
  if .retFromGuest ∈ reason then c.endMainCallback else c.callbackStop reason

/-- `Dynarmic_emu_1start` after `Jit::Run` returned `reason`. -/
def afterStartRun (c : Config) (reason : HaltReason) : Config :=
  if .workqueue ∈ reason then
    if reason \ {.workqueue} = ∅ then { c with main := { c.main with place := .host } }
    else c.afterCallbackRun (reason \ {.workqueue})
  else if .svc ∉ reason then c.afterCallbackRun reason
  else { c with main := { c.main with place := .host } }

/-- `Dynarmic_emu_1resume` or `Dynarmic_emu_1step` has returned to the command. Inside a callback
    stop the end of the callback belongs to the host call below. -/
def afterCommandRun (c : Config) (reason : HaltReason) : Config :=
  if 1 < c.main.loops.length ∧ .retFromGuest ∈ reason then
    { c with
      replies := .callbackReturned :: c.replies
      main := { c.main with place := .host, loops := c.main.loops.tail.tail } }
  else { c with main := { c.main with place := .returned reason } }

/-- `Dynarmic_emu_1resume` or `Dynarmic_emu_1step` after `Jit::Run` returned `reason`. -/
def afterResumeRun (c : Config) (stepping : Bool) (reason : HaltReason) : Config :=
  if .workqueue ∈ reason then
    if remainingReason stepping reason = ∅ then { c with main := { c.main with place := .host } }
    else c.afterCommandRun (remainingReason stepping reason)
  else if .svc ∉ reason then c.afterCommandRun reason
  else if reason \ {.svc} ≠ ∅ then
    afterCommandRun { c with main := { c.main with guestDeferredSVC := true } } (reason \ {.svc})
  else { c with main := { c.main with place := .host } }

def mainLeave (c : Config) (raised : HaltReason) : Config :=
  let reason := (raised ∪ c.main.halts) \ {.threadState, .cacheInvalidation}
  let c := { c with main := { c.main with halts := ∅ } }
  if reason = ∅ then { c with main := { c.main with place := .ready } }
  else match c.main.loops with
    | .start :: _ => c.afterStartRun reason
    | .resume :: _ => c.afterResumeRun false reason
    | .step _ :: _ | .drain _ :: _ => c.afterResumeRun true reason
    | [] => c

/-- The end of a service in `Dynarmic_emu_1step`. -/
def stepServiceDone (c : Config) (generation : ℕ) (loops : List LoopKind) : ServiceOutcome → Config
  | .continues => { c with main := { c.main with place := .ready } }
  | .drains =>
    { c with main := { c.main with place := .ready, loops := .drain generation :: loops } }
  | .steps => { c with main := { c.main with place := .returned {.step} } }
  | .fails => { c with main := { c.main with place := .returned {.trap} } }

def mainServiceDone (c : Config) (outcome : ServiceOutcome) : Config :=
  match c.main.loops with
  | .start :: _ =>
    if outcome = .fails then c.afterCallbackRun {.trap}
    else { c with main := { c.main with place := .ready } }
  | .resume :: _ =>
    { c with main := { c.main with
      place :=
        if outcome = .fails then .returned {.trap}
        else if c.mainContextMayRun then .ready
        else .returned {.step} } }
  | .step generation :: loops | .drain generation :: loops =>
    c.stepServiceDone generation loops outcome
  | [] => c

def mainRun (c : Config) : Config :=
  if c.main.guestDeferredSVC ∧ c.main.loops.head? ≠ some .start then
    { c with main := { c.main with guestDeferredSVC := false, place := .host } }
  else { c with main := { c.main with place := .guest } }

/-- `NativeDebuggerCompleteStop` returns to the command. -/
def completeStop (c : Config) : Config :=
  let d := c.coordinator
  let c : Config := { c with
    coordinator := { d with state := if d.state = .stopping then .stopped else d.state }
    signals := { c.signals with guestStopSignal := d.stopSignal }
    main := { c.main with loops := c.main.loops.dropWhile (· != .start) } }
  c.answer (.stop d.stopReason d.stopSignal)

/-! ### Steps -/

/-- One event; an event that cannot happen changes nothing. -/
def step (c : Config) : Event → Config
  | .worker i event =>
    match c.workers[i]? with
    | none => c
    | some w =>
      { c.put i (w.step c.coordinator c.debuggerAllStopRequested (i + 3) event) with
        executed :=
          if event = .instruction ∧ w.place = .guest ∧ w.halts = ∅ then c.executed + 1
          else c.executed }
  | .workerTransfer i =>
    match c.workers[i]? with
    | some w =>
      if w.place = .terminated then (c.transferStopOwner (i + 3) 1).put i w.retire else c
    | none => c
  | .createWorker => { c with workers := c.workers ++ [{}] }
  | .requestStop owner reason forcedSignal forcedPendingSignal queueWhileStopped current =>
    c.requestStop owner reason forcedSignal forcedPendingSignal queueWhileStopped current
  | .haltAll => c.haltAll
  | .setResumeSignal signal =>
    if c.main.place = .protocol then { c with signals := c.signals.setResumeSignal signal } else c
  | .resolvePendingStop =>
    if c.main.place = .protocol then { c with signals := c.signals.resolvePendingStop } else c
  | .command command => c.command command
  | .clearHalts => c.clearHalts
  | .publish => c.publish
  | .mainRepublish =>
    if c.main.place = .ready ∧ c.main.loops.head? ≠ some .start then
      { c with main := { c.main with place := .returned ∅ } }
    else c
  | .mainRun => if c.main.place = .ready then c.mainRun else c
  | .mainInstruction =>
    if c.main.place = .guest ∧ c.main.halts = ∅ then
      match c.main.loops with
      | .step _ :: _ =>
        { c with main := { c.main with halts := {.step} }, executed := c.executed + 1 }
      | _ => { c with executed := c.executed + 1 }
    else c
  | .mainLeave raised => if c.main.place = .guest then c.mainLeave raised else c
  | .mainServiceDone outcome => if c.main.place = .host then c.mainServiceDone outcome else c
  | .mainCallback =>
    if c.main.place = .host then
      { c with main := { c.main with place := .ready, loops := .start :: c.main.loops } }
    else c
  | .overlayEnter =>
    if c.main.place = .host ∧ !c.overlayActive then
      { c with overlayActive := true, main := { c.main with place := .switching 1 2 } }
    else c
  | .overlayLeave =>
    if c.main.place = .host ∧ c.overlayActive then
      { c with overlayActive := false, main := { c.main with place := .switching 2 1 } }
    else c
  | .mainTransfer =>
    match c.main.place with
    | .switching previous replacement =>
      let c := c.transferStopOwner previous replacement
      { c with main := { c.main with place := .host } }
    | _ => c
  | .mainSuperseded =>
    match c.main.place, c.main.loops with
    | .returned reason, .step generation :: loops | .returned reason, .drain generation :: loops =>
      if generation ≠ c.coordinator.generation ∧ c.mainContextMayRun
          ∧ (visibleReason reason = ∅ ∨ visibleReason reason = {.step}) then
        { c with main := { c.main with place := .ready, loops := .resume :: loops } }
      else c
    | _, _ => c
  | .completeBegin =>
    match c.main.place with
    | .returned _ =>
      { c with
        coordinator := { c.coordinator with mainExecuting := false }
        main := { c.main with place := .completing } }
    | _ => c
  | .completeStop =>
    if c.main.place = .completing ∧ c.coordinator.state ≠ .running
        ∧ c.coordinator.executingWorkers = 0 then c.completeStop
    else c

end Config

/-- The state after `Dynarmic_emu_1set_1debugger_1enabled(true)`, before any worker exists. -/
def initial : Config := {}

end LiveExec32.AllStop
