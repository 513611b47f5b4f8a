import LiveExec32.Psynch.Basic

/-! # Pauses inside a host wait

A thread that blocks in a psynch or ulock wait may be asked to stop by the debugger or to publish
its registers for another thread. It then leaves the wait mutex, goes through the pause functions
below one load or one critical section at a time, and comes back with the answer of
`NativeDebuggerPauseHostWaitIfNeeded`. The requests themselves come from outside: the environment
may change between any two of these steps. -/

namespace LiveExec32.Psynch

/-! ## The requests -/

inductive NativeDebuggerRunState where
  | disabled
  | stopped
  | running
  | stopping
  | shuttingDown
deriving DecidableEq, Repr

inductive NativeDebuggerResumeMode where
  | continueAll
  | continueOne
  | stepOne
  | stepOneContinueOthers
deriving DecidableEq, Repr

structure NativeDebuggerCoordinator where
  state : NativeDebuggerRunState := .disabled
  resumeMode : NativeDebuggerResumeMode := .continueAll
  stepThread : ℕ := 1
deriving DecidableEq, Repr

/-- The part of `NativeThreadStateSlot` that decides whether its owner has to pause. -/
structure NativeThreadStateSlot where
  requestedGeneration : ℕ := 0
  releasedGeneration : ℕ := 0
  ownerExited : Bool := false
  suspendCount : ℕ := 0
deriving DecidableEq, Repr

/-- What a host thread knows about itself. The main emulator thread has no `nativeGuestRuntime`. -/
structure HostThread where
  hasRuntime : Bool
  nativeGuestThreadId : ℕ
  debuggerId : ℕ
  threadPort : U32
deriving DecidableEq, Repr

/-- The flags and requests that other parties set. -/
structure Environment where
  /-- `NativeDebuggerActive()`. -/
  debuggerActive : Bool := false
  debuggerAllStopRequested : Bool := false
  nativeShutdownRequested : Bool := false
  guestProcessExitRequested : Bool := false
  nativeDebugger : NativeDebuggerCoordinator := {}
  /-- The slot of each thread. -/
  threadState : ℕ → NativeThreadStateSlot := fun _ => {}
  /-- `nativeGuestThreadRetiring` of each thread. -/
  retiring : ℕ → Bool := fun _ => false
  /-- The thread ports that `GuestUlockTargetThreadExists` finds. -/
  liveThreadPorts : List U32 := []

def nativeThreadStatePauseRequested (slot : NativeThreadStateSlot) : Bool :=
  decide (slot.suspendCount ≠ 0) || decide (slot.requestedGeneration > slot.releasedGeneration)

def nativeDebuggerRunsThreadLocked (debugger : NativeDebuggerCoordinator) (threadId : ℕ) : Bool :=
  match debugger.resumeMode with
  | .continueAll | .stepOneContinueOthers => true
  | .continueOne | .stepOne => decide (debugger.stepThread = threadId)

def nativeDebuggerStepsThreadLocked (debugger : NativeDebuggerCoordinator) (threadId : ℕ) : Bool :=
  (decide (debugger.resumeMode = .stepOne) || decide (debugger.resumeMode = .stepOneContinueOthers))
    && decide (debugger.stepThread = threadId)

/-- What ends the sleep of a waiter besides its own signal. -/
def Environment.interrupts (environment : Environment) (thread : ℕ) : Bool :=
  nativeThreadStatePauseRequested (environment.threadState thread)
    || environment.debuggerAllStopRequested
    || environment.nativeShutdownRequested
    || environment.guestProcessExitRequested

/-! ## `NativeDebuggerPauseHostWaitIfNeeded` -/

/-- Where a thread is in `NativeDebuggerPauseHostWaitIfNeeded`. -/
inductive DebuggerPauseStage where
  | loadShutdown
  | loadExit
  | loadActive
  | loadAllStop
  | coordinator
  | parked
deriving DecidableEq, Repr

/-- What one step of it leads to. A finished call says whether the thread was paused, and what it
    stored in `nativeDebuggerHostWaitStep`, if it stored anything. -/
inductive DebuggerPauseStep where
  | goto (stage : DebuggerPauseStage)
  | finished (paused : Bool) (hostWaitStep : Option Bool)
  | blocked
deriving DecidableEq, Repr

def nativeDebuggerPauseHostWaitIfNeeded (environment : Environment) (host : HostThread)
    (thread : ℕ) : DebuggerPauseStage → DebuggerPauseStep
  | .loadShutdown =>
    if environment.nativeShutdownRequested then .finished true none else .goto .loadExit
  | .loadExit =>
    if environment.guestProcessExitRequested then .finished true none else .goto .loadActive
  | .loadActive =>
    if !environment.debuggerActive then .finished false none else .goto .loadAllStop
  | .loadAllStop =>
    if !environment.debuggerAllStopRequested then .finished false none
    else if !host.hasRuntime || decide (host.nativeGuestThreadId ≤ 1) then .finished true none
    else .goto .coordinator
  | .coordinator =>
    if environment.nativeDebugger.state = .running then .finished false none
    else .goto .parked
  | .parked =>
    if !environment.debuggerActive || environment.retiring thread
        || decide (environment.nativeDebugger.state = .shuttingDown) then
      .finished true (some false)
    else if environment.nativeDebugger.state = .running
        ∧ nativeDebuggerRunsThreadLocked environment.nativeDebugger host.debuggerId = true then
      .finished true
        (some (nativeDebuggerStepsThreadLocked environment.nativeDebugger host.debuggerId))
    else .blocked

/-! ## The pause as a whole -/

/-- Where a thread is between leaving the wait mutex and taking it again: at the head of the loop of
    `PublishNativeThreadStateAndWaitIfNeeded`, in the debugger pause inside that loop, whose answer
    is dropped, or in the debugger pause that follows. -/
inductive PauseStage where
  | threadState
  | nested (stage : DebuggerPauseStage)
  | debugger (stage : DebuggerPauseStage)
deriving DecidableEq, Repr

/-- The loop of `PublishNativeThreadStateAndWaitIfNeeded` goes round once more. -/
def Environment.holdsThread (environment : Environment) (thread : ℕ) : Bool :=
  nativeThreadStatePauseRequested (environment.threadState thread)
    && !(environment.threadState thread).ownerExited
    && !environment.retiring thread
    && !environment.nativeShutdownRequested
    && !environment.guestProcessExitRequested

/-- The wait ends with `EINTR` when its thread comes back from a pause. -/
def Environment.endsWait (environment : Environment) (host : HostThread)
    (hostWaitStep paused : Bool) : Bool :=
  paused && (!host.hasRuntime || hostWaitStep || environment.nativeShutdownRequested
    || environment.guestProcessExitRequested)

end LiveExec32.Psynch
