import LiveExec32.Lib.Execution

/-! # The guest callback executor

Host threads that own no guest JIT hand their guest callbacks to one guest thread, the executor. A
caller of `SubmitGuestCallback` queues a job and blocks until the job is completed or cancelled. The
executor runs `LC32GuestCallbackExecutorMain`: it waits for a job, runs it, and completes it before
it waits again. `ServiceGuestCallbackExecutorWait` releases the mutex while it copies the descriptor
to guest memory, so a stop may come between taking a job and marking it as delivered.

A run starts after `ResetGuestCallbackExecutor`, which is called once, before any guest thread
exists. Every event is one section under `guestCallbackExecutorMutex`. A job is named by the number
of the `SubmitGuestCallback` call that made it. Any guest thread may run the executor's main
function; the first one to wait becomes the executor.

The fields of `Executor` from `submitted` on are ghosts: the jobs in the order in which they were
queued and in which they were taken from the queue, the jobs that a guest thread was handed, and
those for which it called `LC32GuestCallbackExecutorComplete`. -/

namespace LiveExec32.Callback

abbrev U32 := BitVec 32

inductive GuestCallbackExecutorState where
  | unavailable
  | starting
  | ready
  | failed
  | stopping
deriving DecidableEq, Repr

inductive CallbackKind where
  | invoke
  | release
  | function
  | selector
deriving DecidableEq, Repr

/-- `LC32GuestBlockCallbackDescriptor`. -/
structure Descriptor where
  identifier : U32 := 0
  kind : CallbackKind
  guestBlock : U32 := 0
  guestInvoke : U32 := 0
deriving DecidableEq, Repr

structure GuestCallbackJob where
  descriptor : Descriptor
  delivered : Bool := false
  completed : Bool := false
  canceled : Bool := false
deriving DecidableEq, Repr

/-- Where a caller of `SubmitGuestCallback` is. -/
inductive SubmitStage where
  /-- It waits for the executor to start, for five seconds at most. -/
  | starting
  /-- It queued its job and waits for it. -/
  | waiting
  | returned (result : Bool)
deriving DecidableEq, Repr

structure Submit where
  job : GuestCallbackJob
  stage : SubmitStage
deriving DecidableEq, Repr

/-- Where a guest thread is in `LC32GuestCallbackExecutorMain`. -/
inductive ThreadStage where
  /-- At the top of the loop. -/
  | looping
  /-- In `ServiceGuestCallbackExecutorWait`, without a job. -/
  | waiting
  /-- In `ServiceGuestCallbackExecutorWait`, copying the descriptor out with the mutex released. -/
  | copying (job : ℕ) (descriptor : Descriptor)
  /-- In the callback, which it will complete under `identifier`. -/
  | running (job : ℕ) (identifier : U32)
  /-- Out of the loop. -/
  | leaving
  | exited
deriving DecidableEq, Repr

structure Executor where
  state : GuestCallbackExecutorState := .unavailable
  /-- `guestCallbackExecutorThreadId`; zero is no thread. -/
  threadId : ℕ := 0
  nextIdentifier : U32 := 1
  jobs : List ℕ := []
  activeJob : Option ℕ := none
  nativeShutdownRequested : Bool := false
  guestProcessExitRequested : Bool := false
  submits : List Submit := []
  threads : ℕ → ThreadStage := fun _ => .looping
  submitted : List ℕ := []
  taken : List ℕ := []
  handed : List ℕ := []
  finished : List ℕ := []

namespace Executor

def stopRequested (e : Executor) : Bool :=
  e.nativeShutdownRequested || e.guestProcessExitRequested

def updateSubmit (e : Executor) (j : ℕ) (change : Submit → Submit) : Executor :=
  { e with submits := e.submits.modify j change }

def updateJob (e : Executor) (j : ℕ) (change : GuestCallbackJob → GuestCallbackJob) : Executor :=
  e.updateSubmit j fun submit => { submit with job := change submit.job }

def setThread (e : Executor) (tid : ℕ) (stage : ThreadStage) : Executor :=
  { e with threads := Function.update e.threads tid stage }

/-! ## Cancelling -/

def cancelJob (e : Executor) (j : ℕ) : Executor :=
  e.updateJob j fun job => { job with canceled := true }

def cancelQueuedGuestCallbacksLocked (e : Executor) : Executor :=
  { e.jobs.foldl cancelJob e with jobs := [] }

/-- The active job, if there is one, is cancelled. -/
def cancelActiveJob (e : Executor) : Executor :=
  match e.activeJob with
  | some j => { e.cancelJob j with activeJob := none }
  | none => e

def stopGuestCallbackExecutor (e : Executor) : Executor :=
  if e.state = .unavailable then e
  else { e with state := .stopping }.cancelQueuedGuestCallbacksLocked

def guestCallbackExecutorThreadExited (e : Executor) (threadId : ℕ) : Executor :=
  if threadId ≠ e.threadId then e
  else
    let canceled := { e with threadId := 0 }.cancelActiveJob.cancelQueuedGuestCallbacksLocked
    { canceled with state := if e.state = .stopping then .stopping else .failed }

/-! ## Starting -/

/-- `available` is the rest of what is asked: native guest threads, the guest's entry point and a
    running lifecycle. -/
def guestCallbackExecutorSupported (e : Executor) (available : Bool) : Executor :=
  if !available || e.nativeShutdownRequested then e
  else if e.state ≠ .unavailable then e
  else { e with state := .starting }

def guestCallbackExecutorCreationResult (e : Executor) (error : U32) : Executor :=
  if e.state ≠ .starting then e
  else if error ≠ 0 then { e with state := .failed }
  else e

/-! ## Submitting -/

def returnSubmit (e : Executor) (j : ℕ) (result : Bool) : Executor :=
  e.updateSubmit j fun submit => { submit with stage := .returned result }

/-- `SubmitGuestCallback` from the point where the executor is not starting. -/
def enqueue (e : Executor) (j : ℕ) : Executor :=
  if e.state ≠ .ready || e.stopRequested then e.returnSubmit j false
  else
    let identifier := if e.nextIdentifier = 0 then e.nextIdentifier + 1 else e.nextIdentifier
    let queued := e.updateSubmit j fun submit =>
      { job := { submit.job with descriptor := { submit.job.descriptor with identifier } }
        stage := .waiting }
    { queued with
      nextIdentifier := identifier + 1
      jobs := e.jobs ++ [j]
      submitted := e.submitted ++ [j] }

def submitGuestCallback (e : Executor) (input : Descriptor) : Executor :=
  let called :=
    { e with submits := e.submits ++ [{ job := { descriptor := input }, stage := .starting }] }
  if e.state = .starting then called else called.enqueue e.submits.length

/-- The result of a submit whose wait has ended. -/
def submitResult (job : GuestCallbackJob) : Bool :=
  job.completed || (job.delivered && job.descriptor.kind = .release)

/-- A submit in `stage` goes on as `next` does. -/
def resumeSubmit (e : Executor) (j : ℕ) (stage : SubmitStage)
    (next : GuestCallbackJob → Executor) : Executor :=
  match e.submits[j]? with
  | some submit => if submit.stage = stage then next submit.job else e
  | none => e

/-! ## The executor thread -/

/-- `ServiceGuestCallbackExecutorWait` from the top of its loop to the point where it blocks,
    returns or releases the mutex. -/
def waitForJob (e : Executor) (tid : ℕ) : Executor :=
  if e.jobs.isEmpty && e.state = .ready && !e.stopRequested then e.setThread tid .waiting
  else if e.state ≠ .ready || e.stopRequested then e.setThread tid .leaving
  else
    match e.jobs with
    | [] => e.setThread tid .looping
    | j :: rest =>
      match e.submits[j]? with
      | none => e
      | some submit =>
        { e.setThread tid (.copying j submit.job.descriptor) with
          jobs := rest
          activeJob := some j
          taken := e.taken ++ [j] }

def serviceGuestCallbackExecutorWait (e : Executor) (tid : ℕ) (guestDescriptor : U32)
    (nativeThread : Bool) : Executor :=
  if guestDescriptor = 0 || !nativeThread || tid ≤ 1 then e.setThread tid .leaving
  else if e.state = .starting then
    { e with threadId := tid, state := .ready }.waitForJob tid
  else if e.state ≠ .ready || e.threadId ≠ tid then e.setThread tid .leaving
  else e.waitForJob tid

/-- The rest of `ServiceGuestCallbackExecutorWait`, after the descriptor was copied out or not. -/
def copiedOut (e : Executor) (tid j : ℕ) (descriptor : Descriptor) (written : Bool) : Executor :=
  if written then
    { (e.updateJob j fun job => { job with delivered := true }).setThread tid
        (.running j descriptor.identifier) with
      handed := e.handed ++ [j] }
  else { (e.cancelJob j).setThread tid .looping with activeJob := none }

/-- `ServiceGuestCallbackExecutorComplete`, and how the loop goes on. -/
def serviceGuestCallbackExecutorComplete (e : Executor) (tid : ℕ) (identifier : U32) : Executor :=
  match e.activeJob with
  | none => e.setThread tid .leaving
  | some j =>
    if e.threadId ≠ tid
        || e.submits[j]?.any (fun submit => submit.job.descriptor.identifier ≠ identifier) then
      e.setThread tid .leaving
    else
      let goesOn := e.state = .ready && !e.stopRequested
      { (e.updateJob j fun job => { job with completed := true }).setThread tid
          (if goesOn then .looping else .leaving) with
        activeJob := none }

/-! ## Runs -/

inductive Event where
  | supported (available : Bool)
  | creationResult (error : U32)
  | submit (input : Descriptor)
  /-- A caller that waits for the executor to start looks again. -/
  | submitReady (j : ℕ)
  | submitTimeout (j : ℕ)
  /-- A caller that waits for its job looks at it. -/
  | submitWake (j : ℕ)
  | wait (tid : ℕ) (guestDescriptor : U32) (nativeThread : Bool)
  | wake (tid : ℕ)
  /-- The waiting thread was paused, and a debugger step is pending. -/
  | debuggerStep (tid : ℕ)
  | copyOut (tid : ℕ) (written : Bool)
  | complete (tid : ℕ)
  | threadExited (tid : ℕ)
  | stop
  | requestShutdown
  | requestProcessExit

def step (e : Executor) : Event → Executor
  | .supported available => e.guestCallbackExecutorSupported available
  | .creationResult error => e.guestCallbackExecutorCreationResult error
  | .submit input => e.submitGuestCallback input
  | .submitReady j =>
    e.resumeSubmit j .starting fun _ => if e.state = .starting then e else e.enqueue j
  | .submitTimeout j =>
    e.resumeSubmit j .starting fun _ => if e.state = .starting then e.returnSubmit j false else e
  | .submitWake j =>
    e.resumeSubmit j .waiting fun job =>
      if job.completed || job.canceled then e.returnSubmit j (submitResult job) else e
  | .wait tid guestDescriptor nativeThread =>
    match e.threads tid with
    | .looping => e.serviceGuestCallbackExecutorWait tid guestDescriptor nativeThread
    | _ => e
  | .wake tid =>
    match e.threads tid with
    | .waiting => e.waitForJob tid
    | _ => e
  | .debuggerStep tid =>
    match e.threads tid with
    | .waiting => e.setThread tid .looping
    | _ => e
  | .copyOut tid written =>
    match e.threads tid with
    | .copying j descriptor => e.copiedOut tid j descriptor written
    | _ => e
  | .complete tid =>
    match e.threads tid with
    | .running j identifier =>
      { e.serviceGuestCallbackExecutorComplete tid identifier with
        finished := e.finished ++ [j] }
    | _ => e
  | .threadExited tid =>
    match e.threads tid with
    -- a thread inside the service call cannot reach its exit
    | .waiting | .copying .. | .exited => e
    | _ => (e.guestCallbackExecutorThreadExited tid).setThread tid .exited
  | .stop => e.stopGuestCallbackExecutor
  | .requestShutdown => { e with nativeShutdownRequested := true }
  | .requestProcessExit => { e with guestProcessExitRequested := true }

def run (e : Executor) (events : List Event) : Executor := Execution.run step e events

end Executor

end LiveExec32.Callback
