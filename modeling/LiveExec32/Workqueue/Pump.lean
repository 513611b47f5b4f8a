import LiveExec32.Lib.Execution
import LiveExec32.Workqueue.Events

/-! # The native workqueue pump

`PumpGuestWorkqueue` starts workers for the guest's workqueue. With native guest threads it is a
loop under `guestNativeWorkqueuePumpMutex`: count the workers, pick a job that a worker may be
started for, start it, and go round again until there is nothing left to start. Jobs come from four
places: jobs whose worker could not be started earlier (`guestNativeWorkqueuePendingJobs`),
requested threads, ready events, and compensation for workers that are blocked in the host.

Each round consists of several critical sections under different locks, and everything outside the
pump goes on in between. `PumpStage` says where the running pump stands; `advance` takes it to the
next stop, with a flag for what the host makes of it. The other parties (guest threads that request
workers, the timer waiter, message senders, workers that block, unblock and exit) move at any time.
They may change the event sources in any way.

Ghosts: a request is numbered, `requested` lists how many threads each request was for, `taken`
lists the jobs taken from requests and events, in order, `started` the workers that were started,
and `returns` the pumps that have returned. -/

namespace LiveExec32.Workqueue

def maxNativeGuestWorkqueueWorkers : ℕ := 4

/-! ## State -/

structure GuestWorkqueueRequest where
  remaining : ℤ
  priority : U32
  /-- Ghost: the number of the request. -/
  number : ℕ
deriving DecidableEq, Repr

structure GuestWorkqueueJob where
  delivery : GuestWorkqueueDelivery := {}
  priority : U32 := 0
  hasDelivery : Bool := false
  /-- Ghost: the position in `taken` of a job that was taken from a request or an event. -/
  ticket : Option ℕ := none
deriving DecidableEq, Repr

/-- The class of a job: a delivery to the event manager, or anything else. -/
def GuestWorkqueueJob.eventManager (job : GuestWorkqueueJob) : Bool :=
  job.hasDelivery && job.delivery.eventManager

/-- How far a worker is with a host block. Its two flags are stored one after the other. -/
inductive HostBlock where
  | outside
  /-- `workqueueHostBlocked` is set, `workqueueCompensationPending` is about to be set. -/
  | entering
  | inside
  /-- `workqueueCompensationPending` is cleared, `workqueueHostBlocked` is about to be cleared. -/
  | leaving
deriving DecidableEq, Repr

structure NativeGuestJit where
  /-- Until then the host thread waits, and runs no guest code. -/
  startAllowed : Bool := false
  workqueueEventManager : Bool := false
  workqueuePriority : U32 := 0
  workqueueHostBlocked : Bool := false
  workqueueCompensationPending : Bool := false
  /-- Where the worker's own thread stands. -/
  hostBlock : HostBlock := .outside
  /-- Ghost: an ordinary worker was started since this worker blocked last. -/
  relieved : Bool := false
deriving DecidableEq, Repr

structure GuestThreadContext where
  debuggerId : ℕ
  alive : Bool := true
  workqueue : Bool := false
  nativeJit : Option NativeGuestJit := none
  /-- The thread is in a `PumpGuestWorkqueue` call and waits for the pump mutex. -/
  pumping : Bool := false
deriving DecidableEq, Repr

/-- What a round of the pump finds out about the workers. -/
structure Census where
  ordinaryWorkers : ℕ := 0
  blockedOrdinaryWorkers : ℕ := 0
  eventManagerActive : Bool := false
  compensationPriority : U32 := 0
  compensationThreadId : ℕ := 0
deriving DecidableEq, Repr

def Census.allowOrdinary (census : Census) : Bool :=
  decide (census.ordinaryWorkers < maxNativeGuestWorkqueueWorkers)

def Census.allowEventManager (census : Census) : Bool := !census.eventManagerActive

/-- A job with what `PumpGuestWorkqueue` does when its worker cannot be started. -/
structure ChosenJob where
  job : GuestWorkqueueJob
  retryJobOnFailure : Bool
deriving DecidableEq, Repr

inductive PumpStage where
  /-- At the top of the loop. -/
  | counting
  /-- Between the census and the critical section that chooses a job. -/
  | choosing (census : Census)
  /-- In `StartNativeGuestWorkqueueWorker`, before the thread is registered. -/
  | starting (census : Census) (chosen : ChosenJob)
  /-- The thread is registered, and `pthread_create` is called. -/
  | creating (census : Census) (chosen : ChosenJob) (debuggerId : ℕ)
  /-- The start failed: the job is to be put back. -/
  | restoring (job : GuestWorkqueueJob)
  /-- The worker was started for `job`: the compensation it may be is to be noted. -/
  | settling (census : Census) (job : GuestWorkqueueJob)
deriving DecidableEq, Repr

structure Pump where
  stage : PumpStage := .counting
  startedWorker : Bool := false
deriving DecidableEq, Repr

/-- A job taken from its source; `request` is the request it was a unit of. -/
structure TakenJob where
  job : GuestWorkqueueJob
  request : Option ℕ
deriving DecidableEq, Repr

inductive GuestWorkqueuePumpResult where
  | none
  | cooperativeTransition
  | nativeWorkerStarted
deriving DecidableEq, Repr

/-- A pump that has returned, and whether it left its loop because a start failed. -/
structure PumpReturn where
  result : GuestWorkqueuePumpResult
  startFailed : Bool
deriving DecidableEq, Repr

structure StartedWorker where
  debuggerId : ℕ
  job : GuestWorkqueueJob
deriving DecidableEq, Repr

structure Config where
  /-- `guest_workqueue_opened`. -/
  opened : Bool := false
  eventManagerPriority : U32 := 0
  requests : List GuestWorkqueueRequest := []
  pendingJobs : List GuestWorkqueueJob := []
  sources : EventSources := {}
  threads : List GuestThreadContext := []
  /-- `guestNextDebuggerThreadId`; zero is no thread. -/
  nextDebuggerId : ℕ := 3
  /-- The pump that holds `guestNativeWorkqueuePumpMutex`. -/
  pump : Option Pump := none
  requested : List ℕ := []
  taken : List TakenJob := []
  started : List StartedWorker := []
  returns : List PumpReturn := []
deriving DecidableEq

/-! ## One round of the pump -/

def Census.count (census : Census) (thread : GuestThreadContext) : Census :=
  match thread.nativeJit with
  | none => census
  | some jit =>
    if !thread.alive || !thread.workqueue then census
    else if jit.workqueueEventManager then { census with eventManagerActive := true }
    else if !jit.workqueueHostBlocked then
      { census with ordinaryWorkers := census.ordinaryWorkers + 1 }
    else if census.compensationThreadId == 0 && jit.workqueueCompensationPending then
      { census with
        ordinaryWorkers := census.ordinaryWorkers + 1
        blockedOrdinaryWorkers := census.blockedOrdinaryWorkers + 1
        compensationPriority := jit.workqueuePriority
        compensationThreadId := thread.debuggerId }
    else
      { census with
        ordinaryWorkers := census.ordinaryWorkers + 1
        blockedOrdinaryWorkers := census.blockedOrdinaryWorkers + 1 }

def census (threads : List GuestThreadContext) : Census := threads.foldl Census.count {}

/-- A worker may be started for `job` now. -/
def Census.eligible (census : Census) (job : GuestWorkqueueJob) : Bool :=
  if job.eventManager then census.allowEventManager else census.allowOrdinary

/-- The job for a unit of a request. -/
def requestJob (request : GuestWorkqueueRequest) (ticket : ℕ) : GuestWorkqueueJob :=
  { priority := request.priority, ticket := some ticket }

/-- The requests after a unit of the first one was taken. -/
def takeUnit (request : GuestWorkqueueRequest) (rest : List GuestWorkqueueRequest) :
    List GuestWorkqueueRequest :=
  if request.remaining - 1 ≤ 0 then rest
  else { request with remaining := request.remaining - 1 } :: rest

/-- The job for a delivered event. -/
def deliveryJob (eventManagerPriority : U32) (delivery : GuestWorkqueueDelivery) (ticket : ℕ) :
    GuestWorkqueueJob :=
  { delivery
    priority := if delivery.eventManager then eventManagerPriority else delivery.event.qos
    hasDelivery := true
    ticket := some ticket }

/-- XNU starts another worker when all constrained workers are asleep in the kernel. -/
def Census.compensates (census : Census) : Bool :=
  census.allowOrdinary && census.ordinaryWorkers != 0
    && census.blockedOrdinaryWorkers == census.ordinaryWorkers && census.compensationThreadId != 0

/-- A job is taken for a ready event, or made up for compensation. -/
def chooseEvent (c : Config) (census : Census) : Option ChosenJob × Config :=
  match nextGuestWorkqueueEvent c.sources census.allowEventManager census.allowOrdinary with
  | (some delivery, sources) =>
    let job := deliveryJob c.eventManagerPriority delivery c.taken.length
    (some ⟨job, true⟩, { c with sources, taken := c.taken ++ [⟨job, none⟩] })
  | (none, sources) =>
    (if census.compensates then some ⟨{ priority := census.compensationPriority }, false⟩ else none,
      { c with sources })

/-- The critical section of `guestWorkqueueMutex` in which a round chooses its job. -/
def chooseJob (c : Config) (census : Census) : Option ChosenJob × Config :=
  match c.pendingJobs.find? census.eligible with
  | some job => (some ⟨job, true⟩, { c with pendingJobs := c.pendingJobs.eraseP census.eligible })
  | none =>
    let c := { c with requests := c.requests.dropWhile (fun request => request.remaining ≤ 0) }
    match census.allowOrdinary, c.requests with
    | true, request :: rest =>
      let job := requestJob request c.taken.length
      (some ⟨job, true⟩,
        { c with
          requests := takeUnit request rest
          taken := c.taken ++ [⟨job, some request.number⟩] })
    | _, _ => chooseEvent c census

/-- What the choice of a job can do. -/
inductive Chooses (c : Config) (census : Census) : Option ChosenJob → Config → Prop where
  | pending {before after : List GuestWorkqueueJob} {job : GuestWorkqueueJob}
      (hpending : c.pendingJobs = before ++ job :: after) (heligible : census.eligible job = true)
      (hbefore : ∀ earlier ∈ before, census.eligible earlier = false) :
      Chooses c census (some ⟨job, true⟩) { c with pendingJobs := before ++ after }
  | request {request : GuestWorkqueueRequest} {rest : List GuestWorkqueueRequest}
      (hpending : ∀ job ∈ c.pendingJobs, census.eligible job = false)
      (hordinary : census.allowOrdinary = true)
      (hrequests : c.requests.dropWhile (fun request => request.remaining ≤ 0) = request :: rest) :
      Chooses c census (some ⟨requestJob request c.taken.length, true⟩)
        { c with
          requests := takeUnit request rest
          taken := c.taken ++ [⟨requestJob request c.taken.length, some request.number⟩] }
  | event {delivery : GuestWorkqueueDelivery} {sources : EventSources}
      (hpending : ∀ job ∈ c.pendingJobs, census.eligible job = false)
      (hnext : nextGuestWorkqueueEvent c.sources census.allowEventManager census.allowOrdinary
        = (some delivery, sources)) :
      Chooses c census (some ⟨deliveryJob c.eventManagerPriority delivery c.taken.length, true⟩)
        { c with
          requests := c.requests.dropWhile (fun request => request.remaining ≤ 0)
          sources
          taken := c.taken
            ++ [⟨deliveryJob c.eventManagerPriority delivery c.taken.length, none⟩] }
  | compensation {sources : EventSources}
      (hnext : nextGuestWorkqueueEvent c.sources census.allowEventManager census.allowOrdinary
        = (none, sources)) (hcompensates : census.compensates = true) :
      Chooses c census (some ⟨{ priority := census.compensationPriority }, false⟩)
        { c with
          requests := c.requests.dropWhile (fun request => request.remaining ≤ 0)
          sources }
  | nothing {sources : EventSources}
      (hnext : nextGuestWorkqueueEvent c.sources census.allowEventManager census.allowOrdinary
        = (none, sources)) :
      Chooses c census none
        { c with
          requests := c.requests.dropWhile (fun request => request.remaining ≤ 0)
          sources }

theorem chooseJob_chooses (c : Config) (census : Census) :
    Chooses c census (chooseJob c census).1 (chooseJob c census).2 := by
  unfold chooseJob
  cases hfind : c.pendingJobs.find? census.eligible with
  | some =>
    obtain ⟨heligible, before, after, hpending, hbefore⟩ := List.find?_eq_some_iff_append.1 hfind
    have hbefore : ∀ earlier ∈ before, census.eligible earlier = false := fun earlier h => by
      simpa using hbefore earlier h
    have herase : c.pendingJobs.eraseP census.eligible = before ++ after := by
      rw [hpending, List.eraseP_append_right _ (by simpa using hbefore),
        List.eraseP_cons_of_pos heligible]
    simp only [herase]
    exact .pending hpending heligible hbefore
  | none =>
    have hpending : ∀ job ∈ c.pendingJobs, census.eligible job = false := by
      simpa using List.find?_eq_none.1 hfind
    simp only
    split
    · next hordinary hrequests => exact .request hpending hordinary hrequests
    · unfold chooseEvent
      cases hnext : nextGuestWorkqueueEvent c.sources census.allowEventManager
          census.allowOrdinary with
      | mk delivery =>
        cases delivery with
        | some => exact .event hpending hnext
        | none =>
          simp only
          split
          · next hcompensates => exact .compensation hnext hcompensates
          · exact .nothing hnext

/-- The thread that `StartNativeGuestWorkqueueWorker` registers. -/
def workerThread (debuggerId : ℕ) (job : GuestWorkqueueJob) : GuestThreadContext :=
  { debuggerId
    workqueue := true
    nativeJit := some
      { workqueueEventManager := job.eventManager, workqueuePriority := job.priority } }

/-- Change the live thread `debuggerId`. -/
def updateThread (debuggerId : ℕ) (change : GuestThreadContext → GuestThreadContext)
    (threads : List GuestThreadContext) : List GuestThreadContext :=
  Records.modifyFirst (fun thread => thread.debuggerId == debuggerId && thread.alive) change threads

/-- No compensation is due any more for this worker. -/
def GuestThreadContext.compensated (thread : GuestThreadContext) : GuestThreadContext :=
  if thread.workqueue then
    { thread with
      nativeJit := thread.nativeJit.map ({ · with workqueueCompensationPending := false }) }
  else thread

/-- The end of a successful round: the thread found by the census gets no further compensation. -/
def settle (census : Census) (threads : List GuestThreadContext) : List GuestThreadContext :=
  if census.compensationThreadId = 0 then threads
  else updateThread census.compensationThreadId GuestThreadContext.compensated threads

/-- The thread may run. -/
def GuestThreadContext.allowStart (thread : GuestThreadContext) : GuestThreadContext :=
  { thread with nativeJit := thread.nativeJit.map ({ · with startAllowed := true }) }

/-- Ghost: an ordinary worker was started. -/
def relieve (threads : List GuestThreadContext) : List GuestThreadContext :=
  threads.map fun thread =>
    { thread with nativeJit := thread.nativeJit.map ({ · with relieved := true }) }

namespace Config

def goto (c : Config) (stage : PumpStage) : Config :=
  { c with pump := c.pump.map ({ · with stage }) }

/-- The pump leaves its loop and returns. -/
def leave (c : Config) (startFailed : Bool) : Config :=
  match c.pump with
  | none => c
  | some pump =>
    { c with
      pump := none
      threads := c.threads.map ({ · with pumping := false })
      returns := c.returns
        ++ [⟨if pump.startedWorker then .nativeWorkerStarted else .none, startFailed⟩] }

/-- `StartNativeGuestWorkqueueWorker` returned false. -/
def startFailed (c : Config) (chosen : ChosenJob) : Config :=
  if chosen.retryJobOnFailure then c.goto (.restoring chosen.job) else c.leave true

/-- The running pump goes on to its next stop. `succeeds` is what the host makes of a start. -/
def advance (c : Config) (succeeds : Bool) : PumpStage → Config
  | .counting =>
    let census := census c.threads
    if !census.allowOrdinary && !census.allowEventManager then c.leave false
    else c.goto (.choosing census)
  | .choosing census =>
    if !c.opened then c.leave false
    else
      match chooseJob c census with
      | (none, c) => c.leave false
      | (some chosen, c) => c.goto (.starting census chosen)
  | .starting census chosen =>
    if !succeeds then { c with nextDebuggerId := c.nextDebuggerId + 1 }.startFailed chosen
    else
      { c with
        threads := c.threads ++ [workerThread c.nextDebuggerId chosen.job]
        nextDebuggerId := c.nextDebuggerId + 1 }.goto (.creating census chosen c.nextDebuggerId)
  | .creating census chosen debuggerId =>
    if !succeeds then
      { c with threads := c.threads.filter (fun thread => thread.debuggerId != debuggerId) }
        |>.startFailed chosen
    else
      { c with
        started := c.started ++ [⟨debuggerId, chosen.job⟩]
        threads := updateThread debuggerId GuestThreadContext.allowStart
          (if chosen.job.eventManager then c.threads else relieve c.threads)
        pump := some ⟨.settling census chosen.job, true⟩ }
  | .restoring job => { c with pendingJobs := job :: c.pendingJobs }.leave true
  | .settling census _ => { c with threads := settle census c.threads }.goto .counting

end Config

/-! ## Events -/

/-- The next store of `NativeGuestWorkqueueHostBlockEnter`. It counts how deep the blocks are
    nested, and only the outermost one has an effect: the flags are set, and the worker goes on to
    pump. -/
def GuestThreadContext.hostBlockEnter (thread : GuestThreadContext) : GuestThreadContext :=
  match thread.nativeJit with
  | none => thread
  | some jit =>
    if !thread.workqueue || !jit.startAllowed then thread
    else
      match jit.hostBlock with
      | .outside =>
        { thread with
          nativeJit := some
            { jit with workqueueHostBlocked := true, hostBlock := .entering, relieved := false } }
      | .entering =>
        { thread with
          nativeJit := some { jit with workqueueCompensationPending := true, hostBlock := .inside }
          pumping := true }
      | .inside | .leaving => thread

/-- The next store of `NativeGuestWorkqueueHostBlockExit`, for the outermost block. -/
def GuestThreadContext.hostBlockExit (thread : GuestThreadContext) : GuestThreadContext :=
  match thread.nativeJit with
  | none => thread
  | some jit =>
    if !thread.workqueue || thread.pumping then thread
    else
      match jit.hostBlock with
      | .inside =>
        { thread with
          nativeJit := some
            { jit with workqueueCompensationPending := false, hostBlock := .leaving } }
      | .leaving =>
        { thread with
          nativeJit := some { jit with workqueueHostBlocked := false, hostBlock := .outside } }
      | .outside | .entering => thread

/-- The thread leaves the registry's live threads. -/
def GuestThreadContext.exited (thread : GuestThreadContext) : GuestThreadContext :=
  if thread.pumping || !thread.nativeJit.elim true (·.startAllowed) then thread
  else { thread with alive := false }

inductive Event where
  | openWorkqueue
  | setEventManagerPriority (priority : U32)
  /-- `WQOPS_QUEUE_REQTHREADS`. -/
  | requestThreads (count : ℤ) (priority : U32)
  /-- Registrations change, timers expire, messages arrive or are received. -/
  | changeSources (sources : EventSources)
  /-- Another thread is registered that is no workqueue worker. -/
  | createThread
  | exitThread (debuggerId : ℕ)
  | hostBlockEnter (debuggerId : ℕ)
  | hostBlockExit (debuggerId : ℕ)
  /-- Some thread calls `PumpGuestWorkqueue`; it has to wait while another pump runs. -/
  | pump
  | advance (succeeds : Bool)

def step (c : Config) : Event → Config
  | .openWorkqueue => { c with opened := true }
  | .setEventManagerPriority priority => { c with eventManagerPriority := priority }
  | .requestThreads count priority =>
    if !c.opened || decide (count ≤ 0) || decide (4096 < count) then c
    else
      { c with
        requests := c.requests ++ [⟨count, priority, c.requested.length⟩]
        requested := c.requested ++ [count.toNat] }
  | .changeSources sources => { c with sources }
  | .createThread =>
    { c with
      threads := c.threads ++ [{ debuggerId := c.nextDebuggerId }]
      nextDebuggerId := c.nextDebuggerId + 1 }
  | .exitThread debuggerId => { c with threads := updateThread debuggerId .exited c.threads }
  | .hostBlockEnter debuggerId =>
    { c with threads := updateThread debuggerId .hostBlockEnter c.threads }
  | .hostBlockExit debuggerId =>
    { c with threads := updateThread debuggerId .hostBlockExit c.threads }
  | .pump => if c.pump.isSome then c else { c with pump := some {} }
  | .advance succeeds =>
    match c.pump with
    | none => c
    | some pump => c.advance succeeds pump.stage

def run (c : Config) (events : List Event) : Config := Execution.run step c events

end LiveExec32.Workqueue
