import LiveExec32.Lib.Execution
import LiveExec32.Psynch.Calls
import LiveExec32.Psynch.Pause

/-! # The wait system

Any number of host threads make psynch and ulock calls. A call runs from one critical section of
`nativeGuestWaitMutex` to the next; `Stage` says where it stands. An event lets one thread advance
to its next stop, lets a deadline pass, or changes what the other parties own: guest memory and the
pause requests. A thread that cannot move (the mutex is taken, it sleeps, it is parked by the
debugger) is left as it is, so every interleaving is a list of events.

The ulock compare reads guest memory while the wait mutex is held, but guest stores do not take that
mutex: the comparison is therefore a step of its own, with `mutexOwner` set.

`trace` is a ghost: what has been observable so far, latest first. -/

namespace LiveExec32.Psynch

/-- Where a call stands. `self` names the waiter a blocked thread has registered. -/
inductive Stage where
  /-- The call was made; its first critical section is still to come. -/
  | called
  /-- The prologue is over: a condition wait has dropped its mutex, a ulock wake has checked its
      target. -/
  | prepared
  /-- A ulock wait that holds the wait mutex and is about to load the guest word. -/
  | comparing
  /-- A ulock wait that holds the wait mutex and found the expected value. -/
  | enqueueing
  /-- Registered; about to look at its waiter, or asleep on it. -/
  | waiting (self : ℕ)
  /-- Registered, and in the pause functions without the wait mutex. -/
  | pausing (self : ℕ) (pause : PauseStage)
  /-- Back from the pause, about to take the wait mutex again. -/
  | relocking (self : ℕ) (paused : Bool)
deriving DecidableEq, Repr

/-- How a call ended. -/
inductive Ending where
  /-- Rejected, or answered without waiting for anybody. -/
  | answered
  /-- A reader let through by an overlap record. -/
  | overlap
  /-- A prepost was consumed, recorded under this generation. -/
  | prepost (sequence : U32)
  | woken
  | interrupted
  | timedOut
deriving DecidableEq, Repr

/-- The wait ended with what it waited for: it was woken, or took a prepost. -/
def Ending.granted : Ending → Bool
  | .woken | .prepost _ => true
  | _ => false

/-- What the trace records. A return comes with the waiter the thread had registered, as it was when
    it was erased. -/
inductive Observation where
  | returned (thread : ℕ) (call : Call) (waiter : Option NativeGuestWaiter) (ending : Ending)
      (value : SyscallReturn)
  | mutexDropped (mutex mgen ugen flags : U32)
  | conditionSignaled (condition conditionSequence : U32)
  | rwlockPosted (unlock : NativeGuestRwlockUnlock)
  | rwlockGranted (grant : RwlockGrant)
deriving DecidableEq, Repr

structure Config where
  tables : WaitTables
  /-- The guest words that `get_memory` finds. -/
  memory : U32 → Option U32
  environment : Environment
  /-- `nativeDebuggerHostWaitStep` of each thread. -/
  hostWaitStep : ℕ → Bool
  /-- The call each thread is in. -/
  threads : ℕ → Option (Call × Stage)
  /-- The thread that holds `nativeGuestWaitMutex` between two of its steps. -/
  mutexOwner : Option ℕ
  trace : List Observation

/-- Nobody waits and nothing is preposted. -/
def Config.initial (memory : U32 → Option U32) (environment : Environment) : Config where
  tables := {}
  memory := memory
  environment := environment
  hostWaitStep := fun _ => false
  threads := fun _ => none
  mutexOwner := none
  trace := []

/-! ## Moving a thread -/

def Config.goto (c : Config) (thread : ℕ) (call : Call) (stage : Stage) : Config :=
  { c with threads := Function.update c.threads thread (some (call, stage)) }

def Config.observe (c : Config) (o : Observation) : Config := { c with trace := o :: c.trace }

/-- The call returns to the guest. -/
def Config.finish (c : Config) (thread : ℕ) (call : Call) (waiter : Option NativeGuestWaiter)
    (ending : Ending) (value : SyscallReturn) : Config :=
  { c with
    threads := Function.update c.threads thread none
    trace := .returned thread call waiter ending value :: c.trace }

def Config.withTables (c : Config) (tables : WaitTables) : Config := { c with tables := tables }

/-! ## Registering and leaving -/

/-- Draw a sequence number and append the waiter. -/
def registerWaiter (waiter : NativeGuestWaiter) (tables : WaitTables) : WaitTables :=
  { tables with
    waiters := tables.waiters ++ [{ waiter with sequence := tables.nextWaitSequence }]
    nextWaitSequence := tables.nextWaitSequence + 1 }

def eraseWaiter (self : ℕ) (tables : WaitTables) : WaitTables :=
  { tables with waiters := tables.waiters.filter (fun waiter => waiter.sequence != self) }

def findWaiter (self : ℕ) (tables : WaitTables) : Option NativeGuestWaiter :=
  tables.waiters.find? (fun waiter => waiter.sequence == self)

/-- The number of waiters a returning ulock wait reports. -/
def ulockRemaining (operation address : U32) (tables : WaitTables) : ℕ :=
  matchingNativeUlockWaitersLocked address (ulockOpcode operation) tables.waiters

/-- What a wait returns once its waiter was signaled. -/
def Call.wokenReturn (call : Call) (waiter : NativeGuestWaiter) (after : WaitTables) :
    SyscallReturn :=
  match call with
  | .ulockWait operation address _ _ =>
    guestUlockReturn 0 (ulockFlags operation) (ulockRemaining operation address after)
  | _ => .success waiter.wakeResult

def Call.interruptedReturn (call : Call) : SyscallReturn :=
  match call with
  | .ulockWait operation _ _ _ => guestUlockReturn EINTR (ulockFlags operation) 0
  | _ => .failure EINTR

def Call.timedOutReturn (call : Call) : SyscallReturn :=
  match call with
  | .ulockWait operation _ _ _ => guestUlockReturn ETIMEDOUT (ulockFlags operation) 0
  | _ =>
    match call.waitArguments with
    | some args => .failure args.timeoutError
    | none => .failure ETIMEDOUT

/-- The wait has a deadline. -/
def Call.hasTimeout (call : Call) : Bool :=
  match call with
  | .ulockWait _ _ _ timeout => decide (timeout ≠ 0)
  | _ =>
    match call.waitArguments with
    | some args => args.hasConditionTimeout
    | none => false

/-- The wait is over: erase the waiter and return. -/
def Config.leave (c : Config) (thread : ℕ) (call : Call) (waiter : NativeGuestWaiter)
    (ending : Ending) (value : SyscallReturn) : Config :=
  (c.withTables (eraseWaiter waiter.sequence c.tables)).finish thread call
    (some waiter) ending value

/-- Run a critical section of `nativeGuestWaitMutex`, if the mutex is free. -/
def Config.locked (c : Config) (after : Config) : Config :=
  if c.mutexOwner = none then after else c

/-! ## The wait loop -/

/-- From the head of the wait loop, with the wait mutex held, to the next place that releases it.
    `expired`: the deadline has passed. -/
def Config.waitLoop (c : Config) (thread : ℕ) (call : Call) (self : ℕ) (expired : Bool) : Config :=
  match findWaiter self c.tables with
  | none => c
  | some waiter =>
    if waiter.signaled then
      c.leave thread call waiter .woken (call.wokenReturn waiter (eraseWaiter self c.tables))
    else if c.environment.interrupts thread then c.goto thread call (.pausing self .threadState)
    else if expired then c.leave thread call waiter .timedOut call.timedOutReturn
    else c.goto thread call (.waiting self)

/-- Take the wait mutex again after a pause. The source looks at the pause before it looks at the
    waiter: a wait that ends here returns `EINTR` whether or not it was signaled meanwhile. -/
def Config.relock (host : ℕ → HostThread) (c : Config) (thread : ℕ) (call : Call) (self : ℕ)
    (paused : Bool) : Config :=
  if c.environment.endsWait (host thread) (c.hostWaitStep thread) paused then
    match findWaiter self c.tables with
    | none => c
    | some waiter => c.leave thread call waiter .interrupted call.interruptedReturn
  else c.waitLoop thread call self false

def Config.storeHostWaitStep (c : Config) (thread : ℕ) (stored : Option Bool) : Config :=
  match stored with
  | none => c
  | some step => { c with hostWaitStep := Function.update c.hostWaitStep thread step }

/-- One step of the pause functions. -/
def Config.pauseStep (host : ℕ → HostThread) (c : Config) (thread : ℕ) (call : Call) (self : ℕ) :
    PauseStage → Config
  | .threadState =>
    if c.environment.holdsThread thread then
      c.goto thread call (.pausing self (.nested .loadShutdown))
    else c.goto thread call (.pausing self (.debugger .loadShutdown))
  | .nested stage =>
    match nativeDebuggerPauseHostWaitIfNeeded c.environment (host thread) thread stage with
    | .goto next => c.goto thread call (.pausing self (.nested next))
    | .finished _ stored =>
      (c.storeHostWaitStep thread stored).goto thread call (.pausing self .threadState)
    | .blocked => c
  | .debugger stage =>
    match nativeDebuggerPauseHostWaitIfNeeded c.environment (host thread) thread stage with
    | .goto next => c.goto thread call (.pausing self (.debugger next))
    | .finished paused stored =>
      (c.storeHostWaitStep thread stored).goto thread call (.relocking self paused)
    | .blocked => c

/-! ## The critical sections of the calls -/

/-- The ways a wait returns without registering: an overlap record for a reader, a prepost. -/
def waitShortcut (args : WaitArguments) (tables : WaitTables) :
    Option (Ending × U32 × WaitTables) :=
  match args.kind with
  | .rwlock =>
    if args.rwlockWaitType = .read then
      (tryHandleNativeGuestRwlockOverlapLocked args.address args.rwlockSequence
          args.rwlockStateSequence tables.rwlockOverlaps).map
        (fun handled => (.overlap, handled.1, { tables with rwlockOverlaps := handled.2 }))
    else none
  | .condition =>
    (consumeGuestConditionPrepost args.address args.conditionSequence
        tables.conditionPreposts).map
      (fun taken => (.prepost taken.1, guestPsynchCountIncrement,
        { tables with conditionPreposts := taken.2 }))
  | .mutex =>
    (consumeGuestMutexPrepost args.address args.mutexSequence args.mutexFirstFit
        tables.mutexPreposts).map
      (fun taken => (.prepost taken.1, args.wakeResult, { tables with mutexPreposts := taken.2 }))
  | _ => none

def Config.noteGrant (c : Config) (grant : Option RwlockGrant) : Config :=
  match grant with
  | none => c
  | some grant => c.observe (.rwlockGranted grant)

/-- An unlock that nobody waits for posts nothing. -/
def Config.notePost (c : Config) (unlock : NativeGuestRwlockUnlock) : Config :=
  if unlock.expectedWaiters = 0 then c else c.observe (.rwlockPosted unlock)

/-- Register in `WaitNativeGuestThread`. A reader/writer waiter may complete the number an unlock
    waits for, and may be granted at once. -/
def Config.register (host : ℕ → HostThread) (c : Config) (thread : ℕ) (call : Call)
    (args : WaitArguments) : Config :=
  let self := c.tables.nextWaitSequence
  let registered := registerWaiter (args.waiter (host thread).threadPort) c.tables
  if args.kind = .rwlock then
    let granted := tryGrantNativeGuestRwlockLocked args.address registered
    let after := (c.withTables granted.2).noteGrant granted.1
    match findWaiter self granted.2 with
    | none => after
    | some waiter =>
      if waiter.signaled then
        after.leave thread call waiter .woken
          (call.wokenReturn waiter (eraseWaiter self granted.2))
      else after.goto thread call (.waiting self)
  else (c.withTables registered).goto thread call (.waiting self)

/-- `WaitNativeGuestThread` up to the place where it first releases the wait mutex. -/
def Config.enterWait (host : ℕ → HostThread) (c : Config) (thread : ℕ) (call : Call)
    (args : WaitArguments) : Config :=
  if args.timeoutInvalid then c.finish thread call none .answered (.failure EINVAL)
  else c.locked
    (match waitShortcut args c.tables with
    | some (ending, value, after) =>
      (c.withTables after).finish thread call none ending (.success value)
    | none => c.register host thread call args)

def Config.dropMutex (c : Config) (mutex mgen ugen flags : U32) : Config :=
  (c.withTables (guestPsynchMutexDrop mutex mgen ugen flags c.tables)).observe
    (.mutexDropped mutex mgen ugen flags)

def guestUlockTargetThreadExists (environment : Environment) (target : U32) : Bool :=
  machPortValid target && environment.liveThreadPorts.contains target

/-- `GuestUlockWait` up to the load of the guest word, which happens with the mutex held. -/
def Config.ulockLock (c : Config) (thread : ℕ) (call : Call) (operation address : U32) : Config :=
  if ulockWaitInvalid operation then
    c.finish thread call none .answered (guestUlockReturn EINVAL (ulockFlags operation) 0)
  else c.locked
    (if nativeUlockAddressHasOtherOpcodeLocked address (ulockOpcode operation)
        c.tables.waiters then
      c.finish thread call none .answered (guestUlockReturn EDOM (ulockFlags operation) 0)
    else { c with mutexOwner := some thread }.goto thread call .comparing)

/-- The load and the comparison; the mutex stays held when the wait goes on. -/
def Config.ulockCompare (c : Config) (thread : ℕ) (call : Call) (operation address : U32)
    (value : BitVec 64) : Config :=
  let released := { c with mutexOwner := none }
  match readGuestUlockWord c.memory address with
  | .error error =>
    released.finish thread call none .answered (guestUlockReturn error (ulockFlags operation) 0)
  | .ok currentValue =>
    if currentValue.setWidth 64 ≠ value then
      released.finish thread call none .answered
        (guestUlockReturn 0 (ulockFlags operation) (ulockRemaining operation address c.tables))
    else c.goto thread call .enqueueing

def Config.ulockEnqueue (host : ℕ → HostThread) (c : Config) (thread : ℕ) (call : Call)
    (operation address : U32) : Config :=
  { c with
    mutexOwner := none
    tables := registerWaiter (ulockWaiter operation address (host thread).threadPort) c.tables
    }.goto thread call (.waiting c.tables.nextWaitSequence)

/-- `GuestUlockWake` before it takes the mutex. -/
def Config.ulockCheckTarget (c : Config) (thread : ℕ) (call : Call) (operation address : U32)
    (wakeValue : BitVec 64) : Config :=
  if ulockWakeInvalid operation address then
    c.finish thread call none .answered (guestUlockReturn EINVAL (ulockFlags operation) 0)
  else if ulockTargetWake operation
      && !guestUlockTargetThreadExists c.environment (ulockTarget wakeValue) then
    c.finish thread call none .answered (guestUlockReturn ESRCH (ulockFlags operation) 0)
  else c.goto thread call .prepared

def Config.ulockWake (c : Config) (thread : ℕ) (call : Call) (operation address : U32)
    (wakeValue : BitVec 64) : Config :=
  let woken := guestUlockWake operation address wakeValue c.tables.waiters
  (c.withTables { c.tables with waiters := woken.2 }).finish thread call none .answered woken.1

def Config.signalCondition (c : Config) (thread : ℕ) (call : Call)
    (condition conditionSequence conditionSSequence targetThread : U32) (broadcast : Bool) :
    Config :=
  let signaled := guestPsynchConditionSignal condition conditionSequence conditionSSequence
    targetThread broadcast c.tables
  ((c.withTables signaled.2).observe (.conditionSignaled condition conditionSequence)).finish thread
    call none .answered signaled.1

def Config.unlockRwlock (c : Config) (thread : ℕ) (call : Call)
    (rwlock lgen ugen rwSequence : U32) : Config :=
  let posted := postNativeGuestRwlockUnlockLocked rwlock lgen ugen rwSequence c.tables
  let noted := (c.withTables posted.2.2).notePost
    (newRwlockUnlock rwlock lgen ugen rwSequence c.tables)
  (noted.noteGrant posted.2.1).finish thread call none .answered (.success posted.1)

/-! ## Steps -/

/-- The first step of a call. -/
def Config.start (c : Config) (thread : ℕ) (call : Call) : Config :=
  match call with
  | .mutexDrop mutex mgen ugen flags =>
    c.locked ((c.dropMutex mutex mgen ugen flags).finish thread call none .answered (.success 0))
  | .conditionSignal condition conditionSequence conditionSSequence _ targetThread broadcast =>
    c.locked (c.signalCondition thread call condition conditionSequence conditionSSequence
      targetThread broadcast)
  | .rwUnlock rwlock lgen ugen rwSequence =>
    c.locked (c.unlockRwlock thread call rwlock lgen ugen rwSequence)
  | .ulockWait operation address _ _ => c.ulockLock thread call operation address
  | .ulockWake operation address wakeValue =>
    c.ulockCheckTarget thread call operation address wakeValue
  | .conditionWait _ _ _ mutex mutexMgen mutexUgen flags _ _ =>
    -- the drop is a critical section of its own, before that of the wait
    if mutex ≠ 0 then
      c.locked ((c.dropMutex mutex mutexMgen mutexUgen flags).goto thread call .prepared)
    else c.goto thread call .prepared
  | .mutexWait .. | .rwWait .. => c.goto thread call .prepared

/-- The step after the prologue. -/
def Config.proceed (host : ℕ → HostThread) (c : Config) (thread : ℕ) (call : Call) : Config :=
  match call with
  | .ulockWake operation address wakeValue =>
    c.locked (c.ulockWake thread call operation address wakeValue)
  | _ =>
    match call.waitArguments with
    | some args => c.enterWait host thread call args
    | none => c

/-- The next step of a call. -/
def Config.advance (host : ℕ → HostThread) (c : Config) (thread : ℕ) (call : Call) :
    Stage → Config
  | .called => c.start thread call
  | .prepared => c.proceed host thread call
  | .comparing =>
    match call with
    | .ulockWait operation address value _ => c.ulockCompare thread call operation address value
    | _ => c
  | .enqueueing =>
    match call with
    | .ulockWait operation address _ _ => c.ulockEnqueue host thread call operation address
    | _ => c
  | .waiting self => c.locked (c.waitLoop thread call self false)
  | .pausing self pause => c.pauseStep host thread call self pause
  | .relocking self paused => c.locked (c.relock host thread call self paused)

inductive Event where
  /-- An idle thread makes a call. -/
  | begin (thread : ℕ) (call : Call)
  /-- A thread takes the next step of its call. -/
  | advance (thread : ℕ)
  /-- The deadline of a sleeping thread passes. -/
  | deadline (thread : ℕ)
  /-- Somebody stores to a guest word, or maps or unmaps it. -/
  | store (address : U32) (word : Option U32)
  /-- The debugger, a thread-state request, a shutdown or the thread registry changes. -/
  | request (environment : Environment)

/-- The thread an event lets act. -/
def Event.actor : Event → Option ℕ
  | .begin thread _ | .advance thread | .deadline thread => some thread
  | _ => none

def step (host : ℕ → HostThread) (c : Config) : Event → Config
  | .begin thread call =>
    match c.threads thread with
    | none => c.goto thread call .called
    | some _ => c
  | .advance thread =>
    match c.threads thread with
    | none => c
    | some (call, stage) => c.advance host thread call stage
  | .deadline thread =>
    match c.threads thread with
    | some (call, .waiting self) =>
      if call.hasTimeout then c.locked (c.waitLoop thread call self true) else c
    | _ => c
  | .store address word => { c with memory := Function.update c.memory address word }
  | .request environment => { c with environment := environment }

/-- The state after a list of events. -/
def run (host : ℕ → HostThread) (c : Config) (events : List Event) : Config :=
  Execution.run (step host) c events

/-- The main emulator thread is thread `1` and has no runtime of its own. -/
def mainAndWorkers (thread : ℕ) : HostThread where
  hasRuntime := decide (thread ≠ 1)
  nativeGuestThreadId := thread
  debuggerId := thread
  threadPort := BitVec.ofNat 32 (0x100 + thread)

end LiveExec32.Psynch
