import LiveExec32.Workqueue.Conservation

/-! # The cooperative workqueue pump

Without native guest threads there is one JIT context, and `PumpGuestWorkqueue` runs the work of the
workqueue in it, one upcall after the other. It makes sure that the worker's stack and port exist,
finds a request or an event, and stages an upcall (`guestWorkqueuePendingUpcall`) that the execution
loop enters as soon as it can.

"Allocate the worker before consuming a request or Mach message. A setup failure must leave the work
available for a later attempt." A request is counted down only after its upcall was staged. An
event, however, is consumed by `NextGuestWorkqueueEvent` before `PrepareGuestWorkqueueUpcall` copies
it to the guest, and nobody puts it back when a guest-memory write fails: the timer expiration, the
user event or the message is lost (`failedWrite_losesEvent`). `pumpGuestWorkqueue_keepsWork` says
exactly when a pump without a transition leaves all the work. -/

namespace LiveExec32.Workqueue

open GuestWorkqueueDelivery List Option

def guestWorkqueueGuardSize : ℕ := 4096
def guestWorkqueueStackSize : ℕ := 0x80000
def guestWorkqueueEventCapacity : ℕ := 16
/-- The size of `guest_kevent_qos_s`. -/
def guestKeventQosSize : ℕ := 72

def wqFlagThreadOvercommit : U32 := 0x00010000
def wqFlagThreadReuse : U32 := 0x00020000
def wqFlagThreadNewSpi : U32 := 0x00040000
def wqFlagThreadKevent : U32 := 0x00080000
def wqFlagThreadEventManager : U32 := 0x00100000
def wqFlagThreadTsdBaseSet : U32 := 0x00200000

def pthreadPriorityQosClassMask : U32 := 0x003fff00

def guestWorkqueueQosClass (priority : U32) : U32 :=
  match ((priority &&& pthreadPriorityQosClassMask) >>> 8).toNat with
  | 0x20 => 0x21
  | 0x10 => 0x19
  | 0x04 => 0x11
  | 0x02 => 0x09
  | 0x01 => 0x05
  | _ => 0x15

/-! ## The worker -/

/-- What `bsdthread_register` was told. -/
structure BsdThreadRegistration where
  wqthreadStart : U32 := 0
  pthreadSize : ℤ := 0
  tsdOffset : U32 := 0
deriving DecidableEq, Repr

/-- The one worker of the cooperative mode. -/
structure GuestWorkqueueWorker where
  /-- Zero is no allocation. -/
  allocation : U32 := 0
  allocationSize : U32 := 0
  stackBottom : U32 := 0
  pthread : U32 := 0
  threadPort : U32 := 0
  threadSelfId : U64 := 0
deriving DecidableEq, Repr

/-- What the host does when the worker is allocated. -/
structure WorkerHost where
  /-- The result of `Dynarmic_mmap`. -/
  mmap : U32
  /-- The thread port, if it could be allocated with a send right. -/
  port : Option U32
  /-- The next thread self id. -/
  selfId : U64
deriving DecidableEq, Repr

def ensureGuestWorkqueueWorker (registration : BsdThreadRegistration) (host : WorkerHost)
    (worker : GuestWorkqueueWorker) : Bool × GuestWorkqueueWorker :=
  let pthreadSize := (registration.pthreadSize.toNat + 4095) / 4096 * 4096
  let size := guestWorkqueueGuardSize + guestWorkqueueStackSize + pthreadSize
  if worker.allocation != 0 then (machPortValid worker.threadPort, worker)
  else if registration.wqthreadStart == 0 || decide (registration.pthreadSize ≤ 0)
      || decide (registration.pthreadSize ≤ registration.tsdOffset.toNat) then (false, worker)
  else if pthreadSize = 0
      ∨ 0xffffffff - guestWorkqueueGuardSize - guestWorkqueueStackSize < pthreadSize then
    (false, worker)
  else if host.mmap == BitVec.allOnes 32 then
    (false, { worker with allocation := 0, allocationSize := 0 })
  else
    match host.port with
    | none => (false, { threadSelfId := worker.threadSelfId })
    | some threadPort =>
      let stackBottom := host.mmap + BitVec.ofNat 32 guestWorkqueueGuardSize
      (true,
        { allocation := host.mmap
          allocationSize := BitVec.ofNat 32 size
          stackBottom
          pthread := stackBottom + BitVec.ofNat 32 guestWorkqueueStackSize
          threadPort
          threadSelfId := if worker.threadSelfId == 0 then host.selfId else worker.threadSelfId })

/-! ## The pump -/

structure GuestWorkqueuePendingUpcall where
  eventList : U32
  eventCount : U32
  stackPointer : U32
  flags : U32
deriving DecidableEq, Repr

/-- The workqueue in cooperative mode. -/
structure Cooperative where
  opened : Bool := false
  eventManagerPriority : U32 := 0
  requests : List GuestWorkqueueRequest := []
  sources : EventSources := {}
  registration : BsdThreadRegistration := {}
  worker : GuestWorkqueueWorker := {}
  workerInitialized : Bool := false
  upcallActive : Bool := false
  /-- `guestWorkqueuePendingUpcall`, if it is valid. -/
  pendingUpcall : Option GuestWorkqueuePendingUpcall := none
deriving DecidableEq

/-- What the host does during a pump: when the worker is allocated, in either of the two attempts,
    and when the upcall is copied to the guest. -/
structure CooperativeHost where
  ensure : WorkerHost
  ensureAgain : WorkerHost
  /-- `Dynarmic_mem_1write` of so many bytes at an address succeeds. -/
  writes : U32 → ℕ → Bool

namespace Cooperative

/-- The addresses of the event list and of the message buffer, below the worker's `pthread_t`. -/
def eventList (worker : GuestWorkqueueWorker) : U32 :=
  worker.pthread - BitVec.ofNat 32 (guestWorkqueueEventCapacity * guestKeventQosSize)

def messageBuffer (worker : GuestWorkqueueWorker) : U32 :=
  eventList worker - BitVec.ofNat 32 guestWorkqueueMessageCapacity

/-- The message and the event fit and can be copied to the guest. -/
def copiesDelivery (host : CooperativeHost) (worker : GuestWorkqueueWorker)
    (message : List (BitVec 8)) : Bool :=
  decide (message.length ≤ guestWorkqueueMessageCapacity)
    && (message.isEmpty || host.writes (messageBuffer worker) message.length)
    && host.writes (eventList worker) guestKeventQosSize

/-- The upcall for a delivery, or for a requested thread. -/
def upcall (c : Cooperative) (delivery : Option GuestWorkqueueDelivery) (priority : U32) :
    GuestWorkqueuePendingUpcall :=
  let priority :=
    match delivery with
    | none => priority
    | some delivery =>
      if delivery.eventManager then c.eventManagerPriority else delivery.event.qos
  { eventList := if delivery.isSome then eventList c.worker else 0
    eventCount := if delivery.isSome then 1 else 0
    stackPointer := (messageBuffer c.worker - 16) &&& ~~~0xf
    flags := wqFlagThreadNewSpi ||| wqFlagThreadTsdBaseSet
      ||| (if c.workerInitialized then wqFlagThreadReuse else 0)
      ||| (if delivery.isSome then wqFlagThreadKevent else 0)
      ||| (if delivery.any (·.eventManager) then wqFlagThreadEventManager else 0)
      ||| (if hasAny priority pthreadPriorityOvercommitFlag then wqFlagThreadOvercommit else 0)
      ||| guestWorkqueueQosClass priority }

def prepareGuestWorkqueueUpcall (c : Cooperative) (host : CooperativeHost)
    (delivery : Option GuestWorkqueueDelivery) (priority : U32) : Bool × Cooperative :=
  match ensureGuestWorkqueueWorker c.registration host.ensureAgain c.worker with
  | (false, worker) => (false, { c with worker })
  | (true, worker) =>
    let c := { c with worker }
    if c.upcallActive || c.pendingUpcall.isSome then (false, c)
    else if !delivery.all (copiesDelivery host worker ·.message) then (false, c)
    else (true, { c with pendingUpcall := some (c.upcall delivery priority) })

/-- The end of `PumpGuestWorkqueue`, when no thread is requested. -/
def pumpEvent (c : Cooperative) (host : CooperativeHost) : GuestWorkqueuePumpResult × Cooperative :=
  match nextGuestWorkqueueEvent c.sources true true with
  | (none, sources) => (.none, { c with sources })
  | (some delivery, sources) =>
    match { c with sources }.prepareGuestWorkqueueUpcall host (some delivery) 0 with
    | (false, c) => (.none, c)
    | (true, c) => (.cooperativeTransition, c)

/-- `PumpGuestWorkqueue` once the worker is there. -/
def pumpWork (c : Cooperative) (host : CooperativeHost) : GuestWorkqueuePumpResult × Cooperative :=
  match c.requests with
  | request :: rest =>
    match c.prepareGuestWorkqueueUpcall host none request.priority with
    | (false, c) => (.none, c)
    | (true, c) =>
      (.cooperativeTransition,
        { c with requests := { request with remaining := request.remaining - 1 } :: rest })
  | [] => c.pumpEvent host

/-- The worker is there, and the requests that were served are dropped. -/
def withWorker (c : Cooperative) (worker : GuestWorkqueueWorker) : Cooperative :=
  { c with
    worker
    requests := c.requests.dropWhile (fun request => request.remaining ≤ 0) }

def pumpGuestWorkqueue (c : Cooperative) (host : CooperativeHost) :
    GuestWorkqueuePumpResult × Cooperative :=
  if c.upcallActive || c.pendingUpcall.isSome || !c.opened then (.none, c)
  else
    match ensureGuestWorkqueueWorker c.registration host.ensure c.worker with
    | (false, worker) => (.none, { c with worker })
    | (true, worker) => (c.withWorker worker).pumpWork host

end Cooperative

/-! ## What is left of the work -/

/-- The registration is as before; it may have been disabled because its port fails, when no message
    waits there. -/
def StillRegistered (ports : MachPorts) (registered registered' : GuestWorkqueueKevent) : Prop :=
  registered' = registered
    ∨ registered.fails ports = true ∧ ports.front registered.event.port = none
      ∧ registered' = { registered with enabled := false }

/-- Everything that was pending is still available to a later pump: no expiration, user event or
    message was consumed, and their registrations are still there. -/
structure WorkKept (c c' : Cooperative) : Prop where
  units : ∀ number, requestUnits number c'.requests = requestUnits number c.requests
  timerQueue : c'.sources.timerQueue = c.sources.timerQueue
  kevents : List.Forall₂ (StillRegistered c.sources.ports) c.sources.kevents c'.sources.kevents
  ports : c'.sources.ports = c.sources.ports

namespace GuestWorkqueueKevent

/-- The registration is disabled when the pump comes by, although a message waits. -/
def stalls (ports : MachPorts) (registered : GuestWorkqueueKevent) : Bool :=
  registered.enabled && registered.fails ports && (ports.front registered.event.port).isSome

/-- The registration reports a message, and stays as it is. -/
def onlyReports (ports : MachPorts) (registered : GuestWorkqueueKevent) : Bool :=
  registered.event.filter == evfiltMachport && (registered.takenMessage ports).isNone
    && !hasAny registered.event.flags evOneShot && !hasAny registered.event.flags evDispatch

end GuestWorkqueueKevent

open GuestWorkqueueKevent

variable {delivery : GuestWorkqueueDelivery} {ports ports' : MachPorts}
  {registered registered' : GuestWorkqueueKevent} {kevents kevents' : List GuestWorkqueueKevent}
  {found : Option GuestWorkqueueDelivery}

theorem StillRegistered.triggered (h : StillRegistered ports registered registered') :
    registered'.triggered = registered.triggered := by
  rcases h with rfl | ⟨-, -, rfl⟩ <;> rfl

theorem forall₂_stillRegistered_refl (ports : MachPorts) (kevents : List GuestWorkqueueKevent) :
    List.Forall₂ (StillRegistered ports) kevents kevents :=
  forall₂_same.2 fun _ _ => .inl rfl

theorem workKept_iff {c c' : Cooperative} (hrequests : c'.requests = c.requests)
    (hsources : c'.sources = { c.sources with kevents, ports }) :
    WorkKept c c' ↔ List.Forall₂ (StillRegistered c.sources.ports) c.sources.kevents kevents
      ∧ ports = c.sources.ports := by
  constructor
  · intro h
    have hports := h.ports
    have hkevents := h.kevents
    rw [hsources] at hports hkevents
    exact ⟨hkevents, hports⟩
  · intro h
    refine ⟨fun _ => by rw [hrequests], ?_, ?_, ?_⟩ <;> rw [hsources]
    · exact h.1
    · exact h.2

theorem WorkKept.of_eq {c c' : Cooperative} (hrequests : c'.requests = c.requests)
    (hsources : c'.sources = c.sources) : WorkKept c c' :=
  (workKept_iff hrequests hsources).2 ⟨forall₂_stillRegistered_refl _ _, rfl⟩

theorem forall₂_stillRegistered_triggered
    (h : List.Forall₂ (StillRegistered ports) kevents kevents') :
    kevents'.map (·.triggered) = kevents.map (·.triggered) := by
  induction h with
  | nil => rfl
  | cons hhead _ ih => rw [map_cons, map_cons, hhead.triggered, ih]

/-- A registration that is passed has nothing to take, and is not disabled. -/
theorem Scans.skipped (hskip : registered.enabled = false ∨ registered.allowed true true = false
      ∨ registered.ready ports = false ∧ registered.fails ports = false) :
    registered.waits true true ports = false ∧ registered.stalls ports = false := by
  rcases hskip with h | h | h
  · simp [waits, stalls, h]
  · simp [GuestWorkqueueKevent.allowed] at h
  · simp [waits, stalls, h]

/-- A registration that delivers keeps its place exactly when it only reports. -/
theorem PortDelivers.dispatched_kept (h : PortDelivers registered.event ports delivery ports')
    (henabled : registered.enabled) (hfilter : registered.event.filter = evfiltMachport)
    (hflag : hasAny registered.event.flags evOneShot = false) :
    (StillRegistered ports registered registered.dispatched ∧ ports' = ports)
      ↔ registered.onlyReports ports := by
  have hqueued := h.queued
  cases h with
  | reports _ _ hport _ hfront _ _ htakes =>
    simp only [onlyReports, takenMessage, hfilter, hfront, htakes, hflag, StillRegistered, fails,
      hport, dispatched, henabled, beq_self_eq_true, if_true, filter_some, Bool.false_eq_true,
      if_false, isNone_none, Bool.not_false, Bool.and_true, Bool.true_and, decide_false,
      false_and, or_false, and_true]
    cases registered
    cases hdispatch : hasAny _ evDispatch <;> simp_all
  | receives _ _ hport _ hfront _ hreport _ htakes =>
    simp only [consumes, hreport, Bool.false_eq_true, if_false] at hqueued
    simp only [onlyReports, takenMessage, hfilter, hfront, htakes, if_true, filter_some,
      isNone_some, Bool.and_false, Bool.false_and, Bool.false_eq_true, iff_false, not_and]
    intro _ hports
    have hlength := congrArg (fun ports => ports.queued.length) hports
    simp only at hlength
    omega

/-- A scan leaves everything exactly when it passes no registration that stalls, and ends at one
    that only reports, or at none. -/
theorem Scans.kept_iff (h : Scans true true ports kevents found kevents' ports') :
    (List.Forall₂ (StillRegistered ports) kevents kevents' ∧ ports' = ports)
      ↔ (!(kevents.takeWhile (!·.waits true true ports)).any (·.stalls ports)
        && (kevents.find? (·.waits true true ports)).all (·.onlyReports ports)) := by
  induction h with
  | nil => simp
  | @skip registered _ _ _ _ hskip _ ih =>
    obtain ⟨hwaits, hstalls⟩ := Scans.skipped hskip
    rw [forall₂_cons, takeWhile_cons_of_pos (by simp [hwaits]), any_cons, hstalls,
      find?_cons_of_neg (by simp [hwaits]), Bool.false_or, ← ih]
    exact ⟨fun h => ⟨h.1.2, h.2⟩, fun h => ⟨⟨.inl rfl, h.1⟩, h.2⟩⟩
  | @disable registered _ _ _ _ henabled hfails _ ih =>
    have hwaits : registered.waits true true ports = false := by
      simp [waits, not_ready_of_fails hfails]
    have hstill : StillRegistered ports registered { registered with enabled := false }
        ↔ registered.stalls ports = false := by
      have hchanged : ({ registered with enabled := false } : GuestWorkqueueKevent) ≠ registered :=
        fun h => absurd (congrArg GuestWorkqueueKevent.enabled h) (by simp [henabled])
      simp [StillRegistered, stalls, henabled, hfails, hchanged]
    rw [forall₂_cons, hstill, takeWhile_cons_of_pos (by simp [hwaits]), any_cons,
      find?_cons_of_neg (by simp [hwaits])]
    cases hstalls : registered.stalls ports with
    | true => simp
    | false => simpa using ih
  | user henabled hallowed hfilter htriggered =>
    -- the trigger is used up
    rw [find?_cons_of_pos (waits_user henabled hallowed hfilter htriggered), forall₂_cons]
    simp only [all_some, onlyReports, hfilter, evfiltUser, evfiltMachport, Int.reduceNeg,
      Int.reduceBEq, Bool.false_and, Bool.and_false, Bool.false_eq_true, iff_false]
    rintro ⟨⟨hhead, -⟩, -⟩
    cases hhead.triggered.trans htriggered
  | oneShot henabled hallowed hfilter hport hflag =>
    -- the registration is gone
    rw [find?_cons_of_pos (waits_port hport henabled hallowed hfilter).1]
    simp only [all_some, onlyReports, hflag, Bool.not_true, Bool.and_false, Bool.false_and,
      Bool.false_eq_true, iff_false, not_and]
    intro hall
    exact absurd hall.length_eq (by simp)
  | @port registered rest _ _ henabled hallowed hfilter hport hflag =>
    have hwaits := (waits_port hport henabled hallowed hfilter).1
    rw [find?_cons_of_pos hwaits, takeWhile_cons_of_neg (by simp [hwaits]),
      forall₂_cons, all_some, any_nil, Bool.not_false, Bool.true_and,
      ← hport.dispatched_kept henabled hfilter hflag]
    exact ⟨fun h => ⟨h.1.1, h.2⟩, fun h => ⟨⟨h.1, forall₂_stillRegistered_refl ports rest⟩, h.2⟩⟩

/-! ## The pump -/

namespace Cooperative

theorem prepareGuestWorkqueueUpcall_kept (c : Cooperative) (host : CooperativeHost)
    (delivery : Option GuestWorkqueueDelivery) (priority : U32) :
    (c.prepareGuestWorkqueueUpcall host delivery priority).2.requests = c.requests
      ∧ (c.prepareGuestWorkqueueUpcall host delivery priority).2.sources = c.sources := by
  unfold prepareGuestWorkqueueUpcall
  split
  · exact ⟨rfl, rfl⟩
  · simp only
    split
    · exact ⟨rfl, rfl⟩
    · split <;> exact ⟨rfl, rfl⟩

/-- The worker is there and idle, and an event with this message can be copied to the guest. -/
def stages (c : Cooperative) (host : CooperativeHost) (message : List (BitVec 8)) : Bool :=
  let (ensured, worker) := ensureGuestWorkqueueWorker c.registration host.ensureAgain c.worker
  ensured && !(c.upcallActive || c.pendingUpcall.isSome) && copiesDelivery host worker message

theorem prepareGuestWorkqueueUpcall_stages (c : Cooperative) (host : CooperativeHost)
    (sources : EventSources) (delivery : GuestWorkqueueDelivery) :
    ({ c with sources }.prepareGuestWorkqueueUpcall host (some delivery) 0).1
      = c.stages host delivery.message := by
  unfold prepareGuestWorkqueueUpcall stages
  rcases ensureGuestWorkqueueWorker c.registration host.ensureAgain c.worker with ⟨_ | _, worker⟩
  · rfl
  · simp only [all_some]
    split
    · next h => simp [h]
    · next h => split <;> simp_all

/-- An expired timer can be copied to the guest. Without one, that holds of the event of the first
    registration with an event; or there is none or it only reports a message, and no registration
    before it stalls. -/
def keepsEvent (c : Cooperative) (host : CooperativeHost) : Bool :=
  let ports := c.sources.ports
  let first := c.sources.kevents.find? (·.waits true true ports)
  if (c.sources.dueTimer true true).isSome then c.stages host []
  else first.any (fun registered =>
      c.stages host ((registered.takenMessage ports).elim [] receivedBytes))
    || !(c.sources.kevents.takeWhile (!·.waits true true ports)).any (·.stalls ports)
      && first.all (·.onlyReports ports)

/-- The pump does not come to the events, or the events are kept. -/
def keepsWork (c : Cooperative) (host : CooperativeHost) : Bool :=
  c.upcallActive || c.pendingUpcall.isSome || !c.opened
    || match ensureGuestWorkqueueWorker c.registration host.ensure c.worker with
      | (false, _) => true
      | (true, worker) =>
        !(c.withWorker worker).requests.isEmpty || (c.withWorker worker).keepsEvent host

/-- The pump leaves the sources where the search for an event left them. -/
theorem pumpEvent_eq (c : Cooperative) (host : CooperativeHost) :
    (c.pumpEvent host).2.requests = c.requests
      ∧ (c.pumpEvent host).2.sources = (nextGuestWorkqueueEvent c.sources true true).2
      ∧ ((c.pumpEvent host).1 = .none ↔ (nextGuestWorkqueueEvent c.sources true true).1.any
        (c.stages host ·.message) = false) := by
  unfold pumpEvent
  rcases nextGuestWorkqueueEvent c.sources true true with ⟨_ | delivery, sources⟩
  · simp
  · have hkept := { c with sources }.prepareGuestWorkqueueUpcall_kept host (some delivery) 0
    have hstages := c.prepareGuestWorkqueueUpcall_stages host sources delivery
    simp only
    split
    · rename_i c' heq
      rw [heq] at hkept hstages
      exact ⟨hkept.1, hkept.2, by simp [← hstages]⟩
    · rename_i c' heq
      rw [heq] at hkept hstages
      exact ⟨hkept.1, hkept.2, by simp [← hstages]⟩

theorem pumpEvent_keepsWork (c : Cooperative) (host : CooperativeHost) :
    ((c.pumpEvent host).1 = .none → WorkKept c (c.pumpEvent host).2) ↔ c.keepsEvent host := by
  obtain ⟨hrequests, hsources, hnone⟩ := c.pumpEvent_eq host
  rw [hnone]
  unfold keepsEvent
  rcases nextGuestWorkqueueTimerEvent_cases c.sources true true with
    ⟨hdue, htimer⟩ | ⟨queue, timer, htakes, htimer⟩
  · have hscan := nextKevent_scans true true c.sources.ports c.sources.kevents
    simp only [nextGuestWorkqueueEvent, htimer] at hsources ⊢
    have hkept := (workKept_iff hrequests hsources).trans hscan.kept_iff
    have hstages : (nextKevent true true c.sources.ports c.sources.kevents).1.any
          (c.stages host ·.message)
        = (c.sources.kevents.find? (·.waits true true c.sources.ports)).any (fun registered =>
          c.stages host ((registered.takenMessage c.sources.ports).elim [] receivedBytes)) := by
      have hmessage := congrArg (Option.any (c.stages host ·.1)) hscan.found_eq
      simpa only [Option.any_map, Function.comp_def] using hmessage
    rw [hkept, hdue, ← hstages]
    simp only [isSome_none, Bool.false_eq_true, if_false]
    cases (nextKevent true true c.sources.ports c.sources.kevents).1.any (c.stages host ·.message)
      <;> simp
  · simp only [nextGuestWorkqueueEvent, htimer, htakes.due, isSome_some, if_true, any_some,
      GuestWorkqueueDelivery.of] at hsources ⊢
    -- one timer fewer is pending
    have hlost : ¬ WorkKept c (c.pumpEvent host).2 := by
      intro hkept
      have hqueue := hkept.timerQueue
      rw [hsources, htakes.queue_eq] at hqueue
      obtain ⟨hmem, hpending, -⟩ := TimerQueue.of_find?_takeable htakes.found
      have hcount := TimerQueue.pending_taken hmem hpending
      rw [some.inj hqueue] at hcount
      omega
    simp [hlost]

/-- A request is counted down only when its upcall was staged. -/
theorem pumpWork_keepsWork (c : Cooperative) (host : CooperativeHost) :
    ((c.pumpWork host).1 = .none → WorkKept c (c.pumpWork host).2)
      ↔ (!c.requests.isEmpty || c.keepsEvent host) := by
  unfold pumpWork
  split
  · rename_i request rest hrequests
    have hkept := c.prepareGuestWorkqueueUpcall_kept host none request.priority
    simp only [hrequests, isEmpty_cons, Bool.not_false, Bool.true_or, iff_true]
    split
    · rename_i c' heq
      rw [heq] at hkept
      exact fun _ => .of_eq hkept.1 hkept.2
    · exact nofun
  · rename_i hrequests
    simp only [hrequests, isEmpty_nil, Bool.not_true, Bool.false_or]
    exact c.pumpEvent_keepsWork host

/-- **When a pump without a transition leaves all the work.** For every state and every outcome of
    the host: a pump that stages no transition has consumed nothing exactly when it did not come to
    an event, or could copy the event to the guest, or the event takes nothing. -/
theorem pumpGuestWorkqueue_keepsWork (c : Cooperative) (host : CooperativeHost) :
    ((c.pumpGuestWorkqueue host).1 = .none → WorkKept c (c.pumpGuestWorkqueue host).2)
      ↔ c.keepsWork host = true := by
  unfold pumpGuestWorkqueue keepsWork
  split
  · rename_i hbusy
    simp only [hbusy, Bool.true_or, iff_true]
    exact fun _ => .of_eq rfl rfl
  · rename_i hidle
    rw [Bool.not_eq_true] at hidle
    rw [hidle, Bool.false_or]
    split
    · simp only [iff_true]
      exact fun _ => .of_eq rfl rfl
    · rw [← pumpWork_keepsWork]
      refine imp_congr_right fun _ => ⟨fun h => { h with units := fun number => ?_ },
        fun h => { h with units := fun number => ?_ }⟩
      · rw [h.units, withWorker, requestUnits_dropWhile]
      · rw [h.units, withWorker, requestUnits_dropWhile]

/-- A worker exists, and an event waits that was triggered once. -/
def triggered : Cooperative :=
  { opened := true
    sources.kevents := [
      { event := { ident := 1, filter := evfiltUser }
        enabled := true
        triggered := true
        addedBy := 0
        addFlags := evAdd
        enabledBy := 0 }]
    worker :=
      { allocation := 0x10000000
        allocationSize := 0x83000
        stackBottom := 0x10001000
        pthread := 0x10081000
        threadPort := 0x103
        threadSelfId := 7 } }

/-- **A write to the guest that fails loses the event.** Nothing is staged, and the next pump finds
    nothing, even though its writes would succeed. -/
theorem failedWrite_losesEvent :
    let host : CooperativeHost := ⟨⟨0, none, 0⟩, ⟨0, none, 0⟩, fun _ _ => false⟩
    let c := (triggered.pumpGuestWorkqueue host).2
    (triggered.pumpGuestWorkqueue host).1 = .none ∧ c.pendingUpcall = none
      ∧ ¬ WorkKept triggered c
      ∧ c.pumpGuestWorkqueue { host with writes := fun _ _ => true } = (.none, c)
      ∧ (triggered.pumpGuestWorkqueue { host with writes := fun _ _ => true }).1
        = .cooperativeTransition := by
  refine ⟨by decide, by decide, fun h => ?_, by decide, by decide⟩
  cases forall₂_stillRegistered_triggered h.kevents

end Cooperative

end LiveExec32.Workqueue
