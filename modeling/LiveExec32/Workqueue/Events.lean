import LiveExec32.Workqueue.TimerQueue

/-! # The next event of the workqueue

`NextGuestWorkqueueEvent` looks for an event that a worker can be started for: first an expired
timer, then the registrations in their order. A triggered user event is consumed by clearing its
flag. A Mach port registration either probes the port (without `MACH_RCV_MSG` the guest receives the
message itself) or receives a message for the guest.

The Mach ports belong to the kernel. `MachPorts` is what `mach_msg` with a zero timeout does on
them: `queued` lists the messages that wait, each with the name it can be received under, and
`failing` are the names on which `mach_msg` fails with some other error. -/

namespace LiveExec32.Workqueue

open TimerQueue List

def machRcvMsg : U32 := 0x00000002
def machMsgSuccess : U32 := 0
def machRcvTooLarge : U32 := 0x10004004
def guestWorkqueueMessageCapacity : ℕ := 32 * 1024
/-- The size of `mach_msg_trailer_t`. -/
def machMsgTrailerSize : ℕ := 8

/-! ## Mach ports -/

structure MachMessage where
  /-- The port the message was sent to. -/
  localPort : U32
  /-- The header's `msgh_size`. -/
  size : ℕ
  trailerSize : ℕ
  /-- Header, body and trailer as the kernel copies them out. -/
  contents : List (BitVec 8)
  /-- Every message has a `mach_msg_header_t`, and is copied out as a whole. -/
  hasHeader : 24 ≤ size ∧ size ≤ contents.length
deriving DecidableEq, Repr

structure MachPorts where
  queued : List (U32 × MachMessage) := []
  failing : List U32 := []
deriving DecidableEq, Repr

/-- What a receive with zero timeout ends with. -/
inductive MachReceive where
  | timedOut
  | failed
  | tooLarge (message : MachMessage)
  | received (message : MachMessage)
deriving DecidableEq, Repr

/-- The first message that waits on `port`. -/
def MachPorts.front (ports : MachPorts) (port : U32) : Option MachMessage :=
  (ports.queued.find? (fun entry => entry.1 == port)).map Prod.snd

/-- `mach_msg` with `MACH_RCV_TIMEOUT | MACH_RCV_LARGE` into a buffer of `capacity` bytes: a message
    that does not fit stays in its queue. -/
def MachPorts.receive (ports : MachPorts) (port : U32) (capacity : ℕ) : MachReceive × MachPorts :=
  if port ∈ ports.failing then (.failed, ports)
  else
    match ports.front port with
    | none => (.timedOut, ports)
    | some message =>
      if capacity < message.contents.length then (.tooLarge message, ports)
      else
        (.received message,
          { ports with queued := ports.queued.eraseP (fun entry => entry.1 == port) })

/-- A port name for which `MACH_PORT_VALID` holds. -/
def machPortValid (port : U32) : Bool := port != 0 && port != BitVec.allOnes 32

/-! ## Deliveries -/

structure GuestWorkqueueDelivery where
  event : KeventQos := {}
  message : List (BitVec 8) := []
  eventManager : Bool := false
  /-- Ghost: the event only reports a message, which stays in its queue. -/
  report : Bool := false
  /-- Ghost: the registration that delivered, as it was then; none for a timer. -/
  registration : Option GuestWorkqueueKevent := none
deriving DecidableEq, Repr

/-- What `NextGuestWorkqueueEvent` reads and consumes. -/
structure EventSources where
  /-- `Stopping()`: the process is shutting down. -/
  stopping : Bool := false
  timerQueue : Option TimerQueue := none
  kevents : List GuestWorkqueueKevent := []
  ports : MachPorts := {}
deriving DecidableEq

def nextGuestWorkqueueTimerEvent (sources : EventSources) (allowEventManager allowOrdinary : Bool) :
    Option GuestWorkqueueDelivery × EventSources :=
  if !allowEventManager && !allowOrdinary then (none, sources)
  else
    match sources.timerQueue with
    | none => (none, sources)
    | some queue =>
      if sources.stopping then (none, sources)
      else
        match queue.take (if allowEventManager then 0 else pthreadPriorityEventManagerFlag)
            (if allowOrdinary then 0 else pthreadPriorityEventManagerFlag) with
        | (none, queue) => (none, { sources with timerQueue := some queue })
        | (some event, queue) =>
          (some { event, eventManager := event.eventManager },
            { sources with timerQueue := some queue })

/-- The number of bytes of a received message that are passed on: the rounded size, and the trailer
    if the buffer holds it. -/
def receivedExtent (message : MachMessage) : ℕ :=
  let rounded := (message.size + 3) / 4 * 4
  if rounded + machMsgTrailerSize ≤ guestWorkqueueMessageCapacity
      ∧ message.trailerSize ≤ guestWorkqueueMessageCapacity - rounded then
    rounded + message.trailerSize
  else rounded

/-- The buffer after the receive, cut to the received extent. -/
def receivedBytes (message : MachMessage) : List (BitVec 8) :=
  (message.contents
    ++ replicate (guestWorkqueueMessageCapacity - message.contents.length) 0).take
      (receivedExtent message)

/-- The name that a Mach port registration receives from. -/
def KeventQos.port (event : KeventQos) : U32 := event.ident.setWidth 32

/-- The delivery of `event` with a received message. -/
def GuestWorkqueueDelivery.of (event : KeventQos) (message : List (BitVec 8)) :
    GuestWorkqueueDelivery :=
  { event, message, eventManager := event.eventManager }

/-- The delivery of an `event` that reports a message. -/
def GuestWorkqueueDelivery.reporting (event : KeventQos) : GuestWorkqueueDelivery :=
  { event, eventManager := event.eventManager, report := true }

/-- What a look at a port ends with. -/
inductive PortOutcome where
  | nothing
  | failed
  | delivers (delivery : GuestWorkqueueDelivery)
deriving DecidableEq, Repr

/-- A registration without `MACH_RCV_MSG` only reports that a message waits. The probe's buffer is
    smaller than every message, so none is consumed. -/
def probePort (event : KeventQos) (ports : MachPorts) : PortOutcome × MachPorts :=
  match ports.receive event.port 20 with
  | (.timedOut, ports) => (.nothing, ports)
  | (.tooLarge message, ports) =>
    let data := if machPortValid message.localPort then message.localPort else event.port
    (.delivers (.reporting { event with data := data.toNat, ext0 := 0, ext1 := 0 }), ports)
  | (_, ports) => (.failed, ports)

/-- A registration with `MACH_RCV_MSG` delivers the message itself, or reports its size when it is
    too large for a worker's buffer. -/
def receiveFromPort (event : KeventQos) (ports : MachPorts) : PortOutcome × MachPorts :=
  match ports.receive event.port guestWorkqueueMessageCapacity with
  | (.timedOut, ports) => (.nothing, ports)
  | (.tooLarge message, ports) =>
    (.delivers (.reporting
      { event with
        fflags := machRcvTooLarge
        data := message.localPort.toNat
        ext0 := 0
        ext1 := message.size }), ports)
  | (.received message, ports) =>
    (.delivers (.of { event with fflags := machMsgSuccess, data := 0 } (receivedBytes message)),
      ports)
  | (.failed, ports) => (.failed, ports)

/-- What a registration of a Mach port delivers. -/
def machPortDelivery (event : KeventQos) (ports : MachPorts) : PortOutcome × MachPorts :=
  if !hasAny event.fflags machRcvMsg then probePort event ports else receiveFromPort event ports

/-- A worker may be started for the events of this registration. -/
def GuestWorkqueueKevent.allowed (registered : GuestWorkqueueKevent)
    (allowEventManager allowOrdinary : Bool) : Bool :=
  if registered.event.eventManager then allowEventManager else allowOrdinary

/-- The registration after a delivery that does not retire it. -/
def GuestWorkqueueKevent.dispatched (registered : GuestWorkqueueKevent) : GuestWorkqueueKevent :=
  { registered with enabled := registered.enabled && !hasAny registered.event.flags evDispatch }

/-- Ghost: the delivery comes from this registration. -/
def GuestWorkqueueKevent.delivering (registered : GuestWorkqueueKevent)
    (delivery : GuestWorkqueueDelivery) : GuestWorkqueueDelivery :=
  { delivery with registration := some registered }

section Delivering

variable (registered : GuestWorkqueueKevent) (delivery : GuestWorkqueueDelivery)

@[simp] theorem delivering_event : (registered.delivering delivery).event = delivery.event := rfl

@[simp] theorem delivering_eventManager :
    (registered.delivering delivery).eventManager = delivery.eventManager := rfl

@[simp] theorem delivering_report : (registered.delivering delivery).report = delivery.report := rfl

@[simp] theorem delivering_registration :
    (registered.delivering delivery).registration = some registered := rfl

end Delivering

/-- The loop over the registrations, from one of them on. -/
def nextKevent (allowEventManager allowOrdinary : Bool) (ports : MachPorts) :
    List GuestWorkqueueKevent →
      Option GuestWorkqueueDelivery × List GuestWorkqueueKevent × MachPorts
  | [] => (none, [], ports)
  | registered :: rest =>
    let skip (registered : GuestWorkqueueKevent) (ports : MachPorts) :=
      let (delivery, rest, ports) := nextKevent allowEventManager allowOrdinary ports rest
      (delivery, registered :: rest, ports)
    if !registered.enabled || !registered.allowed allowEventManager allowOrdinary then
      skip registered ports
    else if registered.event.filter == evfiltUser && registered.triggered then
      (some (registered.delivering (.of { registered.event with fflags := noteTrigger } [])),
        { registered.dispatched with triggered := false } :: rest, ports)
    else if registered.event.filter != evfiltMachport then skip registered ports
    else
      match machPortDelivery registered.event ports with
      | (.nothing, ports) => skip registered ports
      | (.failed, ports) => skip { registered with enabled := false } ports
      | (.delivers delivery, ports) =>
        if hasAny registered.event.flags evOneShot then
          (some (registered.delivering { delivery with
            event := { delivery.event with flags := delivery.event.flags ||| evDelete } }),
            rest, ports)
        else (some (registered.delivering delivery), registered.dispatched :: rest, ports)

def nextGuestWorkqueueEvent (sources : EventSources) (allowEventManager allowOrdinary : Bool) :
    Option GuestWorkqueueDelivery × EventSources :=
  match nextGuestWorkqueueTimerEvent sources allowEventManager allowOrdinary with
  | (some delivery, sources) => (some delivery, sources)
  | (none, sources) =>
    let (delivery, kevents, ports) :=
      nextKevent allowEventManager allowOrdinary sources.ports sources.kevents
    (delivery, { sources with kevents, ports })

/-! ## What a search for an event does -/

theorem MachPorts.receive_cases (ports : MachPorts) (port : U32) (capacity : ℕ) :
    (port ∈ ports.failing ∧ ports.receive port capacity = (.failed, ports))
      ∨ (port ∉ ports.failing ∧ ports.front port = none
        ∧ ports.receive port capacity = (.timedOut, ports))
      ∨ ∃ message, port ∉ ports.failing ∧ ports.front port = some message
        ∧ ((capacity < message.contents.length
            ∧ ports.receive port capacity = (.tooLarge message, ports))
          ∨ (message.contents.length ≤ capacity ∧ ports.receive port capacity = (.received message,
              { ports with queued := ports.queued.eraseP (fun entry => entry.1 == port) }))) := by
  unfold MachPorts.receive
  split
  · next hfailing => exact .inl ⟨hfailing, rfl⟩
  · rename_i hfailing
    cases hfront : ports.front port with
    | none => exact .inr (.inl ⟨hfailing, rfl, rfl⟩)
    | some message =>
      refine .inr (.inr ⟨message, hfailing, rfl, ?_⟩)
      by_cases hlarge : capacity < message.contents.length
      · exact .inl ⟨hlarge, if_pos hlarge⟩
      · exact .inr ⟨by omega, if_neg hlarge⟩

/-- The registration asks for the message, and the message fits a worker's buffer. -/
def KeventQos.takesMessage (event : KeventQos) (message : MachMessage) : Bool :=
  hasAny event.fflags machRcvMsg
    && decide (message.contents.length ≤ guestWorkqueueMessageCapacity)

/-- A port registration delivers `delivery` and leaves the ports as `ports'`: it reports a message
    that stays in its queue, or takes the message that waits first. -/
inductive PortDelivers (event : KeventQos) (ports : MachPorts) :
    GuestWorkqueueDelivery → MachPorts → Prop where
  | reports (message : MachMessage) (delivery : GuestWorkqueueDelivery)
      (hport : event.port ∉ ports.failing) (hflags : delivery.event.flags = event.flags)
      (hfront : ports.front event.port = some message) (hreport : delivery.report = true)
      (hmanager : delivery.eventManager = event.eventManager)
      (htakes : event.takesMessage message = false) (hident : delivery.event.ident = event.ident)
      (hempty : delivery.message = []) :
      PortDelivers event ports delivery ports
  | receives (message : MachMessage) (delivery : GuestWorkqueueDelivery)
      (hport : event.port ∉ ports.failing) (hflags : delivery.event.flags = event.flags)
      (hfront : ports.front event.port = some message)
      (hmessage : delivery.message = receivedBytes message) (hreport : delivery.report = false)
      (hmanager : delivery.eventManager = event.eventManager)
      (htakes : event.takesMessage message = true)
      (hevent : delivery.event = { event with fflags := machMsgSuccess, data := 0 }) :
      PortDelivers event ports delivery
        { ports with queued := ports.queued.eraseP (fun entry => entry.1 == event.port) }

theorem machPortDelivery_cases (event : KeventQos) (ports : MachPorts) :
    (event.port ∉ ports.failing ∧ ports.front event.port = none
        ∧ machPortDelivery event ports = (.nothing, ports))
      ∨ (event.port ∈ ports.failing ∧ machPortDelivery event ports = (.failed, ports))
      ∨ ∃ delivery ports', machPortDelivery event ports = (.delivers delivery, ports')
        ∧ PortDelivers event ports delivery ports' := by
  unfold machPortDelivery
  split
  · rename_i hprobe
    rw [Bool.not_eq_true'] at hprobe
    unfold probePort
    rcases ports.receive_cases event.port 20 with
      ⟨hfailing, h⟩ | ⟨hport, hfront, h⟩ | ⟨message, hport, hfront, ⟨-, h⟩ | ⟨hfits, -⟩⟩
    · exact .inr (.inl ⟨hfailing, by rw [h]⟩)
    · exact .inl ⟨hport, hfront, by rw [h]⟩
    · refine .inr (.inr ⟨_, _, by rw [h], ?_⟩)
      exact .reports message _ hport rfl hfront rfl rfl
        (by simp [KeventQos.takesMessage, hprobe]) rfl
        rfl
    · -- no message fits the probe's buffer
      exact absurd hfits (by have := message.hasHeader; omega)
  · rename_i hreceive
    rw [Bool.not_eq_true', Bool.not_eq_false] at hreceive
    unfold receiveFromPort
    rcases ports.receive_cases event.port guestWorkqueueMessageCapacity with
      ⟨hfailing, h⟩ | ⟨hport, hfront, h⟩ | ⟨message, hport, hfront, ⟨hlarge, h⟩ | ⟨hfits, h⟩⟩
    · exact .inr (.inl ⟨hfailing, by rw [h]⟩)
    · exact .inl ⟨hport, hfront, by rw [h]⟩
    · refine .inr (.inr ⟨_, _, by rw [h], ?_⟩)
      exact .reports message _ hport rfl hfront rfl rfl
        (by simp [KeventQos.takesMessage, Nat.not_le.2 hlarge]) rfl rfl
    · refine .inr (.inr ⟨_, _, by rw [h], ?_⟩)
      exact .receives message _ hport rfl hfront rfl rfl rfl
        (by simp [KeventQos.takesMessage, hreceive, hfits]) rfl

/-- An event waits at the registration. -/
def GuestWorkqueueKevent.ready (ports : MachPorts) (registered : GuestWorkqueueKevent) : Bool :=
  registered.event.filter == evfiltUser && registered.triggered
    || registered.event.filter == evfiltMachport && decide (registered.event.port ∉ ports.failing)
      && (ports.front registered.event.port).isSome

/-- A look at the port of the registration fails. -/
def GuestWorkqueueKevent.fails (ports : MachPorts) (registered : GuestWorkqueueKevent) : Bool :=
  registered.event.filter == evfiltMachport && decide (registered.event.port ∈ ports.failing)

/-- What the loop over the registrations does, registration by registration. -/
inductive Scans (allowEventManager allowOrdinary : Bool) (ports : MachPorts) :
    List GuestWorkqueueKevent → Option GuestWorkqueueDelivery → List GuestWorkqueueKevent →
      MachPorts → Prop where
  | nil : Scans allowEventManager allowOrdinary ports [] none [] ports
  | skip {registered : GuestWorkqueueKevent} {rest rest' : List GuestWorkqueueKevent}
      {delivery : Option GuestWorkqueueDelivery} {ports' : MachPorts}
      (hskip : registered.enabled = false
        ∨ registered.allowed allowEventManager allowOrdinary = false
        ∨ registered.ready ports = false ∧ registered.fails ports = false)
      (hrest : Scans allowEventManager allowOrdinary ports rest delivery rest' ports') :
      Scans allowEventManager allowOrdinary ports (registered :: rest) delivery
        (registered :: rest') ports'
  /-- The port of the registration failed. -/
  | disable {registered : GuestWorkqueueKevent} {rest rest' : List GuestWorkqueueKevent}
      {delivery : Option GuestWorkqueueDelivery} {ports' : MachPorts}
      (henabled : registered.enabled = true) (hfails : registered.fails ports = true)
      (hrest : Scans allowEventManager allowOrdinary ports rest delivery rest' ports') :
      Scans allowEventManager allowOrdinary ports (registered :: rest) delivery
        ({ registered with enabled := false } :: rest') ports'
  | user {registered : GuestWorkqueueKevent} {rest : List GuestWorkqueueKevent}
      (henabled : registered.enabled = true)
      (hallowed : registered.allowed allowEventManager allowOrdinary = true)
      (hfilter : registered.event.filter = evfiltUser) (htriggered : registered.triggered = true) :
      Scans allowEventManager allowOrdinary ports (registered :: rest)
        (some (registered.delivering (.of { registered.event with fflags := noteTrigger } [])))
        ({ registered.dispatched with triggered := false } :: rest) ports
  | oneShot {registered : GuestWorkqueueKevent} {rest : List GuestWorkqueueKevent}
      {delivery : GuestWorkqueueDelivery} {ports' : MachPorts}
      (henabled : registered.enabled = true)
      (hallowed : registered.allowed allowEventManager allowOrdinary = true)
      (hfilter : registered.event.filter = evfiltMachport)
      (hport : PortDelivers registered.event ports delivery ports')
      (hflag : hasAny registered.event.flags evOneShot = true) :
      Scans allowEventManager allowOrdinary ports (registered :: rest)
        (some (registered.delivering { delivery with
          event := { delivery.event with flags := delivery.event.flags ||| evDelete } }))
        rest ports'
  | port {registered : GuestWorkqueueKevent} {rest : List GuestWorkqueueKevent}
      {delivery : GuestWorkqueueDelivery} {ports' : MachPorts}
      (henabled : registered.enabled = true)
      (hallowed : registered.allowed allowEventManager allowOrdinary = true)
      (hfilter : registered.event.filter = evfiltMachport)
      (hport : PortDelivers registered.event ports delivery ports')
      (hflag : hasAny registered.event.flags evOneShot = false) :
      Scans allowEventManager allowOrdinary ports (registered :: rest)
        (some (registered.delivering delivery)) (registered.dispatched :: rest) ports'

open GuestWorkqueueKevent in
/-- The loop does nothing else. -/
theorem nextKevent_scans (allowEventManager allowOrdinary : Bool) (ports : MachPorts)
    (kevents : List GuestWorkqueueKevent) :
    Scans allowEventManager allowOrdinary ports kevents
      (nextKevent allowEventManager allowOrdinary ports kevents).1
      (nextKevent allowEventManager allowOrdinary ports kevents).2.1
      (nextKevent allowEventManager allowOrdinary ports kevents).2.2 := by
  induction kevents with
  | nil => exact .nil
  | cons registered _ ih =>
    simp only [nextKevent]
    split
    · rename_i hclosed
      rw [Bool.or_eq_true, Bool.not_eq_true', Bool.not_eq_true'] at hclosed
      exact .skip (hclosed.imp_right .inl) ih
    · rename_i hopen
      simp only [Bool.or_eq_true, Bool.not_eq_true', not_or, Bool.not_eq_false] at hopen
      obtain ⟨henabled, hallowed⟩ := hopen
      split
      · rename_i huser
        rw [Bool.and_eq_true, beq_iff_eq] at huser
        exact .user henabled hallowed huser.1 huser.2
      · rename_i huser
        rw [Bool.not_eq_true] at huser
        split
        · rename_i hfilter
          have hother : (registered.event.filter == evfiltMachport) = false := by
            simpa using hfilter
          exact .skip (.inr (.inr ⟨by simp [ready, huser, hother], by simp [fails, hother]⟩)) ih
        · rename_i hfilter
          have hfilter : registered.event.filter = evfiltMachport := by simpa using hfilter
          rcases machPortDelivery_cases registered.event ports with
            ⟨hport, hfront, h⟩ | ⟨hfailing, h⟩ | ⟨delivery, ports', h, hport⟩
          · simp only [h]
            exact .skip (.inr (.inr ⟨by simp [ready, huser, hfront], by simp [fails, hport]⟩)) ih
          · simp only [h]
            exact .disable henabled (by simp [fails, hfilter, hfailing]) ih
          · simp only [h]
            split
            · next hflag => exact .oneShot henabled hallowed hfilter hport hflag
            · rename_i hflag
              exact .port henabled hallowed hfilter hport (by simpa using hflag)

/-- The timer that `NextGuestWorkqueueEvent` takes. -/
def EventSources.dueTimer (sources : EventSources) (allowEventManager allowOrdinary : Bool) :
    Option Timer :=
  if !allowEventManager && !allowOrdinary || sources.stopping then none
  else
    sources.timerQueue.bind (·.due
      (if allowEventManager then 0 else pthreadPriorityEventManagerFlag)
      (if allowOrdinary then 0 else pthreadPriorityEventManagerFlag))

/-- `NextGuestWorkqueueEvent` takes `timer` from the timer queue. -/
structure TakesTimer (allowEventManager allowOrdinary : Bool) (sources : EventSources)
    (queue : TimerQueue) (timer : Timer) : Prop where
  queue_eq : sources.timerQueue = some queue
  due : sources.dueTimer allowEventManager allowOrdinary = some timer
  found : queue.timers.entries.find? (TimerQueue.takeable
    (if allowEventManager then 0 else pthreadPriorityEventManagerFlag)
    (if allowOrdinary then 0 else pthreadPriorityEventManagerFlag)) = some timer

/-- A search that finds no timer leaves the sources as they are. -/
theorem nextGuestWorkqueueTimerEvent_cases (sources : EventSources)
    (allowEventManager allowOrdinary : Bool) :
    (sources.dueTimer allowEventManager allowOrdinary = none
      ∧ nextGuestWorkqueueTimerEvent sources allowEventManager allowOrdinary = (none, sources))
    ∨ ∃ queue timer, TakesTimer allowEventManager allowOrdinary sources queue timer
      ∧ nextGuestWorkqueueTimerEvent sources allowEventManager allowOrdinary
        = (some (.of (takenEvent timer) []),
          { sources with timerQueue := some (queue.taken timer) }) := by
  unfold nextGuestWorkqueueTimerEvent
  split
  · next hclosed => exact .inl ⟨by simp [EventSources.dueTimer, hclosed], rfl⟩
  · rename_i hopen
    cases hqueue : sources.timerQueue with
    | none => exact .inl ⟨by simp [EventSources.dueTimer, hqueue], rfl⟩
    | some queue =>
      simp only
      split
      · next hstopping => exact .inl ⟨by simp [EventSources.dueTimer, hstopping], rfl⟩
      · rename_i hrunning
        have hdue : sources.dueTimer allowEventManager allowOrdinary
            = queue.due (if allowEventManager then 0 else pthreadPriorityEventManagerFlag)
              (if allowOrdinary then 0 else pthreadPriorityEventManagerFlag) := by
          rw [EventSources.dueTimer, if_neg (by simp_all), hqueue, Option.bind_some]
        rcases queue.take_cases _ _ with ⟨hfind, hnone⟩ | ⟨timer, hfind, hsome⟩
        · refine .inl ⟨hdue.trans hfind, ?_⟩
          rw [hnone]
          show (none, { sources with timerQueue := some queue }) = (none, sources)
          rw [← hqueue]
        · rw [hsome]
          exact .inr ⟨queue, timer, ⟨hqueue, hdue.trans hfind, find?_of_due hfind⟩, rfl⟩

/-- What `NextGuestWorkqueueEvent` does: it takes a timer that is due, or scans the registrations.
    -/
theorem nextGuestWorkqueueEvent_cases (sources : EventSources)
    (allowEventManager allowOrdinary : Bool) :
    (∃ queue timer, TakesTimer allowEventManager allowOrdinary sources queue timer
      ∧ nextGuestWorkqueueEvent sources allowEventManager allowOrdinary
        = (some (.of (takenEvent timer) []),
          { sources with timerQueue := some (queue.taken timer) }))
    ∨ ∃ delivery kevents ports, sources.dueTimer allowEventManager allowOrdinary = none
      ∧ Scans allowEventManager allowOrdinary sources.ports sources.kevents delivery kevents ports
      ∧ nextGuestWorkqueueEvent sources allowEventManager allowOrdinary
        = (delivery, { sources with kevents, ports }) := by
  rcases nextGuestWorkqueueTimerEvent_cases sources allowEventManager allowOrdinary with
    ⟨hdue, hnone⟩ | ⟨queue, timer, htakes, hsome⟩
  · refine .inr ⟨_, _, _, hdue, nextKevent_scans _ _ sources.ports sources.kevents, ?_⟩
    simp only [nextGuestWorkqueueEvent, hnone]
  · refine .inl ⟨queue, timer, htakes, ?_⟩
    simp only [nextGuestWorkqueueEvent, hsome]

variable {allowEventManager allowOrdinary : Bool} {timer : Timer}

/-- A timer that `Take` hands out belongs to a class that it was asked for. -/
theorem takeable_allowed
    (h : takeable (if allowEventManager then 0 else pthreadPriorityEventManagerFlag)
      (if allowOrdinary then 0 else pthreadPriorityEventManagerFlag) timer = true) :
    (if timer.guest.eventManager then allowEventManager else allowOrdinary) = true := by
  simp only [takeable, Bool.and_eq_true, Bool.not_eq_true', beq_iff_eq] at h
  obtain ⟨⟨-, hexcluded⟩, hrequired⟩ := h
  unfold KeventQos.eventManager
  split
  · rename_i hmanager
    cases allowEventManager with
    | true => rfl
    | false =>
      simp only [Bool.false_eq_true, if_false] at hexcluded
      simp [hexcluded] at hmanager
  · rename_i hordinary
    cases allowOrdinary with
    | true => rfl
    | false =>
      simp only [Bool.false_eq_true, if_false] at hrequired
      exact absurd (by rw [hasAny, hrequired]; decide) hordinary

variable {event : KeventQos} {ports ports' : MachPorts} {delivery : GuestWorkqueueDelivery}

theorem PortDelivers.eventManager (h : PortDelivers event ports delivery ports') :
    delivery.eventManager = event.eventManager := by
  cases h with
  | reports _ _ _ _ _ _ hmanager => exact hmanager
  | receives _ _ _ _ _ _ _ hmanager => exact hmanager

variable {kevents kevents' : List GuestWorkqueueKevent} {found : Option GuestWorkqueueDelivery}

theorem Scans.allowed
    (h : Scans allowEventManager allowOrdinary ports kevents found kevents' ports')
    (hfound : found = some delivery) :
    (if delivery.eventManager then allowEventManager else allowOrdinary) = true := by
  induction h with
  | nil => simp at hfound
  | skip _ _ ih | disable _ _ _ ih => exact ih hfound
  | user _ hallowed =>
    cases hfound
    exact hallowed
  | oneShot _ hallowed _ hport =>
    cases hfound
    simpa only [delivering_eventManager, hport.eventManager, GuestWorkqueueKevent.allowed]
      using hallowed
  | port _ hallowed _ hport =>
    cases hfound
    simpa only [delivering_eventManager, hport.eventManager, GuestWorkqueueKevent.allowed]
      using hallowed

/-- **The search only finds events of an allowed class.** -/
theorem nextGuestWorkqueueEvent_allowed {sources : EventSources}
    (h : (nextGuestWorkqueueEvent sources allowEventManager allowOrdinary).1 = some delivery) :
    (if delivery.eventManager then allowEventManager else allowOrdinary) = true := by
  rcases nextGuestWorkqueueEvent_cases sources allowEventManager allowOrdinary with
    ⟨queue, timer, htakes, heq⟩ | ⟨found, kevents, ports, -, hscan, heq⟩
  · rw [heq] at h
    cases h
    exact takeable_allowed (find?_some htakes.found)
  · rw [heq] at h
    exact hscan.allowed h

/-! ## The event that is found -/

namespace GuestWorkqueueKevent

/-- The search takes an event from the registration when it comes by. -/
def waits (allowEventManager allowOrdinary : Bool) (ports : MachPorts)
    (registered : GuestWorkqueueKevent) : Bool :=
  registered.enabled && registered.allowed allowEventManager allowOrdinary && registered.ready ports

/-- The message that is taken from the registration's port; none when it only reports one. -/
def takenMessage (ports : MachPorts) (registered : GuestWorkqueueKevent) : Option MachMessage :=
  if registered.event.filter = evfiltMachport then
    (ports.front registered.event.port).filter registered.event.takesMessage
  else none

variable {registered : GuestWorkqueueKevent}

theorem not_ready_of_fails (h : registered.fails ports) : registered.ready ports = false := by
  simp only [fails, Bool.and_eq_true, beq_iff_eq, decide_eq_true_eq] at h
  simp [ready, h.1, h.2, evfiltMachport, evfiltUser]

theorem waits_user (henabled : registered.enabled)
    (hallowed : registered.allowed allowEventManager allowOrdinary)
    (hfilter : registered.event.filter = evfiltUser) (htriggered : registered.triggered) :
    registered.waits allowEventManager allowOrdinary ports := by
  simp [waits, ready, henabled, hallowed, hfilter, htriggered]

theorem waits_port (h : PortDelivers registered.event ports delivery ports')
    (henabled : registered.enabled)
    (hallowed : registered.allowed allowEventManager allowOrdinary)
    (hfilter : registered.event.filter = evfiltMachport) :
    registered.waits allowEventManager allowOrdinary ports
      ∧ delivery.message = (registered.takenMessage ports).elim [] receivedBytes := by
  cases h with
  | reports _ _ hport _ hfront _ _ htakes _ hempty =>
    simp [waits, ready, takenMessage, Option.filter, henabled, hallowed, hfilter, hport, hfront,
      htakes, hempty]
  | receives _ _ hport _ hfront hbytes _ _ htakes =>
    simp [waits, ready, takenMessage, Option.filter, henabled, hallowed, hfilter, hport, hfront,
      htakes, hbytes]

end GuestWorkqueueKevent

open GuestWorkqueueKevent in
/-- A scan delivers what the first registration with an event has. -/
theorem Scans.found_eq
    (h : Scans allowEventManager allowOrdinary ports kevents found kevents' ports') :
    found.map (fun delivery => (delivery.message, delivery.eventManager, delivery.registration))
      = (kevents.find? (·.waits allowEventManager allowOrdinary ports)).map fun registered =>
        ((registered.takenMessage ports).elim [] receivedBytes, registered.event.eventManager,
          some registered) := by
  induction h with
  | nil => rfl
  | skip hskip _ ih =>
    rw [ih, find?_cons_of_neg]
    rcases hskip with h | h | h <;> simp [waits, h]
  | disable _ hfails _ ih =>
    rw [ih, find?_cons_of_neg (by simp [waits, not_ready_of_fails hfails])]
  | user henabled hallowed hfilter htriggered =>
    rw [find?_cons_of_pos (waits_user henabled hallowed hfilter htriggered)]
    simp [takenMessage, hfilter, evfiltUser, evfiltMachport, delivering, GuestWorkqueueDelivery.of,
      KeventQos.eventManager]
  | oneShot henabled hallowed hfilter hport | port henabled hallowed hfilter hport =>
    obtain ⟨hwaits, hmessage⟩ := waits_port hport henabled hallowed hfilter
    rw [find?_cons_of_pos hwaits]
    exact congrArg some (Prod.ext hmessage (Prod.ext hport.eventManager rfl))

/-- The class of the event that is found: that of the timer that is due, or of the first
    registration with an event. -/
theorem nextGuestWorkqueueEvent_eventManager (sources : EventSources)
    (allowEventManager allowOrdinary : Bool) :
    (nextGuestWorkqueueEvent sources allowEventManager allowOrdinary).1.map (·.eventManager)
      = ((sources.dueTimer allowEventManager allowOrdinary).map (·.guest.eventManager)).or
        ((sources.kevents.find? (·.waits allowEventManager allowOrdinary sources.ports)).map
          (·.event.eventManager)) := by
  rcases nextGuestWorkqueueEvent_cases sources allowEventManager allowOrdinary with
    ⟨queue, timer, htakes, heq⟩ | ⟨found, kevents, ports, hdue, hscan, heq⟩
  · rw [heq, htakes.due]
    rfl
  · have hfound := congrArg (Option.map (·.2.1)) hscan.found_eq
    rw [Option.map_map, Option.map_map] at hfound
    rw [heq, hdue]
    exact hfound

/-! ## Ready events -/

/-- The events that wait in the sources: expired timers, triggered user events and queued
    messages. -/
def EventSources.ready (sources : EventSources) : ℕ :=
  (sources.timerQueue.elim 0 fun queue => queue.timers.entries.countP (·.pending))
    + sources.kevents.countP (fun r => r.event.filter == evfiltUser && r.triggered)
    + sources.ports.queued.length

/-- One for a delivery that consumes an event. -/
def consumes : Option GuestWorkqueueDelivery → ℕ
  | none => 0
  | some delivery => if delivery.report then 0 else 1

theorem consumes_congr {delivery' : GuestWorkqueueDelivery}
    (h : delivery.report = delivery'.report) :
    consumes (some delivery) = consumes (some delivery') := by
  simp only [consumes, h]

theorem PortDelivers.queued (h : PortDelivers event ports delivery ports') :
    ports'.queued.length + consumes (some delivery) = ports.queued.length := by
  cases h with
  | reports _ _ _ _ _ hreport => simp [consumes, hreport]
  | receives _ _ _ _ hfront _ hreport =>
    obtain ⟨entry, hfind, -⟩ := Option.map_eq_some_iff.1 hfront
    have hlength := length_eraseP_of_mem (mem_of_find?_eq_some hfind)
      (find?_some hfind)
    have hpos := length_pos_of_mem (mem_of_find?_eq_some hfind)
    simp only [consumes, hreport, Bool.false_eq_true, if_false, hlength]
    omega

theorem Scans.ready
    (h : Scans allowEventManager allowOrdinary ports kevents found kevents' ports') :
    kevents'.countP (fun r => r.event.filter == evfiltUser && r.triggered)
        + ports'.queued.length + consumes found
      = kevents.countP (fun r => r.event.filter == evfiltUser && r.triggered)
        + ports.queued.length := by
  induction h with
  | nil => rfl
  | skip | disable =>
    simp only [countP_cons]
    omega
  | user _ _ hfilter htriggered =>
    simp [GuestWorkqueueKevent.dispatched, hfilter, htriggered, consumes, GuestWorkqueueDelivery.of]
    omega
  | oneShot _ _ hfilter hport =>
    have hqueued := hport.queued
    rw [consumes_congr (delivering_report _ _)]
    simp only [consumes] at hqueued ⊢
    simp only [countP_cons, hfilter]
    simp [evfiltMachport, evfiltUser]
    omega
  | port _ _ hfilter hport =>
    have hqueued := hport.queued
    rw [consumes_congr (delivering_report _ _)]
    simp only [countP_cons, GuestWorkqueueKevent.dispatched, hfilter]
    omega

theorem TimerQueue.pending_taken {q : TimerQueue} (hmem : timer ∈ q.timers.entries)
    (hpending : timer.pending) :
    (q.taken timer).timers.entries.countP (·.pending) + 1
      = q.timers.entries.countP (·.pending) := by
  unfold taken
  split
  · have hcount := q.timers.unique.countP_eraseP (·.pending) hmem
    simp only [hpending, if_true] at hcount
    exact hcount
  · have hcount := q.timers.unique.countP_store (x := { timer with pending := false }) (·.pending)
      hmem rfl
    simp only [hpending, if_true, Bool.false_eq_true, if_false] at hcount
    exact hcount

/-- **A search consumes exactly the event that it delivers.** -/
theorem nextGuestWorkqueueEvent_ready (sources : EventSources)
    (allowEventManager allowOrdinary : Bool) :
    (nextGuestWorkqueueEvent sources allowEventManager allowOrdinary).2.ready
        + consumes (nextGuestWorkqueueEvent sources allowEventManager allowOrdinary).1
      = sources.ready := by
  rcases nextGuestWorkqueueEvent_cases sources allowEventManager allowOrdinary with
    ⟨queue, timer, htakes, heq⟩ | ⟨found, kevents, ports, -, hscan, heq⟩
  · obtain ⟨hmem, hpending, -⟩ := of_find?_takeable htakes.found
    have hcount := pending_taken hmem hpending
    rw [heq]
    simp only [EventSources.ready, htakes.queue_eq, Option.elim_some, consumes,
      GuestWorkqueueDelivery.of, Bool.false_eq_true, if_false]
    omega
  · have hready := hscan.ready
    rw [heq]
    simp only [EventSources.ready]
    omega

end LiveExec32.Workqueue
