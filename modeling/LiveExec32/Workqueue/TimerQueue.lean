import LiveExec32.Workqueue.Kevent

/-! # The guest timer queue

`LC32GuestTimerQueue` keeps the guest's timers. Every guest timer has a native timer of its own in a
private kqueue. A host thread, the waiter, dequeues expirations from that kqueue in batches and
collects them in the timers; the workqueue pump takes them from there. Between the kernel's dequeue
and the collection the guest may re-arm a timer, so an expiration carries a token: the native ident
of its timer and, in `udata`, the generation under which the timer was armed.

`TimerMap` is the source's `std::unordered_map` in its iteration order. The fields of `TimerQueue`
from `armed` on are ghosts: the native timers that the kernel accepted with `EV_ADD`, in that order;
the timer events that the waiter went through, dropped or not; and the events that were taken, each
with the arming of the registration that it was taken from. -/

namespace LiveExec32.Workqueue

open Errno

def int64Max : ℤ := 9223372036854775807

/-- The host's `struct kevent64_s`. -/
structure Kevent64 where
  ident : U64 := 0
  filter : ℤ := 0
  flags : U16 := 0
  fflags : U32 := 0
  data : ℤ := 0
  udata : U64 := 0
  ext0 : U64 := 0
  ext1 : U64 := 0
  /-- Ghost: the arming that the kernel's timer comes from. -/
  arming : ℕ := 0
deriving DecidableEq, Repr

structure Timer where
  /-- The key of the timer in `timers`. -/
  nativeIdent : U64
  guest : KeventQos := {}
  generation : U64 := 0
  readyEvent : Kevent64 := {}
  pending : Bool := false
  enabled : Bool := true
  oneShot : Bool := false
  /-- Ghost: the arming that the timer's current registration made. -/
  arming : ℕ := 0
deriving DecidableEq, Repr

/-- The timers by native ident. -/
structure TimerMap where
  entries : List Timer := []
  unique : Records.UniqueKeys Timer.nativeIdent entries := by exact .nil
deriving DecidableEq

namespace TimerMap

def store (timers : TimerMap) (timer : Timer) : TimerMap :=
  ⟨Records.store Timer.nativeIdent timer timers.entries, timers.unique.store timer⟩

def erase (timers : TimerMap) (ident : U64) : TimerMap :=
  ⟨timers.entries.eraseP (fun timer => timer.nativeIdent == ident), timers.unique.eraseP _⟩

def find? (timers : TimerMap) (ident : U64) : Option Timer :=
  timers.entries.find? (fun timer => timer.nativeIdent == ident)

end TimerMap

structure TimerQueue where
  stopping : Bool := false
  /-- Set when the waiter's `kevent64` failed. -/
  error : Option Errno := none
  nextIdent : U64 := 1
  timers : TimerMap := {}
  armed : List Kevent64 := []
  dequeued : List Kevent64 := []
  returned : List (ℕ × KeventQos) := []
deriving DecidableEq

/-- What `kevent64` answers to a change with `EV_RECEIPT`. -/
inductive KernelReply where
  | failed (error : Errno)
  /-- The number of events returned, and the flags and the error code of the receipt. -/
  | receipt (count : ℤ) (flags : U16) (error : Option Errno)
deriving DecidableEq, Repr

/-- The error that `Apply` reads from the answer. -/
def KernelReply.error : KernelReply → Option Errno
  | .failed error => some error
  | .receipt count flags error => if count != 1 || !hasAny flags evError then some EIO else error

/-- What the host does during an `Apply`: whether the table can grow, and the kernel's answer. -/
structure TimerHost where
  emplaces : Bool
  kernel : KernelReply

namespace TimerQueue

/-! ## `Apply` -/

def store (q : TimerQueue) (timer : Timer) : TimerQueue :=
  { q with timers := q.timers.store timer }

def erase (q : TimerQueue) (ident : U64) : TimerQueue :=
  { q with timers := q.timers.erase ident }

/-- The lookup predicate of `Apply`. -/
def timerMatches (change : KeventQos) (timer : Timer) : Bool :=
  timer.guest.ident == change.ident
    && (!hasAny (timer.guest.flags ||| change.flags) evUdataSpecific
      || timer.guest.udata == change.udata)

/-- The change that is passed on to the kernel. -/
def nativeChange (timer : Timer) (generation : U64) (change : KeventQos) : Kevent64 :=
  { ident := timer.nativeIdent
    filter := evfiltTimer
    flags := (change.flags &&& ~~~evUdataSpecific) ||| evReceipt
    fflags := change.fflags
    data := change.data
    udata := generation
    ext0 := change.ext0
    ext1 := change.ext1 }

/-- A one-shot that the waiter has already dequeued is no longer known to the kernel. -/
def applyError (reply : KernelReply) (change : KeventQos) (inserted : Bool) (timer : Timer) :
    Option Errno :=
  if reply.error = some .ENOENT && !inserted && timer.oneShot &&
      !hasAny change.flags evAdd then none
  else reply.error

/-- `timer` armed anew by `change`. -/
def rearmed (q : TimerQueue) (change : KeventQos) (timer : Timer) : TimerQueue :=
  { q.store
      { timer with
        guest := change
        pending := false
        enabled := !hasAny change.flags evDisable
        oneShot := hasAny change.flags evOneShot || hasAny change.fflags noteAbsolute
        generation := timer.generation + 1
        arming := q.armed.length } with
    armed := q.armed ++ [nativeChange timer (timer.generation + 1) change] }

/-- The timer after `EV_ENABLE` or `EV_DISABLE`: its interval and what it has collected stay. -/
def switched (change : KeventQos) (timer : Timer) : Timer :=
  if hasAny change.flags evDisable then { timer with enabled := false }
  else if hasAny change.flags evEnable then { timer with enabled := true }
  else timer

/-- `Apply` from the point where the timer is found or inserted. -/
def applyTo (q : TimerQueue) (reply : KernelReply) (change : KeventQos) (inserted : Bool)
    (timer : Timer) : Option Errno × TimerQueue :=
  let undone := if inserted then q.erase timer.nativeIdent else q
  if hasAny change.flags evAdd && timer.generation == BitVec.allOnes 64 then
    (some .EOVERFLOW, undone)
  else
    match applyError reply change inserted timer with
    | some error => (some error, undone)
    | none =>
      if hasAny change.flags evDelete then (none, q.erase timer.nativeIdent)
      else if hasAny change.flags evAdd then (none, q.rearmed change timer)
      else (none, q.store (switched change timer))

/-- `Apply`: the error, if any, and the queue afterwards. -/
def apply (q : TimerQueue) (host : TimerHost) (change : KeventQos) : Option Errno × TimerQueue :=
  if change.filter != evfiltTimer then (some .EINVAL, q)
  else if q.stopping then (some .ECANCELED, q)
  else
    match q.error with
    | some error => (some error, q)
    | none =>
      match q.timers.entries.find? (timerMatches change) with
      | some timer => q.applyTo host.kernel change false timer
      | none =>
        if !hasAny change.flags evAdd || hasAny change.flags evDelete then (some .ENOENT, q)
        else if 4096 ≤ q.timers.entries.length then (some .ENOSPC, q)
        else if q.nextIdent == 0 then (some .EOVERFLOW, q)
        else
          let grown := { q with nextIdent := q.nextIdent + 1 }
          if !host.emplaces then (some .ENOMEM, grown)
          else
            let timer : Timer := { nativeIdent := q.nextIdent }
            (grown.store timer).applyTo host.kernel change true timer

/-! ## The waiter -/

/-- The event a timer holds after collecting `event`: expirations that were not taken yet add up. -/
def collected (timer : Timer) (event : Kevent64) : Kevent64 :=
  if timer.pending && !hasAny event.flags evError then
    let previous := timer.readyEvent.data
    { event with
      data :=
        if 0 < previous ∧ 0 < event.data ∧ int64Max - event.data < previous then int64Max
        else previous + event.data }
  else event

/-- `event` is noted as dequeued. -/
def dequeue (q : TimerQueue) (event : Kevent64) : TimerQueue :=
  { q with dequeued := q.dequeued ++ [event] }

/-- One dequeued event. -/
def collect (q : TimerQueue) (event : Kevent64) : TimerQueue :=
  if event.filter != evfiltTimer then q
  else
    match q.timers.find? event.ident with
    | none => q.dequeue event
    | some timer =>
      -- re-arming changes the token: what was dequeued before it is stale
      if event.udata != timer.generation then q.dequeue event
      else
        (q.dequeue event).store
          { timer with pending := true, readyEvent := collected timer event }

/-- What a `kevent64` wait of the waiter ends with. -/
abbrev WaitResult := Except Errno (List Kevent64)

/-- One round of the waiter's loop after `kevent64` returned. -/
def waiterRound (q : TimerQueue) (result : WaitResult) : TimerQueue :=
  if q.stopping then q
  else
    match result with
    | .error error => { q with error := some error }
    | .ok events => events.foldl collect q

/-! ## `Take` and `RequestStop` -/

def takeable (excludedQosFlags requiredQosFlags : U32) (timer : Timer) : Bool :=
  timer.pending && timer.enabled && !hasAny timer.guest.qos excludedQosFlags
    && timer.guest.qos &&& requiredQosFlags == requiredQosFlags

/-- The timer that is taken is in the table, pending and enabled. -/
theorem of_find?_takeable {timers : List Timer} {excludedQosFlags requiredQosFlags : U32}
    {timer : Timer} (h : timers.find? (takeable excludedQosFlags requiredQosFlags) = some timer) :
    timer ∈ timers ∧ timer.pending ∧ timer.enabled := by
  have htakeable := List.find?_some h
  simp only [takeable, Bool.and_eq_true] at htakeable
  exact ⟨List.mem_of_find?_eq_some h, htakeable.1.1⟩

/-- The event that is delivered to the guest. -/
def takenEvent (timer : Timer) : KeventQos :=
  { timer.guest with
    flags := (timer.readyEvent.flags &&& ~~~evReceipt) ||| (timer.guest.flags &&& evUdataSpecific)
    fflags := timer.readyEvent.fflags
    data := timer.readyEvent.data
    ext0 := timer.readyEvent.ext0
    ext1 := timer.readyEvent.ext1 }

/-- `timer` is taken. -/
def taken (q : TimerQueue) (timer : Timer) : TimerQueue :=
  { (if timer.oneShot then q.erase timer.nativeIdent
      else q.store { timer with pending := false }) with
    returned := q.returned ++ [(timer.arming, takenEvent timer)] }

def take (q : TimerQueue) (excludedQosFlags requiredQosFlags : U32) :
    Option KeventQos × TimerQueue :=
  if q.stopping then (none, q)
  else
    match q.timers.entries.find? (takeable excludedQosFlags requiredQosFlags) with
    | none => (none, q)
    | some timer => (some (takenEvent timer), q.taken timer)

/-- The timer that `Take` hands out. -/
def due (q : TimerQueue) (excludedQosFlags requiredQosFlags : U32) : Option Timer :=
  if q.stopping then none
  else q.timers.entries.find? (takeable excludedQosFlags requiredQosFlags)

theorem take_cases (q : TimerQueue) (excludedQosFlags requiredQosFlags : U32) :
    (q.due excludedQosFlags requiredQosFlags = none
      ∧ q.take excludedQosFlags requiredQosFlags = (none, q))
    ∨ ∃ timer, q.due excludedQosFlags requiredQosFlags = some timer
      ∧ q.take excludedQosFlags requiredQosFlags = (some (takenEvent timer), q.taken timer) := by
  unfold take due
  split
  · exact .inl ⟨rfl, rfl⟩
  · split
    · next hfind => exact .inl ⟨hfind, rfl⟩
    · next timer hfind => exact .inr ⟨timer, hfind, rfl⟩

theorem find?_of_due {q : TimerQueue} {excludedQosFlags requiredQosFlags : U32} {timer : Timer}
    (h : q.due excludedQosFlags requiredQosFlags = some timer) :
    q.timers.entries.find? (takeable excludedQosFlags requiredQosFlags) = some timer := by
  unfold due at h
  split at h
  · simp at h
  · exact h

def requestStop (q : TimerQueue) : TimerQueue :=
  if q.stopping then q else { q with stopping := true, timers := {} }

end TimerQueue

end LiveExec32.Workqueue
