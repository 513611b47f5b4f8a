import LiveExec32.Lib.Execution
import LiveExec32.Workqueue.Events

/-! # The registrations over time

`ApplyGuestKeventChanges` applies a change list, one change after the other; a change of a timer
goes to the timer queue, which is created by the first one. `NextGuestWorkqueueEvent` delivers
events. Both run under `guestWorkqueueMutex`, so a run is a sequence of single changes and searches.
In between the timer waiter collects expirations, messages come and go, and the timer table, an
`std::unordered_map`, may come to be iterated in another order.

Ghosts: the changes are numbered, and `delivered` lists the registrations that have delivered, each
as it was at its delivery. -/

namespace LiveExec32.Workqueue

/-! ## Change lists -/

/-- What the host does when a timer's change is applied. -/
structure TimerChangeHost where
  /-- The error of `LC32GuestTimerQueue::Create`. -/
  createError : Option Errno
  apply : TimerHost

def applyGuestWorkqueueTimerChange (sources : EventSources) (host : TimerChangeHost)
    (change : KeventQos) : Option Errno × EventSources :=
  if sources.stopping then (some .ECANCELED, sources)
  else
    let applyTo (queue : TimerQueue) :=
      let (error, queue) := queue.apply host.apply change
      -- deleting a one-shot that was consumed already is no error
      (if error = some .ENOENT ∧ hasAny change.flags evDelete then none else error,
        { sources with timerQueue := some queue })
    match sources.timerQueue with
    | some queue => applyTo queue
    | none =>
      if !hasAny change.flags evAdd || hasAny change.flags evDelete then (none, sources)
      else
        match host.createError with
        | some error => (some error, sources)
        | none => applyTo {}

theorem kevents_timerChange (sources : EventSources) (host : TimerChangeHost) (change : KeventQos) :
    (applyGuestWorkqueueTimerChange sources host change).2.kevents = sources.kevents := by
  unfold applyGuestWorkqueueTimerChange
  split
  · rfl
  · split
    · rfl
    · split
      · rfl
      · split <;> rfl

/-- One round of the loop in `ApplyGuestKeventChanges`. -/
def applyChange (number : ℕ) (sources : EventSources) (host : TimerChangeHost)
    (change : KeventQos) : Option Errno × EventSources :=
  if change.filter == evfiltTimer then applyGuestWorkqueueTimerChange sources host change
  else (none, { sources with kevents := applyGuestKeventChange number change sources.kevents })

/-- The loop in `ApplyGuestKeventChanges`: it ends with the first error. -/
def applyChanges (number : ℕ) (sources : EventSources) :
    List (KeventQos × TimerChangeHost) → Option Errno × EventSources
  | [] => (none, sources)
  | (change, host) :: rest =>
    match applyChange number sources host change with
    | (some error, sources) => (some error, sources)
    | (none, sources) => applyChanges (number + 1) sources rest

/-- `ApplyGuestKeventChanges`. `changes` are the `nchanges` changes that the guest's memory holds at
    `changelist`, if they can be read, with what the host does for each of them. -/
def applyGuestKeventChanges (number : ℕ) (sources : EventSources) (changelist : U32) (nchanges : ℤ)
    (changes : Option (Fin nchanges.toNat → KeventQos × TimerChangeHost)) :
    Option Errno × EventSources :=
  if nchanges < 0 ∨ 4096 < nchanges ∨ (nchanges ≠ 0 ∧ changelist = 0) then (some .EINVAL, sources)
  else if nchanges = 0 then (none, sources)
  else
    match changes with
    | none => (some .EFAULT, sources)
    | some changes => applyChanges number sources (List.ofFn changes)

/-! ## Runs -/

structure Registrations where
  sources : EventSources := {}
  /-- Ghost: the number of changes so far. -/
  changes : ℕ := 0
  delivered : List GuestWorkqueueKevent := []
deriving DecidableEq

namespace Registrations

inductive Event where
  | change (change : KeventQos) (host : TimerChangeHost)
  /-- `NextGuestWorkqueueEvent`. -/
  | next (allowEventManager allowOrdinary : Bool)
  /-- A round of the timer waiter. -/
  | waiter (result : TimerQueue.WaitResult)
  /-- The timer table is iterated in another order from now on. -/
  | rehash (timers : TimerMap)
  | setPorts (ports : MachPorts)
  | stop

def withTimerQueue (c : Registrations) (f : TimerQueue → TimerQueue) : Registrations :=
  { c with sources := { c.sources with timerQueue := c.sources.timerQueue.map f } }

def step (c : Registrations) : Event → Registrations
  | .change change host =>
    { c with
      sources := (applyChange c.changes c.sources host change).2
      changes := c.changes + 1 }
  | .next allowEventManager allowOrdinary =>
    let found := nextGuestWorkqueueEvent c.sources allowEventManager allowOrdinary
    { c with
      sources := found.2
      delivered := c.delivered ++ (found.1.bind (·.registration)).toList }
  | .waiter result => c.withTimerQueue (·.waiterRound result)
  | .rehash timers =>
    c.withTimerQueue fun queue =>
      if timers.entries.Perm queue.timers.entries then { queue with timers } else queue
  | .setPorts ports => { c with sources := { c.sources with ports } }
  | .stop => { c.withTimerQueue (·.requestStop) with sources.stopping := true }

def run (c : Registrations) (events : List Event) : Registrations := Execution.run step c events

/-- A change list is a sequence of changes, up to the first one that fails. -/
theorem applyChanges_run (c : Registrations) (changes : List (KeventQos × TimerChangeHost)) :
    ∃ applied, applied <+: changes
      ∧ ((applyChanges c.changes c.sources changes).1 = none → applied = changes)
      ∧ (applyChanges c.changes c.sources changes).2
        = (c.run (applied.map fun entry => .change entry.1 entry.2)).sources := by
  induction changes generalizing c with
  | nil => exact ⟨[], List.prefix_refl _, fun _ => rfl, rfl⟩
  | cons entry _ ih =>
    obtain ⟨change, host⟩ := entry
    simp only [applyChanges]
    split
    · rename_i error sources heq
      refine ⟨[(change, host)], by simp, by simp, ?_⟩
      simp [run, Execution.run, step, heq]
    · rename_i sources heq
      obtain ⟨applied, hprefix, hall, hrun⟩ := ih (c.step (.change change host))
      simp only [step, heq] at hall hrun
      refine ⟨(change, host) :: applied, List.prefix_cons_inj _ |>.2 hprefix,
        fun hnone => by rw [hall hnone], ?_⟩
      rw [hrun]
      simp [run, Execution.run, step, heq]

theorem applyGuestKeventChanges_run (c : Registrations) (changelist : U32) (nchanges : ℤ)
    (changes : Option (Fin nchanges.toNat → KeventQos × TimerChangeHost)) :
    ∃ applied, applied <+: (changes.map List.ofFn).getD []
      ∧ ((applyGuestKeventChanges c.changes c.sources changelist nchanges changes).1 = none →
        applied.length = nchanges)
      ∧ (applyGuestKeventChanges c.changes c.sources changelist nchanges changes).2
        = (c.run (applied.map fun entry => .change entry.1 entry.2)).sources := by
  unfold applyGuestKeventChanges
  split
  · exact ⟨[], List.nil_prefix, by simp, rfl⟩
  · split
    · next hzero => exact ⟨[], List.nil_prefix, fun _ => hzero.symm, rfl⟩
    · split
      · exact ⟨[], List.nil_prefix, by simp, rfl⟩
      · obtain ⟨applied, hprefix, hall, hrun⟩ := applyChanges_run c _
        refine ⟨applied, hprefix, fun hnone => ?_, hrun⟩
        rw [hall hnone, Option.map_some, Option.getD_some, List.length_ofFn]
        omega

end Registrations

end LiveExec32.Workqueue
