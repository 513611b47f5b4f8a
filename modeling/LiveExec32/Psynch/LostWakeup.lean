import LiveExec32.Psynch.Invariant

/-! # Lost wake-ups

A waker marks a waiter `signaled` and counts the wake as delivered, so the waiter has to return its
wake result. It does whenever it looks at its waiter. But a wait that comes back from a debugger
pause decides from the pause alone whether to end with `EINTR`, and erases its waiter without
looking: a signal that arrived during the pause is lost.

`signaledWaits_succeed_iff` says that this is the only place: in a run every signaled waiter returns
its wake result exactly when no step ends the wait of a signaled waiter because of a pause. -/

namespace LiveExec32.Psynch

/-- The value is the wake result of the waiter, or for a ulock wait a number of waiters. -/
def Call.returnsWake (call : Call) (waiter : NativeGuestWaiter) (value : SyscallReturn) : Prop :=
  match call with
  | .ulockWait .. => ∃ remaining ≤ int32Max, value = ⟨BitVec.ofNat 32 remaining, false⟩
  | _ => value = ⟨waiter.wakeResult, false⟩

/-- A wait whose waiter was signaled returned its wake result. -/
def Observation.honoursWake : Observation → Prop
  | .returned _ call (some waiter) _ value =>
    waiter.signaled = true → call.returnsWake waiter value
  | _ => True

theorem Call.returnsWake_woken (call : Call) (waiter : NativeGuestWaiter) (after : WaitTables) :
    call.returnsWake waiter (call.wokenReturn waiter after) := by
  cases call with
  | ulockWait => exact ⟨_, min_le_right _ _, rfl⟩
  | _ => rfl

/-- The errors of a ulock wait that must not set `errno` are no counts: they are negative. -/
theorem Call.not_returnsWake_interrupted (call : Call) (waiter : NativeGuestWaiter) :
    ¬ call.returnsWake waiter call.interruptedReturn := by
  cases call with
  | ulockWait operation =>
    rintro ⟨remaining, hle, hvalue⟩
    rw [Call.interruptedReturn, guestUlockReturn, if_neg (by decide)] at hvalue
    split at hvalue
    · have hword : (BitVec.ofNat 32 remaining).toNat = 4294967292 := by
        rw [← (SyscallReturn.mk.inj hvalue).1]
        decide
      simp only [BitVec.toNat_ofNat, int32Max] at hword hle
      omega
    · exact absurd (SyscallReturn.mk.inj hvalue).2 (by decide)
  | _ => exact fun hvalue => absurd (SyscallReturn.mk.inj hvalue).2 (by decide)

/-- The step ends the wait of a signaled waiter because of a pause. -/
def Config.discardsWake (host : ℕ → HostThread) (c : Config) (event : Event) : Prop :=
  ∃ waiter, c.cuts host event waiter ∧ waiter.signaled = true

section Steps

variable {cut : NativeGuestWaiter → Prop} {host : ℕ → HostThread} {c : Config} {call : Call}
  {self : ℕ} {v v' : View}

/-- Every return but that of a signaled waiter cut off by a pause is as it should be. -/
theorem Effect.honoursWake (hcut : ∀ w, cut w → w.signaled = false)
    (he : Effect cut call self v v') (h : ∀ o ∈ v.trace, o.honoursWake) :
    ∀ o ∈ v'.trace, o.honoursWake := by
  cases he with
  | register => exact h
  | leave _ w hw _ _ hleaves =>
    refine List.forall_mem_cons.2 ⟨fun hsignaled => ?_, h⟩
    cases hleaves with
    | woken => exact call.returnsWake_woken w _
    | interrupted hw => simp [hcut w hw] at hsignaled
    | timedOut hunsignaled => simp [hunsignaled] at hsignaled
  | shortcut | grant | post | drop | signal | answer => exact List.forall_mem_cons.2 ⟨trivial, h⟩
  | ulockWake => exact h

/-- A step that cuts off a waiter records an interrupted return. -/
theorem Config.cuts.trace {event : Event} {w : NativeGuestWaiter} (h : c.cuts host event w) :
    ∃ thread call, (step host c event).trace
      = .returned thread call (some w) .interrupted call.interruptedReturn :: c.trace := by
  obtain ⟨thread, call, self, paused, rfl, hcall, hfree, hends, hw⟩ := h
  refine ⟨thread, call, ?_⟩
  simp only [step, hcall, Config.advance, Config.locked, hfree, if_true, Config.relock, hends, hw]
  rfl

theorem honoursWake_step (h : Wf c) (event : Event) :
    (∀ o ∈ (step host c event).trace, o.honoursWake)
      ↔ (∀ o ∈ c.trace, o.honoursWake) ∧ ¬ c.discardsWake host event := by
  constructor
  · intro hall
    refine ⟨fun o ho => hall o ((step_spec h host event).trace_suffix.subset ho), ?_⟩
    rintro ⟨w, hcut, hsignaled⟩
    obtain ⟨thread, call, htrace⟩ := hcut.trace
    have hlost := hall _ (htrace ▸ List.mem_cons_self)
    exact call.not_returnsWake_interrupted w (hlost hsignaled)
  · rintro ⟨hall, hkept⟩
    have hcut : ∀ w, c.cuts host event w → w.signaled = false := fun w hw =>
      Bool.eq_false_iff.2 (fun hsignaled => hkept ⟨w, hw, hsignaled⟩)
    rcases (step_spec h host event).effects with hview | ⟨thread, call, stage, self, -, heffects⟩
    · have htrace : (step host c event).trace = c.trace := congrArg View.trace hview
      rwa [htrace]
    · exact @Effects.invariant (fun v => ∀ o ∈ v.trace, o.honoursWake) _ _ _ _ _
        (fun _ _ _ he => he.honoursWake hcut) h.tables heffects hall

end Steps

/-- **A signaled wait succeeds, unless a pause cuts it off.** In every run, every wait whose waiter
    was signaled returned its wake result exactly when no step ended the wait of a signaled waiter
    because of a pause. -/
theorem signaledWaits_succeed_iff (host : ℕ → HostThread) (memory : U32 → Option U32)
    (environment : Environment) (events : List Event) :
    (∀ o ∈ (run host (.initial memory environment) events).trace, o.honoursWake)
      ↔ Execution.Always (fun c event => ¬ c.discardsWake host event) (step host)
        (.initial memory environment) events := by
  have hrun := @Execution.run_iff_always _ _ (step host) Wf
    (fun c event => ¬ c.discardsWake host event) (fun c => ∀ o ∈ c.trace, o.honoursWake)
    (fun c event h => (step_spec h host event).wf) (fun c event h => honoursWake_step h event)
    (.initial memory environment) (Wf.initial memory environment) events
  exact hrun.trans (and_iff_right (by simp [Config.initial]))

/-! ## A wake lost to an all-stop -/

/-- The debugger asks all threads to stop. -/
def allStop : Environment where
  debuggerActive := true
  debuggerAllStopRequested := true
  nativeDebugger := { state := .stopping }

/-- The main thread waits for a mutex and is asked to stop; while it is in the pause functions,
    thread `2` drops the mutex and signals it. -/
def dropDuringPause : List Event :=
  [.begin 1 (.mutexWait 0x4000 0x200 0x100 0), .advance 1, .advance 1, .request allStop,
    .advance 1, .advance 1, .advance 1, .advance 1, .advance 1,
    .begin 2 (.mutexDrop 0x4000 0x200 0x100 0), .advance 2, .advance 1, .advance 1]

/-- The waiter of the main thread in that run, as the drop left it. -/
def signaledMainWaiter : NativeGuestWaiter where
  kind := .mutex
  address := 0x4000
  mutexSequence := 0x200
  threadPort := 0x101
  wakeResult := 0x203
  sequence := 1
  signaled := true

/-- The signaled main thread returns `EINTR`, and its grant is gone: no other waiter has it, and no
    prepost was left. -/
theorem signaledWait_interrupted :
    Observation.returned 1 (.mutexWait 0x4000 0x200 0x100 0) (some signaledMainWaiter) .interrupted
        (.failure EINTR) ∈ (run mainAndWorkers (.initial (fun _ => none) {}) dropDuringPause).trace
    ∧ (¬ ∀ o ∈ (run mainAndWorkers (.initial (fun _ => none) {}) dropDuringPause).trace,
      o.honoursWake)
    ∧ (run mainAndWorkers (.initial (fun _ => none) {}) dropDuringPause).tables.waiters = []
    ∧ (run mainAndWorkers (.initial (fun _ => none) {}) dropDuringPause).tables.mutexPreposts
      = [] := by
  have hreturned : Observation.returned 1 (.mutexWait 0x4000 0x200 0x100 0)
      (some signaledMainWaiter) .interrupted (.failure EINTR)
        ∈ (run mainAndWorkers (.initial (fun _ => none) {}) dropDuringPause).trace := by decide
  refine ⟨hreturned, fun hall => ?_, by decide, by decide⟩
  exact absurd (hall _ hreturned rfl) (Call.not_returnsWake_interrupted _ _)

end LiveExec32.Psynch
