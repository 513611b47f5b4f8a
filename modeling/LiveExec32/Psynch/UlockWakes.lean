import LiveExec32.Psynch.Invariant

/-! # Ulock waits and wakes

A ulock wait compares a guest word with the expected value and registers, both while it holds the
wait mutex. Guest stores do not take that mutex, but a wake does, and the guest stores the new value
before it calls for the wake. So a wait that still compared equal has registered by the time the
wake looks for waiters, and cannot sleep through it.

The argument follows one call (`InWait`): from the comparison on it is about to register, is
registered, or has returned. -/

namespace LiveExec32.Psynch

open Config

/-! ## Following one wait -/

/-- How a wait that has registered can end. -/
def Ending.endsWait : Ending → Bool
  | .woken | .interrupted | .timedOut => true
  | _ => false

/-- The thread is in `call` from its comparison on: it is about to register, or has registered. -/
def Config.InWait (c : Config) (thread : ℕ) (call : Call) : Prop :=
  ∃ stage, c.threads thread = some (call, stage)
    ∧ (stage = .enqueueing ∨ ∃ self, stage.self = some self)

/-- The wait returned since the trace was `earlier`. -/
def WaitOver (earlier : List Observation) (thread : ℕ) (call : Call) (trace : List Observation) :
    Prop :=
  ∃ since waiter ending value, trace = since ++ earlier
    ∧ Observation.returned thread call (some waiter) ending value ∈ since
    ∧ ending.endsWait = true

variable {value : BitVec 64} {w : NativeGuestWaiter} {timeout : U32}

section Steps

variable {host : ℕ → HostThread} {c : Config} {thread : ℕ} {call : Call} {stage : Stage} {self : ℕ}

/-- In `c'` the wait goes on with its waiter, or it has just ended. -/
def Config.Continues (c : Config) (thread : ℕ) (call : Call) (self : ℕ) (c' : Config) : Prop :=
  (∃ next, c'.threads thread = some (call, next) ∧ next.self = some self)
    ∨ ∃ w ending value, c'.trace = .returned thread call (some w) ending value :: c.trace
      ∧ ending.endsWait = true

theorem Config.Continues.stay (hcall : c.threads thread = some (call, stage))
    (hself : stage.self = some self) : c.Continues thread call self c :=
  .inl ⟨stage, hcall, hself⟩

theorem Config.Continues.goto {c' : Config} {next : Stage} (hself : next.self = some self) :
    c.Continues thread call self (c'.goto thread call next) :=
  .inl ⟨next, Function.update_self .., hself⟩

theorem Config.Continues.leave (w : NativeGuestWaiter) {ending : Ending}
    (h : ending.endsWait) (value : SyscallReturn) :
    c.Continues thread call self (c.leave thread call w ending value) :=
  .inr ⟨w, ending, value, rfl, h⟩

theorem Config.Continues.locked {after : Config} (hcall : c.threads thread = some (call, stage))
    (hself : stage.self = some self) (h : c.Continues thread call self after) :
    c.Continues thread call self (c.locked after) := by
  unfold Config.locked
  split
  · exact h
  · exact .stay hcall hself

theorem Config.Continues.waitLoop (hcall : c.threads thread = some (call, stage))
    (hself : stage.self = some self) (expired : Bool) :
    c.Continues thread call self (c.waitLoop thread call self expired) := by
  unfold Config.waitLoop
  split
  · exact .stay hcall hself
  · rename_i w _
    split
    · exact .leave w rfl _
    · split
      · exact .goto rfl
      · split
        · exact .leave w rfl _
        · exact .goto rfl

theorem Config.Continues.pauseStep (pause : PauseStage)
    (hcall : c.threads thread = some (call, .pausing self pause)) :
    c.Continues thread call self (c.pauseStep host thread call self pause) := by
  cases pause with
  | threadState =>
    simp only [Config.pauseStep]
    split <;> exact .goto rfl
  | nested | debugger =>
    simp only [Config.pauseStep]
    split
    · exact .goto rfl
    · exact .goto rfl
    · exact .stay hcall rfl

theorem Config.Continues.relock (paused : Bool)
    (hcall : c.threads thread = some (call, .relocking self paused)) :
    c.Continues thread call self (c.relock host thread call self paused) := by
  unfold Config.relock
  split
  · split
    · exact .stay hcall rfl
    · next w _ => exact .leave w rfl _
  · exact .waitLoop hcall rfl _

/-- A thread in a call is moved by its own steps and its deadline only. -/
theorem step_of_called (host : ℕ → HostThread) (h : Wf c)
    (hcall : c.threads thread = some (call, stage)) (event : Event) :
    event = .advance thread ∨ event = .deadline thread
      ∨ (step host c event).threads thread = some (call, stage) := by
  by_cases hactor : event.actor = some thread
  · cases event with
    | begin =>
      cases hactor
      simp [step, hcall]
    | advance => exact .inl (by rw [Option.some.inj hactor])
    | deadline => exact .inr (.inl (by rw [Option.some.inj hactor]))
    | store | request => simp [Event.actor] at hactor
  · rw [(step_spec h host event).others thread hactor, hcall]
    exact .inr (.inr rfl)

/-- **A step of a registered wait** keeps its waiter or ends it. -/
theorem step_continues (h : Wf c) (hcall : c.threads thread = some (call, stage))
    (hself : stage.self = some self) (event : Event) :
    c.Continues thread call self (step host c event) := by
  rcases step_of_called host h hcall event with rfl | rfl | hstay
  · simp only [step, hcall]
    cases stage with
    | waiting =>
      cases hself
      exact .locked hcall rfl (.waitLoop hcall rfl _)
    | pausing s pause =>
      cases hself
      exact .pauseStep pause hcall
    | relocking s paused =>
      cases hself
      exact .locked hcall rfl (.relock paused hcall)
    | _ => simp [Stage.self] at hself
  · simp only [step, hcall]
    split
    · rename_i heq
      cases heq
      cases hself
      split
      · exact .locked hcall rfl (.waitLoop hcall rfl _)
      · exact .stay hcall rfl
    · exact .stay hcall hself
  · exact .inl ⟨stage, hstay, hself⟩

variable {operation address : U32}

/-- A ulock wait that compared equal registers in its next step. -/
theorem step_enqueueing (h : Wf c)
    (hcall : c.threads thread = some (.ulockWait operation address value timeout, .enqueueing))
    (event : Event) :
    (step host c event).InWait thread (.ulockWait operation address value timeout) := by
  rcases step_of_called host h hcall event with rfl | rfl | hstay
  · simp only [step, hcall]
    exact ⟨_, Function.update_self .., .inr ⟨_, rfl⟩⟩
  · simp only [step, hcall]
    exact ⟨_, hcall, .inl rfl⟩
  · exact ⟨_, hstay, .inl rfl⟩

/-- **From the comparison on, a ulock wait goes on or returns.** -/
theorem run_inWait (host : ℕ → HostThread) (h : Wf c)
    (hin : c.InWait thread (.ulockWait operation address value timeout)) (events : List Event) :
    (run host c events).InWait thread (.ulockWait operation address value timeout)
      ∨ WaitOver c.trace thread (.ulockWait operation address value timeout)
        (run host c events).trace := by
  refine (@Execution.run_invariant _ _ (step host) (fun c' => Wf c' ∧ c.trace <:+ c'.trace
    ∧ (c'.InWait thread (.ulockWait operation address value timeout)
      ∨ WaitOver c.trace thread (.ulockWait operation address value timeout) c'.trace)) ?_ c
    ⟨h, List.suffix_refl _, .inl hin⟩ events).2.2
  rintro c' event ⟨hwf, hsuffix, hfollow⟩
  have hstepped := step_spec hwf host event
  refine ⟨hstepped.wf, hsuffix.trans hstepped.trace_suffix, ?_⟩
  obtain ⟨since, hsince⟩ := hsuffix
  rcases hfollow with ⟨stage, hcall, rfl | ⟨self, hself⟩⟩ |
    ⟨before, w, ending, result, htrace, hend⟩
  · exact .inl (step_enqueueing hwf hcall event)
  · rcases step_continues hwf hcall hself event with
      ⟨next, hnext, hself⟩ | ⟨w, ending, result, htrace, hends⟩
    · exact .inl ⟨next, hnext, .inr ⟨self, hself⟩⟩
    · refine .inr ⟨_ :: since, w, ending, result, ?_, List.mem_cons_self, hends⟩
      rw [htrace, ← hsince, List.cons_append]
  · -- it is over, and stays so
    obtain ⟨new, hnew⟩ := hstepped.trace_suffix
    refine .inr ⟨new ++ before, w, ending, result, ?_, List.mem_append_right _ hend.1, hend.2⟩
    rw [← hnew, htrace, List.append_assoc]

end Steps

/-! ## What a wake does -/

/-- A registered ulock waiter of the word that was not signaled yet. -/
def pendingUlock (address : U32) (opcode : BitVec 8) (waiter : NativeGuestWaiter) : Bool :=
  isUlockWaiter address waiter && decide (waiter.ulockOpcode = opcode) && !waiter.signaled

section Wake

variable {operation address : U32} {wakeValue : BitVec 64} {waiters : List NativeGuestWaiter}

theorem ulockEligible_untargeted (h : ulockTargetWake operation = false) :
    ulockEligible operation address wakeValue = pendingUlock address (ulockOpcode operation) := by
  funext waiter
  simp [ulockEligible, pendingUlock, h]

/-- The waiters after a wake that finds a waiter with its opcode. -/
theorem guestUlockWake_waiters (hw : w ∈ waiters) (haddress : isUlockWaiter address w)
    (hopcode : w.ulockOpcode = ulockOpcode operation) :
    (guestUlockWake operation address wakeValue waiters).2
      = (wakeWaiters (ulockEligible operation address wakeValue) .signal
          (ulockWakeAll operation && !ulockTargetWake operation) waiters).2 := by
  have hmatching : matchingNativeUlockWaitersLocked address (ulockOpcode operation) waiters ≠ 0 :=
    (List.countP_pos_iff.2 ⟨w, hw, by simp [haddress, hopcode]⟩).ne'
  simp only [guestUlockWake, hmatching, if_false]
  split <;> rfl

/-- **A wake-all leaves nobody unsignaled.** -/
theorem guestUlockWake_all (wakeValue : BitVec 64) (h : InOrder waiters)
    (hall : ulockWakeAll operation) (huntargeted : ulockTargetWake operation = false)
    (hw : w ∈ waiters) (haddress : isUlockWaiter address w)
    (hopcode : w.ulockOpcode = ulockOpcode operation) :
    ∃ w' ∈ (guestUlockWake operation address wakeValue waiters).2,
      w'.sequence = w.sequence ∧ w'.signaled := by
  have hwoken :
      wakeWaiters (pendingUlock address (ulockOpcode operation)) .signal true waiters = _ :=
    wakeWaiters_all h (fun _ => rfl) (fun x => by simp [pendingUlock, NativeGuestWaiter.signal])
  rw [guestUlockWake_waiters hw haddress hopcode, ulockEligible_untargeted huntargeted, hall,
    huntargeted, Bool.not_false, Bool.and_true, hwoken]
  refine ⟨_, List.mem_map_of_mem hw, ?_⟩
  split
  · exact ⟨rfl, rfl⟩
  · rename_i hnot
    simpa [pendingUlock, haddress, hopcode] using hnot

/-- **A wake-one signals the waiter that registered first.** -/
theorem guestUlockWake_one (wakeValue : BitVec 64) (hone : ulockWakeAll operation = false)
    (huntargeted : ulockTargetWake operation = false) (hw : w ∈ waiters)
    (hpending : pendingUlock address (ulockOpcode operation) w) :
    ∃ m, FirstEligible (pendingUlock address (ulockOpcode operation)) waiters m
      ∧ (guestUlockWake operation address wakeValue waiters).2
        = updateWaiter m.sequence .signal waiters := by
  obtain ⟨⟨haddress, hopcode⟩, -⟩ : (isUlockWaiter address w = true
      ∧ w.ulockOpcode = ulockOpcode operation) ∧ w.signaled = false := by
    simpa [pendingUlock] using hpending
  rw [guestUlockWake_waiters hw haddress hopcode, ulockEligible_untargeted huntargeted, hone,
    Bool.false_and]
  rcases wakeWaiters_one (pendingUlock address (ulockOpcode operation)) .signal waiters with
    ⟨-, hnone⟩ | ⟨m, hm, heq⟩
  · simp [hnone w hw] at hpending
  · exact ⟨m, hm, by rw [heq]⟩

/-- A wake that finds only waiters with the other opcode fails and touches nobody. -/
theorem guestUlockWake_otherOpcode (hother : nativeUlockAddressHasOtherOpcodeLocked address
      (ulockOpcode operation) waiters)
    (hnone : ∀ w ∈ waiters, isUlockWaiter address w → w.ulockOpcode ≠ ulockOpcode operation) :
    guestUlockWake operation address wakeValue waiters
      = (guestUlockReturn EDOM (ulockFlags operation) 0, waiters) := by
  have hmatching :
      matchingNativeUlockWaitersLocked address (ulockOpcode operation) waiters = 0 := by
    refine List.countP_eq_zero.2 (fun w hw => ?_)
    simpa using hnone w hw
  simp only [guestUlockWake, hmatching, if_true, hother]

end Wake

/-! ## The steps of waits and wakes -/

section Calls

variable {c : Config} {thread : ℕ} {operation address : U32} {wakeValue : BitVec 64}

/-- The critical section of a wake. -/
theorem step_ulockWake (host : ℕ → HostThread)
    (hcall : c.threads thread = some (.ulockWake operation address wakeValue, .prepared))
    (hfree : c.mutexOwner = none) :
    (step host c (.advance thread)).tables = { c.tables with
        waiters := (guestUlockWake operation address wakeValue c.tables.waiters).2 }
      ∧ (step host c (.advance thread)).trace
        = .returned thread (.ulockWake operation address wakeValue) none .answered
            (guestUlockWake operation address wakeValue c.tables.waiters).1 :: c.trace := by
  simp only [step, hcall, advance, proceed, locked, hfree, if_true]
  exact ⟨rfl, rfl⟩

/-- A comparison that succeeds leaves the wait about to register. -/
theorem step_ulockCompare (host : ℕ → HostThread) {word : U32}
    (hcall : c.threads thread = some (.ulockWait operation address value timeout, .comparing))
    (hword : readGuestUlockWord c.memory address = .ok word) (hequal : word.setWidth 64 = value) :
    (step host c (.advance thread)).InWait thread (.ulockWait operation address value timeout)
      ∧ (step host c (.advance thread)).trace = c.trace := by
  simp only [step, hcall, advance, ulockCompare, hword, hequal, ne_eq, not_true_eq_false, if_false]
  exact ⟨⟨.enqueueing, Function.update_self .., .inl rfl⟩, rfl⟩

/-- The waiter of a ulock wait carries its arguments. -/
theorem origin_ulockWait
    (h : (Call.ulockWait operation address value timeout).origin = some w.origin) :
    isUlockWaiter address w ∧ w.ulockOpcode = ulockOpcode operation := by
  have horigin := Option.some.inj h
  have hkind : w.kind = .ulock := (congrArg NativeGuestWaiter.kind horigin).symm
  have haddress : w.address = address := (congrArg NativeGuestWaiter.address horigin).symm
  exact ⟨by simp [isUlockWaiter, hkind, haddress],
    (congrArg NativeGuestWaiter.ulockOpcode horigin).symm⟩

/-- **A wake-all signals the wait that compared equal**, unless it is over already. -/
theorem wakeAll_reaches {host : ℕ → HostThread} (h : Wf c)
    (hin : c.InWait thread (.ulockWait operation address value timeout)) {waker : ℕ}
    {wakeOperation : U32}
    (hcall : c.threads waker = some (.ulockWake wakeOperation address wakeValue, .prepared))
    (hfree : c.mutexOwner = none) (hopcode : ulockOpcode wakeOperation = ulockOpcode operation)
    (hall : ulockWakeAll wakeOperation) (huntargeted : ulockTargetWake wakeOperation = false) :
    ∃ stage self w, (step host c (.advance waker)).threads thread
        = some (.ulockWait operation address value timeout, stage)
      ∧ stage.self = some self ∧ w ∈ (step host c (.advance waker)).tables.waiters
      ∧ w.sequence = self ∧ w.signaled := by
  obtain ⟨stage, hwait, hstage⟩ := hin
  have hne : (Event.advance waker).actor ≠ some thread := by
    rintro heq
    cases heq
    cases hcall.symm.trans hwait
  rcases hstage with rfl | ⟨self, hself⟩
  · -- a wait about to register holds the mutex
    have howner := ((h.thread thread _ _ hwait).holds rfl).1
    cases hfree.symm.trans howner
  · obtain ⟨w, hw, hsequence, horigin⟩ := (h.thread thread _ _ hwait).registered self hself
    obtain ⟨haddress, hwopcode⟩ := origin_ulockWait horigin
    obtain ⟨w', hw', hsequence', hsignaled⟩ := guestUlockWake_all wakeValue
      h.tables.order hall huntargeted hw haddress (hwopcode.trans hopcode.symm)
    refine ⟨stage, self, w', ?_, hself, ?_, hsequence'.trans hsequence, hsignaled⟩
    · rw [(step_spec h host _).others thread hne, hwait]
    · rw [(step_ulockWake host hcall hfree).1]
      exact hw'

end Calls

/-- **Ulock waits and wakes.** Take any run.

    A wait whose comparison succeeds is over, or is registered and signaled, after any later
    wake-all of its word with its opcode, whatever happens in between: stores to the word included.

    The ulock waiters of one address have one opcode. A wait or wake with the other one leaves the
    tables alone and fails with `EDOM`, unless its arguments were rejected before (`EINVAL`, or
    `ESRCH` for a wake whose target does not exist).

    A wake-one signals the waiter that registered first, and a targeted wake only a waiter of that
    thread. -/
theorem ulockWakes_reachWaiters (host : ℕ → HostThread) (memory : U32 → Option U32)
    (environment : Environment) (events : List Event) :
    let c := run host (.initial memory environment) events
    (∀ thread operation address value timeout word later waker wakeOperation wakeValue,
      let wait := Call.ulockWait operation address value timeout
      let c' := run host (step host c (.advance thread)) later
      c.threads thread = some (wait, .comparing) →
      readGuestUlockWord c.memory address = .ok word → word.setWidth 64 = value →
      c'.threads waker = some (.ulockWake wakeOperation address wakeValue, .prepared) →
      c'.mutexOwner = none → ulockOpcode wakeOperation = ulockOpcode operation →
      ulockWakeAll wakeOperation = true → ulockTargetWake wakeOperation = false →
      WaitOver c.trace thread wait c'.trace
      ∨ ∃ stage self w, (step host c' (.advance waker)).threads thread = some (wait, stage)
        ∧ stage.self = some self ∧ w ∈ (step host c' (.advance waker)).tables.waiters
        ∧ w.sequence = self ∧ w.signaled = true)
    ∧ (∀ v ∈ c.tables.waiters, ∀ w ∈ c.tables.waiters, v.kind = .ulock → w.kind = .ulock →
      v.address = w.address → v.ulockOpcode = w.ulockOpcode)
    ∧ (∀ thread operation address value timeout, ∀ w ∈ c.tables.waiters, w.kind = .ulock →
      w.address = address → w.ulockOpcode ≠ ulockOpcode operation →
      c.threads thread = some (.ulockWait operation address value timeout, .called) →
      c.mutexOwner = none →
      (step host c (.advance thread)).tables = c.tables
      ∧ (step host c (.advance thread)).trace
        = .returned thread (.ulockWait operation address value timeout) none .answered
            (guestUlockReturn (if ulockWaitInvalid operation then EINVAL else EDOM)
              (ulockFlags operation) 0) :: c.trace)
    ∧ (∀ thread operation address wakeValue,
      c.threads thread = some (.ulockWake operation address wakeValue, .called) →
      (step host c (.advance thread)).tables = c.tables
      ∧ ((step host c (.advance thread)).threads thread
          = some (.ulockWake operation address wakeValue, .prepared)
        ∨ ∃ error, (error = EINVAL ∧ ulockWakeInvalid operation address = true
            ∨ error = ESRCH ∧ ulockTargetWake operation = true
              ∧ guestUlockTargetThreadExists c.environment (ulockTarget wakeValue) = false)
          ∧ (step host c (.advance thread)).trace
            = .returned thread (.ulockWake operation address wakeValue) none .answered
                (guestUlockReturn error (ulockFlags operation) 0) :: c.trace))
    ∧ ∀ thread operation address wakeValue,
      c.threads thread = some (.ulockWake operation address wakeValue, .prepared) →
      c.mutexOwner = none →
      (∀ w ∈ c.tables.waiters, w.kind = .ulock → w.address = address →
        w.ulockOpcode ≠ ulockOpcode operation →
        (step host c (.advance thread)).tables = c.tables
        ∧ (step host c (.advance thread)).trace
          = .returned thread (.ulockWake operation address wakeValue) none .answered
              (guestUlockReturn EDOM (ulockFlags operation) 0) :: c.trace)
      ∧ (ulockWakeAll operation = false → ulockTargetWake operation = false →
        ∀ w ∈ c.tables.waiters, pendingUlock address (ulockOpcode operation) w = true →
        ∃ m, FirstEligible (pendingUlock address (ulockOpcode operation)) c.tables.waiters m
          ∧ (step host c (.advance thread)).tables
            = { c.tables with waiters := updateWaiter m.sequence .signal c.tables.waiters })
      ∧ (ulockTargetWake operation = true → ∀ w ∈ (step host c (.advance thread)).tables.waiters,
        w ∈ c.tables.waiters ∨ ∃ old ∈ c.tables.waiters,
          pendingUlock address (ulockOpcode operation) old = true
          ∧ old.threadPort = ulockTarget wakeValue ∧ w = old.signal) := by
  intro c
  have hwf : Wf c := run_wf memory environment events
  have hother : ∀ operation address, ∀ w ∈ c.tables.waiters, w.kind = .ulock → w.address = address →
      w.ulockOpcode ≠ ulockOpcode operation →
      nativeUlockAddressHasOtherOpcodeLocked address (ulockOpcode operation) c.tables.waiters
        := fun operation address w hw hkind haddress hne =>
    List.any_eq_true.2 ⟨w, hw, by simp [isUlockWaiter, hkind, haddress, hne]⟩
  refine ⟨?_, hwf.tables.opcodes, ?_, ?_, ?_⟩
  · intro thread operation address value timeout word later waker wakeOperation wakeValue wait c'
      hcall hword hequal hwake hfree hopcode hall huntargeted
    obtain ⟨hin, htrace⟩ := step_ulockCompare host hcall hword hequal
    have hstep := (step_spec hwf host (.advance thread)).wf
    rcases run_inWait host hstep hin later with hin | hover
    · exact .inr (wakeAll_reaches (hstep.run later) hin hwake hfree hopcode hall huntargeted)
    · rw [htrace] at hover
      exact .inl hover
  · intro thread operation address value timeout w hw hkind haddress hne hcall hfree
    simp only [step, hcall, advance, start, ulockLock]
    by_cases hinvalid : ulockWaitInvalid operation = true
    · simp only [hinvalid, if_true]
      exact ⟨rfl, rfl⟩
    · simp only [hinvalid, locked, hfree, hother operation address w hw hkind haddress hne, if_true]
      exact ⟨rfl, rfl⟩
  · intro thread operation address wakeValue hcall
    -- a wake checks its arguments and its target before it takes the mutex
    simp only [step, hcall, advance, start, ulockCheckTarget]
    split
    · next hinvalid => exact ⟨rfl, .inr ⟨EINVAL, .inl ⟨rfl, hinvalid⟩, rfl⟩⟩
    · split
      · rename_i htarget
        obtain ⟨htarget, hmissing⟩ : ulockTargetWake operation = true
            ∧ guestUlockTargetThreadExists c.environment (ulockTarget wakeValue) = false := by
          simpa using htarget
        exact ⟨rfl, .inr ⟨ESRCH, .inr ⟨rfl, htarget, hmissing⟩, rfl⟩⟩
      · exact ⟨rfl, .inl (Function.update_self ..)⟩
  · intro thread operation address wakeValue hcall hfree
    obtain ⟨htables, htrace⟩ := step_ulockWake host hcall hfree
    rw [htables, htrace]
    refine ⟨?_, ?_, ?_⟩
    · intro w hw hkind haddress hne
      rw [guestUlockWake_otherOpcode (hother operation address w hw hkind haddress hne) ?_]
      · exact ⟨rfl, rfl⟩
      · intro x hx hxaddress hxopcode
        obtain ⟨hxkind, hxaddress⟩ : x.kind = .ulock ∧ x.address = address := by
          simpa [isUlockWaiter] using hxaddress
        have hsame := hwf.tables.opcodes w hw x hx hkind hxkind (haddress.trans hxaddress.symm)
        exact hne (hsame.trans hxopcode)
    · intro hone huntargeted w hw hpending
      obtain ⟨m, hm, heq⟩ := guestUlockWake_one wakeValue hone huntargeted hw hpending
      exact ⟨m, hm, by rw [heq]⟩
    · intro htarget w hw
      refine (mem_guestUlockWake hwf.tables.order hw).imp_right ?_
      rintro ⟨old, hold, hcan, rfl⟩
      obtain ⟨hpending, hport⟩ : pendingUlock address (ulockOpcode operation) old = true
          ∧ old.threadPort = ulockTarget wakeValue := by
        simpa [ulockEligible, pendingUlock, htarget] using hcan
      exact ⟨old, hold, hpending, hport, rfl⟩

/-- The word at `0x7000` is zero, and no other word is mapped. -/
def zeroWord (address : U32) : Option U32 := if address = 0x7000 then some 0 else none

/-- Thread `2` compares the word with zero, and thread `3` stores to it and wakes everybody; at the
    end it is about to enter the critical section of the wake. -/
def storeAndWakeAll : List Event :=
  [.store 0x7000 (some 1), .begin 3 (.ulockWake 0x101 0x7000 0), .advance 3, .advance 2]

/-- The waiter of thread `2` is signaled although the word changed after the comparison. -/
theorem ulockWakes_reachWaiters_afterStore :
    let c := run mainAndWorkers (.initial zeroWord {})
      [.begin 2 (.ulockWait 1 0x7000 0 0), .advance 2]
    let c' := run mainAndWorkers (step mainAndWorkers c (.advance 2)) storeAndWakeAll
    (WaitOver c.trace 2 (.ulockWait 1 0x7000 0 0) c'.trace
      ∨ ∃ stage self w, (step mainAndWorkers c' (.advance 3)).threads 2
          = some (.ulockWait 1 0x7000 0 0, stage)
        ∧ stage.self = some self ∧ w ∈ (step mainAndWorkers c' (.advance 3)).tables.waiters
        ∧ w.sequence = self ∧ w.signaled = true)
    ∧ (step mainAndWorkers c' (.advance 3)).tables.waiters.map NativeGuestWaiter.signaled
      = [true] :=
  ⟨(ulockWakes_reachWaiters mainAndWorkers zeroWord {}
      [.begin 2 (.ulockWait 1 0x7000 0 0), .advance 2]).1 2 1 0x7000 0 0 0 storeAndWakeAll 3 0x101 0
      (by decide) (by decide) (by decide) (by decide) (by decide) (by decide) (by decide)
      (by decide),
    by decide⟩

/-- Thread `2` waits with opcode `1`, and thread `3` calls for a wake with opcode `2` of a thread
    that does not exist. -/
def otherOpcodeMissingTarget : List Event :=
  [.begin 2 (.ulockWait 1 0x7000 0 0), .advance 2, .advance 2, .advance 2,
    .begin 3 (.ulockWake 0x202 0x7000 0x999)]

/-- The target is checked first: the wake fails with `ESRCH`, not with `EDOM`. -/
theorem ulockWake_otherOpcode_missingTarget :
    let c := run mainAndWorkers (.initial zeroWord {}) otherOpcodeMissingTarget
    (∃ w ∈ c.tables.waiters, w.kind = .ulock ∧ w.address = 0x7000
      ∧ w.ulockOpcode ≠ ulockOpcode 0x202 ∧ guestUlockOpcodeValid (ulockOpcode 0x202) = true)
    ∧ (step mainAndWorkers c (.advance 3)).trace
      = .returned 3 (.ulockWake 0x202 0x7000 0x999) none .answered (.failure ESRCH) :: c.trace
    ∧ guestUlockReturn EDOM (ulockFlags 0x202) 0 ≠ .failure ESRCH := by
  decide

end LiveExec32.Psynch
