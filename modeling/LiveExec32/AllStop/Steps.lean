import LiveExec32.AllStop.Coordinator

/-! # What a step can do

An event that is not enabled changes nothing; `Takes` says once what each of the others does. The
main runner's own events move only the main runner (`MainMoved`). -/

namespace LiveExec32.AllStop

open Config

variable {c c' : Config}

/-! ## The main runner's loops -/

/-- The main runner serves the protocol or hands out a command. -/
def MainPlace.handing : MainPlace → Bool
  | .protocol | .selected _ _ _ _ => true
  | _ => false

/-- The main runner is in its JIT or in a call made from there. -/
def MainPlace.running : MainPlace → Bool
  | .ready | .guest | .host | .switching _ _ => true
  | _ => false

/-! ## Moves of the main runner -/

/-- Only the main runner has moved, to a place outside the protocol; at most the end of a callback
    is answered. -/
def MainMoved (c c' : Config) : Prop :=
  ∃ m newer, c' = { c with main := m, replies := newer ++ c.replies } ∧ m.place.handing = false

theorem MainMoved.goto {m : Main} (hplace : m.place.handing = false) :
    MainMoved c { c with main := m } :=
  ⟨m, [], rfl, hplace⟩

theorem afterCallbackRun_moved (reason : HaltReason) : MainMoved c (c.afterCallbackRun reason) := by
  unfold afterCallbackRun callbackStop
  split
  · exact .goto rfl
  · split <;> exact .goto rfl

theorem afterStartRun_moved (reason : HaltReason) : MainMoved c (c.afterStartRun reason) := by
  unfold afterStartRun
  split
  · split
    · exact .goto rfl
    · exact afterCallbackRun_moved _
  · split
    · exact afterCallbackRun_moved _
    · exact .goto rfl

theorem afterCommandRun_moved (reason : HaltReason) : MainMoved c (c.afterCommandRun reason) := by
  unfold afterCommandRun
  split
  · exact ⟨_, [.callbackReturned], rfl, rfl⟩
  · exact .goto rfl

theorem afterResumeRun_moved (stepping : Bool) (reason : HaltReason) :
    MainMoved c (c.afterResumeRun stepping reason) := by
  unfold afterResumeRun
  split
  · split
    · exact .goto rfl
    · exact afterCommandRun_moved _
  · split
    · exact afterCommandRun_moved _
    · split
      · exact @afterCommandRun_moved { c with main := { c.main with guestDeferredSVC := true } } _
      · exact .goto rfl

theorem mainLeave_moved (hplace : c.main.place = .guest) (raised : HaltReason) :
    MainMoved c (c.mainLeave raised) := by
  have hresume := @afterResumeRun_moved { c with main := { c.main with halts := ∅ } }
  unfold mainLeave
  dsimp only
  split
  · exact .goto rfl
  · split
    · exact @afterStartRun_moved { c with main := { c.main with halts := ∅ } } _
    · exact hresume _ _
    · exact hresume _ _
    · exact hresume _ _
    · exact @MainMoved.goto c { c.main with halts := ∅ } (by simp [hplace, MainPlace.handing])

theorem stepServiceDone_moved (generation : ℕ) (loops : List LoopKind) (outcome : ServiceOutcome) :
    MainMoved c (c.stepServiceDone generation loops outcome) := by
  cases outcome <;> exact .goto rfl

theorem mainServiceDone_moved (hplace : c.main.place = .host) (outcome : ServiceOutcome) :
    MainMoved c (c.mainServiceDone outcome) := by
  unfold mainServiceDone
  split
  · split
    · exact afterCallbackRun_moved _
    · exact .goto rfl
  · refine .goto ?_
    dsimp only
    split
    · rfl
    · cases c.mainContextMayRun <;> rfl
  · exact stepServiceDone_moved _ _ outcome
  · exact stepServiceDone_moved _ _ outcome
  · exact .goto (by simp [hplace, MainPlace.handing])

theorem mainRun_moved : MainMoved c c.mainRun := by
  unfold mainRun
  split <;> exact .goto rfl

/-! ## Owners and workers -/

/-- The normalized owner is alive. -/
theorem normalizeStopOwner_alive (owner : ℕ) : c.stopOwnerAlive (c.normalizeStopOwner owner) := by
  unfold normalizeStopOwner
  split
  · next h => exact h.2
  · split
    · next h => exact h
    · split
      · next h => exact h
      · rfl

/-- `owner` is alive, or it is the stop owner and differs from `previous`. -/
def HandedOn (c : Config) (previous owner : ℕ) : Prop :=
  c.coordinator.state ≠ .running → c.coordinator.stopOwner ≠ previous
    ∧ owner = c.coordinator.stopOwner ∨ c.stopOwnerAlive owner = true

/-- Handing on the stop leaves it with a thread that is alive, or does not concern it. -/
theorem transferStopOwner_spec (previous replacement : ℕ) :
    ∃ owner, c.transferStopOwner previous replacement
        = { c with coordinator := { c.coordinator with stopOwner := owner } }
      ∧ HandedOn c previous owner := by
  unfold transferStopOwner
  dsimp only
  split
  · exact ⟨_, rfl, fun _ => .inr (normalizeStopOwner_alive _)⟩
  · rename_i hguard
    refine ⟨c.coordinator.stopOwner, rfl, fun hstate => .inl ⟨fun hsame => hguard ⟨?_, hsame⟩, rfl⟩⟩
    cases hs : c.coordinator.state with
    | running => exact absurd hs hstate
    | stopping => exact .inl rfl
    | stopped => exact .inr rfl

/-- A command gets to `NativeDebuggerBeginExecution`, or its thread cannot be resumed. -/
theorem handOut_cases (command : Command) :
    (∃ mode stepThread runMain, c.handOut command = c.beginExecution mode stepThread runMain)
      ∨ c.handOut command = c.refuse := by
  cases command with
  | «continue» target =>
    cases target with
    | all => exact .inl ⟨_, _, _, rfl⟩
    | any | thread id =>
      simp only [handOut]
      split
      · exact .inr rfl
      · exact .inl ⟨_, _, _, rfl⟩
  | step =>
    simp only [handOut]
    split
    · exact .inr rfl
    · exact .inl ⟨_, _, _, rfl⟩

/-! ## Steps -/

/-- What an enabled event does. -/
inductive Takes (c : Config) : Event → Config → Prop
  | worker {i n : ℕ} {w : Worker} {event : WorkerEvent} (hw : c.workers[i]? = some w)
      (hn : ¬ (event = .instruction ∧ w.place = .guest ∧ w.halts = ∅) → n = c.executed) :
      Takes c (.worker i event)
        { c.put i (w.step c.coordinator c.debuggerAllStopRequested (i + 3) event) with
          executed := n }
  | workerTransfer {i owner : ℕ} {w : Worker} (hw : c.workers[i]? = some w)
      (hplace : w.place = .terminated) (howner : HandedOn c (i + 3) owner) :
      Takes c (.workerTransfer i)
        (Config.put { c with coordinator := { c.coordinator with stopOwner := owner } } i w.retire)
  | createWorker : Takes c .createWorker { c with workers := c.workers ++ [{}] }
  | requestStop {owner : ℕ} {reason : HaltReason} {forcedSignal : ℤ}
      {forcedPendingSignal queueWhileStopped : Bool} {current : GuestStopRequest}
      (hstate : c.coordinator.state = .running) :
      Takes c (.requestStop owner reason forcedSignal forcedPendingSignal queueWhileStopped current)
        (c.requestStop owner reason forcedSignal forcedPendingSignal queueWhileStopped current)
  | queueStop {owner : ℕ} {reason : HaltReason} {forcedSignal : ℤ}
      {forcedPendingSignal queueWhileStopped : Bool} {current : GuestStopRequest}
      (hstate : c.coordinator.state = .stopped) :
      Takes c (.requestStop owner reason forcedSignal forcedPendingSignal queueWhileStopped current)
        { c with coordinator := { c.coordinator with pendingInterrupt := true } }
  | haltAll (hdue : c.haltsDue ≠ 0) : Takes c .haltAll c.haltAll
  | signals {event : Event} (signals : StopSignals) : Takes c event { c with signals := signals }
  | command {command : Command} (hplace : c.main.place = .protocol) :
      Takes c (.command command) (c.command command)
  | clearHalts {mode : ResumeMode} {stepThread : ℕ} {runMain cleared : Bool}
      (hplace : c.main.place = .selected mode stepThread runMain cleared) :
      Takes c .clearHalts c.clearHalts
  | publish {mode : ResumeMode} {stepThread : ℕ} {runMain : Bool}
      (hplace : c.main.place = .selected mode stepThread runMain true) : Takes c .publish c.publish
  | main {event : Event} {c' : Config} (hplace : c.main.place.running = true)
      (hswitching : ∀ previous replacement, c.main.place ≠ .switching previous replacement)
      (hmoved : MainMoved c c') : Takes c event c'
  | mainInstruction {halts : HaltReason} (hplace : c.main.place = .guest) :
      Takes c .mainInstruction
        { c with main := { c.main with halts := halts }, executed := c.executed + 1 }
  | overlay {event : Event} {active : Bool} {previous replacement : ℕ}
      (hplace : c.main.place = .host)
      (howner : c.overlayActive = true → active = false → previous = 2) :
      Takes c event
        { c with
          overlayActive := active
          main := { c.main with place := .switching previous replacement } }
  | mainTransfer {previous replacement owner : ℕ}
      (hplace : c.main.place = .switching previous replacement)
      (howner : HandedOn c previous owner) :
      Takes c .mainTransfer
        { c with
          coordinator := { c.coordinator with stopOwner := owner }
          main := { c.main with place := .host } }
  | mainSuperseded {reason : HaltReason} {loops : List LoopKind}
      (hplace : c.main.place = .returned reason) (hstate : c.coordinator.state = .running) :
      Takes c .mainSuperseded
        { c with main := { c.main with place := .ready, loops := .resume :: loops } }
  | completeBegin {reason : HaltReason} (hplace : c.main.place = .returned reason) :
      Takes c .completeBegin
        { c with
          coordinator := { c.coordinator with mainExecuting := false }
          main := { c.main with place := .completing } }
  | completeStop (hplace : c.main.place = .completing) (hstate : c.coordinator.state ≠ .running)
      (hnone : c.coordinator.executingWorkers = 0) : Takes c .completeStop c.completeStop

theorem running_of_admits {d : Coordinator} {id : ℕ} (h : d.admits id) : d.state = .running := by
  simp only [Coordinator.admits, Bool.and_eq_true, beq_iff_eq] at h
  exact h.1

variable {event : Event}

theorem takes_ite {guard : Prop} [Decidable guard] (h : guard → Takes c event c') :
    (if guard then c' else c) = c ∨ Takes c event (if guard then c' else c) := by
  split
  · next hguard => exact .inr (h hguard)
  · exact .inl rfl

/-- An event changes nothing, or it is taken. -/
theorem step_takes (c : Config) (event : Event) :
    c.step event = c ∨ Takes c event (c.step event) := by
  have hmain : ∀ {place : MainPlace} {c'}, c.main.place = place → place.running →
      (∀ previous replacement, place ≠ .switching previous replacement) →
      MainMoved c c' → Takes c event c' :=
    fun hplace hrunning hswitching hmoved =>
      .main (by rw [hplace]; exact hrunning) (by rw [hplace]; exact hswitching) hmoved
  cases event with
  | worker =>
    simp only [step]
    split
    · exact .inl rfl
    · next w hw => exact .inr (.worker hw fun hnot => if_neg hnot)
  | workerTransfer i =>
    simp only [step]
    split
    · rename_i w hw
      refine takes_ite fun hplace => ?_
      obtain ⟨owner, htransfer, howner⟩ := @transferStopOwner_spec c (i + 3) 1
      rw [htransfer]
      exact .workerTransfer hw hplace howner
    · exact .inl rfl
  | createWorker => exact .inr .createWorker
  | requestStop =>
    by_cases hstate : c.coordinator.state = .running
    · exact .inr (.requestStop hstate)
    · simp only [step, requestStop, if_neg hstate]
      exact takes_ite fun hqueued => .queueStop hqueued.2
  | haltAll =>
    by_cases hdue : c.haltsDue = 0
    · exact .inl (if_pos hdue)
    · exact .inr (.haltAll hdue)
  | setResumeSignal signal | resolvePendingStop => exact takes_ite fun _ => .signals _
  | command command =>
    by_cases hplace : c.main.place = .protocol
    · exact .inr (.command hplace)
    · exact .inl (if_pos hplace)
  | clearHalts =>
    cases hplace : c.main.place with
    | selected => exact .inr (.clearHalts hplace)
    | _ => exact .inl (by simp only [step, clearHalts, hplace])
  | publish =>
    by_cases hplace : ∃ mode stepThread runMain,
        c.main.place = .selected mode stepThread runMain true
    · obtain ⟨mode, stepThread, runMain, hplace⟩ := hplace
      exact .inr (.publish hplace)
    · refine .inl ?_
      simp only [step, publish]
      split
      · next hselected => exact absurd ⟨_, _, _, hselected⟩ hplace
      · rfl
  | mainRepublish => exact takes_ite fun hguard => hmain hguard.1 rfl (by simp) (.goto rfl)
  | mainRun => exact takes_ite fun hplace => hmain hplace rfl (by simp) mainRun_moved
  | mainInstruction =>
    refine takes_ite fun hguard => ?_
    split
    · exact .mainInstruction hguard.1
    · exact @Takes.mainInstruction c c.main.halts hguard.1
  | mainLeave =>
    exact takes_ite fun hplace => hmain hplace rfl (by simp) (mainLeave_moved hplace _)
  | mainServiceDone =>
    exact takes_ite fun hplace => hmain hplace rfl (by simp) (mainServiceDone_moved hplace _)
  | mainCallback => exact takes_ite fun hplace => hmain hplace rfl (by simp) (.goto rfl)
  | overlayEnter =>
    exact takes_ite fun hguard => .overlay hguard.1 fun _ hfalse => absurd hfalse (by simp)
  | overlayLeave => exact takes_ite fun hguard => .overlay hguard.1 fun _ _ => rfl
  | mainTransfer =>
    simp only [step]
    split
    · rename_i previous replacement hplace
      obtain ⟨owner, htransfer, howner⟩ := @transferStopOwner_spec c previous replacement
      rw [htransfer]
      exact .inr (.mainTransfer hplace howner)
    · exact .inl rfl
  | mainSuperseded =>
    simp only [step]
    split
    · rename_i hplace _
      exact takes_ite fun hguard => .mainSuperseded hplace (running_of_admits hguard.2.1)
    · rename_i hplace _
      exact takes_ite fun hguard => .mainSuperseded hplace (running_of_admits hguard.2.1)
    · exact .inl rfl
  | completeBegin =>
    simp only [step]
    split
    · next reason hplace => exact .inr (.completeBegin hplace)
    · exact .inl rfl
  | completeStop => exact takes_ite fun hguard => .completeStop hguard.1 hguard.2.1 hguard.2.2

/-- What holds of a state and of whatever is taken from it holds after a step. -/
theorem step_induction {p : Config → Prop} (h : p c) (htakes : ∀ {c'}, Takes c event c' → p c') :
    p (c.step event) := by
  rcases step_takes c event with hsame | hstep
  · rw [hsame]
    exact h
  · exact htakes hstep

end LiveExec32.AllStop
