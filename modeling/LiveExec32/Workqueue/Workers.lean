import LiveExec32.Workqueue.Pump

/-! # How many workers are alive

The pump counts the live workers of both classes and starts a worker only for a class with room. The
census is some steps old by the time the worker is registered, but in between workers can only
disappear: nobody else starts any. So the bounds hold at every moment (`WorkersBounded`). -/

namespace LiveExec32.Workqueue

open List Config GuestThreadContext

/-! ## Counting workers -/

/-- A live worker of a class: the event manager (`true`) or an ordinary one (`false`). -/
def GuestThreadContext.worker (manager : Bool) (thread : GuestThreadContext) : Bool :=
  match thread.nativeJit with
  | none => false
  | some jit => thread.alive && thread.workqueue && jit.workqueueEventManager == manager

def liveWorkers (manager : Bool) (threads : List GuestThreadContext) : ℕ :=
  threads.countP (·.worker manager)

theorem Census.count_spec (census : Census) (thread : GuestThreadContext) :
    (census.count thread).ordinaryWorkers
        = census.ordinaryWorkers + (if thread.worker false then 1 else 0)
      ∧ (census.count thread).eventManagerActive
        = (census.eventManagerActive || thread.worker true) := by
  unfold Census.count worker
  cases thread.nativeJit with
  | none => simp
  | some => grind

theorem foldl_count_spec (threads : List GuestThreadContext) (census : Census) :
    (threads.foldl Census.count census).ordinaryWorkers
        = census.ordinaryWorkers + liveWorkers false threads
      ∧ (threads.foldl Census.count census).eventManagerActive
        = (census.eventManagerActive || threads.any (·.worker true)) := by
  induction threads generalizing census with
  | nil => simp [liveWorkers]
  | cons thread _ ih =>
    obtain ⟨hordinary, hmanager⟩ := ih (census.count thread)
    obtain ⟨hcount, hactive⟩ := census.count_spec thread
    simp only [liveWorkers] at hordinary ⊢
    rw [foldl_cons, countP_cons, any_cons, hordinary, hmanager, hcount, hactive, Bool.or_assoc]
    exact ⟨by omega, rfl⟩

/-- A census that no worker was started after: it counts all ordinary workers, and every event
    manager. -/
structure Counted (census : Census) (threads : List GuestThreadContext) : Prop where
  ordinary : liveWorkers false threads ≤ census.ordinaryWorkers
  manager : census.eventManagerActive = false → liveWorkers true threads = 0

theorem census_counted (threads : List GuestThreadContext) : Counted (census threads) threads := by
  obtain ⟨hordinary, hmanager⟩ := foldl_count_spec threads {}
  refine ⟨by rw [census, hordinary]; exact Nat.le_add_left _ _, fun hfalse => ?_⟩
  rw [census, hmanager] at hfalse
  simpa [liveWorkers, countP_eq_zero] using hfalse

/-- The live workers of each class are no more than before. -/
def NoMoreWorkers (threads threads' : List GuestThreadContext) : Prop :=
  ∀ manager, liveWorkers manager threads' ≤ liveWorkers manager threads

variable {census : Census} {threads threads' : List GuestThreadContext}

theorem Counted.mono (h : Counted census threads) (hmore : NoMoreWorkers threads threads') :
    Counted census threads' :=
  ⟨Nat.le_trans (hmore false) h.ordinary, fun hfalse =>
    Nat.le_zero.1 (Nat.le_trans (hmore true) (le_of_eq (h.manager hfalse)))⟩

variable {debuggerId : ℕ} {change : GuestThreadContext → GuestThreadContext}

theorem noMoreWorkers_updateThread (threads : List GuestThreadContext)
    (h : ∀ manager thread, (change thread).worker manager → thread.worker manager) :
    NoMoreWorkers threads (updateThread debuggerId change threads) := fun manager =>
  Records.countP_modifyFirst_le (fun thread _ => h manager thread)

theorem noMoreWorkers_map (threads : List GuestThreadContext)
    (h : ∀ manager thread, (change thread).worker manager = thread.worker manager) :
    NoMoreWorkers threads (threads.map change) := fun manager => by
  unfold liveWorkers
  rw [countP_map]
  refine le_of_eq (countP_congr fun thread _ => ?_)
  simp [h]

@[simp] theorem worker_compensated (manager : Bool) (thread : GuestThreadContext) :
    thread.compensated.worker manager = thread.worker manager := by
  unfold compensated
  split
  · cases hjit : thread.nativeJit <;> simp [worker, hjit]
  · rfl

@[simp] theorem worker_hostBlockEnter (manager : Bool) (thread : GuestThreadContext) :
    thread.hostBlockEnter.worker manager = thread.worker manager := by
  cases hjit : thread.nativeJit with
  | none => simp [hostBlockEnter, hjit]
  | some =>
    simp only [hostBlockEnter, hjit]
    split
    · rfl
    · split <;> simp [worker, hjit]

@[simp] theorem worker_hostBlockExit (manager : Bool) (thread : GuestThreadContext) :
    thread.hostBlockExit.worker manager = thread.worker manager := by
  cases hjit : thread.nativeJit with
  | none => simp [hostBlockExit, hjit]
  | some =>
    simp only [hostBlockExit, hjit]
    split
    · rfl
    · split <;> simp [worker, hjit]

theorem worker_of_exited (manager : Bool) (thread : GuestThreadContext)
    (h : thread.exited.worker manager) : thread.worker manager := by
  unfold exited at h
  split at h
  · exact h
  · cases hjit : thread.nativeJit <;> simp [worker, hjit] at h

theorem noMoreWorkers_settle (census : Census) (threads : List GuestThreadContext) :
    NoMoreWorkers threads (settle census threads) := by
  unfold settle
  split
  · exact fun _ => le_refl _
  · exact noMoreWorkers_updateThread threads (by simp)

theorem NoMoreWorkers.trans {threads'' : List GuestThreadContext}
    (h : NoMoreWorkers threads threads') (h' : NoMoreWorkers threads' threads'') :
    NoMoreWorkers threads threads'' :=
  fun manager => Nat.le_trans (h' manager) (h manager)

@[simp] theorem worker_allowStart (manager : Bool) (thread : GuestThreadContext) :
    thread.allowStart.worker manager = thread.worker manager := by
  cases hjit : thread.nativeJit <;>
    simp [worker, allowStart, hjit]

theorem noMoreWorkers_relieve (threads : List GuestThreadContext) :
    NoMoreWorkers threads (relieve threads) :=
  noMoreWorkers_map threads fun manager thread => by
    cases hjit : thread.nativeJit <;> simp [worker, hjit]

/-! ## The bounds -/

/-- What the stage of the pump knows about the workers. -/
def StageCounted (threads : List GuestThreadContext) : Option Pump → Prop
  | some ⟨.choosing census, _⟩ => Counted census threads
  | some ⟨.starting census chosen, _⟩ =>
    Counted census threads ∧ census.eligible chosen.job = true
  | _ => True

theorem StageCounted.mono {pump : Option Pump} (h : StageCounted threads pump)
    (hmore : NoMoreWorkers threads threads') :
    StageCounted threads' pump := by
  unfold StageCounted at h ⊢
  split at h
  · exact Counted.mono h hmore
  · exact ⟨h.1.mono hmore, h.2⟩
  · trivial

/-- **The pump's limits hold.** -/
structure WorkersBounded (c : Config) : Prop where
  ordinary : liveWorkers false c.threads ≤ maxNativeGuestWorkqueueWorkers
  manager : liveWorkers true c.threads ≤ 1
  stage : StageCounted c.threads c.pump

namespace WorkersBounded

variable {c c' : Config}

theorem initial : WorkersBounded {} := ⟨Nat.zero_le _, Nat.zero_le _, trivial⟩

/-- The pump moves to a stage that expects nothing of the workers. -/
theorem goto (h : WorkersBounded c) (hmore : NoMoreWorkers c.threads c'.threads)
    (hstage : StageCounted c'.threads c'.pump) : WorkersBounded c' :=
  ⟨Nat.le_trans (hmore false) h.ordinary, Nat.le_trans (hmore true) h.manager, hstage⟩

theorem mono (h : WorkersBounded c) (hmore : NoMoreWorkers c.threads c'.threads)
    (hpump : c'.pump = c.pump) : WorkersBounded c' :=
  h.goto hmore (hpump ▸ h.stage.mono hmore)

end WorkersBounded

theorem noMoreWorkers_leave (c : Config) (startFailed : Bool) :
    NoMoreWorkers c.threads (c.leave startFailed).threads := by
  unfold leave
  split
  · exact fun _ => le_refl _
  · exact noMoreWorkers_map c.threads fun manager thread => by
      cases hjit : thread.nativeJit <;> simp [worker, hjit]

theorem pump_leave (c : Config) (startFailed : Bool) : (c.leave startFailed).pump = none := by
  unfold leave
  split
  · assumption
  · rfl

namespace WorkersBounded

variable {c : Config}

theorem leave (h : WorkersBounded c) (startFailed : Bool) : WorkersBounded (c.leave startFailed) :=
  h.goto (noMoreWorkers_leave c startFailed) (by rw [pump_leave]; trivial)

theorem startFailed (h : WorkersBounded c) (chosen : ChosenJob) :
    WorkersBounded (c.startFailed chosen) := by
  unfold Config.startFailed
  split
  · refine h.goto (fun _ => le_refl _) ?_
    cases hpump : c.pump <;> simp [Config.goto, StageCounted, hpump]
  · exact h.leave true

variable {chosen : ChosenJob} {c' : Config}

/-- The chosen job is of a class with room. -/
theorem eligible_of_chooses (h : Chooses c census (some chosen) c') :
    census.eligible chosen.job := by
  generalize hsome : some chosen = found at h
  cases h with
  | pending _ heligible =>
    cases hsome
    exact heligible
  | request _ hordinary =>
    cases hsome
    exact hordinary
  | event _ hnext =>
    cases hsome
    have hallowed := nextGuestWorkqueueEvent_allowed (congrArg Prod.fst hnext)
    simpa only [Census.eligible, GuestWorkqueueJob.eventManager, deliveryJob, Bool.true_and]
      using hallowed
  | compensation _ hcompensates =>
    cases hsome
    simp only [Census.compensates, Bool.and_eq_true] at hcompensates
    exact hcompensates.1.1.1
  | nothing => simp at hsome

theorem threads_of_chooses {found : Option ChosenJob} (h : Chooses c census found c') :
    c'.threads = c.threads ∧ c'.pump = c.pump := by
  cases h <;> exact ⟨rfl, rfl⟩

/-- Registering a worker for an eligible job stays within the bounds. -/
theorem register (h : WorkersBounded c) (hcounted : Counted census c.threads)
    (heligible : census.eligible chosen.job)
    (hthreads : c'.threads = c.threads ++ [workerThread c.nextDebuggerId chosen.job])
    (hstage : StageCounted c'.threads c'.pump) : WorkersBounded c' := by
  have hworker : ∀ manager, (workerThread c.nextDebuggerId chosen.job).worker manager
      = (chosen.job.eventManager == manager) := fun manager => by
    simp [worker, workerThread]
  have hlive : ∀ manager, liveWorkers manager c'.threads = liveWorkers manager c.threads
      + (if chosen.job.eventManager == manager then 1 else 0) := fun manager => by
    rw [hthreads, liveWorkers, countP_append, countP_singleton, hworker, liveWorkers]
  unfold Census.eligible at heligible
  have hordinary := h.ordinary
  have hmanager := h.manager
  cases hclass : chosen.job.eventManager with
  | true =>
    -- the event manager's slot is free
    rw [hclass, if_pos rfl] at heligible
    have hfree := hcounted.manager (by simpa [Census.allowEventManager] using heligible)
    refine ⟨?_, ?_, hstage⟩
    · rw [hlive, hclass]
      simpa using hordinary
    · rw [hlive, hclass, hfree]
      simp
  | false =>
    rw [hclass, if_neg (by simp)] at heligible
    have hroom : census.ordinaryWorkers < maxNativeGuestWorkqueueWorkers := by
      simpa [Census.allowOrdinary] using heligible
    have hcount := hcounted.ordinary
    refine ⟨?_, ?_, hstage⟩
    · rw [hlive, hclass]
      simp only [beq_self_eq_true, if_true]
      omega
    · rw [hlive, hclass]
      simpa using hmanager

theorem advance (h : WorkersBounded c) {pump : Pump}
    (hpump : c.pump = some pump) (succeeds : Bool) :
    WorkersBounded (c.advance succeeds pump.stage) := by
  have hstage := h.stage
  obtain ⟨stage, startedWorker⟩ := pump
  rw [hpump] at hstage
  cases stage with
  | counting =>
    simp only [Config.advance]
    split
    · exact h.leave false
    · refine h.goto (fun _ => le_refl _) ?_
      rw [Config.goto, hpump]
      exact census_counted c.threads
  | choosing census =>
    simp only [Config.advance]
    split
    · exact h.leave false
    · have hchooses := chooseJob_chooses c census
      obtain ⟨hthreads, hpump'⟩ := threads_of_chooses hchooses
      have hnow : WorkersBounded (chooseJob c census).2 :=
        h.mono (fun _ => le_of_eq (congrArg _ hthreads)) hpump'
      split
      · rename_i heq
        rw [heq] at hnow
        exact hnow.leave false
      · rename_i chosen c' heq
        rw [heq] at hchooses hthreads hpump' hnow
        refine hnow.goto (fun _ => le_refl _) ?_
        rw [Config.goto, show c'.pump = some _ from hpump'.trans hpump]
        exact ⟨Counted.mono hstage (fun _ => le_of_eq (congrArg _ hthreads)),
          eligible_of_chooses hchooses⟩
  | starting _ chosen =>
    simp only [Config.advance]
    split
    · exact startFailed (c := { c with nextDebuggerId := c.nextDebuggerId + 1 })
        (h.mono (fun _ => le_refl _) rfl) chosen
    · refine h.register hstage.1 hstage.2 rfl ?_
      simp [Config.goto, hpump, StageCounted]
  | creating _ chosen debuggerId =>
    simp only [Config.advance]
    split
    · have hfewer : WorkersBounded
          { c with threads := c.threads.filter (fun thread => thread.debuggerId != debuggerId) } :=
        h.mono (fun manager => filter_sublist.countP_le) rfl
      exact hfewer.startFailed chosen
    · refine h.goto (NoMoreWorkers.trans ?_ (noMoreWorkers_updateThread _ (by simp))) trivial
      split
      · exact fun _ => le_refl _
      · exact noMoreWorkers_relieve c.threads
  | restoring job =>
    have hsame : WorkersBounded { c with pendingJobs := job :: c.pendingJobs } :=
      h.mono (fun _ => le_refl _) rfl
    exact hsame.leave true
  | settling census =>
    refine h.goto (noMoreWorkers_settle census c.threads) ?_
    simp [Config.advance, Config.goto, hpump, StageCounted]

theorem step (h : WorkersBounded c) (event : Event) : WorkersBounded (step c event) := by
  cases event with
  | openWorkqueue | setEventManagerPriority | changeSources =>
    exact h.mono (fun _ => le_refl _) rfl
  | requestThreads =>
    simp only [Workqueue.step]
    split
    · exact h
    · exact h.mono (fun _ => le_refl _) rfl
  | createThread =>
    refine h.mono (fun manager => ?_) rfl
    simp [Workqueue.step, liveWorkers, worker]
  | exitThread =>
    exact h.mono (noMoreWorkers_updateThread _ worker_of_exited) rfl
  | hostBlockEnter | hostBlockExit =>
    exact h.mono (noMoreWorkers_updateThread _ (by simp)) rfl
  | pump =>
    simp only [Workqueue.step]
    split
    · exact h
    · exact h.goto (fun _ => le_refl _) trivial
  | advance succeeds =>
    simp only [Workqueue.step]
    split
    · exact h
    · next pump hpump => exact h.advance hpump succeeds

end WorkersBounded

/-! ## The thread registry -/

/-- A worker pumps while it is blocked in the host. -/
def GuestThreadContext.pumpsBlocked (thread : GuestThreadContext) : Bool :=
  thread.nativeJit.elim true fun jit => !thread.pumping || jit.hostBlock == .inside

structure RegistryOk (c : Config) : Prop where
  unique : (c.threads.map (·.debuggerId)).Nodup
  below : ∀ thread ∈ c.threads, thread.debuggerId < c.nextDebuggerId
  pumping : ∀ thread ∈ c.threads, thread.pumpsBlocked = true

namespace RegistryOk

variable {c c' : Config}

theorem initial : RegistryOk {} := ⟨nodup_nil, by simp, by simp⟩

/-- Every thread is one that was there, perhaps changed. -/
theorem of_old (h : RegistryOk c)
    (hids : (c'.threads.map (·.debuggerId)).Sublist (c.threads.map (·.debuggerId)))
    (hold : ∀ thread ∈ c'.threads, ∃ old ∈ c.threads, thread.debuggerId = old.debuggerId
      ∧ (old.pumpsBlocked → thread.pumpsBlocked))
    (hnext : c.nextDebuggerId ≤ c'.nextDebuggerId) : RegistryOk c' := by
  refine ⟨h.unique.sublist hids, fun thread hthread => ?_, fun thread hthread => ?_⟩
  · obtain ⟨old, hmem, hid, -⟩ := hold thread hthread
    have hlt := h.below old hmem
    omega
  · obtain ⟨old, hmem, -, hpumping⟩ := hold thread hthread
    exact hpumping (h.pumping old hmem)

theorem of_eq (h : RegistryOk c) (hthreads : c'.threads = c.threads)
    (hnext : c.nextDebuggerId ≤ c'.nextDebuggerId) : RegistryOk c' :=
  h.of_old (by rw [hthreads]) (fun thread hthread => ⟨thread, hthreads ▸ hthread, rfl, id⟩) hnext

/-- A change to a thread that keeps its number, and does not let it pump without being blocked. -/
def Tame (change : GuestThreadContext → GuestThreadContext) : Prop :=
  ∀ thread, (change thread).debuggerId = thread.debuggerId
    ∧ (thread.pumpsBlocked = true → (change thread).pumpsBlocked = true)

variable {change : GuestThreadContext → GuestThreadContext}

theorem map (h : RegistryOk c) (hthreads : c'.threads = c.threads.map change)
    (hnext : c'.nextDebuggerId = c.nextDebuggerId) (hchange : Tame change) : RegistryOk c' := by
  refine h.of_old ?_ (fun thread hthread => ?_) (le_of_eq hnext.symm)
  · rw [hthreads, map_map]
    simp only [Function.comp_def, fun thread => (hchange thread).1]
    exact List.Sublist.refl _
  · rw [hthreads] at hthread
    obtain ⟨old, hold, rfl⟩ := mem_map.1 hthread
    exact ⟨old, hold, hchange old⟩

theorem update (h : RegistryOk c) (hthreads : c'.threads = updateThread debuggerId change c.threads)
    (hnext : c'.nextDebuggerId = c.nextDebuggerId) (hchange : Tame change) : RegistryOk c' := by
  refine h.of_old ?_ (fun thread hthread => ?_) (le_of_eq hnext.symm)
  · rw [hthreads, updateThread, Records.map_modifyFirst fun thread => (hchange thread).1]
  · rw [hthreads] at hthread
    rcases Records.mem_modifyFirst hthread with hold | ⟨old, hold, -, rfl⟩
    · exact ⟨thread, hold, rfl, id⟩
    · exact ⟨old, hold, hchange old⟩

theorem register (h : RegistryOk c) {thread : GuestThreadContext}
    (hid : thread.debuggerId = c.nextDebuggerId) (hpumping : thread.pumpsBlocked)
    (hthreads : c'.threads = c.threads ++ [thread])
    (hnext : c'.nextDebuggerId = c.nextDebuggerId + 1) : RegistryOk c' := by
  refine ⟨?_, fun other hother => ?_, fun other hother => ?_⟩
  · rw [hthreads, map_append, nodup_append]
    refine ⟨h.unique, by simp, fun id hold id' hnew heq => ?_⟩
    obtain ⟨old, hmem, rfl⟩ := mem_map.1 hold
    have hlt := h.below old hmem
    simp only [map_singleton, mem_singleton] at hnew
    omega
  · rw [hthreads] at hother
    rcases mem_append.1 hother with hold | hnew
    · have hlt := h.below other hold
      omega
    · rw [mem_singleton.1 hnew]
      omega
  · rw [hthreads] at hother
    rcases mem_append.1 hother with hold | hnew
    · exact h.pumping other hold
    · rw [mem_singleton.1 hnew]
      exact hpumping

theorem leave (h : RegistryOk c) (startFailed : Bool) : RegistryOk (c.leave startFailed) := by
  unfold Config.leave
  split
  · exact h
  · refine h.map rfl rfl fun thread => ⟨rfl, fun _ => ?_⟩
    cases thread.nativeJit <;> simp [pumpsBlocked]

theorem startFailed (h : RegistryOk c) (chosen : ChosenJob) :
    RegistryOk (c.startFailed chosen) := by
  unfold Config.startFailed
  split
  · exact h.of_eq rfl (le_refl _)
  · exact h.leave true

theorem advance (h : RegistryOk c) (succeeds : Bool) (stage : PumpStage) :
    RegistryOk (c.advance succeeds stage) := by
  cases stage with
  | counting =>
    simp only [Config.advance]
    split
    · exact h.leave false
    · exact h.of_eq rfl (le_refl _)
  | choosing census =>
    have hchooses := chooseJob_chooses c census
    have hnow : RegistryOk (chooseJob c census).2 := by
      generalize chooseJob c census = choice at hchooses
      obtain ⟨found, c'⟩ := choice
      cases hchooses <;> exact h.of_eq rfl (le_refl _)
    simp only [Config.advance]
    split
    · exact h.leave false
    · split
      · rename_i heq
        rw [heq] at hnow
        exact hnow.leave false
      · rename_i heq
        rw [heq] at hnow
        exact hnow.of_eq rfl (le_refl _)
  | starting _ chosen =>
    simp only [Config.advance]
    split
    · have hsame : RegistryOk { c with nextDebuggerId := c.nextDebuggerId + 1 } :=
        h.of_eq rfl (Nat.le_succ _)
      exact hsame.startFailed chosen
    · exact h.register rfl rfl rfl rfl
  | creating _ chosen debuggerId =>
    simp only [Config.advance]
    split
    · have hfewer : RegistryOk
          { c with threads := c.threads.filter (fun thread => thread.debuggerId != debuggerId) } :=
        h.of_old (filter_sublist.map _)
          (fun thread hthread => ⟨thread, (mem_filter.1 hthread).1, rfl, id⟩) (le_refl _)
      exact hfewer.startFailed chosen
    · have hrelieved : RegistryOk
          { c with
            threads := if chosen.job.eventManager then c.threads else relieve c.threads } := by
        split
        · exact h
        · refine h.map rfl rfl fun thread => ⟨rfl, fun hthread => ?_⟩
          cases hjit : thread.nativeJit <;> simp_all [pumpsBlocked]
      refine hrelieved.update rfl rfl fun thread => ⟨rfl, fun hthread => ?_⟩
      cases hjit : thread.nativeJit <;>
        simp_all [pumpsBlocked, allowStart]
  | restoring job =>
    have hsame : RegistryOk { c with pendingJobs := job :: c.pendingJobs } :=
      h.of_eq rfl (le_refl _)
    exact hsame.leave true
  | settling =>
    simp only [Config.advance, settle]
    split
    · exact h.of_eq rfl (le_refl _)
    · refine h.update rfl rfl fun thread => ?_
      unfold compensated
      split
      · cases hjit : thread.nativeJit <;> simp_all [pumpsBlocked]
      · exact ⟨rfl, id⟩

theorem step (h : RegistryOk c) (event : Event) : RegistryOk (step c event) := by
  cases event with
  | openWorkqueue | setEventManagerPriority | changeSources => exact h.of_eq rfl (le_refl _)
  | requestThreads | pump =>
    simp only [Workqueue.step]
    split
    · exact h
    · exact h.of_eq rfl (le_refl _)
  | createThread => exact h.register rfl rfl rfl rfl
  | exitThread =>
    refine h.update rfl rfl fun thread => ?_
    unfold exited
    split <;> exact ⟨rfl, id⟩
  | hostBlockEnter =>
    refine h.update rfl rfl fun thread => ?_
    cases hjit : thread.nativeJit with
    | none => simp [hostBlockEnter, hjit]
    | some =>
      simp only [hostBlockEnter, hjit]
      split
      · exact ⟨rfl, id⟩
      · split <;> simp_all [pumpsBlocked]
  | hostBlockExit =>
    refine h.update rfl rfl fun thread => ?_
    cases hjit : thread.nativeJit with
    | none => simp [hostBlockExit, hjit]
    | some =>
      simp only [hostBlockExit, hjit]
      split
      · exact ⟨rfl, id⟩
      · split <;> simp_all [pumpsBlocked]
  | advance succeeds =>
    simp only [Workqueue.step]
    split
    · exact h
    · exact h.advance succeeds _

end RegistryOk

end LiveExec32.Workqueue
