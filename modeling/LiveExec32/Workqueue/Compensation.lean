import LiveExec32.Workqueue.Termination
import Mathlib.Data.List.TakeWhile

/-! # Compensation for blocked workers

A worker that blocks in the host sets `workqueueCompensationPending` and pumps. When all ordinary
workers are blocked, the pump starts another one for it. At the end of a round that started a worker
the pump clears the flag of the blocked worker that its census found (`settle`).

It does so after *every* start, also that of an event manager. That worker runs no ordinary work, so
the compensation is dropped: the ordinary workers can all be blocked with nobody left to stand in
for them, and no flag that would make a later pump start one (`Stranded`, `managerStart_strands`).

The two flags of a host block are stored one after the other and under no lock. A worker between
the two stores is blocked without a pending compensation, and a pump that returns there strands it
until its own pump runs (`returnBetweenStores_strands`). Likewise the flag that a round is about to
clear may by then belong to a later block of the same worker.

Apart from that the flag is safe (`compensation_kept`). -/

namespace LiveExec32.Workqueue

open Config GuestThreadContext List

/-! ## The flags of a worker -/

namespace GuestThreadContext

def hostBlocked (thread : GuestThreadContext) : Bool :=
  thread.nativeJit.elim false (·.workqueueHostBlocked)

def compensationPending (thread : GuestThreadContext) : Bool :=
  thread.nativeJit.elim false (·.workqueueCompensationPending)

/-- An ordinary worker was started since this worker blocked last. -/
def isRelieved (thread : GuestThreadContext) : Bool := thread.nativeJit.elim false (·.relieved)

/-- The worker has made the first store of entering a host block. -/
def entering (thread : GuestThreadContext) : Bool :=
  thread.nativeJit.elim false (·.hostBlock == .entering)

/-- The worker is between the two stores of entering or leaving a host block. -/
def storing (thread : GuestThreadContext) : Bool :=
  thread.nativeJit.elim false fun jit => jit.hostBlock == .entering || jit.hostBlock == .leaving

end GuestThreadContext

/-- There are ordinary workers and room for more, but all of them are blocked, some have had no
    stand-in since, and no compensation is pending. -/
def Stranded (c : Config) : Prop :=
  (∃ thread ∈ c.threads, thread.worker false = true)
    ∧ (∀ thread ∈ c.threads, thread.worker false = true → thread.hostBlocked = true)
    ∧ liveWorkers false c.threads < maxNativeGuestWorkqueueWorkers
    ∧ (∃ thread ∈ c.threads, thread.worker false = true ∧ thread.isRelieved = false)
    ∧ ∀ thread ∈ c.threads, thread.due = false

instance (c : Config) : Decidable (Stranded c) := inferInstanceAs (Decidable (_ ∧ _ ∧ _ ∧ _ ∧ _))

/-- The running round has started an ordinary worker. -/
def Config.ordinaryStarted (c : Config) : Bool :=
  match c.pump with
  | some ⟨.settling _ job, _⟩ => !job.eventManager
  | _ => false

/-- The pump clears the flag of a worker only in a round that has started an ordinary worker. -/
def ClearsRightly (c : Config) : Event → Prop
  | .advance succeeds =>
    ∀ thread ∈ c.threads, ∀ thread' ∈ (step c (.advance succeeds)).threads,
      thread'.debuggerId = thread.debuggerId → thread.compensationPending = true →
        thread'.compensationPending = false → c.ordinaryStarted = true
  | _ => True

instance (c : Config) : (event : Event) → Decidable (ClearsRightly c event)
  | .advance _ => inferInstanceAs (Decidable (∀ _ ∈ _, ∀ _ ∈ _, _ → _ → _ → _))
  | .openWorkqueue | .setEventManagerPriority _ | .requestThreads _ _ | .changeSources _
  | .createThread | .exitThread _ | .hostBlockEnter _ | .hostBlockExit _ | .pump => isTrue trivial

/-- Whether the event manager is whom the round comes to: with a job that waits for another attempt,
    a requested thread, an expired timer, an event of a registration, or compensation. -/
def Config.nextClass (c : Config) (census : Census) : Option Bool :=
  match c.pendingJobs.find? census.eligible with
  | some job => some job.eventManager
  | none =>
    if census.allowOrdinary && c.requests.any (fun request => 0 < request.remaining) then some false
    else
      ((c.sources.dueTimer census.allowEventManager census.allowOrdinary).map
          (·.guest.eventManager)).or
        ((c.sources.kevents.find? (·.waits census.allowEventManager census.allowOrdinary
            c.sources.ports)).map (·.event.eventManager))
      |>.or (if census.compensates then some false else none)

/-- A round that found a blocked worker does not come to a job for the event manager; a round that
    comes to no job, so that the pump returns, finds no ordinary worker between its two stores; and
    the worker found does not make its second store after the round has started its worker. -/
def keepsCompensation (c : Config) : Event → Bool
  | .advance _ =>
    match c.pump with
    | some ⟨.choosing census, _⟩ =>
      match if c.opened then c.nextClass census else none with
      | some eventManager => census.compensationThreadId == 0 || !eventManager
      | none => c.threads.all fun thread => !(thread.worker false && thread.storing)
    | _ => true
  | .hostBlockEnter debuggerId =>
    match c.pump with
    | some ⟨.settling census _, _⟩ =>
      debuggerId != census.compensationThreadId
        || !c.threads.any (fun thread => thread.debuggerId == debuggerId && thread.entering)
    | _ => true
  | _ => true

/-- What a step does to the compensations. -/
structure KeepsStandIns (c : Config) (event : Event) : Prop where
  clears : ClearsRightly c event
  /-- Only a worker between its two stores can be stranded. -/
  storing : Stranded (step c event) →
    ∃ thread ∈ (step c event).threads, thread.worker false = true ∧ thread.storing = true
  /-- Nobody is when a pump returns, unless a start failed. -/
  returned : (∃ result, (step c event).returns = c.returns ++ [⟨result, false⟩]) →
    ¬ Stranded (step c event)

theorem chooseJob_class (c : Config) (census : Census) :
    (chooseJob c census).1.map (·.job.eventManager) = c.nextClass census := by
  unfold chooseJob nextClass
  cases c.pendingJobs.find? census.eligible with
  | some => rfl
  | none =>
    simp only
    split
    · rename_i request rest hordinary hrequests
      have hany : c.requests.any (fun request => 0 < request.remaining) := by
        have hmem : request ∈ c.requests :=
          (dropWhile_sublist _).subset (hrequests ▸ mem_cons_self)
        exact any_eq_true.2 ⟨request, hmem, decide_eq_true (pos_of_dropWhile hrequests)⟩
      rw [hordinary, hany]
      rfl
    · rename_i hother
      have hnone : (census.allowOrdinary
          && c.requests.any (fun request => 0 < request.remaining)) = false := by
        cases hordinary : census.allowOrdinary with
        | false => rfl
        | true =>
          cases hrequests : c.requests.dropWhile (fun request => request.remaining ≤ 0) with
          | nil => simpa using dropWhile_eq_nil_iff.1 hrequests
          | cons request rest => exact absurd hrequests (hother request rest hordinary)
      rw [hnone, ← nextGuestWorkqueueEvent_eventManager]
      simp only [Bool.false_eq_true, if_false, chooseEvent]
      rcases nextGuestWorkqueueEvent c.sources census.allowEventManager census.allowOrdinary with
        ⟨_ | delivery, sources⟩
      · simp only [Option.map_none, Option.none_or]
        split <;> rfl
      · rfl

/-! ## What a step does to the flags -/

/-- The thread is the same, it is not newly blocked, and keeps its other flags. -/
structure GuestThreadContext.Keeps (thread thread' : GuestThreadContext) : Prop where
  debuggerId : thread'.debuggerId = thread.debuggerId
  hostBlocked : thread'.hostBlocked = true → thread.hostBlocked = true
  pending : thread.compensationPending = true → thread'.compensationPending = true
  isRelieved : thread.isRelieved = true → thread'.isRelieved = true
  storing : thread.storing = true → thread'.storing = true

/-- Every thread was there before. -/
def Kept (threads threads' : List GuestThreadContext) : Prop :=
  ∀ thread' ∈ threads', ∃ thread ∈ threads, thread.Keeps thread'

theorem GuestThreadContext.Keeps.refl (thread : GuestThreadContext) : thread.Keeps thread :=
  ⟨rfl, id, id, id, id⟩

theorem Kept.refl (threads : List GuestThreadContext) : Kept threads threads :=
  fun thread hthread => ⟨thread, hthread, .refl thread⟩

variable {threads threads' : List GuestThreadContext}

theorem Kept.trans {threads'' : List GuestThreadContext} (h : Kept threads threads')
    (h' : Kept threads' threads'') : Kept threads threads'' := by
  intro thread'' hthread''
  obtain ⟨thread', hthread', hkeeps'⟩ := h' thread'' hthread''
  obtain ⟨thread, hthread, hkeeps⟩ := h thread' hthread'
  exact ⟨thread, hthread, hkeeps'.debuggerId.trans hkeeps.debuggerId, fun h => hkeeps.hostBlocked
    (hkeeps'.hostBlocked h), fun h => hkeeps'.pending (hkeeps.pending h),
    fun h => hkeeps'.isRelieved (hkeeps.isRelieved h), fun h => hkeeps'.storing (hkeeps.storing h)⟩

variable {change : GuestThreadContext → GuestThreadContext}

theorem kept_map (threads : List GuestThreadContext)
    (h : ∀ thread : GuestThreadContext, thread.Keeps (change thread)) :
    Kept threads (threads.map change) := by
  intro thread' hthread'
  obtain ⟨thread, hthread, rfl⟩ := mem_map.1 hthread'
  exact ⟨thread, hthread, h thread⟩

theorem kept_updateThread (debuggerId : ℕ) (threads : List GuestThreadContext)
    (h : ∀ thread : GuestThreadContext, thread.Keeps (change thread)) :
    Kept threads (updateThread debuggerId change threads) := by
  intro thread' hthread'
  rcases Records.mem_modifyFirst hthread' with hold | ⟨thread, hthread, -, rfl⟩
  · exact ⟨thread', hold, .refl thread'⟩
  · exact ⟨thread, hthread, h thread⟩

theorem kept_relieve (threads : List GuestThreadContext) : Kept threads (relieve threads) :=
  kept_map threads fun thread => by
    cases hjit : thread.nativeJit <;>
      constructor <;>
      simp [hostBlocked, compensationPending, isRelieved, storing, hjit]

theorem kept_allowStart (debuggerId : ℕ) (threads : List GuestThreadContext) :
    Kept threads (updateThread debuggerId .allowStart threads) :=
  kept_updateThread debuggerId threads fun thread => by
    cases hjit : thread.nativeJit <;>
      constructor <;>
      simp [hostBlocked, compensationPending, isRelieved, storing, allowStart, hjit]

theorem kept_leave (c : Config) (startFailed : Bool) :
    Kept c.threads (c.leave startFailed).threads := by
  unfold leave
  split
  · exact .refl c.threads
  · exact kept_map c.threads fun thread => ⟨rfl, id, id, id, id⟩

theorem kept_startFailed (c : Config) (chosen : ChosenJob) :
    Kept c.threads (c.startFailed chosen).threads := by
  unfold startFailed
  split
  · exact .refl c.threads
  · exact kept_leave c true

/-- Every thread was there before, or is a new worker. -/
def KeptOrNew (c : Config) (threads' : List GuestThreadContext) : Prop :=
  ∀ thread' ∈ threads', (∃ thread ∈ c.threads, thread.Keeps thread')
    ∨ ∃ job, thread' = workerThread c.nextDebuggerId job

/-- A step of the pump keeps the flags of the workers, unless it settles a round that found a
    blocked one. -/
theorem advance_keptOrNew (c : Config) (succeeds : Bool) {stage : PumpStage}
    (hstage : ∀ census job, stage = .settling census job → census.compensationThreadId = 0) :
    KeptOrNew c (c.advance succeeds stage).threads := by
  have old : ∀ {threads'}, Kept c.threads threads' → KeptOrNew c threads' :=
    fun h thread' hthread' => .inl (h thread' hthread')
  cases stage with
  | counting =>
    simp only [advance]
    split
    · exact old (kept_leave c false)
    · exact old (.refl c.threads)
  | choosing census =>
    simp only [advance]
    split
    · exact old (kept_leave c false)
    · have hthreads := (WorkersBounded.threads_of_chooses (chooseJob_chooses c census)).1
      split
      · rename_i c' heq
        rw [heq] at hthreads
        exact old (hthreads ▸ kept_leave c' false)
      · rename_i chosen c' heq
        rw [heq] at hthreads
        exact old (hthreads ▸ .refl c'.threads)
  | starting _ chosen =>
    simp only [advance]
    split
    · exact old (kept_startFailed { c with nextDebuggerId := c.nextDebuggerId + 1 } chosen)
    · intro thread' hthread'
      rcases mem_append.1 hthread' with hold | hnew
      · exact .inl ⟨thread', hold, .refl thread'⟩
      · exact .inr ⟨chosen.job, mem_singleton.1 hnew⟩
  | creating _ chosen debuggerId =>
    simp only [advance]
    split
    · refine old (Kept.trans (fun thread hthread => ?_) (kept_startFailed _ chosen))
      exact ⟨thread, (mem_filter.1 hthread).1, .refl thread⟩
    · refine old (Kept.trans ?_ (kept_allowStart debuggerId _))
      split
      · exact .refl c.threads
      · exact kept_relieve c.threads
  | restoring job =>
    exact old (kept_leave { c with pendingJobs := job :: c.pendingJobs } true)
  | settling census job =>
    have hsettle : settle census c.threads = c.threads := if_pos (hstage census job rfl)
    simp only [advance, hsettle]
    exact old (.refl c.threads)

/-! ## The invariant -/

/-- A blocked worker has its compensation pending, or has had a stand-in, or is between its stores.
    -/
def GuestThreadContext.covered (thread : GuestThreadContext) : Prop :=
  thread.hostBlocked = true →
    thread.compensationPending = true ∨ thread.isRelieved = true ∨ thread.storing = true

theorem debuggerId_hostBlockEnter (thread : GuestThreadContext) :
    thread.hostBlockEnter.debuggerId = thread.debuggerId := by
  unfold GuestThreadContext.hostBlockEnter
  split
  · rfl
  · split
    · rfl
    · split <;> rfl

/-- A step into a host block is the first store, or the second one, or does nothing. -/
theorem hostBlockEnter_cases (thread : GuestThreadContext) :
    thread.hostBlockEnter = thread ∨ thread.hostBlockEnter.storing = true
      ∨ (thread.entering = true ∧ thread.hostBlockEnter.compensationPending = true
        ∧ thread.hostBlockEnter.debuggerId = thread.debuggerId) := by
  cases hjit : thread.nativeJit with
  | none => simp [GuestThreadContext.hostBlockEnter, hjit]
  | some =>
    simp only [GuestThreadContext.hostBlockEnter, hjit]
    split
    · exact .inl rfl
    · split
      · exact .inr (.inl rfl)
      · next hstage => exact .inr (.inr ⟨by simp [entering, hjit, hstage], rfl, rfl⟩)
      · exact .inl rfl
      · exact .inl rfl

/-- A step out of a host block is the first store, or the second one, or does nothing. -/
theorem hostBlockExit_cases (thread : GuestThreadContext) :
    thread.hostBlockExit = thread ∨ thread.hostBlockExit.storing = true
      ∨ thread.hostBlockExit.hostBlocked = false := by
  cases hjit : thread.nativeJit with
  | none => simp [GuestThreadContext.hostBlockExit, hjit]
  | some =>
    simp only [GuestThreadContext.hostBlockExit, hjit]
    split
    · exact .inl rfl
    · split
      · exact .inr (.inl rfl)
      · exact .inr (.inr rfl)
      · exact .inl rfl
      · exact .inl rfl

/-- What the stage of the pump knows about its job and the blocked worker it found. -/
def StageCompensates (threads : List GuestThreadContext) : Option Pump → Prop
  | some ⟨.starting census chosen, _⟩ | some ⟨.creating census chosen _, _⟩ =>
    census.compensationThreadId ≠ 0 → chosen.job.eventManager = false
  | some ⟨.settling census job, _⟩ =>
    census.compensationThreadId ≠ 0 → job.eventManager = false
      ∧ ∀ thread ∈ threads, thread.debuggerId = census.compensationThreadId →
        thread.hostBlocked = true → thread.isRelieved = true ∨ thread.storing = true
  | _ => True

structure Compensates (c : Config) : Prop where
  registry : RegistryOk c
  covered : ∀ thread ∈ c.threads, thread.covered
  stage : StageCompensates c.threads c.pump

/-- A thread that is not blocked, or is between its stores, or has kept its flags. -/
def Unblocked (threads : List GuestThreadContext) (thread' : GuestThreadContext) : Prop :=
  thread'.hostBlocked = false ∨ thread'.storing = true ∨ ∃ thread ∈ threads, thread.Keeps thread'

theorem Unblocked.covered {thread' : GuestThreadContext} (h : Unblocked threads thread')
    (hcovered : ∀ thread ∈ threads, thread.covered) :
    thread'.covered := by
  intro hblocked
  rcases h with hfree | hstoring | ⟨thread, hthread, hkeeps⟩
  · rw [hfree] at hblocked
    simp at hblocked
  · exact .inr (.inr hstoring)
  · exact (hcovered thread hthread (hkeeps.hostBlocked hblocked)).imp hkeeps.pending
      (Or.imp hkeeps.isRelieved hkeeps.storing)

theorem StageCompensates.of_unblocked {pump : Option Pump} (h : StageCompensates threads pump)
    (hthreads : ∀ thread' ∈ threads', Unblocked threads thread') :
    StageCompensates threads' pump := by
  unfold StageCompensates at h ⊢
  split at h
  · exact h
  · exact h
  · intro hfound
    obtain ⟨hjob, hrelieved⟩ := h hfound
    refine ⟨hjob, fun thread' hthread' hid hblocked => ?_⟩
    rcases hthreads thread' hthread' with hfree | hstoring | ⟨thread, hthread, hkeeps⟩
    · rw [hfree] at hblocked
      simp at hblocked
    · exact .inr hstoring
    · exact (hrelieved thread hthread (hkeeps.debuggerId ▸ hid) (hkeeps.hostBlocked hblocked)).imp
        hkeeps.isRelieved hkeeps.storing
  · trivial

theorem relieve_isRelieved {thread : GuestThreadContext} (h : thread ∈ relieve threads)
    (hblocked : thread.hostBlocked) :
    thread.isRelieved := by
  obtain ⟨old, -, rfl⟩ := mem_map.1 h
  cases hjit : old.nativeJit with
  | none => simp [hostBlocked, hjit] at hblocked
  | some => simp [isRelieved]

theorem stageCompensates_leave (c : Config) (startFailed : Bool) :
    StageCompensates (c.leave startFailed).threads (c.leave startFailed).pump := by
  rw [pump_leave]
  trivial

theorem stageCompensates_startFailed (c : Config) (chosen : ChosenJob) :
    StageCompensates (c.startFailed chosen).threads (c.startFailed chosen).pump := by
  unfold startFailed
  split
  · cases hpump : c.pump <;> simp [goto, StageCompensates, hpump]
  · exact stageCompensates_leave c true

/-- The pump returns from this state without a failed start: no more workers may be started, or
    there is no job. -/
structure Leaves (c c' : Config) (stage : PumpStage) : Prop where
  threads : c'.threads = c.threads.map ({ · with pumping := false })
  cause : maxNativeGuestWorkqueueWorkers ≤ liveWorkers false c.threads
    ∨ ∃ census, stage = .choosing census
      ∧ (if c.opened then c.nextClass census else none) = none

theorem not_returned_startFailed {c c' : Config} (hreturns : c'.returns = c.returns)
    (chosen : ChosenJob) (result : GuestWorkqueuePumpResult) :
    (c'.startFailed chosen).returns ≠ c.returns ++ [⟨result, false⟩] := by
  unfold startFailed leave
  split
  · simp [goto, hreturns]
  · split <;> simp [hreturns]

theorem returns_of_chooses {c c' : Config} {census : Census} {chosen : Option ChosenJob}
    (h : Chooses c census chosen c') : c'.returns = c.returns := by
  cases h <;> rfl

theorem leaves_of_returned {c : Config} {event : Event} {result : GuestWorkqueuePumpResult}
    (h : (step c event).returns = c.returns ++ [⟨result, false⟩]) :
    ∃ succeeds, event = .advance succeeds ∧ ∃ pump, c.pump = some pump
      ∧ Leaves c (step c event) pump.stage := by
  cases event with
  | advance succeeds =>
    refine ⟨succeeds, rfl, ?_⟩
    simp only [step] at h ⊢
    cases hpump : c.pump with
    | none => simp [hpump] at h
    | some pump =>
      refine ⟨pump, rfl, ?_⟩
      rw [hpump] at h
      simp only at h ⊢
      obtain ⟨stage, startedWorker⟩ := pump
      cases stage with
      | counting =>
        simp only [advance] at h ⊢
        split
        · rename_i hfull
          refine ⟨by simp [leave, hpump], .inl ?_⟩
          have hordinary := (foldl_count_spec c.threads {}).1
          simp only [Census.allowOrdinary, census, hordinary, Bool.and_eq_true, Bool.not_eq_true',
            decide_eq_false_iff_not, Nat.not_lt] at hfull
          simpa using hfull.1
        · next hopen => simp [hopen, goto] at h
      | choosing census =>
        have hclass := chooseJob_class c census
        obtain ⟨hthreads, hpump'⟩ :=
          WorkersBounded.threads_of_chooses (chooseJob_chooses c census)
        simp only [advance] at h ⊢
        split
        · next hclosed =>
          exact ⟨by simp [leave, hpump], .inr ⟨census, rfl, by simp_all⟩⟩
        · split
          · rename_i c' heq
            rw [heq] at hclass hthreads hpump'
            refine ⟨?_, .inr ⟨census, rfl, ?_⟩⟩
            · simp only at hthreads hpump'
              simp [leave, hpump', hpump, hthreads]
            · simp [← hclass]
          · rename_i heq
            rw [if_neg (by assumption), heq] at h
            have hreturns := returns_of_chooses (chooseJob_chooses c census)
            simp only [heq] at hreturns
            simp [goto, hreturns] at h
      | starting _ chosen =>
        simp only [advance] at h
        split at h
        · exact absurd h (not_returned_startFailed (by rfl) chosen result)
        · simp [goto] at h
      | creating _ chosen =>
        simp only [advance] at h
        split at h
        · exact absurd h (not_returned_startFailed (by rfl) chosen result)
        · simp at h
      | restoring => simp [advance, leave, hpump] at h
      | settling => simp [advance, goto] at h
  | requestThreads | pump =>
    simp only [step] at h
    split at h <;> simp at h
  | openWorkqueue | setEventManagerPriority | changeSources | createThread | exitThread
  | hostBlockEnter | hostBlockExit => simp [step] at h

namespace Compensates

variable {c : Config}

theorem initial : Compensates {} := ⟨.initial, by simp, trivial⟩

/-- A step outside the pump that blocks nobody. -/
theorem of_unblocked (h : Compensates c) {c' : Config} (hregistry : RegistryOk c')
    (hpump : c'.pump = c.pump) (hthreads : ∀ thread' ∈ c'.threads, Unblocked c.threads thread') :
    Compensates c' := by
  refine ⟨hregistry, fun thread' hthread' => (hthreads thread' hthread').covered h.covered, ?_⟩
  rw [hpump]
  exact h.stage.of_unblocked hthreads

theorem hostBlockEnter (h : Compensates c) {debuggerId : ℕ}
    (hgood : keepsCompensation c (.hostBlockEnter debuggerId)) :
    Compensates (step c (.hostBlockEnter debuggerId)) := by
  -- a thread of the state after is as before, or between its stores, or has made its second store
  have hthreads : ∀ thread' ∈ (step c (.hostBlockEnter debuggerId)).threads,
      Unblocked c.threads thread' ∨ thread'.compensationPending = true
        ∧ ∃ thread ∈ c.threads, thread.debuggerId = debuggerId ∧ thread.entering = true
          ∧ thread'.debuggerId = thread.debuggerId := by
    intro thread' hthread'
    rcases Records.mem_modifyFirst hthread' with hold | ⟨thread, hthread, hmatch, rfl⟩
    · exact .inl (.inr (.inr ⟨thread', hold, .refl thread'⟩))
    · simp only [Bool.and_eq_true, beq_iff_eq] at hmatch
      rcases hostBlockEnter_cases thread with hsame | hstoring | ⟨hentering, hpending, hid⟩
      · exact .inl (.inr (.inr ⟨thread, hthread, by rw [hsame]; exact .refl thread⟩))
      · exact .inl (.inr (.inl hstoring))
      · exact .inr ⟨hpending, thread, hthread, hmatch.1, hentering, hid⟩
  refine ⟨h.registry.step _, fun thread' hthread' => ?_, ?_⟩
  · rcases hthreads thread' hthread' with hunblocked | ⟨hpending, -⟩
    · exact hunblocked.covered h.covered
    · exact fun _ => .inl hpending
  · by_cases hstores : ∃ thread ∈ c.threads, thread.debuggerId = debuggerId ∧ thread.entering = true
    · have hstage := h.stage
      simp only [step]
      unfold StageCompensates at hstage ⊢
      split at hstage
      · exact hstage
      · exact hstage
      · rename_i census job startedWorker hpump
        intro hfound
        obtain ⟨hjob, hrelieved⟩ := hstage hfound
        refine ⟨hjob, fun thread' hthread' hid hblocked => ?_⟩
        -- the worker found is not the one that makes its second store
        have hother : debuggerId ≠ census.compensationThreadId := by
          obtain ⟨thread, hthread, hmatch, hentering⟩ := hstores
          simp only [keepsCompensation, hpump, Bool.or_eq_true, bne_iff_ne] at hgood
          refine hgood.resolve_right fun hnone => ?_
          simp only [Bool.not_eq_true', any_eq_false, Bool.and_eq_true, beq_iff_eq,
            not_and] at hnone
          exact hnone thread hthread hmatch hentering
        rcases Records.mem_modifyFirst hthread' with hold | ⟨thread, -, hmatch, rfl⟩
        · exact hrelieved thread' hold hid hblocked
        · simp only [Bool.and_eq_true, beq_iff_eq] at hmatch
          rw [debuggerId_hostBlockEnter, hmatch.1] at hid
          exact absurd hid hother
      · trivial
    · refine h.stage.of_unblocked fun thread' hthread' => ?_
      refine (hthreads thread' hthread').resolve_right ?_
      rintro ⟨-, thread, hthread, hid, hentering, -⟩
      exact hstores ⟨thread, hthread, hid, hentering⟩

variable {pump : Pump} {succeeds : Bool}

/-- The stage that the pump comes to. -/
theorem advance_stage (h : Compensates c) (hpump : c.pump = some pump)
    (hgood : keepsCompensation c (.advance succeeds)) :
    StageCompensates (c.advance succeeds pump.stage).threads
      (c.advance succeeds pump.stage).pump := by
  have hstage := h.stage
  obtain ⟨stage, startedWorker⟩ := pump
  rw [hpump] at hstage
  cases stage with
  | counting =>
    simp only [advance]
    split
    · exact stageCompensates_leave c false
    · simp [goto, hpump, StageCompensates]
  | choosing census =>
    simp only [advance]
    split
    · exact stageCompensates_leave c false
    · rename_i hopened
      have hpump' := (WorkersBounded.threads_of_chooses (chooseJob_chooses c census)).2
      have hclass := chooseJob_class c census
      split
      · exact stageCompensates_leave _ false
      · rename_i chosen c' heq
        rw [heq] at hpump' hclass
        rw [goto, show c'.pump = some _ from hpump'.trans hpump]
        intro hfound
        simp only [Bool.not_eq_true', Bool.not_eq_false] at hopened
        simpa [keepsCompensation, hpump, ← hclass, hopened, hfound] using hgood
  | starting _ chosen =>
    simp only [advance]
    split
    · exact stageCompensates_startFailed _ chosen
    · simp only [goto, hpump]
      exact hstage
  | creating _ chosen debuggerId =>
    simp only [advance]
    split
    · exact stageCompensates_startFailed _ chosen
    · intro hfound
      have hjob := hstage hfound
      refine ⟨hjob, fun thread' hthread' _ hblocked => ?_⟩
      rw [hjob, if_neg (by simp)] at hthread'
      obtain ⟨thread, hthread, hkeeps⟩ := kept_allowStart debuggerId _ thread' hthread'
      exact .inl (hkeeps.isRelieved (relieve_isRelieved hthread (hkeeps.hostBlocked hblocked)))
  | restoring => exact stageCompensates_leave _ true
  | settling => simp [advance, goto, hpump, StageCompensates]

/-- Clearing the flag of the worker found leaves nobody without a stand-in. -/
theorem settle_covered (h : Compensates c) {census : Census} {job : GuestWorkqueueJob}
    {startedWorker : Bool} (hpump : c.pump = some ⟨.settling census job, startedWorker⟩) :
    ∀ thread ∈ settle census c.threads, thread.covered := by
  unfold settle
  split
  · exact h.covered
  · rename_i hfound
    have hstage := h.stage
    rw [hpump] at hstage
    obtain ⟨-, hrelieved⟩ := hstage hfound
    intro thread' hthread'
    rcases Records.mem_modifyFirst hthread' with hold | ⟨thread, hthread, hmatch, rfl⟩
    · exact h.covered thread' hold
    · simp only [Bool.and_eq_true, beq_iff_eq] at hmatch
      have hflags : thread.compensated.hostBlocked = thread.hostBlocked
          ∧ thread.compensated.isRelieved = thread.isRelieved
          ∧ thread.compensated.storing = thread.storing := by
        unfold compensated
        split
        · cases hjit : thread.nativeJit <;>
            simp [hostBlocked, isRelieved, storing, hjit]
        · exact ⟨rfl, rfl, rfl⟩
      intro hblocked
      rw [hflags.1] at hblocked
      rw [hflags.2.1, hflags.2.2]
      exact .inr (hrelieved thread hthread hmatch.1 hblocked)

theorem advance (h : Compensates c) (hpump : c.pump = some pump)
    (hgood : keepsCompensation c (.advance succeeds)) :
    Compensates (c.advance succeeds pump.stage) := by
  refine ⟨h.registry.advance succeeds pump.stage, ?_, h.advance_stage hpump hgood⟩
  by_cases hsettling : ∃ census job, pump.stage = .settling census job
  · obtain ⟨census, job, hstage⟩ := hsettling
    obtain ⟨stage, startedWorker⟩ := pump
    subst hstage
    exact h.settle_covered hpump
  · have hkept : KeptOrNew c (c.advance succeeds pump.stage).threads :=
      advance_keptOrNew c succeeds fun census job heq => absurd ⟨census, job, heq⟩ hsettling
    intro thread' hthread'
    rcases hkept thread' hthread' with hold | ⟨job, rfl⟩
    · exact Unblocked.covered (.inr (.inr hold)) h.covered
    · have hnew : Unblocked c.threads (workerThread c.nextDebuggerId job) := .inl rfl
      exact hnew.covered h.covered

theorem step (h : Compensates c) {event : Event} (hgood : keepsCompensation c event) :
    Compensates (step c event) := by
  have hsame : ∀ thread ∈ c.threads, Unblocked c.threads thread :=
    fun thread hthread => .inr (.inr ⟨thread, hthread, .refl thread⟩)
  have hregistry := h.registry.step event
  cases event with
  | openWorkqueue | setEventManagerPriority | changeSources =>
    exact h.of_unblocked hregistry rfl hsame
  | requestThreads =>
    simp only [Workqueue.step] at hregistry ⊢
    split
    · exact h
    · rename_i haccepted
      rw [if_neg haccepted] at hregistry
      exact h.of_unblocked hregistry rfl hsame
  | createThread =>
    refine h.of_unblocked hregistry rfl fun thread' hthread' => ?_
    rcases mem_append.1 hthread' with hold | hnew
    · exact hsame thread' hold
    · rw [mem_singleton.1 hnew]
      exact .inl rfl
  | exitThread debuggerId =>
    refine h.of_unblocked hregistry rfl fun thread' hthread' => .inr (.inr ?_)
    refine kept_updateThread debuggerId c.threads (fun thread => ?_) thread' hthread'
    unfold exited
    split
    · exact .refl thread
    · exact ⟨rfl, id, id, id, id⟩
  | hostBlockEnter => exact h.hostBlockEnter hgood
  | hostBlockExit =>
    refine h.of_unblocked hregistry rfl fun thread' hthread' => ?_
    rcases Records.mem_modifyFirst hthread' with hold | ⟨thread, hthread, -, rfl⟩
    · exact hsame thread' hold
    · rcases hostBlockExit_cases thread with hnothing | hstoring | hfree
      · rw [hnothing]
        exact hsame thread hthread
      · exact .inr (.inl hstoring)
      · exact .inl hfree
  | pump =>
    simp only [Workqueue.step]
    split
    · exact h
    · exact ⟨h.registry.of_eq rfl (Nat.le_refl _), h.covered, trivial⟩
  | advance =>
    simp only [Workqueue.step]
    split
    · exact h
    · next pump hpump => exact h.advance hpump hgood

/-- In a state with the invariant the pump clears no flag but for an ordinary worker. -/
theorem clearsRightly (h : Compensates c) (event : Event) : ClearsRightly c event := by
  cases event with
  | advance succeeds =>
    intro thread hthread thread' hthread' hid hpending hcleared
    have hunique : Records.UniqueKeys (·.debuggerId) c.threads :=
      pairwise_map.1 h.registry.unique
    simp only [Workqueue.step] at hthread'
    split at hthread'
    · have heq := hunique.eq_of_key_eq hthread' hthread hid
      rw [heq, hpending] at hcleared
      simp at hcleared
    · rename_i pump hpump
      obtain ⟨stage, startedWorker⟩ := pump
      refine Classical.byContradiction fun hother => ?_
      -- otherwise the step keeps all flags
      have hfound : ∀ census job, stage = .settling census job →
          census.compensationThreadId = 0 := by
        intro census job hstage
        subst hstage
        have hstage := h.stage
        rw [hpump] at hstage
        refine Classical.byContradiction fun hfound => hother ?_
        simp [ordinaryStarted, hpump, (hstage hfound).1]
      rcases advance_keptOrNew c succeeds hfound thread' hthread' with
        ⟨old, hold, hkeeps⟩ | ⟨job, rfl⟩
      · have heq := hunique.eq_of_key_eq hold hthread
          (hkeeps.debuggerId.symm.trans hid)
        rw [heq] at hkeeps
        rw [hkeeps.pending hpending] at hcleared
        simp at hcleared
      · have hlt := h.registry.below thread hthread
        simp only [workerThread] at hid
        omega
  | openWorkqueue | setEventManagerPriority | requestThreads | changeSources | createThread
  | exitThread | hostBlockEnter | hostBlockExit | pump => trivial

theorem storing_of_stranded (h : Compensates c) (hstranded : Stranded c) :
    ∃ thread ∈ c.threads, thread.worker false = true ∧ thread.storing = true := by
  obtain ⟨-, hblocked, -, ⟨thread, hthread, hworker, hunrelieved⟩, hnone⟩ := hstranded
  rcases h.covered thread hthread (hblocked thread hthread hworker) with
    hpending | hrelieved | hstoring
  · have hdue : thread.due := by
      simp only [due, hworker, Bool.true_and]
      exact hpending
    rw [hnone thread hthread] at hdue
    simp at hdue
  · rw [hunrelieved] at hrelieved
    simp at hrelieved
  · exact ⟨thread, hthread, hworker, hstoring⟩

/-- A pump that returns without a failed start strands nobody. -/
theorem not_stranded_of_returned (h : Compensates c) {event : Event}
    (hgood : keepsCompensation c event) {result : GuestWorkqueuePumpResult}
    (hreturned : (Workqueue.step c event).returns = c.returns ++ [⟨result, false⟩]) :
    ¬ Stranded (Workqueue.step c event) := by
  intro hstranded
  obtain ⟨thread', hthread', hworker, hstoring⟩ := (h.step hgood).storing_of_stranded hstranded
  obtain ⟨succeeds, rfl, pump, hpump, hleaves⟩ := leaves_of_returned hreturned
  rw [hleaves.threads] at hthread'
  obtain ⟨thread, hthread, rfl⟩ := mem_map.1 hthread'
  rcases hleaves.cause with hfull | ⟨census, hstage, hnone⟩
  · have hroom := hstranded.2.2.1
    rw [hleaves.threads, liveWorkers, countP_map] at hroom
    exact absurd hroom (Nat.not_lt.2 hfull)
  · obtain ⟨stage, startedWorker⟩ := pump
    subst hstage
    simp only [keepsCompensation, hpump, hnone, all_eq_true] at hgood
    have hfree := hgood thread hthread
    rw [Bool.not_eq_true', Bool.and_eq_false_iff] at hfree
    rcases hfree with hfree | hfree
    · cases hworker.symm.trans hfree
    · cases hstoring.symm.trans hfree

end Compensates

/-! ## Runs -/

/-- **Compensation is not dropped.** In a run in which no round that found a blocked worker comes to
    a job for the event manager, no pump returns while a worker is between its two stores, and no
    worker makes its second store while its flag is about to be cleared, the pump clears a flag only
    in a round that started an ordinary worker. In every state reached the blocked workers have a
    stand-in or a pending compensation, but for a worker between its two stores; when a pump returns
    without a failed start, there is no exception. -/
theorem compensation_kept {events : List Event}
    (h : Execution.Always (fun c event => keepsCompensation c event = true) step {} events) :
    Execution.Always KeepsStandIns step {} events :=
  Execution.Always.imp (fun _ _ hinv hgood => hinv.step hgood)
    (fun _ event hinv hgood => ⟨hinv.clearsRightly event, (hinv.step hgood).storing_of_stranded,
      fun hreturned => hreturned.elim fun _ => hinv.not_stranded_of_returned hgood⟩)
    Compensates.initial h

/-- A worker that blocks is compensated for by a second one. -/
theorem compensation_kept_blockedWorker :
    let events : List Event := [.openWorkqueue, .requestThreads 1 0x4000, .pump, .advance true,
      .advance true, .advance true, .advance true, .advance true, .advance true, .advance true,
      .hostBlockEnter 3, .hostBlockEnter 3, .pump, .advance true, .advance true, .advance true,
      .advance true, .advance true, .advance true, .advance true]
    (run {} events).started.map (·.debuggerId) = [3, 4]
      ∧ Execution.Always KeepsStandIns step {} events :=
  ⟨by decide, compensation_kept (by decide)⟩

/-- A worker has blocked when an event for the event manager is ready. -/
def strandingEvents : List Event :=
  [.openWorkqueue, .requestThreads 1 0x4000, .pump, .advance true, .advance true, .advance true,
    .advance true, .advance true, .advance true, .advance true, .hostBlockEnter 3,
    .hostBlockEnter 3,
    .changeSources
      { kevents := [{
          event := { ident := 1, filter := evfiltUser, qos := pthreadPriorityEventManagerFlag }
          enabled := true
          triggered := true
          addedBy := 0
          addFlags := 0
          enabledBy := 0 }] },
    .pump, .advance true, .advance true, .advance true, .advance true]

/-- **The start of an event manager clears the flag of a blocked worker**, and the pump returns
    without having started a stand-in, although no start failed. -/
theorem managerStart_strands :
    let c := run {} strandingEvents
    let c' := run c [.advance true, .advance true, .advance true]
    ¬ ClearsRightly c (.advance true)
      ∧ c'.pump = none ∧ c'.returns.getLast? = some ⟨.nativeWorkerStarted, false⟩
      ∧ Stranded c' := by
  decide

/-- **A pump that returns between the two stores strands the worker.** -/
theorem returnBetweenStores_strands :
    let c := run {} [.openWorkqueue, .requestThreads 1 0x4000, .pump, .advance true, .advance true,
      .advance true, .advance true, .advance true, .advance true, .hostBlockEnter 3, .advance true]
    c.pump = none ∧ c.returns.getLast? = some ⟨.nativeWorkerStarted, false⟩ ∧ Stranded c := by
  decide

end LiveExec32.Workqueue
