import LiveExec32.Workqueue.Conservation

/-! # The pump loop terminates

Every round but the last uses something up: a job that waited, a unit of a request, a ready event,
or the compensation that is due for a blocked worker. New compensation becomes due when another
worker blocks, but a worker that blocks calls the pump itself and then has to wait for the running
one; the pump's own limit on ordinary workers therefore bounds how often this can happen.

`Config.potential` adds all of this up. A registration that only reports a waiting message consumes
nothing, so every report that the pump takes counts as new work. -/

namespace LiveExec32.Workqueue

open List Config GuestThreadContext PumpStage Option

/-! ## Compensation that is still due -/

/-- Compensation is due for this worker. -/
def GuestThreadContext.due (thread : GuestThreadContext) : Bool :=
  thread.worker false && thread.nativeJit.elim false (·.workqueueCompensationPending)

/-- Compensation is due for this worker, and it is not the one that the round has found. -/
def GuestThreadContext.dueBut (found : ℕ) (thread : GuestThreadContext) : Bool :=
  thread.due && (found == 0 || thread.debuggerId != found)

/-- An ordinary worker that waits for the running pump. -/
def GuestThreadContext.waitsForPump (thread : GuestThreadContext) : Bool :=
  thread.worker false && thread.pumping

/-- The worker that the round has found compensation due for; zero if there is none. -/
def PumpStage.found : PumpStage → ℕ
  | .choosing census | .starting census _ | .creating census _ _ | .settling census _ =>
    census.compensationThreadId
  | _ => 0

/-- The compensation of the worker found counts until a job is made up for it. -/
def PumpStage.reserve : PumpStage → ℕ
  | .choosing census => if census.compensationThreadId = 0 then 0 else 1
  | .starting census chosen | .creating census chosen _ =>
    if census.compensationThreadId ≠ 0 ∧ chosen.retryJobOnFailure then 1 else 0
  | _ => 0

/-- The compensation jobs that may still be made up during this pump. -/
def PumpStage.credit (stage : PumpStage) (threads : List GuestThreadContext) : ℕ :=
  threads.countP (·.dueBut stage.found) + stage.reserve
    + (maxNativeGuestWorkqueueWorkers - threads.countP (·.waitsForPump))

/-- A change of the threads that makes compensation due for at most the workers that start to wait.
    -/
def NoMoreDue (threads threads' : List GuestThreadContext) : Prop :=
  ∀ found, threads'.countP (·.dueBut found) + threads.countP (·.waitsForPump)
    ≤ threads.countP (·.dueBut found) + threads'.countP (·.waitsForPump)

/-- A change of one thread that makes compensation due for it only if it starts to wait. -/
def GuestThreadContext.DueLe (thread' thread : GuestThreadContext) : Prop :=
  ∀ found, (if thread'.dueBut found then 1 else 0) + (if thread.waitsForPump then 1 else 0)
    ≤ (if thread.dueBut found then 1 else 0) + (if thread'.waitsForPump then 1 else 0)

variable {c : Config} {thread : GuestThreadContext} {threads : List GuestThreadContext}

theorem waitsForPump_le (h : WorkersBounded c) :
    c.threads.countP (·.waitsForPump) ≤ maxNativeGuestWorkqueueWorkers := by
  refine Nat.le_trans (countP_mono_left fun thread _ hwaits => ?_) h.ordinary
  simp only [waitsForPump, Bool.and_eq_true] at hwaits
  exact hwaits.1

variable {c' : Config}

theorem PumpStage.credit_le (stage : PumpStage) (h : WorkersBounded c')
    (hdue : NoMoreDue c.threads c'.threads) : stage.credit c'.threads ≤ stage.credit c.threads := by
  have hmore := hdue stage.found
  have hwaits := waitsForPump_le h
  unfold credit
  omega

theorem NoMoreDue.refl (threads : List GuestThreadContext) : NoMoreDue threads threads :=
  fun _ => le_refl _

theorem noMoreDue_updateThread {debuggerId : ℕ} {change : GuestThreadContext → GuestThreadContext}
    (h : ∀ thread ∈ threads, (change thread).DueLe thread) :
    NoMoreDue threads (updateThread debuggerId change threads) := fun found =>
  Records.countP_modifyFirst_add_le (fun thread hthread => h thread hthread found)

theorem noMoreDue_append (hdue : thread.due = false) (hwaits : thread.waitsForPump = false) :
    NoMoreDue threads (threads ++ [thread]) := by
  intro found
  simp [countP_append, dueBut, hdue, hwaits]

theorem noMoreDue_relieve (threads : List GuestThreadContext) :
    NoMoreDue threads (relieve threads) := by
  intro found
  have hsame : ∀ thread : GuestThreadContext,
      ({ thread with nativeJit := thread.nativeJit.map ({ · with relieved := true }) } :
        GuestThreadContext).dueBut found = thread.dueBut found
      ∧ ({ thread with nativeJit := thread.nativeJit.map ({ · with relieved := true }) } :
        GuestThreadContext).waitsForPump = thread.waitsForPump := fun thread => by
    cases hjit : thread.nativeJit <;>
      simp [dueBut, due, waitsForPump, worker, hjit]
  rw [relieve, countP_map, countP_map]
  simp only [Function.comp_def, hsame]
  exact le_refl _

theorem NoMoreDue.trans {threads' threads'' : List GuestThreadContext}
    (h : NoMoreDue threads threads') (h' : NoMoreDue threads' threads'') :
    NoMoreDue threads threads'' := fun found => by
  have hone := h found
  have htwo := h' found
  omega

theorem noMoreDue_allowStart (debuggerId : ℕ) (threads : List GuestThreadContext) :
    NoMoreDue threads (updateThread debuggerId .allowStart threads) := by
  refine noMoreDue_updateThread fun thread _ found => le_of_eq ?_
  cases hjit : thread.nativeJit <;>
    simp [dueBut, due, waitsForPump, allowStart, worker, hjit]

/-- Compensation that is due afterwards was due before, and nobody stops waiting. -/
theorem dueLe_of_imp {thread' : GuestThreadContext}
    (hdue : ∀ found, thread'.dueBut found → thread.dueBut found)
    (hwaits : thread'.waitsForPump = thread.waitsForPump) : thread'.DueLe thread := by
  intro found
  rw [hwaits]
  by_cases h : thread'.dueBut found = true
  · simp [h, hdue found h]
  · simp [h]

theorem exited_due (thread : GuestThreadContext) : thread.exited.DueLe thread := by
  unfold exited
  split
  · exact fun _ => le_refl _
  · refine dueLe_of_imp (fun found h => ?_) ?_
    · cases hjit : thread.nativeJit <;>
        simp [dueBut, due, worker, hjit] at h
    · simp_all [waitsForPump]

theorem hostBlockExit_due (thread : GuestThreadContext) : thread.hostBlockExit.DueLe thread := by
  have hsame : thread.DueLe thread := fun _ => le_refl _
  cases hjit : thread.nativeJit with
  | none => simpa only [hostBlockExit, hjit] using hsame
  | some =>
    simp only [hostBlockExit, hjit]
    split
    · exact hsame
    · split
      · exact dueLe_of_imp (fun found h => by simp [dueBut, due] at h)
          (by simp [waitsForPump, worker, hjit])
      · exact dueLe_of_imp (fun found h => by simpa [dueBut, due, worker, hjit] using h)
          (by simp [waitsForPump, worker, hjit])
      · exact hsame
      · exact hsame

/-- A worker for which compensation becomes due starts to wait for the pump. -/
theorem hostBlockEnter_due (h : thread.pumpsBlocked) : thread.hostBlockEnter.DueLe thread := by
  intro found
  cases hjit : thread.nativeJit with
  | none => simp [hostBlockEnter, hjit]
  | some =>
    simp only [hostBlockEnter, hjit]
    simp only [pumpsBlocked, hjit, elim_some] at h
    split
    · exact le_refl _
    · split
      · simp [dueBut, due, waitsForPump, worker, hjit]
      · have hidle : thread.pumping = false := by simp_all
        simp only [dueBut, due, waitsForPump, worker, elim_some, Bool.and_true]
        split <;> simp_all
      · exact le_refl _
      · exact le_refl _

/-! ## The census and the end of a round -/

theorem foldl_count_found (threads : List GuestThreadContext) (census : Census) :
    (threads.foldl Census.count census).compensationThreadId = census.compensationThreadId
    ∨ ∃ thread ∈ threads, thread.due
      ∧ thread.debuggerId = (threads.foldl Census.count census).compensationThreadId := by
  induction threads generalizing census with
  | nil => exact .inl rfl
  | cons thread _ ih =>
    rcases ih (census.count thread) with hsame | ⟨other, hother, hdue, hid⟩
    · have hcount : (census.count thread).compensationThreadId = census.compensationThreadId
          ∨ (thread.due ∧ thread.debuggerId = (census.count thread).compensationThreadId) := by
        unfold Census.count due worker
        cases thread.nativeJit with
        | none => exact .inl rfl
        | some => grind
      rcases hcount with hcount | ⟨hdue, hid⟩
      · exact .inl (hsame.trans hcount)
      · exact .inr ⟨thread, mem_cons_self, hdue, hid.trans hsame.symm⟩
    · exact .inr ⟨other, mem_cons_of_mem _ hother, hdue, hid⟩

theorem countP_dueBut_le (found : ℕ) (threads : List GuestThreadContext) :
    threads.countP (·.dueBut found) ≤ threads.countP (·.dueBut 0) := by
  refine countP_mono_left fun thread _ hdue => ?_
  simp only [dueBut, Bool.and_eq_true] at hdue ⊢
  exact ⟨hdue.1, rfl⟩

/-- A worker for which compensation is due is left out when it is the one found. -/
theorem countP_dueBut_lt (hthread : thread ∈ threads) (hdue : thread.due)
    (hid : thread.debuggerId ≠ 0) :
    threads.countP (·.dueBut thread.debuggerId) + 1 ≤ threads.countP (·.dueBut 0) := by
  induction threads with
  | nil => simp at hthread
  | cons other rest ih =>
    rw [countP_cons, countP_cons]
    rcases mem_cons.1 hthread with rfl | hrest
    · have hle := countP_dueBut_le thread.debuggerId rest
      simp [dueBut, hdue, hid] at hle ⊢
      exact hle
    · have hlt := ih hrest
      have hhead : (if other.dueBut thread.debuggerId then 1 else 0)
          ≤ if other.dueBut 0 then 1 else 0 := by
        unfold dueBut
        cases other.due <;> simp
        split <;> simp
      omega

/-- What the census finds costs one of the compensations that are due. -/
theorem PumpStage.credit_choosing (threads : List GuestThreadContext) :
    (choosing (census threads)).credit threads ≤ counting.credit threads := by
  refine Nat.add_le_add_right ?_ _
  simp only [found, reserve]
  rcases foldl_count_found threads {} with hnone | ⟨thread, hthread, hdue, hid⟩
  · rw [census, hnone]
    simp
  · rw [census, ← hid]
    split
    · rename_i hzero
      rw [hzero]
    · next hne => exact countP_dueBut_lt hthread hdue hne

theorem compensated_due (thread : GuestThreadContext) : thread.compensated.due = false := by
  unfold compensated
  split
  · cases thread.nativeJit <;> simp [due]
  · cases hjit : thread.nativeJit <;>
      simp_all [due, worker]

/-- Compensation is no longer due for the worker that the round has found. -/
theorem countP_due_updateThread {found : ℕ} (hunique : (threads.map (·.debuggerId)).Nodup) :
    (updateThread found compensated threads).countP (·.dueBut 0)
      ≤ threads.countP (·.dueBut found) := by
  induction threads with
  | nil => exact le_refl _
  | cons thread rest ih =>
    obtain ⟨hnew, hrest⟩ := nodup_cons.1 hunique
    have hrest := ih hrest
    unfold updateThread at hrest ⊢
    unfold Records.modifyFirst
    split
    · rename_i hmatch
      -- the worker found: no other thread has its id
      simp only [Bool.and_eq_true, beq_iff_eq] at hmatch
      have hothers : rest.countP (·.dueBut 0) ≤ rest.countP (·.dueBut found) := by
        refine countP_mono_left fun other hother hdue => ?_
        have hne : other.debuggerId ≠ found := fun heq =>
          hnew (mem_map.2 ⟨other, hother, heq.trans hmatch.1.symm⟩)
        simp only [dueBut, Bool.and_eq_true] at hdue ⊢
        exact ⟨hdue.1, by simp [hne]⟩
      rw [countP_cons, countP_cons]
      simp only [dueBut, compensated_due, Bool.false_and, Bool.false_eq_true, if_false] at hothers ⊢
      omega
    · rename_i hmatch
      have hhead : (if thread.dueBut 0 then 1 else 0) ≤ if thread.dueBut found then 1 else 0 := by
        by_cases hdue : thread.due = true
        · -- a live thread that is not the one found
          have halive : thread.alive := by
            cases hjit : thread.nativeJit <;>
              simp_all [due, worker]
          have hne : thread.debuggerId ≠ found := by simpa [halive] using hmatch
          simp [dueBut, hne]
        · simp [dueBut, hdue]
      rw [countP_cons, countP_cons]
      omega

theorem waitsForPump_settle (census : Census) (threads : List GuestThreadContext) :
    (settle census threads).countP (·.waitsForPump) = threads.countP (·.waitsForPump) := by
  unfold settle
  split
  · rfl
  · refine Records.countP_modifyFirst fun thread _ => ?_
    simp only [waitsForPump, worker_compensated]
    unfold compensated
    split <;> rfl

theorem PumpStage.credit_settle (hunique : (threads.map (·.debuggerId)).Nodup) (census : Census)
    (job : GuestWorkqueueJob) :
    counting.credit (settle census threads) ≤ (settling census job).credit threads := by
  unfold credit
  rw [waitsForPump_settle]
  refine Nat.add_le_add_right ?_ _
  simp only [found, reserve]
  unfold settle
  split
  · rename_i hzero
    rw [hzero]
  · exact countP_due_updateThread hunique

/-! ## The potential -/

def totalUnits (requests : List GuestWorkqueueRequest) : ℕ :=
  (requests.map (·.remaining.toNat)).sum

/-- The work that the pump may start workers for. -/
def Config.work (c : Config) : ℕ :=
  c.pendingJobs.length + totalUnits c.requests + c.sources.ready

/-- How far the stage is from the end of its round. -/
def PumpStage.rank : PumpStage → ℕ
  | .restoring _ => 0
  | .choosing _ => 2
  | .counting => 3
  | .settling _ _ => 5
  | .creating _ _ _ => 6
  | .starting _ _ => 7

/-- A bound on the steps that the running pump has left, if no work is added. -/
def Config.potential (c : Config) : ℕ :=
  match c.pump with
  | none => 0
  | some ⟨.restoring _, _⟩ => 1
  | some ⟨stage, _⟩ => 6 * (c.work + stage.credit c.threads) + stage.rank

/-- The reports of waiting messages that were taken. -/
def Config.reports (c : Config) : ℕ := c.taken.countP (·.job.delivery.report)

/-- The work that a step adds: units of a request, events that become ready, and messages that are
    reported. -/
def newWork (c : Config) : Event → ℕ
  | .requestThreads count _ => count.toNat
  | .changeSources sources => sources.ready - c.sources.ready
  | .advance succeeds => (step c (.advance succeeds)).reports - c.reports
  | _ => 0

def Event.isAdvance : Event → Bool
  | .advance _ => true
  | _ => false

theorem totalUnits_dropWhile (requests : List GuestWorkqueueRequest) :
    totalUnits (requests.dropWhile (fun request => request.remaining ≤ 0))
      = totalUnits requests := by
  induction requests with
  | nil => rfl
  | cons request _ ih =>
    rw [dropWhile_cons]
    split
    · rename_i hempty
      have hzero : request.remaining.toNat = 0 := Int.toNat_of_nonpos (by simpa using hempty)
      rw [ih]
      simp [totalUnits, hzero]
    · rfl

theorem totalUnits_takeUnit {request : GuestWorkqueueRequest} (rest : List GuestWorkqueueRequest)
    (hremaining : 0 < request.remaining) :
    totalUnits (takeUnit request rest) + 1 = totalUnits (request :: rest) := by
  unfold takeUnit
  split
  all_goals
    simp only [totalUnits, map_cons, sum_cons]
    omega

/-- A chosen job uses up work, or the compensation that the census found, or it is a report. -/
theorem work_of_chooses {census : Census} {chosen : ChosenJob}
    (h : Chooses c census (some chosen) c') :
    c'.work + (starting census chosen).reserve + 1
      ≤ c.work + (choosing census).reserve + (c'.reports - c.reports) := by
  have hready := nextGuestWorkqueueEvent_ready c.sources census.allowEventManager
    census.allowOrdinary
  generalize hsome : some chosen = found at h
  cases h with
  | pending hpending =>
    simp only [work, hpending, length_append, length_cons, reserve]
    split <;> simp_all <;> omega
  | @request request rest _ _ hrequests =>
    have hunits := totalUnits_takeUnit rest (pos_of_dropWhile hrequests)
    rw [← hrequests, totalUnits_dropWhile] at hunits
    simp only [work, reserve]
    split <;> simp_all <;> omega
  | @event delivery sources _ hnext =>
    cases hsome
    rw [hnext] at hready
    have hreserve : (starting census ⟨deliveryJob c.eventManagerPriority delivery
        c.taken.length, true⟩).reserve = (choosing census).reserve := by
      simp only [reserve]
      split <;> simp_all
    rw [hreserve]
    simp only [work, totalUnits_dropWhile, reports, countP_append, countP_singleton, deliveryJob]
    simp only [consumes] at hready
    cases hreport : delivery.report <;> simp [hreport] at hready ⊢ <;> omega
  | compensation hnext hcompensates =>
    cases hsome
    rw [hnext] at hready
    simp only [Census.compensates, Bool.and_eq_true, bne_iff_ne] at hcompensates
    simp only [consumes, Nat.add_zero] at hready
    simp only [work, totalUnits_dropWhile, hready, reserve]
    simp [hcompensates.2]
  | nothing => simp at hsome

/-- A step outside the pump. -/
theorem potential_le (c : Config) (added : ℕ) (h : WorkersBounded c') (hpump : c'.pump = c.pump)
    (hdue : NoMoreDue c.threads c'.threads) (hwork : c'.work ≤ c.work + added) :
    c'.potential ≤ c.potential + 6 * added := by
  unfold potential
  rw [hpump]
  split
  · exact Nat.zero_le _
  · exact Nat.le_add_right _ _
  · rename_i stage _ _ _
    have hcredit := stage.credit_le h hdue
    omega

@[simp] theorem potential_leave (c : Config) (startFailed : Bool) :
    (c.leave startFailed).potential = 0 := by
  rw [potential, pump_leave]

theorem potential_startFailed (hpump : c.pump.isSome) (chosen : ChosenJob) :
    (c.startFailed chosen).potential ≤ 1 := by
  obtain ⟨pump, hpump⟩ := isSome_iff_exists.1 hpump
  unfold startFailed
  split
  · simp [potential, goto, hpump]
  · simp

/-- Every step of the pump brings it closer to its end. -/
theorem potential_advance (hworkers : WorkersBounded c) (hregistry : RegistryOk c) {pump : Pump}
    (hpump : c.pump = some pump) (succeeds : Bool) :
    (c.advance succeeds pump.stage).potential + 1
      ≤ c.potential + 6 * ((c.advance succeeds pump.stage).reports - c.reports) := by
  have hnow := hworkers.advance hpump succeeds
  obtain ⟨stage, startedWorker⟩ := pump
  cases stage with
  | counting =>
    simp only [advance]
    split
    · rw [potential_leave]
      simp only [potential, hpump, rank]
      omega
    · have hcredit := credit_choosing c.threads
      simp only [potential, goto, hpump, map_some, rank, work] at hcredit ⊢
      omega
  | choosing census =>
    simp only [advance]
    split
    · rw [potential_leave]
      simp only [potential, hpump, rank]
      omega
    · have hchooses := chooseJob_chooses c census
      split
      · rw [potential_leave]
        simp only [potential, hpump, rank]
        omega
      · rename_i chosen c' heq
        replace hchooses : Chooses c census (some chosen) c' := by
          rw [heq] at hchooses
          exact hchooses
        have hwork := work_of_chooses hchooses
        obtain ⟨hthreads, hpump'⟩ := WorkersBounded.threads_of_chooses hchooses
        have hpotential : (c'.goto (.starting census chosen)).potential
            = 6 * (c'.work + (starting census chosen).credit c.threads) + 7 := by
          simp only [potential, goto, hpump', hpump, hthreads, map_some]
          rfl
        have hreports : (c'.goto (.starting census chosen)).reports = c'.reports := rfl
        rw [hpotential, hreports]
        simp only [potential, hpump, credit, found, rank]
        omega
  | starting census chosen =>
    simp only [advance] at hnow ⊢
    split
    · have hle := potential_startFailed (c := { c with nextDebuggerId := c.nextDebuggerId + 1 })
        (by simp [hpump]) chosen
      simp only [potential, hpump, rank] at hle ⊢
      omega
    · rename_i hsucceeds
      rw [if_neg hsucceeds] at hnow
      have hdue : NoMoreDue c.threads (c.threads ++ [workerThread c.nextDebuggerId chosen.job]) :=
        noMoreDue_append (by simp [due, workerThread])
          (by simp [waitsForPump, workerThread])
      have hcredit := (creating census chosen c.nextDebuggerId).credit_le hnow hdue
      have hsame : (creating census chosen c.nextDebuggerId).credit c.threads
        = (starting census chosen).credit c.threads := rfl
      simp only [potential, goto, hpump, map_some, rank, work] at hcredit ⊢
      omega
  | creating census chosen debuggerId =>
    simp only [advance] at hnow ⊢
    split
    · have hle := potential_startFailed
        (c := { c with
          threads := c.threads.filter (fun thread => thread.debuggerId != debuggerId) })
        (by simp [hpump]) chosen
      simp only [potential, hpump, rank] at hle ⊢
      omega
    · rename_i hsucceeds
      rw [if_neg hsucceeds] at hnow
      have hdue : NoMoreDue c.threads (updateThread debuggerId .allowStart
          (if chosen.job.eventManager then c.threads else relieve c.threads)) := by
        refine NoMoreDue.trans ?_ (noMoreDue_allowStart debuggerId _)
        split
        · exact .refl c.threads
        · exact noMoreDue_relieve c.threads
      have hcredit := (settling census chosen.job).credit_le hnow hdue
      have hreserve : (settling census chosen.job).credit c.threads
          ≤ (creating census chosen debuggerId).credit c.threads := by
        simp only [credit, found]
        have hzero : (settling census chosen.job).reserve = 0 := rfl
        omega
      simp only [potential, hpump, rank, work] at hcredit ⊢
      omega
  | restoring =>
    have hpotential : c.potential = 1 := by simp only [potential, hpump]
    rw [hpotential, advance, potential_leave]
    omega
  | settling census job =>
    have hcredit := credit_settle hregistry.unique census job
    simp only [advance, potential, goto, hpump, map_some, rank, work] at hcredit ⊢
    omega

/-- **A running pump comes to its end**: its steps use up the potential, which only new work
    raises. -/
theorem potential_step (hworkers : WorkersBounded c) (hregistry : RegistryOk c)
    (hbusy : c.pump.isSome) (event : Event) :
    (step c event).potential + (if event.isAdvance then 1 else 0)
      ≤ c.potential + 6 * newWork c event := by
  have hnow := hworkers.step event
  cases event with
  | openWorkqueue | setEventManagerPriority =>
    exact potential_le c 0 hnow rfl (NoMoreDue.refl c.threads) (le_refl _)
  | requestThreads count =>
    simp only [step] at hnow ⊢
    split
    · exact Nat.le_add_right _ _
    · rename_i haccepted
      rw [if_neg haccepted] at hnow
      refine potential_le c count.toNat hnow rfl (NoMoreDue.refl c.threads) ?_
      simp only [work, totalUnits, map_append, sum_append, map_singleton, sum_singleton]
      omega
  | changeSources sources =>
    refine potential_le c (sources.ready - c.sources.ready) hnow rfl (NoMoreDue.refl c.threads) ?_
    simp only [work, step]
    omega
  | createThread =>
    exact potential_le c 0 hnow rfl (noMoreDue_append rfl rfl) (le_refl _)
  | exitThread =>
    exact potential_le c 0 hnow rfl (noMoreDue_updateThread fun thread _ => exited_due thread)
      (le_refl _)
  | hostBlockEnter =>
    exact potential_le c 0 hnow rfl (noMoreDue_updateThread fun thread hthread =>
      hostBlockEnter_due (hregistry.pumping thread hthread)) (le_refl _)
  | hostBlockExit =>
    exact potential_le c 0 hnow rfl
      (noMoreDue_updateThread fun thread _ => hostBlockExit_due thread)
      (le_refl _)
  | pump =>
    simp only [step, hbusy, if_true]
    exact Nat.le_add_right _ _
  | advance succeeds =>
    obtain ⟨pump, hpump⟩ := isSome_iff_exists.1 hbusy
    have hadvance := potential_advance hworkers hregistry hpump succeeds
    simp only [newWork, step, hpump, Event.isAdvance, if_true]
    exact hadvance

/-! ## The guarantees of the pump -/

/-- What holds throughout every run. -/
structure PumpInvariant (c : Config) : Prop where
  placed : JobsPlaced c
  units : UnitsConserved c
  workers : WorkersBounded c
  registry : RegistryOk c

theorem PumpInvariant.step (h : PumpInvariant c) (event : Event) : PumpInvariant (step c event) :=
  ⟨h.placed.step event, h.units.step event, h.workers.step event, h.registry.step event⟩

theorem run_invariant (events : List Event) : PumpInvariant (run {} events) :=
  Execution.run_invariant (fun _ event h => h.step event)
    ⟨.initial, fun _ => rfl, .initial, .initial⟩ events

/-- A worker that cannot be started at first: its job waits and is started by the next pump. -/
example :
    let c := run {} [.openWorkqueue, .requestThreads 1 0x4000, .pump, .advance true, .advance true,
      .advance false, .advance true, .pump, .advance true, .advance true, .advance true,
      .advance true, .advance true, .advance true, .advance true]
    c.started.map (·.job.ticket) = [some 0] ∧ c.pendingJobs = [] ∧ c.pump = none
      ∧ c.returns = [⟨.none, true⟩, ⟨.nativeWorkerStarted, false⟩] := by
  decide

end LiveExec32.Workqueue
