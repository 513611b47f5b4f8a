import LiveExec32.Workqueue.Workers
import Mathlib.Data.List.GetD
import Mathlib.Data.List.Nodup

/-! # Workqueue work is neither lost nor duplicated

A unit of a request, or an event, is in its source until the pump takes it. From then on it is a
job, and `JobsPlaced` says where: the jobs taken from the sources are, class by class and in the
order in which they were taken, the jobs that workers were started for, then the job in the pump's
hands, then the jobs that wait for another attempt. The pump only takes new work of a class when no
job of that class waits, which is why a failed start never lets a later job overtake. -/

namespace LiveExec32.Workqueue

open List Config PumpStage

/-! ## Where a job is -/

/-- The job that the pump has taken and will put back if the start fails. -/
def PumpStage.hand : PumpStage → List GuestWorkqueueJob
  | .starting _ chosen | .creating _ chosen _ =>
    if chosen.retryJobOnFailure then [chosen.job] else []
  | .restoring job => [job]
  | _ => []

def Config.hand (c : Config) : List GuestWorkqueueJob := c.pump.elim [] (·.stage.hand)

/-- The jobs that were taken and not started yet. -/
def Config.waiting (c : Config) : List GuestWorkqueueJob := c.hand ++ c.pendingJobs

/-- The jobs that workers were started for. A job made up for compensation was not taken from any
    source and has no ticket. -/
def Config.startedJobs (c : Config) : List GuestWorkqueueJob :=
  (c.started.map (·.job)).filter (·.ticket.isSome)

def ofClass (manager : Bool) (jobs : List GuestWorkqueueJob) : List GuestWorkqueueJob :=
  jobs.filter (·.eventManager == manager)

@[simp] theorem ofClass_append (manager : Bool) (jobs more : List GuestWorkqueueJob) :
    ofClass manager (jobs ++ more) = ofClass manager jobs ++ ofClass manager more :=
  filter_append _ _

/-- Only a job made up for compensation is dropped when its start fails. -/
def StageChosen : Option Pump → Prop
  | some ⟨.starting _ chosen, _⟩ | some ⟨.creating _ chosen _, _⟩ =>
    chosen.retryJobOnFailure = chosen.job.ticket.isSome
  | _ => True

structure JobsPlaced (c : Config) : Prop where
  order : ∀ manager, ofClass manager (c.taken.map (·.job))
    = ofClass manager c.startedJobs ++ ofClass manager c.waiting
  tickets : c.taken.map (·.job.ticket) = (List.range c.taken.length).map some
  chosen : StageChosen c.pump

/-! ## Choosing a job -/

variable {census : Census} {job : GuestWorkqueueJob}

/-- When a job of a class is eligible, the jobs that are not belong to the other class. -/
theorem ofClass_ineligible {jobs : List GuestWorkqueueJob} (heligible : census.eligible job)
    (hjobs : ∀ other ∈ jobs, census.eligible other = false) :
    ofClass job.eventManager jobs = [] := by
  refine filter_eq_nil_iff.2 fun other hother hclass => ?_
  have hsame : census.eligible other = census.eligible job := by
    unfold Census.eligible
    rw [beq_iff_eq.1 hclass]
  rw [hjobs other hother, heligible] at hsame
  simp at hsame

/-- Taking the first eligible job out of a queue keeps the order within each class. -/
theorem ofClass_moveFirst {before after : List GuestWorkqueueJob}
    (heligible : census.eligible job) (hbefore : ∀ other ∈ before, census.eligible other = false)
    (manager : Bool) :
    ofClass manager ([job] ++ (before ++ after)) = ofClass manager (before ++ job :: after) := by
  by_cases hclass : job.eventManager = manager
  · subst hclass
    have hnone := ofClass_ineligible heligible hbefore
    rw [ofClass_append, ofClass_append, hnone, ofClass_append, hnone]
    simp [ofClass]
  · have hother : (job.eventManager == manager) = false := by simpa using hclass
    simp [ofClass, hother]

namespace JobsPlaced

variable {c c' : Config}

theorem initial : JobsPlaced {} := ⟨fun _ => rfl, rfl, trivial⟩

/-- Moves that leave every job in its place. -/
theorem of_eq (h : JobsPlaced c) (htaken : c'.taken = c.taken) (hstarted : c'.started = c.started)
    (hwaiting : c'.waiting = c.waiting) (hchosen : StageChosen c'.pump) : JobsPlaced c' := by
  refine ⟨fun manager => ?_, ?_, hchosen⟩
  · rw [htaken, hwaiting, startedJobs, hstarted]
    exact h.order manager
  · rw [htaken]
    exact h.tickets

/-- Every waiting job was taken. -/
theorem mem_taken (h : JobsPlaced c) (hjob : job ∈ c.waiting) : job ∈ c.taken.map (·.job) := by
  have hclass : job ∈ ofClass job.eventManager (c.taken.map (·.job)) := by
    rw [h.order]
    exact mem_append_right _ (mem_filter.2 ⟨hjob, beq_self_eq_true _⟩)
  exact (mem_filter.1 hclass).1

theorem ticket_isSome (h : JobsPlaced c) (hjob : job ∈ c.waiting) : job.ticket.isSome := by
  obtain ⟨taken, htaken, rfl⟩ := mem_map.1 (h.mem_taken hjob)
  have hticket : taken.job.ticket ∈ c.taken.map (·.job.ticket) := mem_map_of_mem htaken
  rw [h.tickets] at hticket
  obtain ⟨ticket, -, heq⟩ := mem_map.1 hticket
  rw [← heq]
  rfl

/-- A job of an eligible class is taken from its source and put into the pump's hands. -/
theorem take (h : JobsPlaced c) {request : Option ℕ} (hticket : job.ticket = some c.taken.length)
    (heligible : census.eligible job)
    (hpending : ∀ other ∈ c.pendingJobs, census.eligible other = false) (hhand : c.hand = [])
    (htaken : c'.taken = c.taken ++ [⟨job, request⟩]) (hstarted : c'.started = c.started)
    (hwaiting : c'.waiting = job :: c.pendingJobs) (hchosen : StageChosen c'.pump) :
    JobsPlaced c' := by
  refine ⟨fun manager => ?_, ?_, hchosen⟩
  · have horder := h.order manager
    rw [waiting, hhand, nil_append] at horder
    have hsame : c'.startedJobs = c.startedJobs := by unfold startedJobs; rw [hstarted]
    rw [htaken, map_append, ofClass_append, horder, hwaiting, hsame, append_assoc]
    by_cases hclass : job.eventManager = manager
    · subst hclass
      have hnone := ofClass_ineligible heligible hpending
      rw [hnone]
      simp [ofClass] at hnone ⊢
      exact hnone
    · have hother : (job.eventManager == manager) = false := by simpa using hclass
      simp [ofClass, hother]
  · rw [htaken, map_append, h.tickets, length_append, length_singleton, range_succ, map_append]
    simp [hticket]

/-- What the pump does at a stop where it holds no job. -/
theorem empty_handed (h : JobsPlaced c) (hhand : c.hand = []) (htaken : c'.taken = c.taken)
    (hstarted : c'.started = c.started) (hpending : c'.pendingJobs = c.pendingJobs)
    (hhand' : c'.hand = []) (hchosen : StageChosen c'.pump) : JobsPlaced c' :=
  h.of_eq htaken hstarted (by rw [waiting, waiting, hhand, hhand', hpending]) hchosen

theorem leave (h : JobsPlaced c) (hhand : c.hand = []) (startFailed : Bool) :
    JobsPlaced (c.leave startFailed) := by
  have hpump := pump_leave c startFailed
  refine h.empty_handed hhand ?_ ?_ ?_ (by rw [Config.hand, hpump]; rfl) (by rw [hpump]; trivial)
  all_goals
    unfold Config.leave
    split <;> rfl

variable {chosen : ChosenJob}

theorem startFailed (h : JobsPlaced c) (hpump : c.pump.isSome)
    (hhand : c.hand = if chosen.retryJobOnFailure then [chosen.job] else []) :
    JobsPlaced (c.startFailed chosen) := by
  unfold Config.startFailed
  obtain ⟨pump, hpump⟩ := Option.isSome_iff_exists.1 hpump
  split
  · rename_i hretry
    rw [if_pos hretry] at hhand
    refine h.of_eq rfl rfl ?_ ?_
    · rw [Config.waiting, Config.waiting, hhand]
      simp [Config.hand, Config.goto, hpump, PumpStage.hand]
    · simp [goto, hpump, StageChosen]
  · rename_i hretry
    rw [if_neg hretry] at hhand
    exact h.leave hhand true

theorem choose (h : JobsPlaced c) {startedWorker : Bool}
    (hpump : c.pump = some ⟨.choosing census, startedWorker⟩)
    (hchooses : Chooses c census (some chosen) c') :
    JobsPlaced (c'.goto (.starting census chosen)) := by
  have hhand : c.hand = [] := by rw [Config.hand, hpump]; rfl
  have heligible := WorkersBounded.eligible_of_chooses hchooses
  generalize hsome : some chosen = found at hchooses
  cases hchooses with
  | @pending before after job hpending _ hbefore =>
    cases hsome
    have hwaiting : c.waiting = before ++ job :: after := by
      rw [waiting, hhand, hpending, nil_append]
    refine ⟨fun manager => ?_, h.tickets, ?_⟩
    · have horder := h.order manager
      rw [hwaiting, ← ofClass_moveFirst heligible hbefore] at horder
      simpa [Config.goto, hpump, Config.waiting, Config.hand, PumpStage.hand, Config.startedJobs]
        using horder
    · simp only [goto, hpump, Option.map_some, StageChosen]
      exact (h.ticket_isSome (by rw [hwaiting]; simp)).symm
  | @request request rest hpending =>
    cases hsome
    refine h.take rfl heligible hpending hhand rfl rfl ?_ ?_
    · simp [Config.goto, hpump, Config.waiting, Config.hand, PumpStage.hand]
    · simp [goto, hpump, StageChosen, requestJob]
  | @event delivery sources hpending =>
    cases hsome
    refine h.take rfl heligible hpending hhand rfl rfl ?_ ?_
    · simp [Config.goto, hpump, Config.waiting, Config.hand, PumpStage.hand]
    · simp [goto, hpump, StageChosen, deliveryJob]
  | compensation =>
    cases hsome
    refine h.empty_handed hhand rfl rfl rfl ?_ ?_
    · simp [Config.goto, hpump, Config.hand, PumpStage.hand]
    · simp [goto, hpump, StageChosen]
  | nothing => simp at hsome

theorem advance (h : JobsPlaced c) {pump : Pump} (hpump : c.pump = some pump) (succeeds : Bool) :
    JobsPlaced (c.advance succeeds pump.stage) := by
  have hchosen := h.chosen
  have hhand : c.hand = pump.stage.hand := by rw [Config.hand, hpump]; rfl
  obtain ⟨stage, startedWorker⟩ := pump
  rw [hpump] at hchosen
  cases stage with
  | counting =>
    simp only [Config.advance]
    split
    · exact h.leave hhand false
    · refine h.empty_handed hhand rfl rfl rfl ?_ ?_
      · simp [Config.hand, Config.goto, hpump, PumpStage.hand]
      · simp [goto, hpump, StageChosen]
  | choosing census =>
    simp only [Config.advance]
    split
    · exact h.leave hhand false
    · have hchooses := chooseJob_chooses c census
      split
      · rename_i c' heq
        rw [heq] at hchooses
        cases hchooses with
        | @nothing sources =>
          have hsame : JobsPlaced
              { c with
                requests := c.requests.dropWhile (fun request => request.remaining ≤ 0)
                sources } := h.of_eq rfl rfl rfl h.chosen
          exact hsame.leave hhand false
      · rename_i chosen c' heq
        rw [heq] at hchooses
        exact h.choose hpump hchooses
  | starting _ chosen =>
    simp only [Config.advance]
    split
    · exact JobsPlaced.startFailed (c := { c with nextDebuggerId := c.nextDebuggerId + 1 })
        (h.of_eq rfl rfl rfl h.chosen) (by simp [hpump]) hhand
    · refine h.of_eq rfl rfl ?_ ?_
      · simp [Config.waiting, Config.hand, Config.goto, hpump, PumpStage.hand]
      · simpa [goto, hpump, StageChosen] using hchosen
  | creating census chosen debuggerId =>
    simp only [Config.advance]
    split
    · exact JobsPlaced.startFailed
        (c := { c with
          threads := c.threads.filter (fun thread => thread.debuggerId != debuggerId) })
        (h.of_eq rfl rfl rfl h.chosen) (by simp [hpump]) hhand
    · -- the job moves from the pump's hands to the started ones
      refine ⟨fun manager => ?_, h.tickets, trivial⟩
      have horder := h.order manager
      rw [waiting, hhand, ofClass_append, ← append_assoc] at horder
      have hstarted : ofClass manager c.startedJobs ++ ofClass manager
          (creating census chosen debuggerId).hand
          = ofClass manager (((c.started ++ [⟨debuggerId, chosen.job⟩] :
            List StartedWorker).map (·.job)).filter (·.ticket.isSome)) := by
        rw [map_append, filter_append, ofClass_append, PumpStage.hand, hchosen,
          startedJobs, map_singleton, filter_singleton, Bool.cond_eq_ite]
      rw [hstarted] at horder
      exact horder
  | restoring =>
    refine h.of_eq ?_ ?_ ?_ ?_
    · simp [Config.advance, Config.leave, hpump]
    · simp [Config.advance, Config.leave, hpump]
    · rw [Config.waiting, Config.waiting, hhand]
      simp [Config.advance, Config.leave, hpump, Config.hand, PumpStage.hand]
    · simp [Config.advance, Config.leave, hpump, StageChosen]
  | settling =>
    refine h.empty_handed hhand rfl rfl rfl ?_ ?_
    · simp [Config.advance, Config.hand, Config.goto, hpump, PumpStage.hand]
    · simp [Config.advance, Config.goto, hpump, StageChosen]

theorem step (h : JobsPlaced c) (event : Event) : JobsPlaced (step c event) := by
  cases event with
  | openWorkqueue | setEventManagerPriority | changeSources | createThread | exitThread
  | hostBlockEnter | hostBlockExit => exact h.of_eq rfl rfl rfl h.chosen
  | requestThreads =>
    simp only [Workqueue.step]
    split
    · exact h
    · exact h.of_eq rfl rfl rfl h.chosen
  | pump =>
    simp only [Workqueue.step]
    split
    · exact h
    · rename_i hidle
      have hidle : c.pump = none := by simpa using hidle
      exact h.empty_handed (by rw [Config.hand, hidle]; rfl) rfl rfl rfl rfl trivial
  | advance succeeds =>
    simp only [Workqueue.step]
    split
    · exact h
    · next pump hpump => exact h.advance hpump succeeds

end JobsPlaced

/-- Exactly one of the places holds the job with a given ticket. -/
theorem JobsPlaced.count_ticket {c : Config} (h : JobsPlaced c) {ticket : ℕ}
    (hticket : ticket < c.taken.length) :
    c.startedJobs.countP (·.ticket == some ticket) + c.hand.countP (·.ticket == some ticket)
      + c.pendingJobs.countP (·.ticket == some ticket) = 1 := by
  -- both classes together are all the jobs
  have hsplit : ∀ jobs : List GuestWorkqueueJob, jobs.countP (·.ticket == some ticket)
      = (ofClass true jobs).countP (·.ticket == some ticket)
        + (ofClass false jobs).countP (·.ticket == some ticket) := fun jobs => by
    induction jobs with
    | nil => rfl
    | cons job _ ih =>
      cases hclass : job.eventManager <;>
        simp only [ofClass, filter_cons, hclass, countP_cons] at ih ⊢ <;>
        simp only [beq_self_eq_true, if_true, Bool.false_eq_true, if_false, countP_cons,
          Bool.true_eq_false, beq_iff_eq] at ih ⊢ <;> omega
  have htaken : (c.taken.map (·.job)).countP (·.ticket == some ticket) = 1 := by
    have hcount : (c.taken.map (·.job.ticket)).count (some ticket) = 1 := by
      rw [h.tickets]
      exact count_eq_one_of_mem
        (nodup_range.map (fun _ _ => Option.some.inj)) (by simpa using hticket)
    rw [count, countP_map] at hcount
    rw [countP_map]
    exact hcount
  have htrue := congrArg (countP (·.ticket == some ticket)) (h.order true)
  have hfalse := congrArg (countP (·.ticket == some ticket)) (h.order false)
  rw [waiting, ofClass_append, countP_append, countP_append] at htrue hfalse
  rw [hsplit] at htaken
  rw [hsplit c.startedJobs, hsplit c.hand, hsplit c.pendingJobs]
  omega

/-! ## Sources -/

/-- The fields that hold the work which was not taken, with the record of what was. -/
structure SameSources (c c' : Config) : Prop where
  requests : c'.requests = c.requests
  requested : c'.requested = c.requested
  sources : c'.sources = c.sources
  taken : c'.taken = c.taken

theorem SameSources.leave (c : Config) (startFailed : Bool) :
    SameSources c (c.leave startFailed) := by
  unfold Config.leave
  split <;> exact ⟨rfl, rfl, rfl, rfl⟩

theorem SameSources.startFailed (c : Config) (chosen : ChosenJob) :
    SameSources c (c.startFailed chosen) := by
  unfold Config.startFailed
  split
  · exact ⟨rfl, rfl, rfl, rfl⟩
  · exact .leave c true

theorem SameSources.trans {c c' c'' : Config} (h : SameSources c c') (h' : SameSources c' c'') :
    SameSources c c'' :=
  ⟨h'.requests.trans h.requests, h'.requested.trans h.requested, h'.sources.trans h.sources,
    h'.taken.trans h.taken⟩

/-- The pump takes work from the sources only where it chooses a job. -/
theorem advance_sources (c : Config) (succeeds : Bool) (stage : PumpStage) :
    SameSources c (c.advance succeeds stage)
    ∨ ∃ census found c', stage = .choosing census ∧ Chooses c census found c'
      ∧ SameSources c' (c.advance succeeds stage) := by
  cases stage with
  | counting =>
    simp only [advance]
    split
    · exact .inl (.leave c false)
    · exact .inl ⟨rfl, rfl, rfl, rfl⟩
  | choosing census =>
    have hchooses := chooseJob_chooses c census
    simp only [advance]
    split
    · exact .inl (.leave c false)
    · refine .inr ⟨census, _, _, rfl, hchooses, ?_⟩
      split
      · rename_i heq
        rw [heq]
        exact .leave _ false
      · rename_i heq
        rw [heq]
        exact ⟨rfl, rfl, rfl, rfl⟩
  | starting _ chosen =>
    simp only [advance]
    split
    · refine .inl (.trans ?_ (.startFailed _ chosen))
      exact ⟨rfl, rfl, rfl, rfl⟩
    · exact .inl ⟨rfl, rfl, rfl, rfl⟩
  | creating _ chosen =>
    simp only [advance]
    split
    · refine .inl (.trans ?_ (.startFailed _ chosen))
      exact ⟨rfl, rfl, rfl, rfl⟩
    · exact .inl ⟨rfl, rfl, rfl, rfl⟩
  | restoring =>
    refine .inl (.trans ?_ (.leave _ true))
    exact ⟨rfl, rfl, rfl, rfl⟩
  | settling => exact .inl ⟨rfl, rfl, rfl, rfl⟩

/-! ## Requested threads -/

/-- The units of request `number` that were not taken yet. -/
def requestUnits (number : ℕ) (requests : List GuestWorkqueueRequest) : ℕ :=
  (requests.map fun request => if request.number = number then request.remaining.toNat else 0).sum

/-- The units of request `number` that were taken. -/
def takenUnits (number : ℕ) (taken : List TakenJob) : ℕ :=
  taken.countP (·.request == some number)

theorem requestUnits_dropWhile (number : ℕ) (requests : List GuestWorkqueueRequest) :
    requestUnits number (requests.dropWhile (fun request => request.remaining ≤ 0))
      = requestUnits number requests := by
  induction requests with
  | nil => rfl
  | cons request _ ih =>
    rw [dropWhile_cons]
    split
    · rename_i hempty
      have hzero : request.remaining.toNat = 0 := Int.toNat_of_nonpos (by simpa using hempty)
      rw [ih]
      simp [requestUnits, hzero]
    · rfl

theorem requestUnits_takeUnit (number : ℕ) (request : GuestWorkqueueRequest)
    (rest : List GuestWorkqueueRequest) (hremaining : 0 < request.remaining) :
    requestUnits number (takeUnit request rest) + (if request.number = number then 1 else 0)
      = requestUnits number (request :: rest) := by
  unfold takeUnit
  split
  · have hone : request.remaining.toNat = 1 := by omega
    simp only [requestUnits, map_cons, sum_cons, hone]
    omega
  · simp only [requestUnits, map_cons, sum_cons]
    split
    · omega
    · rfl

theorem pos_of_dropWhile {requests rest : List GuestWorkqueueRequest}
    {request : GuestWorkqueueRequest}
    (h : requests.dropWhile (fun request => request.remaining ≤ 0) = request :: rest) :
    0 < request.remaining := by
  have hhead := head?_dropWhile_not (fun request : GuestWorkqueueRequest =>
    decide (request.remaining ≤ 0)) requests
  rw [h] at hhead
  simpa using hhead

/-- **Every unit of a request is still requested, or was taken.** -/
def UnitsConserved (c : Config) : Prop :=
  ∀ number, requestUnits number c.requests + takenUnits number c.taken
    = c.requested.getD number 0

namespace UnitsConserved

variable {c c' : Config}

theorem of_same (h : UnitsConserved c) (hsame : SameSources c c') : UnitsConserved c' := by
  unfold UnitsConserved
  rw [hsame.requests, hsame.requested, hsame.taken]
  exact h

theorem choose (h : UnitsConserved c) {found : Option ChosenJob}
    (hchooses : Chooses c census found c') : UnitsConserved c' := by
  intro number
  have hunits := h number
  cases hchooses with
  | pending => exact hunits
  | @request request rest _ _ hrequests =>
    have htake := requestUnits_takeUnit number request rest (pos_of_dropWhile hrequests)
    rw [← hrequests, requestUnits_dropWhile] at htake
    simp only [takenUnits, countP_append, countP_singleton] at hunits ⊢
    have hone : (if (some request.number == some number) = true then 1 else 0)
        = if request.number = number then 1 else 0 := by simp
    omega
  | event =>
    simp only [requestUnits_dropWhile, takenUnits, countP_append, countP_singleton]
      at hunits ⊢
    simpa using hunits
  | compensation | nothing =>
    rw [requestUnits_dropWhile]
    exact hunits

theorem step (h : UnitsConserved c) (event : Event) : UnitsConserved (step c event) := by
  cases event with
  | openWorkqueue | setEventManagerPriority | changeSources | createThread | exitThread
  | hostBlockEnter | hostBlockExit => exact h
  | requestThreads =>
    simp only [Workqueue.step]
    split
    · exact h
    · intro number
      have hunits := h number
      simp only [requestUnits, map_append, sum_append, map_singleton, sum_singleton] at hunits ⊢
      rcases lt_trichotomy number c.requested.length with hlt | rfl | hgt
      · rw [getD_append _ _ _ _ hlt, if_neg (by omega)]
        exact hunits
      · rw [getD_append_right _ _ _ _ (le_refl _), if_pos rfl]
        rw [getD_eq_default _ _ (le_refl _)] at hunits
        simp only [Nat.sub_self, getD_cons_zero]
        omega
      · rw [getD_eq_default _ _ (by simp; omega), if_neg (by omega)]
        rw [getD_eq_default _ _ (by omega)] at hunits
        exact hunits
  | pump =>
    simp only [Workqueue.step]
    split <;> exact h
  | advance succeeds =>
    simp only [Workqueue.step]
    split
    · exact h
    · rename_i pump hpump
      rcases advance_sources c succeeds pump.stage with
        hsame | ⟨census, found, c', -, hchooses, hsame⟩
      · exact h.of_same hsame
      · exact (h.choose hchooses).of_same hsame

end UnitsConserved

/-! ## Events -/

/-- A registration that a scan passes is as before, or disabled because its port fails. -/
def Passed (ports : MachPorts) (registered registered' : GuestWorkqueueKevent) : Prop :=
  registered' = registered
    ∨ registered.fails ports = true ∧ registered' = { registered with enabled := false }

/-- Nothing was taken from the sources. -/
def Untouched (sources sources' : EventSources) : Prop :=
  ∃ kevents, Forall₂ (Passed sources.ports) sources.kevents kevents
    ∧ sources' = { sources with kevents }

/-- The bytes are those of the message: all of its header and body, and if the kernel copied it out
    with its trailer behind the rounded body, all that the kernel copied out. -/
def MachMessage.Carried (message : MachMessage) (bytes : List (BitVec 8)) : Prop :=
  message.contents.take message.size <+: bytes
    ∧ (message.contents.length = (message.size + 3) / 4 * 4 + message.trailerSize →
      8 ≤ message.trailerSize → bytes = message.contents)

/-- What is left of a port registration that delivered, and of those behind it. -/
def GuestWorkqueueKevent.left (registered : GuestWorkqueueKevent)
    (after : List GuestWorkqueueKevent) : List GuestWorkqueueKevent :=
  if hasAny registered.event.flags evOneShot then after else registered.dispatched :: after

/-- The one thing that is taken from the sources is what the delivery says: a pending timer, the
    trigger of a user event, or the first message of a port; or nothing, when it reports a message.
    -/
inductive TakesEvent (sources : EventSources) (delivery : GuestWorkqueueDelivery) :
    EventSources → Prop where
  | timer {queue : TimerQueue} {timer : Timer} (hqueue : sources.timerQueue = some queue)
      (hmem : timer ∈ queue.timers.entries) (hpending : timer.pending = true)
      (hevent : delivery.event = TimerQueue.takenEvent timer) (hmessage : delivery.message = []) :
      TakesEvent sources delivery { sources with timerQueue := some (queue.taken timer) }
  | user {before before' after : List GuestWorkqueueKevent} {registered : GuestWorkqueueKevent}
      (hkevents : sources.kevents = before ++ registered :: after)
      (hpassed : Forall₂ (Passed sources.ports) before before')
      (hfilter : registered.event.filter = evfiltUser) (htriggered : registered.triggered = true)
      (hevent : delivery.event = { registered.event with fflags := noteTrigger })
      (hmessage : delivery.message = []) :
      TakesEvent sources delivery
        { sources with
          kevents := before' ++ { registered.dispatched with triggered := false } :: after }
  | message {before before' after : List GuestWorkqueueKevent}
      {registered : GuestWorkqueueKevent} {message : MachMessage}
      (hkevents : sources.kevents = before ++ registered :: after)
      (hpassed : Forall₂ (Passed sources.ports) before before')
      (hfront : sources.ports.front registered.event.port = some message)
      (hevent : delivery.event = { registered.event with
        fflags := machMsgSuccess
        data := 0
        flags := if hasAny registered.event.flags evOneShot then registered.event.flags ||| evDelete
          else registered.event.flags })
      (hmessage : message.Carried delivery.message) :
      TakesEvent sources delivery
        { sources with
          kevents := before' ++ registered.left after
          ports.queued :=
            sources.ports.queued.eraseP (fun entry => entry.1 == registered.event.port) }
  | report {before before' after : List GuestWorkqueueKevent}
      {registered : GuestWorkqueueKevent} {message : MachMessage}
      (hkevents : sources.kevents = before ++ registered :: after)
      (hpassed : Forall₂ (Passed sources.ports) before before')
      (hfront : sources.ports.front registered.event.port = some message)
      (hident : delivery.event.ident = registered.event.ident)
      (hmessage : delivery.message = []) :
      TakesEvent sources delivery { sources with kevents := before' ++ registered.left after }

theorem receivedBytes_carried (message : MachMessage)
    (hfits : message.contents.length ≤ guestWorkqueueMessageCapacity) :
    message.Carried (receivedBytes message) := by
  obtain ⟨-, hsize⟩ := message.hasHeader
  have hextent : message.size ≤ receivedExtent message := by
    simp only [receivedExtent]
    split <;> omega
  unfold MachMessage.Carried receivedBytes
  generalize replicate (guestWorkqueueMessageCapacity - message.contents.length) _ = padding
  refine ⟨?_, fun hlength htrailer => ?_⟩
  · have hbody : (message.contents ++ padding).take message.size
        = message.contents.take message.size := take_append_of_le_length hsize
    rw [← hbody]
    exact take_prefix_take_left hextent
  · have hwhole : receivedExtent message = message.contents.length := by
      rw [receivedExtent, if_pos ⟨by simp only [machMsgTrailerSize]; omega, by omega⟩, hlength]
    rw [hwhole, take_left]

variable {allowEventManager allowOrdinary : Bool} {ports ports' : MachPorts}
  {kevents kevents' : List GuestWorkqueueKevent} {found : Option GuestWorkqueueDelivery}
  {sources sources' : EventSources} {delivery : GuestWorkqueueDelivery}

theorem Scans.passed_of_none
    (h : Scans allowEventManager allowOrdinary ports kevents found kevents' ports')
    (hnone : found = none) : Forall₂ (Passed ports) kevents kevents' ∧ ports' = ports := by
  induction h with
  | nil => exact ⟨.nil, rfl⟩
  | skip _ _ ih => exact ⟨.cons (.inl rfl) (ih hnone).1, (ih hnone).2⟩
  | disable _ hfails _ ih => exact ⟨.cons (.inr ⟨hfails, rfl⟩) (ih hnone).1, (ih hnone).2⟩
  | user | oneShot | port => simp at hnone

theorem PortDelivers.takesEvent {registered : GuestWorkqueueKevent}
    {delivered : GuestWorkqueueDelivery} {before before' after : List GuestWorkqueueKevent}
    (h : PortDelivers registered.event sources.ports delivered ports')
    (hpassed : Forall₂ (Passed sources.ports) before before')
    (hkevents : sources.kevents = before ++ registered :: after)
    (hevent : delivery.event = { delivered.event with
      flags := if hasAny registered.event.flags evOneShot then delivered.event.flags ||| evDelete
        else delivered.event.flags })
    (hmessage : delivery.message = delivered.message) :
    TakesEvent sources delivery
      { sources with kevents := before' ++ registered.left after, ports := ports' } := by
  cases h with
  | reports message _ _ _ hfront _ _ _ hident hempty =>
    exact .report hkevents hpassed hfront (by rw [hevent, hident]) (hmessage.trans hempty)
  | receives message _ _ _ hfront hbytes _ _ htakes hsuccess =>
    have hfits : message.contents.length ≤ guestWorkqueueMessageCapacity := by
      simpa using (Bool.and_eq_true_iff.1 htakes).2
    refine .message hkevents hpassed hfront (by rw [hevent, hsuccess]) ?_
    rw [hmessage, hbytes]
    exact receivedBytes_carried message hfits

/-- A scan with a delivery takes it from the registration where it ends. -/
theorem Scans.takesEvent
    (h : Scans allowEventManager allowOrdinary sources.ports kevents found kevents' ports')
    (hfound : found = some delivery) {before before' : List GuestWorkqueueKevent}
    (hpassed : Forall₂ (Passed sources.ports) before before')
    (hkevents : sources.kevents = before ++ kevents) :
    TakesEvent sources delivery
      { sources with kevents := before' ++ kevents', ports := ports' } := by
  induction h generalizing before before' with
  | nil => simp at hfound
  | @skip registered _ _ _ _ _ _ ih =>
    have hmore := ih hfound (rel_append hpassed (.cons (.inl rfl) .nil))
      (hkevents.trans (append_cons before registered _))
    simpa using hmore
  | @disable registered _ _ _ _ _ hfails _ ih =>
    have hmore := ih hfound (rel_append hpassed (.cons (.inr ⟨hfails, rfl⟩) .nil))
      (hkevents.trans (append_cons before registered _))
    simpa using hmore
  | user _ _ hfilter htriggered =>
    cases hfound
    exact .user hkevents hpassed hfilter htriggered rfl rfl
  | @oneShot registered rest _ _ _ _ _ hport hflag =>
    cases hfound
    have hleft : registered.left rest = rest := if_pos hflag
    rw [← hleft]
    exact hport.takesEvent hpassed hkevents (by simp [hflag]) rfl
  | @port registered rest _ _ _ _ _ hport hflag =>
    cases hfound
    have hleft : registered.left rest = registered.dispatched :: rest := if_neg (by simp [hflag])
    rw [← hleft]
    exact hport.takesEvent hpassed hkevents (by simp [hflag]) rfl

/-- A search takes the event it delivers, and nothing when it delivers none. -/
theorem nextGuestWorkqueueEvent_takes
    (h : nextGuestWorkqueueEvent sources allowEventManager allowOrdinary = (found, sources')) :
    match found with
    | some delivery => TakesEvent sources delivery sources'
    | none => Untouched sources sources' := by
  rcases nextGuestWorkqueueEvent_cases sources allowEventManager allowOrdinary with
    ⟨queue, timer, htakes, heq⟩ | ⟨scanned, kevents, ports, -, hscan, heq⟩
  · obtain ⟨rfl, rfl⟩ := Prod.mk.inj (heq.symm.trans h)
    obtain ⟨hmem, hpending, -⟩ := TimerQueue.of_find?_takeable htakes.found
    exact .timer htakes.queue_eq hmem hpending rfl rfl
  · obtain ⟨rfl, rfl⟩ := Prod.mk.inj (heq.symm.trans h)
    cases scanned with
    | some => exact hscan.takesEvent rfl .nil rfl
    | none =>
      obtain ⟨hpassed, rfl⟩ := hscan.passed_of_none rfl
      exact ⟨kevents, hpassed, rfl⟩

theorem Untouched.refl (sources : EventSources) : Untouched sources sources :=
  ⟨sources.kevents, forall₂_same.2 fun _ _ => .inl rfl, rfl⟩

/-- **What a step of the pump takes.** It leaves the sources, and takes nothing or a unit of a
    request; or it takes an event, and the job that it makes of it carries that event. -/
theorem advance_takes (c : Config) (succeeds : Bool) (stage : PumpStage) :
    let c' := c.advance succeeds stage
    (Untouched c.sources c'.sources ∧ (c'.taken = c.taken
      ∨ ∃ request ∈ c.requests, c'.taken
        = c.taken ++ [⟨requestJob request c.taken.length, some request.number⟩]))
    ∨ ∃ job, c'.taken = c.taken ++ [⟨job, none⟩] ∧ job.hasDelivery = true
      ∧ TakesEvent c.sources job.delivery c'.sources := by
  intro c'
  rcases advance_sources c succeeds stage with hsame | ⟨census, found, chosen, -, hchooses, hsame⟩
  · exact .inl ⟨hsame.sources ▸ .refl c.sources, .inl hsame.taken⟩
  · rw [hsame.sources, hsame.taken]
    cases hchooses with
    | pending => exact .inl ⟨.refl c.sources, .inl rfl⟩
    | @request request rest _ _ hrequests =>
      have hmem : request ∈ c.requests :=
        (dropWhile_suffix _).subset (by rw [hrequests]; exact mem_cons_self)
      exact .inl ⟨.refl c.sources, .inr ⟨request, hmem, rfl⟩⟩
    | event _ hnext => exact .inr ⟨_, rfl, rfl, nextGuestWorkqueueEvent_takes hnext⟩
    | compensation hnext | nothing hnext =>
      exact .inl ⟨nextGuestWorkqueueEvent_takes hnext, .inl rfl⟩

end LiveExec32.Workqueue
