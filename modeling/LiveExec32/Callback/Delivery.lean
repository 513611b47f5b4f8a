import LiveExec32.Callback.Executor

/-! # Every callback is delivered once

A submitted job is queued, then active while the executor copies it out and runs it, and then over:
completed or cancelled. `Submit.consistent` says which flags and which places go with each of these
and with the caller's stage. The executor holds at most the active job, and only the thread that
registered itself as the executor holds it. Both are kept by every step. -/

namespace LiveExec32.Callback

open List GuestCallbackJob Executor Option Submit

/-- Where a job is: in the queue or the active slot, and in which of the ghosts. -/
structure Place where
  queued : Bool := false
  active : Bool := false
  submitted : Bool := false
  handed : Bool := false
  finished : Bool := false
deriving DecidableEq

namespace GuestCallbackJob

/-- The flags of a job before anything happened to it. -/
def untouched (job : GuestCallbackJob) : Bool := !job.delivered && !job.completed && !job.canceled

/-- The caller waits for the job, and it is in one of the places from which it comes to its end. -/
def live (job : GuestCallbackJob) (place : Place) : Bool :=
  (job.untouched && (place == { queued := true, submitted := true }
      || place == { active := true, submitted := true }))
    || (job.delivered && !job.completed && !job.canceled
      && place == { active := true, submitted := true, handed := true })

/-- The job is completed or cancelled. -/
def ended (job : GuestCallbackJob) (place : Place) : Bool :=
  (job.completed || job.canceled) && (!job.completed || job.delivered)
    && place == { submitted := true, handed := job.delivered, finished := job.completed }

end GuestCallbackJob

def Submit.consistent (submit : Submit) (place : Place) : Bool :=
  match submit.stage with
  | .starting => submit.job.untouched && place == {}
  | .waiting => submit.job.live place || submit.job.ended place
  | .returned result =>
    (submit.job.untouched && place == {} && !result)
      || (submit.job.ended place && result == Executor.submitResult submit.job)

variable {submit : Submit}

theorem Submit.consistent_queued {place : Place} (h : submit.consistent place)
    (hqueued : place.queued) :
    submit.stage = .waiting ∧ submit.job.untouched
      ∧ place = { queued := true, submitted := true } := by
  cases hstage : submit.stage <;>
    simp_all [consistent, live, ended] <;> grind

theorem Submit.consistent_active {place : Place} (h : submit.consistent place)
    (hactive : place.active) :
    submit.stage = .waiting ∧ submit.job.completed = false ∧ submit.job.canceled = false
      ∧ place = { active := true, submitted := true, handed := submit.job.delivered } := by
  cases hstage : submit.stage <;>
    simp_all [consistent, live, ended, untouched] <;> grind

namespace Submit

variable {submit : Submit} {place : Place}

/-- The job of a caller that waited for the executor is queued. -/
theorem consistent_queue (h : submit.consistent place) (hstage : submit.stage = .starting)
    (descriptor : Descriptor) :
    ({ job := { submit.job with descriptor }, stage := .waiting } : Submit).consistent
      { place with queued := true, submitted := true } = true := by
  simp only [consistent, hstage, Bool.and_eq_true, beq_iff_eq] at h
  obtain ⟨huntouched, rfl⟩ := h
  simp only [untouched] at huntouched
  simp [consistent, live, untouched, huntouched]

/-- A queued job becomes the active one. -/
theorem consistent_take (h : submit.consistent place) (hqueued : place.queued) :
    submit.consistent { place with queued := false, active := true } := by
  obtain ⟨hstage, huntouched, rfl⟩ := consistent_queued h hqueued
  simp [consistent, live, hstage, huntouched]

/-- The active job is delivered. -/
theorem consistent_deliver (h : submit.consistent place) (hactive : place.active) :
    ({ submit with job := { submit.job with delivered := true } } : Submit).consistent
      { place with handed := true } = true := by
  obtain ⟨hstage, hcompleted, hcanceled, rfl⟩ := consistent_active h hactive
  simp [consistent, live, hstage, hcompleted, hcanceled]

/-- The active job is completed. -/
theorem consistent_complete (h : submit.consistent place) (hactive : place.active)
    (hhanded : place.handed) :
    ({ submit with job := { submit.job with completed := true } } : Submit).consistent
      { place with active := false, finished := true } = true := by
  obtain ⟨hstage, -, -, rfl⟩ := consistent_active h hactive
  have hdelivered : submit.job.delivered := hhanded
  simp [consistent, ended, hstage, hdelivered]

def cancel (submit : Submit) : Submit := { submit with job := { submit.job with canceled := true } }

theorem consistent_cancel_queued (h : submit.consistent place) (hqueued : place.queued) :
    submit.cancel.consistent { place with queued := false } := by
  obtain ⟨hstage, huntouched, rfl⟩ := consistent_queued h hqueued
  simp only [untouched, Bool.and_eq_true, Bool.not_eq_true'] at huntouched
  simp [consistent, ended, cancel, hstage, huntouched]

theorem consistent_cancel_active (h : submit.consistent place) (hactive : place.active) :
    submit.cancel.consistent { place with active := false } := by
  obtain ⟨hstage, hcompleted, -, rfl⟩ := consistent_active h hactive
  simp [consistent, ended, cancel, hstage, hcompleted]

end Submit

def ThreadStage.job? : ThreadStage → Option ℕ
  | .copying j _ | .running j _ => some j
  | _ => none

variable {j : ℕ}

namespace Executor

def place (e : Executor) (j : ℕ) : Place where
  queued := decide (j ∈ e.jobs)
  active := e.activeJob == some j
  submitted := decide (j ∈ e.submitted)
  handed := decide (j ∈ e.handed)
  finished := decide (j ∈ e.finished)

def descriptor? (e : Executor) (j : ℕ) : Option Descriptor :=
  e.submits[j]?.map fun submit => submit.job.descriptor

/-- Some thread became the executor, or will not any more. -/
def started (e : Executor) : Bool := e.state ≠ .unavailable && e.state ≠ .starting

/-! ## The invariant -/

/-- The executor has the active job; any other thread has none, and does not wait for one. -/
structure ThreadOk (e : Executor) (tid : ℕ) (stage : ThreadStage) : Prop where
  job : stage.job? = if tid = e.threadId then e.activeJob else none
  copying : ∀ j descriptor, stage = .copying j descriptor →
    (e.handed ++ [j]).Sublist e.taken ∧ e.descriptor? j = some descriptor
  running : ∀ j identifier, stage = .running j identifier →
    j ∈ e.handed ∧ (e.descriptor? j).map Descriptor.identifier = some identifier
  waiting : stage = .waiting → tid = e.threadId ∧ e.started = true

structure ExecutorOk (e : Executor) : Prop where
  consistent : ∀ (j : ℕ) (submit : Submit), e.submits[j]? = some submit →
    submit.consistent (e.place j) = true
  bounded : ∀ j ∈ e.submitted, j < e.submits.length
  nodup : e.submitted.Nodup
  order : (e.taken ++ e.jobs).Sublist e.submitted
  handed : e.handed.Sublist e.taken
  finished : ∀ j ∈ e.finished, j ∈ e.handed
  threads : ∀ tid, ThreadOk e tid (e.threads tid)
  idle : e.started = false → e.activeJob = none

namespace ThreadOk

variable {e e' : Executor} {tid : ℕ} {stage : ThreadStage}

theorem of_idle (hjob : stage.job? = none) (hidle : tid = e.threadId → e.activeJob = none)
    (hwaiting : stage = .waiting → tid = e.threadId ∧ e.started) :
    ThreadOk e tid stage := by
  refine ⟨?_, fun j descriptor hstage => ?_, fun j identifier hstage => ?_, hwaiting⟩
  · rw [hjob]
    split
    · next heq => exact (hidle heq).symm
    · rfl
  · rw [hstage] at hjob
    simp [ThreadStage.job?] at hjob
  · rw [hstage] at hjob
    simp [ThreadStage.job?] at hjob

/-- The thread that has a job is the executor, and the job is the active one. -/
theorem eq_of_job (h : ThreadOk e tid stage) (hjob : stage.job? = some j) :
    e.threadId = tid ∧ e.activeJob = some j := by
  rw [h.job] at hjob
  split at hjob
  · next heq => exact ⟨heq.symm, hjob⟩
  · simp at hjob

theorem job_of_ne (h : ThreadOk e tid stage) (hne : tid ≠ e.threadId) : stage.job? = none := by
  rw [h.job, if_neg hne]

theorem activeJob_eq (h : ThreadOk e tid stage) (htid : tid = e.threadId) :
    e.activeJob = stage.job? := by
  rw [h.job, if_pos htid]

/-- What the thread looks at stays. -/
theorem congr (h : ThreadOk e tid stage) (hthreadId : e'.threadId = e.threadId)
    (hactiveJob : e'.activeJob = e.activeJob) (hhanded : e'.handed = e.handed)
    (htaken : e'.taken = e.taken) (hstarted : e.started → e'.started)
    (hdescriptor : ∀ j, e.activeJob = some j → e'.descriptor? j = e.descriptor? j) :
    ThreadOk e' tid stage := by
  refine ⟨?_, fun j descriptor hstage => ?_, fun j identifier hstage => ?_, fun hstage => ?_⟩
  · rw [hthreadId, hactiveJob]
    exact h.job
  · have hactive := (h.eq_of_job (hstage ▸ rfl : stage.job? = some j)).2
    rw [hhanded, htaken, hdescriptor j hactive]
    exact h.copying j descriptor hstage
  · have hactive := (h.eq_of_job (hstage ▸ rfl : stage.job? = some j)).2
    rw [hhanded, hdescriptor j hactive]
    exact h.running j identifier hstage
  · obtain ⟨htid, hold⟩ := h.waiting hstage
    exact ⟨htid.trans hthreadId.symm, hstarted hold⟩

end ThreadOk

namespace ExecutorOk

variable {e : Executor}

theorem initial : ExecutorOk {} :=
  ⟨by simp, by simp, nodup_nil, List.Sublist.refl _, List.Sublist.refl _, by simp,
    fun _ => .of_idle rfl (fun _ => rfl) nofun, fun _ => rfl⟩

theorem mem_submitted_of_taken (h : ExecutorOk e) (hj : j ∈ e.taken) : j ∈ e.submitted :=
  h.order.subset (mem_append_left _ hj)

theorem active_taken (h : ExecutorOk e) (hactive : e.activeJob = some j) : j ∈ e.taken := by
  have hthread := h.threads e.threadId
  have hjob := hthread.activeJob_eq rfl
  rw [hactive] at hjob
  cases hstage : e.threads e.threadId with
  | copying i =>
    rw [hstage] at hjob
    obtain rfl : j = i := some.inj hjob
    exact (hthread.copying _ _ hstage).1.subset (by simp)
  | running i =>
    rw [hstage] at hjob
    obtain rfl : j = i := some.inj hjob
    exact h.handed.subset (hthread.running _ _ hstage).1
  | looping | waiting | leaving | exited =>
    rw [hstage] at hjob
    simp [ThreadStage.job?] at hjob

/-- A number that no submit has is in no place. -/
theorem place_of_fresh (h : ExecutorOk e) (hj : e.submits.length ≤ j) : e.place j = {} := by
  have hsubmitted : j ∉ e.submitted := fun hmem => by
    have hlt := h.bounded j hmem
    omega
  have htaken : j ∉ e.taken := fun hmem => hsubmitted (h.mem_submitted_of_taken hmem)
  have hqueued : j ∉ e.jobs := fun hmem =>
    hsubmitted (h.order.subset (mem_append_right _ hmem))
  have hhanded : j ∉ e.handed := fun hmem => htaken (h.handed.subset hmem)
  have hfinished : j ∉ e.finished := fun hmem => hhanded (h.finished j hmem)
  have hactive : e.activeJob ≠ some j := fun heq => htaken (h.active_taken heq)
  simp [place, hsubmitted, hqueued, hhanded, hfinished, hactive]

/-! ### Submits that change alone -/

/-- Only `submits` changes, and the descriptor of the active job stays. -/
theorem of_submits (h : ExecutorOk e) {submits : List Submit}
    (hlength : e.submits.length ≤ submits.length) (hactive : ∀ j, e.activeJob = some j →
      submits[j]?.map (fun submit => submit.job.descriptor) = e.descriptor? j)
    (hconsistent : ∀ (j : ℕ) (submit : Submit), submits[j]? = some submit →
      submit.consistent (e.place j)) :
    ExecutorOk { e with submits } := by
  exact ⟨hconsistent, fun j hj => Nat.lt_of_lt_of_le (h.bounded j hj) hlength, h.nodup, h.order,
    h.handed, h.finished, fun tid => (h.threads tid).congr rfl rfl rfl rfl id hactive, h.idle⟩

theorem call (h : ExecutorOk e) (input : Descriptor) : ExecutorOk { e with
      submits := e.submits ++ [{ job := { descriptor := input }, stage := .starting }] } := by
  refine h.of_submits (by simp) (fun j hj => ?_) fun j submit hsubmit => ?_
  · have hlt := h.bounded j (h.mem_submitted_of_taken (h.active_taken hj))
    rw [getElem?_append_left hlt]
    rfl
  · by_cases hlt : j < e.submits.length
    · rw [getElem?_append_left hlt] at hsubmit
      exact h.consistent j submit hsubmit
    · rw [getElem?_append_right (Nat.le_of_not_lt hlt), getElem?_singleton] at hsubmit
      rw [h.place_of_fresh (Nat.le_of_not_lt hlt)]
      split at hsubmit
      · rw [← some.inj hsubmit]
        rfl
      · simp at hsubmit

/-! ### Steps of one job -/

variable {e' : Executor} {change : Submit → Submit}

/-- `e'` differs from `e` for the submit `j` and the place of `j` only. -/
theorem consistent_of_change (h : ExecutorOk e) {moved : Place}
    (hsubmits : e'.submits = e.submits.modify j change)
    (hothers : ∀ i, i ≠ j → e'.place i = e.place i) (hplace : e'.place j = moved)
    (hthis : ∀ submit, e.submits[j]? = some submit → submit.consistent (e.place j) →
      (change submit).consistent moved) (i : ℕ) (submit : Submit)
    (hsubmit : e'.submits[i]? = some submit) : submit.consistent (e'.place i) := by
  rw [hsubmits, getElem?_modify] at hsubmit
  obtain ⟨old, hold, rfl⟩ := map_eq_some_iff.1 hsubmit
  split
  · rename_i heq
    subst heq
    rw [hplace]
    exact hthis old hold (h.consistent j old hold)
  · rename_i hne
    rw [hothers i (Ne.symm hne)]
    exact h.consistent i old hold

theorem descriptor?_modify (hsubmits : e'.submits = e.submits.modify j change) {i : ℕ}
    (h : i ≠ j ∨ ∀ submit, (change submit).job.descriptor = submit.job.descriptor) :
    e'.descriptor? i = e.descriptor? i := by
  rw [descriptor?, hsubmits, getElem?_modify, descriptor?]
  cases e.submits[i]? with
  | none => rfl
  | some =>
    simp only [Option.map_eq_map, Option.map_some]
    split
    · rename_i heq
      rcases h with hne | hkept
      · exact absurd heq.symm hne
      · rw [hkept]
    · rfl

theorem descriptor?_updateJob {change : GuestCallbackJob → GuestCallbackJob}
    (h : ∀ job, (change job).descriptor = job.descriptor) (i : ℕ) :
    (e.updateJob j change).descriptor? i = e.descriptor? i :=
  descriptor?_modify rfl (.inr fun submit => h submit.job)

/-- A submit returns. -/
theorem returnSubmit (h : ExecutorOk e) (hsubmit : e.submits[j]? = some submit) {result : Bool}
    (hreturns : ({ submit with stage := .returned result } : Submit).consistent (e.place j)) :
    ExecutorOk (e.returnSubmit j result) := by
  have hmodified : (e.returnSubmit j result).submits
      = e.submits.modify j fun submit => { submit with stage := .returned result } := rfl
  refine h.of_submits (by simp) (fun i _ => descriptor?_modify hmodified (.inr fun _ => rfl))
    (h.consistent_of_change hmodified (fun _ _ => rfl) rfl fun submit' hsubmit' _ => ?_)
  cases hsubmit.symm.trans hsubmit'
  exact hreturns

theorem enqueue (h : ExecutorOk e) (hsubmit : e.submits[j]? = some submit)
    (hstage : submit.stage = .starting) : ExecutorOk (e.enqueue j) := by
  have hconsistent := h.consistent j submit hsubmit
  simp only [Submit.consistent, hstage, Bool.and_eq_true, beq_iff_eq] at hconsistent
  obtain ⟨huntouched, hplace⟩ := hconsistent
  unfold Executor.enqueue
  split
  · exact h.returnSubmit hsubmit (by simp [Submit.consistent, huntouched, hplace])
  · have hnew : j ∉ e.submitted := by simpa [place] using congrArg Place.submitted hplace
    have hactive : e.activeJob ≠ some j := by simpa [place] using congrArg Place.active hplace
    have hmoved : place { e with jobs := e.jobs ++ [j], submitted := e.submitted ++ [j] } j
        = { e.place j with queued := true, submitted := true } := by
      simp [place]
    refine ⟨h.consistent_of_change rfl (fun i hne => ?_) hmoved
      fun submit' hsubmit' hconsistent => ?_, fun i hi => ?_, ?_, ?_, h.handed, h.finished,
      fun tid => ?_, h.idle⟩
    · simp [place, updateSubmit, hne]
    · rw [hsubmit, some.injEq] at hsubmit'
      subst hsubmit'
      exact consistent_queue hconsistent hstage _
    · simp only [updateSubmit, length_modify]
      rcases mem_append.1 hi with hold | hnow
      · exact h.bounded i hold
      · rw [mem_singleton.1 hnow]
        exact (List.getElem?_eq_some_iff.1 hsubmit).1
    · refine nodup_append.2 ⟨h.nodup, by simp, fun a ha b hb heq => ?_⟩
      rw [mem_singleton.1 hb] at heq
      exact hnew (heq ▸ ha)
    · show (e.taken ++ (e.jobs ++ [j])).Sublist (e.submitted ++ [j])
      rw [← append_assoc]
      exact h.order.append (List.Sublist.refl _)
    · refine (h.threads tid).congr rfl rfl rfl rfl id fun i hi => descriptor?_modify rfl (.inl ?_)
      rintro rfl
      exact hactive hi

/-! ### Steps of the executor thread -/

variable {tid : ℕ} {stage : ThreadStage}

theorem setThread (h : ExecutorOk e) (hold : (e.threads tid).job? = none)
    (hnew : stage.job? = none) (hwaiting : stage = .waiting → tid = e.threadId ∧ e.started) :
    ExecutorOk (e.setThread tid stage) := by
  refine { h with threads := ?_ }
  refine (Function.forall_update_iff e.threads
    (p := fun tid' => ThreadOk (e.setThread tid stage) tid')).2
    ⟨.of_idle hnew (fun htid => ?_) hwaiting, fun tid' _ => ?_⟩
  · exact ((h.threads tid).activeJob_eq htid).trans hold
  · exact (h.threads tid').congr rfl rfl rfl rfl id fun _ _ => rfl

/-- The executor moves on to `stage`; the other threads have no job before and after. -/
theorem threads_of_executor (h : ExecutorOk e) (htid : tid = e.threadId)
    (hthreadId : e'.threadId = e.threadId)
    (hthreads : e'.threads = Function.update e.threads tid stage) (hstage : ThreadOk e' tid stage)
    (tid' : ℕ) : ThreadOk e' tid' (e'.threads tid') := by
  rw [hthreads]
  by_cases heq : tid' = tid
  · subst heq
    rw [Function.update_self]
    exact hstage
  · rw [Function.update_of_ne heq]
    have hne : tid' ≠ e.threadId := fun h' => heq (h'.trans htid.symm)
    exact .of_idle ((h.threads tid').job_of_ne hne) (fun h' => absurd (h'.trans hthreadId) hne)
      fun hwaiting => absurd ((h.threads tid').waiting hwaiting).1 hne

/-- The head of the queue becomes the active job. -/
theorem takeJob (h : ExecutorOk e) {rest : List ℕ} (hidle : e.activeJob = none)
    (htid : tid = e.threadId) (hstate : e.state = .ready) (hjobs : e.jobs = j :: rest)
    (hsubmit : e.submits[j]? = some submit) :
    ExecutorOk { e.setThread tid (.copying j submit.job.descriptor) with
      jobs := rest
      activeJob := some j
      taken := e.taken ++ [j] } := by
  have horder := h.order
  rw [hjobs] at horder
  have hnodup : (j :: rest).Nodup := (h.nodup.sublist horder).sublist (sublist_append_right _ _)
  have hrest := (nodup_cons.1 hnodup).1
  have hmoved : place { e with jobs := rest, activeJob := some j } j
      = { e.place j with queued := false, active := true } := by
    simp [place, hrest]
  refine ⟨h.consistent_of_change (modify_id j e.submits).symm (fun i hne => ?_) hmoved
    fun submit' _ hconsistent => consistent_take hconsistent (by simp [place, hjobs]),
    h.bounded, h.nodup, ?_, ?_, h.finished,
    h.threads_of_executor htid rfl rfl ⟨?_, fun i descriptor heq => ?_, nofun, nofun⟩,
    fun hstarted => ?_⟩
  · simp [place, Executor.setThread, hjobs, hidle, hne, Ne.symm hne]
  · show (e.taken ++ [j] ++ rest).Sublist e.submitted
    rwa [append_assoc, singleton_append]
  · exact h.handed.trans (sublist_append_left _ _)
  · exact (if_pos htid).symm
  · obtain ⟨rfl, rfl⟩ := heq
    exact ⟨h.handed.append (List.Sublist.refl _),
      by simp [descriptor?, Executor.setThread, hsubmit]⟩
  · simp [started, Executor.setThread, hstate] at hstarted

theorem waitForJob (h : ExecutorOk e) (hold : (e.threads tid).job? = none)
    (htid : tid = e.threadId) : ExecutorOk (e.waitForJob tid) := by
  unfold Executor.waitForJob
  split
  · rename_i hblocks
    simp only [Bool.and_eq_true, decide_eq_true_eq] at hblocks
    exact h.setThread hold rfl fun _ => ⟨htid, by simp [started, hblocks]⟩
  · split
    · exact h.setThread hold rfl nofun
    · rename_i hready
      simp only [Bool.or_eq_true, not_or, decide_eq_true_eq, not_not] at hready
      split
      · exact h.setThread hold rfl nofun
      · rename_i j rest hjobs
        split
        · exact h
        · rename_i submit hsubmit
          exact h.takeJob (((h.threads tid).activeJob_eq htid).trans hold) htid hready.1
            hjobs hsubmit

/-- Without an active job no thread has a job. -/
theorem job_of_idle (h : ExecutorOk e) (hidle : e.activeJob = none) (tid : ℕ) :
    (e.threads tid).job? = none := by
  rw [(h.threads tid).job, hidle, ite_self]

/-- The first thread that waits becomes the executor. -/
theorem register (h : ExecutorOk e) (hstate : e.state = .starting) (tid : ℕ) :
    ExecutorOk { e with threadId := tid, state := .ready } := by
  have hidle := h.idle (by simp [started, hstate])
  refine { h with
    threads := fun tid' => .of_idle (h.job_of_idle hidle tid') (fun _ => hidle) fun hwaiting => ?_
    idle := fun _ => hidle }
  have hstarted := ((h.threads tid').waiting hwaiting).2
  simp [started, hstate] at hstarted

theorem serviceWait (h : ExecutorOk e) (hold : (e.threads tid).job? = none)
    (guestDescriptor : U32) (nativeThread : Bool) :
    ExecutorOk (e.serviceGuestCallbackExecutorWait tid guestDescriptor nativeThread) := by
  unfold serviceGuestCallbackExecutorWait
  split
  · exact h.setThread hold rfl nofun
  · split
    · next hstarting => exact (h.register hstarting tid).waitForJob hold rfl
    · split
      · exact h.setThread hold rfl nofun
      · rename_i hexecutor
        simp only [Bool.or_eq_true, not_or, decide_eq_true_eq, not_not] at hexecutor
        exact h.waitForJob hold hexecutor.2.symm

variable {descriptor : Descriptor}

/-- The descriptor was written: the job is delivered. -/
theorem delivered (h : ExecutorOk e) (hstage : e.threads tid = .copying j descriptor) :
    ExecutorOk (e.copiedOut tid j descriptor true) := by
  have hthread := h.threads tid
  obtain ⟨htid, hactive⟩ := hthread.eq_of_job (hstage ▸ rfl : (e.threads tid).job? = some j)
  obtain ⟨hsublist, hdescriptor⟩ := hthread.copying j descriptor hstage
  have hsame : ∀ job : GuestCallbackJob,
      { job with delivered := true }.descriptor = job.descriptor :=
    fun _ => rfl
  have hkept : (e.copiedOut tid j descriptor true).descriptor? j = e.descriptor? j :=
    descriptor?_updateJob hsame j
  have hmoved : place { e with handed := e.handed ++ [j] } j
      = { e.place j with handed := true } := by
    simp [place]
  refine ⟨h.consistent_of_change rfl (fun i hne => ?_) hmoved fun submit _ hconsistent =>
    consistent_deliver hconsistent (by simp [place, hactive]),
    fun i hi => ?_, h.nodup, h.order, hsublist, fun i hi => mem_append_left _ (h.finished i hi),
    h.threads_of_executor htid.symm rfl rfl
      ⟨?_, nofun, fun i identifier heq => ?_, nofun⟩, h.idle⟩
  · simp [place, copiedOut, updateJob, updateSubmit, Executor.setThread, hne]
  · simpa [copiedOut, updateJob, updateSubmit, Executor.setThread] using h.bounded i hi
  · exact ((if_pos htid.symm).trans hactive).symm
  · obtain ⟨rfl, rfl⟩ := heq
    refine ⟨mem_append_right _ (by simp), ?_⟩
    rw [hkept, hdescriptor]
    rfl

/-- A job that is not in the queue is cancelled, and the active slot is cleared. -/
theorem cancelActive (h : ExecutorOk e) (hactive : e.activeJob = some j) (htid : tid = e.threadId)
    (hstage : stage.job? = none) (hwaiting : stage ≠ .waiting) :
    ExecutorOk { (e.cancelJob j).setThread tid stage with activeJob := none } := by
  have hmoved : place { e with activeJob := none } j = { e.place j with active := false } := by
    simp [place]
  refine ⟨h.consistent_of_change rfl (fun i hne => ?_) hmoved
    fun submit _ hconsistent =>
      consistent_cancel_active hconsistent (by simp [place, hactive]),
    fun i hi => ?_, h.nodup, h.order, h.handed, h.finished,
    h.threads_of_executor htid rfl rfl (.of_idle hstage (fun _ => rfl) fun h => absurd h hwaiting),
    fun _ => rfl⟩
  · simp [place, cancelJob, updateJob, updateSubmit, Executor.setThread, hactive, Ne.symm hne]
  · simpa [cancelJob, updateJob, updateSubmit, Executor.setThread] using h.bounded i hi

theorem copiedOut (h : ExecutorOk e) (hstage : e.threads tid = .copying j descriptor)
    (written : Bool) :
    ExecutorOk (e.copiedOut tid j descriptor written) := by
  cases written with
  | true => exact h.delivered hstage
  | false =>
    obtain ⟨htid, hactive⟩ :=
      (h.threads tid).eq_of_job (hstage ▸ rfl : (e.threads tid).job? = some j)
    exact h.cancelActive hactive htid.symm rfl nofun

theorem complete (h : ExecutorOk e) {identifier : U32}
    (hstage : e.threads tid = .running j identifier) :
    ExecutorOk { e.serviceGuestCallbackExecutorComplete tid identifier with
      finished := e.finished ++ [j] } := by
  have hthread := h.threads tid
  obtain ⟨htid, hactive⟩ := hthread.eq_of_job (hstage ▸ rfl : (e.threads tid).job? = some j)
  obtain ⟨hhanded, hidentifier⟩ := hthread.running j identifier hstage
  -- the executor completes the active job under its own identifier, so the call is not refused
  have haccepted : ¬ (decide (e.threadId ≠ tid) || e.submits[j]?.any
      (fun submit => submit.job.descriptor.identifier ≠ identifier)) := by
    cases hsubmit : e.submits[j]? with
    | none => simp [htid]
    | some =>
      rw [descriptor?, hsubmit] at hidentifier
      simpa [htid] using hidentifier
  simp only [serviceGuestCallbackExecutorComplete, hactive, if_neg haccepted]
  have hmoved : place { e with activeJob := none, finished := e.finished ++ [j] } j
      = { e.place j with active := false, finished := true } := by
    simp [place]
  refine ⟨h.consistent_of_change rfl (fun i hne => ?_) hmoved fun submit _ hconsistent =>
    consistent_complete hconsistent (by simp [place, hactive]) (by simp [place, hhanded]),
    fun i hi => ?_, h.nodup, h.order, h.handed, fun i hi => ?_,
    h.threads_of_executor htid.symm rfl rfl (.of_idle ?_ (fun _ => rfl) fun hwaiting => ?_),
    fun _ => rfl⟩
  · simp [place, updateJob, updateSubmit, Executor.setThread, hactive, hne, Ne.symm hne]
  · simpa [updateJob, updateSubmit, Executor.setThread] using h.bounded i hi
  · rcases mem_append.1 hi with hold | hnow
    · exact h.finished i hold
    · rw [mem_singleton.1 hnow]
      exact hhanded
  · split <;> rfl
  · split at hwaiting <;> simp at hwaiting

/-! ### Cancelling the queue -/

theorem foldl_cancelJob (js : List ℕ) (e : Executor) :
    js.foldl cancelJob e = { e with submits := (js.foldl cancelJob e).submits } := by
  induction js generalizing e with
  | nil => rfl
  | cons j _ ih => exact ih (e.cancelJob j)

theorem getElem?_foldl_cancelJob (js : List ℕ) (e : Executor) (i : ℕ) :
    (js.foldl cancelJob e).submits[i]?
      = e.submits[i]?.map fun submit => if i ∈ js then submit.cancel else submit := by
  induction js generalizing e with
  | nil => simp
  | cons j rest ih =>
    rw [foldl_cons, ih, cancelJob, updateJob, updateSubmit, getElem?_modify,
      Option.map_eq_map, Option.map_map]
    congr 1
    funext submit
    by_cases hj : j = i
    · by_cases hi : i ∈ rest <;> simp [hj, hi, cancel]
    · simp [hj, Ne.symm hj]

theorem length_foldl_cancelJob (js : List ℕ) (e : Executor) :
    (js.foldl cancelJob e).submits.length = e.submits.length := by
  induction js generalizing e with
  | nil => rfl
  | cons _ _ ih => rw [foldl_cons, ih, cancelJob, updateJob, updateSubmit, length_modify]

theorem cancelQueued (h : ExecutorOk e) : ExecutorOk e.cancelQueuedGuestCallbacksLocked := by
  have hget := getElem?_foldl_cancelJob e.jobs e
  have hlength := length_foldl_cancelJob e.jobs e
  unfold cancelQueuedGuestCallbacksLocked
  rw [foldl_cancelJob]
  generalize (e.jobs.foldl cancelJob e).submits = submits at hget hlength
  refine ⟨fun i submit hsubmit => ?_, fun i hi => hlength ▸ h.bounded i hi, h.nodup, ?_, h.handed,
    h.finished, fun tid => (h.threads tid).congr rfl rfl rfl rfl id fun i _ => ?_, h.idle⟩
  · rw [hget] at hsubmit
    obtain ⟨old, hold, rfl⟩ := map_eq_some_iff.1 hsubmit
    have hconsistent := h.consistent i old hold
    have hmoved : place { e with submits, jobs := [] } i = { e.place i with queued := false } := by
      simp [place]
    rw [hmoved]
    split
    · rename_i hqueued
      exact consistent_cancel_queued hconsistent (by simp [place, hqueued])
    · rename_i hqueued
      have hplace : { e.place i with queued := false } = e.place i := by simp [place, hqueued]
      rw [hplace]
      exact hconsistent
  · rw [append_nil]
    exact (sublist_append_left _ _).trans h.order
  · rw [descriptor?, descriptor?, hget, Option.map_map]
    split <;> rfl

/-! ### Every step -/

/-- Another state of the executor. -/
theorem setState (h : ExecutorOk e) {state : GuestCallbackExecutorState}
    (hstarted : e.started → started { e with state }) : ExecutorOk { e with state } := by
  refine { h with
    threads := fun tid => (h.threads tid).congr rfl rfl rfl rfl hstarted fun _ _ => rfl
    idle := fun hidle => h.idle ?_ }
  cases hold : e.started with
  | false => rfl
  | true => cases (hstarted hold).symm.trans hidle

theorem stop (h : ExecutorOk e) : ExecutorOk e.stopGuestCallbackExecutor := by
  unfold stopGuestCallbackExecutor
  split
  · exact h
  · exact (h.setState fun _ => rfl).cancelQueued

/-- The executor, which has left its loop, gives up its place. -/
theorem unregister (h : ExecutorOk e) (hidle : e.activeJob = none)
    (hleft : e.threads e.threadId ≠ .waiting) : ExecutorOk { e with threadId := 0 } := by
  refine { h with
    threads := fun tid => .of_idle (h.job_of_idle hidle tid) (fun _ => hidle) fun hwaiting => ?_ }
  rw [((h.threads tid).waiting hwaiting).1] at hwaiting
  exact absurd hwaiting hleft

theorem setThread_foldl_cancelJob (js : List ℕ) (e : Executor) (tid : ℕ) (stage : ThreadStage) :
    (js.foldl cancelJob e).setThread tid stage = js.foldl cancelJob (e.setThread tid stage) := by
  induction js generalizing e with
  | nil => rfl
  | cons j _ ih => exact ih (e.cancelJob j)

theorem setThread_cancelQueued (e : Executor) (tid : ℕ) (stage : ThreadStage) :
    e.cancelQueuedGuestCallbacksLocked.setThread tid stage
      = (e.setThread tid stage).cancelQueuedGuestCallbacksLocked :=
  congrArg (fun e : Executor => { e with jobs := [] })
    (setThread_foldl_cancelJob e.jobs e tid stage)

theorem threadExited (h : ExecutorOk e) (tid : ℕ) :
    ExecutorOk ((e.guestCallbackExecutorThreadExited tid).setThread tid .exited) := by
  unfold guestCallbackExecutorThreadExited
  split
  · next hne => exact h.setThread ((h.threads tid).job_of_ne hne) rfl nofun
  · rename_i htid
    rw [not_not] at htid
    subst htid
    have hleft : (e.setThread e.threadId .exited).threads e.threadId ≠ .waiting := by
      simp [Executor.setThread]
    have hexited :
        ExecutorOk ({ e with threadId := 0 }.cancelActiveJob.setThread e.threadId .exited) := by
      unfold cancelActiveJob
      split
      · rename_i j hactive
        have hcleared : ExecutorOk
            { (e.cancelJob j).setThread e.threadId .exited with activeJob := none } :=
          h.cancelActive hactive rfl rfl nofun
        exact hcleared.unregister rfl hleft
      · rename_i hidle
        have hjob := ((h.threads e.threadId).activeJob_eq rfl).symm.trans hidle
        have hcleared : ExecutorOk (e.setThread e.threadId .exited) := h.setThread hjob rfl nofun
        exact hcleared.unregister hidle hleft
    have hcanceled := hexited.cancelQueued
    rw [← setThread_cancelQueued] at hcanceled
    refine hcanceled.setState fun _ => ?_
    split <;> rfl

theorem resumeSubmit (h : ExecutorOk e) {stage : SubmitStage} {next : GuestCallbackJob → Executor}
    (hnext : ∀ submit, e.submits[j]? = some submit → submit.stage = stage →
      ExecutorOk (next submit.job)) : ExecutorOk (e.resumeSubmit j stage next) := by
  unfold Executor.resumeSubmit
  split
  · rename_i submit hsubmit
    split
    · next hstage => exact hnext submit hsubmit hstage
    · exact h
  · exact h

/-- A caller whose job is over returns. -/
theorem submitWake (h : ExecutorOk e) (hsubmit : e.submits[j]? = some submit)
    (hstage : submit.stage = .waiting) (hover : (submit.job.completed || submit.job.canceled)) :
    ExecutorOk (e.returnSubmit j (submitResult submit.job)) := by
  have hconsistent := h.consistent j submit hsubmit
  simp only [Submit.consistent, hstage, Bool.or_eq_true] at hconsistent
  refine h.returnSubmit hsubmit ?_
  rcases hconsistent with hlive | hover'
  · simp only [live, untouched] at hlive
    grind
  · simp [Submit.consistent, hover']

theorem step (h : ExecutorOk e) (event : Event) : ExecutorOk (e.step event) := by
  cases event with
  | supported =>
    simp only [Executor.step, guestCallbackExecutorSupported]
    split
    · exact h
    · split
      · exact h
      · rename_i hstate
        exact h.setState fun hstarted => absurd hstarted (by simp [started, not_not.1 hstate])
  | creationResult =>
    simp only [Executor.step, guestCallbackExecutorCreationResult]
    split
    · exact h
    · split
      · exact h.setState fun _ => rfl
      · exact h
  | submit input =>
    simp only [Executor.step, submitGuestCallback]
    split
    · exact h.call input
    · exact (h.call input).enqueue getElem?_concat_length rfl
  | submitReady =>
    simp only [Executor.step]
    refine h.resumeSubmit fun submit hsubmit hstage => ?_
    split
    · exact h
    · exact h.enqueue hsubmit hstage
  | submitTimeout =>
    simp only [Executor.step]
    refine h.resumeSubmit fun submit hsubmit hstage => ?_
    split
    · have hconsistent := h.consistent _ submit hsubmit
      simp only [Submit.consistent, hstage, Bool.and_eq_true, beq_iff_eq] at hconsistent
      exact h.returnSubmit hsubmit (by simp [Submit.consistent, hconsistent])
    · exact h
  | submitWake =>
    simp only [Executor.step]
    refine h.resumeSubmit fun submit hsubmit hstage => ?_
    split
    · next hover => exact h.submitWake hsubmit hstage hover
    · exact h
  | wait _ guestDescriptor nativeThread =>
    simp only [Executor.step]
    split
    · next hstage => exact h.serviceWait (by rw [hstage]; rfl) guestDescriptor nativeThread
    · exact h
  | wake tid =>
    simp only [Executor.step]
    split
    · next hstage => exact h.waitForJob (by rw [hstage]; rfl) ((h.threads tid).waiting hstage).1
    · exact h
  | debuggerStep =>
    simp only [Executor.step]
    split
    · next hstage => exact h.setThread (by rw [hstage]; rfl) rfl nofun
    · exact h
  | copyOut _ written =>
    simp only [Executor.step]
    split
    · next j descriptor hstage => exact h.copiedOut hstage written
    · exact h
  | complete =>
    simp only [Executor.step]
    split
    · next j identifier hstage => exact h.complete hstage
    · exact h
  | threadExited tid =>
    simp only [Executor.step]
    split
    all_goals first | exact h | exact h.threadExited tid
  | stop => exact h.stop
  | requestShutdown | requestProcessExit =>
    exact { h with
      threads := fun tid => (h.threads tid).congr rfl rfl rfl rfl id fun _ _ => rfl }

end ExecutorOk

/-! ## What holds after every run -/

/-- Where the caller of the `j`-th submit is. -/
def stage? (e : Executor) (j : ℕ) : Option SubmitStage := e.submits[j]?.map Submit.stage

variable {e : Executor} {j : ℕ} {submit : Submit}

/-- A caller that looks again when the executor no longer starts is refused, or queues its job. -/
theorem submitReady_settles (hsubmit : e.submits[j]? = some submit)
    (hstage : submit.stage = .starting) (hstate : e.state ≠ .starting) :
    (e.step (.submitReady j)).stage? j = some (.returned false)
      ∨ (e.step (.submitReady j)).stage? j = some .waiting
        ∧ j ∈ (e.step (.submitReady j)).jobs := by
  have hstep : e.step (.submitReady j) = e.enqueue j := by
    simp [Executor.step, resumeSubmit, hsubmit, hstage, hstate]
  rw [hstep, enqueue]
  split
  · exact .inl (by simp [stage?, returnSubmit, updateSubmit, hsubmit])
  · exact .inr (by simp [stage?, updateSubmit, hsubmit])

/-- A caller that looks at a job that is over returns. -/
theorem submitWake_returns (hsubmit : e.submits[j]? = some submit)
    (hstage : submit.stage = .waiting) (hover : submit.job.completed || submit.job.canceled) :
    (e.step (.submitWake j)).stage? j = some (.returned (submitResult submit.job)) := by
  have hstep : e.step (.submitWake j) = e.returnSubmit j (submitResult submit.job) := by
    simp only [Executor.step, resumeSubmit, hsubmit, hstage, if_pos, hover]
  simp [hstep, stage?, returnSubmit, updateSubmit, hsubmit]

/-- **Every callback is delivered once.** After any interleaving of callers of
    `SubmitGuestCallback`, guest threads that run the executor's main function, stops and thread
    exits:

    * jobs were handed to the executor at most once each, in the order in which they were submitted;
    * a submit of an invocation, function or selector callback that returned said true exactly if
      its job was handed out and completed;
    * a submit of a release said false only if its job was not handed out;
    * a caller that has not returned waits for an executor that still starts, or will be refused or
      queue its job when it looks again; or it waits for its job, which is in the queue or in the
      active slot, or is over, and then the caller returns when it looks again. -/
theorem callbacks_deliveredOnce (events : List Event) :
    let e := run {} events
    e.handed.Nodup ∧ e.handed.Sublist e.submitted
    ∧ (∀ (j : ℕ) (submit : Submit) (result : Bool), e.submits[j]? = some submit →
        submit.stage = .returned result →
        (submit.job.descriptor.kind ≠ .release →
            (result = true ↔ j ∈ e.handed ∧ j ∈ e.finished))
          ∧ (submit.job.descriptor.kind = .release → result = false → j ∉ e.handed))
    ∧ (∀ (j : ℕ) (submit : Submit), e.submits[j]? = some submit → submit.stage = .waiting →
        submit.job.completed = false → submit.job.canceled = false →
          j ∈ e.jobs ∨ e.activeJob = some j)
    ∧ (∀ (j : ℕ) (submit : Submit), e.submits[j]? = some submit → submit.stage = .waiting →
        submit.job.completed || submit.job.canceled →
          (e.step (.submitWake j)).stage? j = some (.returned (submitResult submit.job)))
    ∧ (∀ (j : ℕ) (submit : Submit), e.submits[j]? = some submit → submit.stage = .starting →
        e.state = .starting ∨ (e.step (.submitReady j)).stage? j = some (.returned false)
          ∨ (e.step (.submitReady j)).stage? j = some .waiting
            ∧ j ∈ (e.step (.submitReady j)).jobs) := by
  intro e
  have h : ExecutorOk e :=
    Execution.run_invariant (fun _ event hinv => hinv.step event) .initial events
  have horder : e.handed.Sublist e.submitted :=
    h.handed.trans ((sublist_append_left _ _).trans h.order)
  refine ⟨h.nodup.sublist horder, horder, fun j submit result hsubmit hstage => ?_,
    fun j submit hsubmit hstage hcompleted hcanceled => ?_,
    fun j submit hsubmit hstage hover => submitWake_returns hsubmit hstage hover,
    fun j submit hsubmit hstage => or_iff_not_imp_left.2 (submitReady_settles hsubmit hstage)⟩
  · have hconsistent := h.consistent j submit hsubmit
    have hhanded : (e.place j).handed ↔ j ∈ e.handed := by simp [place]
    have hfinished : (e.place j).finished ↔ j ∈ e.finished := by simp [place]
    simp only [consistent, hstage, Bool.or_eq_true, Bool.and_eq_true, beq_iff_eq]
      at hconsistent
    rw [← hhanded, ← hfinished]
    rcases hconsistent with ⟨⟨-, hplace⟩, hresult⟩ | ⟨hover, rfl⟩
    · -- it was refused or gave up before its job was queued
      rw [hplace]
      simp only [Bool.not_eq_true'] at hresult
      simp [hresult]
    · simp only [ended, Bool.and_eq_true, beq_iff_eq] at hover
      obtain ⟨⟨-, hdelivered⟩, hplace⟩ := hover
      rw [hplace]
      refine ⟨fun hkind => ?_, fun hkind hresult => ?_⟩
      · cases hcompleted : submit.job.completed with
        | false => simp [submitResult, hcompleted, hkind]
        | true => simpa [submitResult, hcompleted] using hdelivered
      · simp only [submitResult, hkind, decide_true, Bool.and_true, Bool.or_eq_false_iff] at hresult
        simp [hresult]
  · have hconsistent := h.consistent j submit hsubmit
    simp only [consistent, hstage, live, ended, hcompleted,
      hcanceled, Bool.or_self, Bool.false_and, Bool.or_false, Bool.or_eq_true, Bool.and_eq_true,
      beq_iff_eq] at hconsistent
    rcases hconsistent with ⟨-, hqueued | hactive⟩ | ⟨-, hactive⟩
    · exact .inl (by simpa [place] using congrArg Place.queued hqueued)
    · exact .inr (by simpa [place] using congrArg Place.active hactive)
    · exact .inr (by simpa [place] using congrArg Place.active hactive)

/-- A caller that waits for the executor to start has no job yet, neither queued nor active. -/
theorem submit_waitsForStart :
    let e := run {} [.supported true, .submit { kind := .invoke }]
    e.stage? 0 = some .starting ∧ e.jobs = [] ∧ e.activeJob = none := by
  decide

/-- A callback and a release are submitted; the executor runs the callback, and a stop cancels the
release. -/
example :
    let e := run {} [.supported true, .wait 2 4096 true, .submit { kind := .invoke },
      .submit { kind := .release }, .wake 2, .copyOut 2 true, .stop, .complete 2, .submitWake 0,
      .submitWake 1]
    e.submits.map Submit.stage = [.returned true, .returned false] ∧ e.handed = [0] := by
  decide

end Executor

end LiveExec32.Callback
