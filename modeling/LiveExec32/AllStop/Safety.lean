import LiveExec32.AllStop.Steps

/-! # All-stop safety

A worker is counted from the command it takes to its acknowledgement, except while it waits
(`WellPlaced`). Its flag goes up only in an open epoch (`step_executing`), so a completed stop stays
complete until the next command is published. The exception is a retiring worker: it leaves a
quiescent native call without being counted, and a callback that it then runs is guest code which no
stop waits for. -/

namespace LiveExec32.AllStop

open List Config Worker MainPlace Place Execution

/-! ## Workers -/

namespace Place

/-- The places where a worker is counted and not yet retiring. -/
def counted : Place → Bool
  | .commanded | .ready | .guest | .terminated => true
  | _ => false

/-- The places where a worker is counted unless it is retiring. -/
def working : Place → Bool
  | .host | .returned _ => true
  | .pausing back => back != .native
  | _ => false

end Place

/-- A worker's flags fit its place. -/
structure Worker.WellPlaced (w : Worker) : Prop where
  counted : w.place.counted = true → w.debuggerExecuting = true
  remains : w.place.counted = true → w.nativeGuestThreadRetiring = false
  working : w.place.working = true → w.debuggerExecuting = true ∨ w.nativeGuestThreadRetiring = true
  waiting : w.place = .idle → w.nativeGuestThreadRetiring = false
  quiescent : w.place = .native → w.debuggerHostCallQuiescent = true
  pausing : ∀ back, w.place = .pausing back ∨ w.place = .paused back →
    Worker.mayPause back = true ∧ (back.counted = true → w.nativeGuestThreadRetiring = false)
      ∧ (back = .native → w.debuggerHostCallQuiescent = true)

variable {event : WorkerEvent}

namespace Worker

variable {w : Worker} {d : Coordinator} {allStop : Bool} {id : ℕ}

/-- A worker that is neither counted nor working may be anywhere else. -/
theorem wellPlaced_native (hplace : w.place = .native) (hflag : w.debuggerHostCallQuiescent) :
    w.WellPlaced := by
  constructor <;> simp_all [counted, working]

theorem wellPlaced_working (hplace : w.place = .host ∨ ∃ reason, w.place = .returned reason)
    (hcounted : w.debuggerExecuting ∨ w.nativeGuestThreadRetiring) : w.WellPlaced := by
  constructor <;> rcases hplace with hplace | ⟨reason, hplace⟩ <;>
    simp_all [counted, working]

theorem wellPlaced_counted
    (hplace : w.place = .commanded ∨ w.place = .ready ∨ w.place = .guest ∨ w.place = .terminated)
    (hcounted : w.debuggerExecuting) (hremains : w.nativeGuestThreadRetiring = false) :
    w.WellPlaced := by
  constructor <;> rcases hplace with hplace | hplace | hplace | hplace <;>
    simp_all [counted, working]

theorem wellPlaced_pausing {back : Place} (hplace : w.place = .pausing back
        ∧ (back ≠ .native → w.debuggerExecuting ∨ w.nativeGuestThreadRetiring)
      ∨ w.place = .paused back)
    (hback : mayPause back ∧ (back.counted → w.nativeGuestThreadRetiring = false)
      ∧ (back = .native → w.debuggerHostCallQuiescent)) :
    w.WellPlaced := by
  constructor <;> rcases hplace with ⟨hplace, hcounted⟩ | hplace <;>
    simp_all [counted, working]

theorem WellPlaced.endCallback (h : w.debuggerExecuting ∨ w.nativeGuestThreadRetiring) :
    w.endCallback.WellPlaced := by
  unfold Worker.endCallback
  dsimp only
  split
  · refine wellPlaced_native rfl ?_
    simp only [parkQuiescentHostCall]
    split <;> simp_all
  · exact wellPlaced_working (.inl rfl) h

theorem WellPlaced.leave (h : w.WellPlaced) (hplace : w.place = .guest) (raised : HaltReason) :
    (w.leave raised).WellPlaced := by
  have hexecuting := h.counted (by rw [hplace]; rfl)
  have hremains := h.remains (by rw [hplace]; rfl)
  unfold Worker.leave
  dsimp only
  split
  · exact wellPlaced_counted (.inr (.inl rfl)) hexecuting hremains
  · split
    · unfold afterRun
      split
      · split
        · exact wellPlaced_counted (.inr (.inl rfl)) hexecuting hremains
        · exact wellPlaced_working (.inr ⟨_, rfl⟩) (.inl hexecuting)
      · split
        · exact wellPlaced_working (.inr ⟨_, rfl⟩) (.inl hexecuting)
        · split
          · exact wellPlaced_working (.inr ⟨_, rfl⟩) (.inl hexecuting)
          · exact wellPlaced_working (.inl rfl) (.inl hexecuting)
    · unfold afterCallbackRun
      split
      · split
        · exact wellPlaced_counted (.inr (.inl rfl)) hexecuting hremains
        · exact .endCallback (.inl hexecuting)
      · split
        · exact .endCallback (.inl hexecuting)
        · exact wellPlaced_working (.inl rfl) (.inl hexecuting)

theorem WellPlaced.serviceDone (h : w.WellPlaced) (hplace : w.place = .host) :
    w.serviceDone.WellPlaced := by
  have hcounted := h.working (by rw [hplace]; rfl)
  unfold Worker.serviceDone
  split
  · split
    · exact wellPlaced_working (.inr ⟨_, rfl⟩) hcounted
    · split
      · exact wellPlaced_working (.inr ⟨_, rfl⟩) hcounted
      · rename_i hremains _
        exact wellPlaced_counted (.inr (.inl rfl)) (hcounted.resolve_right hremains)
          (by simpa using hremains)
  · split
    · exact .endCallback hcounted
    · rename_i hremains
      exact wellPlaced_counted (.inr (.inl rfl)) (hcounted.resolve_right hremains)
        (by simpa using hremains)

@[simp] theorem prepareStep_executing :
    (w.prepareStep d id).debuggerExecuting = w.debuggerExecuting := by
  unfold prepareStep
  split <;> rfl

@[simp] theorem prepareStep_retiring :
    (w.prepareStep d id).nativeGuestThreadRetiring = w.nativeGuestThreadRetiring := by
  unfold prepareStep
  split <;> rfl

@[simp] theorem prepareStep_quiescent :
    (w.prepareStep d id).debuggerHostCallQuiescent = w.debuggerHostCallQuiescent := by
  unfold prepareStep
  split <;> rfl

/-- A worker that has left its native call is counted or retiring. -/
theorem resumeQuiescentHostCall_spec {prepareDeferredStep : Bool}
    (h : w.debuggerHostCallQuiescent = false → w.debuggerExecuting ∨ w.nativeGuestThreadRetiring) :
    ((w.resumeQuiescentHostCall d id prepareDeferredStep).debuggerExecuting
        ∨ w.nativeGuestThreadRetiring)
      ∧ (w.resumeQuiescentHostCall d id prepareDeferredStep).nativeGuestThreadRetiring
        = w.nativeGuestThreadRetiring := by
  unfold resumeQuiescentHostCall
  split
  · next hflag => exact ⟨h (by simpa using hflag), rfl⟩
  · split
    · next hretiring => exact ⟨.inr hretiring, rfl⟩
    · split
      · simp
      · exact ⟨.inl rfl, rfl⟩

/-- Whether a worker's step keeps it out of uncounted guest code: no callback begins on a worker
    that is retiring. -/
def callbackCounted (w : Worker) (event : WorkerEvent) : Bool :=
  event != .callbackBegin || !w.nativeGuestThreadRetiring

/-- A worker that goes on after a pause is well placed where it was. -/
theorem WellPlaced.back {back : Place} (h : w.WellPlaced)
    (hplace : w.place = .pausing back ∨ w.place = .paused back) {w' : Worker}
    (hback : w'.place = back)
    (hcounted : back ≠ .native → w'.debuggerExecuting ∨ w'.nativeGuestThreadRetiring)
    (hretiring : w'.nativeGuestThreadRetiring = w.nativeGuestThreadRetiring)
    (hflag : w'.debuggerHostCallQuiescent = w.debuggerHostCallQuiescent) : w'.WellPlaced := by
  obtain ⟨hmay, hremains, hquiescent⟩ := h.pausing back hplace
  rw [← hretiring] at hremains
  cases back with
  | ready =>
    have hremains := hremains rfl
    exact wellPlaced_counted (.inr (.inl hback))
      ((hcounted (by simp)).resolve_right (by simp [hremains])) hremains
  | host => exact wellPlaced_working (.inl hback) (hcounted (by simp))
  | native => exact wellPlaced_native hback (hflag.trans (hquiescent rfl))
  | returned reason => exact wellPlaced_working (.inr ⟨reason, hback⟩) (hcounted (by simp))
  | _ => simp [mayPause] at hmay

theorem WellPlaced.step (h : w.WellPlaced) (hdead : w.nativeGuestThreadRetiring → w.alive = false)
    (hgood : w.callbackCounted event) :
    (w.step d allStop id event).WellPlaced := by
  cases event with
  | takeCommand =>
    simp only [Worker.step]
    split
    · next hguard => exact wellPlaced_counted (.inl rfl) rfl (h.waiting hguard.1)
    · exact h
  | republishPendingStop =>
    simp only [Worker.step]
    split
    · rename_i hplace
      exact wellPlaced_working (.inr ⟨_, rfl⟩) (.inl (h.counted (by rw [hplace]; rfl)))
    · exact h
  | start =>
    simp only [Worker.step]
    split
    · rename_i hplace
      exact wellPlaced_counted (.inr (.inl rfl)) (h.counted (by rw [hplace]; rfl))
        (h.remains (by rw [hplace]; rfl))
    · exact h
  | run =>
    simp only [Worker.step]
    split
    · rename_i hplace
      have hcounted := h.counted (by rw [hplace]; rfl)
      split
      · exact wellPlaced_working (.inl rfl) (.inl hcounted)
      · exact wellPlaced_counted (.inr (.inr (.inl rfl))) hcounted
          (h.remains (by rw [hplace]; rfl))
    · exact h
  | instruction =>
    simp only [Worker.step]
    split
    · exact { h with }
    · exact h
  | leave =>
    simp only [Worker.step]
    split
    · next hplace => exact h.leave hplace _
    · exact h
  | serviceDone =>
    simp only [Worker.step]
    split
    · next hplace => exact h.serviceDone hplace
    · exact h
  | quiescenceBegin =>
    simp only [Worker.step]
    split
    · split
      · refine wellPlaced_native rfl ?_
        simp only [parkQuiescentHostCall]
        split <;> simp_all
      · exact { h with }
    · exact h
  | quiescenceEnd =>
    simp only [Worker.step]
    split
    · exact h
    · split
      · exact { h with }
      · split
        · rename_i hguard
          have hflag := h.quiescent hguard.1
          obtain ⟨hcounted, hretiring⟩ := @resumeQuiescentHostCall_spec w d id true
            (by simp [hflag])
          refine wellPlaced_working (.inl rfl) ?_
          rw [← hretiring] at hcounted
          exact hcounted
        · exact h
  | callbackBegin =>
    simp only [Worker.step]
    split
    · rename_i hguard
      have hremains : w.nativeGuestThreadRetiring = false := by
        simpa [callbackCounted] using hgood
      obtain ⟨hcounted, hretiring⟩ := @resumeQuiescentHostCall_spec w d id false
        (fun hfalse => by
          rcases hguard.1 with hplace | hplace
          · exact h.working (by rw [hplace]; rfl)
          · simp [h.quiescent hplace] at hfalse)
      exact wellPlaced_counted (.inr (.inl rfl)) (hcounted.resolve_right (by simp [hremains]))
        (hretiring.trans hremains)
    · exact h
  | pauseHostWait =>
    simp only [Worker.step]
    split
    · rename_i hguard
      have hcounted : w.place ≠ .native → w.debuggerExecuting ∨ w.nativeGuestThreadRetiring := by
        intro hnative
        cases hplace : w.place with
        | ready => exact .inl (h.counted (by rw [hplace]; rfl))
        | host | returned _ => exact h.working (by rw [hplace]; rfl)
        | native => exact absurd hplace hnative
        | _ => exact absurd hguard.1 (by simp [hplace, mayPause])
      exact wellPlaced_pausing (.inl ⟨rfl, hcounted⟩) ⟨hguard.1, h.remains, h.quiescent⟩
    · exact h
  | pauseLock =>
    simp only [Worker.step]
    split
    · rename_i back hplace
      split
      · refine h.back (.inl hplace) rfl (fun hback => h.working ?_) rfl rfl
        simpa [hplace, Place.working] using hback
      · exact wellPlaced_pausing (.inr rfl) (h.pausing back (.inl hplace))
    · exact h
  | pauseWake =>
    simp only [Worker.step]
    split
    · rename_i back hplace
      split
      · next hretiring => exact h.back (.inr hplace) rfl (fun _ => .inr hretiring) rfl rfl
      · split
        · exact h.back (.inr hplace) rfl (fun _ => .inl rfl) prepareStep_retiring
            prepareStep_quiescent
        · exact h
    · exact h
  | terminate =>
    simp only [Worker.step]
    split
    · rename_i hguard
      have hremains : w.nativeGuestThreadRetiring = false :=
        Bool.eq_false_iff.2 fun hretiring => by simp [hdead hretiring] at hguard
      exact wellPlaced_counted (.inr (.inr (.inr rfl)))
        ((h.working (by rw [hguard.1]; rfl)).resolve_right (by simp [hremains])) hremains
    · exact h
  | stopped =>
    simp only [Worker.step]
    split
    · constructor <;> simp only <;> split <;> simp_all [Place.counted, Place.working]
    · exact h

/-! ### The registry -/

theorem endCallback_registry : w.endCallback.nativeGuestThreadRetiring = w.nativeGuestThreadRetiring
      ∧ w.endCallback.alive = w.alive ∧ w.endCallback.place ≠ .terminated := by
  simp only [endCallback, parkQuiescentHostCall]
  grind

theorem leave_registry (raised : HaltReason) :
    (w.leave raised).nativeGuestThreadRetiring = w.nativeGuestThreadRetiring
      ∧ (w.leave raised).alive = w.alive ∧ (w.leave raised).place ≠ .terminated := by
  simp only [leave, afterRun, afterCallbackRun]
  grind [endCallback_registry]

/-- A worker leaves the registry only in `bsdthread_terminate`, and no other step is made there. -/
theorem WellPlaced.registry (h : w.WellPlaced) (event : WorkerEvent) :
    (w.step d allStop id event).nativeGuestThreadRetiring = w.nativeGuestThreadRetiring
      ∧ ((w.step d allStop id event).alive = w.alive
          ∧ ((w.step d allStop id event).place = .terminated ↔ w.place = .terminated)
        ∨ (w.step d allStop id event).alive = false
          ∧ (w.step d allStop id event).place = .terminated) := by
  cases event with
  | leave raised =>
    have hleave := @leave_registry w (raised \ {.workqueue})
    simp only [Worker.step]
    grind
  | serviceDone =>
    have hend := @endCallback_registry w
    simp only [Worker.step, Worker.serviceDone]
    grind
  | pauseHostWait =>
    have hterminated : mayPause .terminated = false := rfl
    simp only [Worker.step]
    grind
  | pauseLock | pauseWake =>
    have hpausing := h.pausing .terminated
    simp only [mayPause, Bool.false_eq_true, false_and, imp_false] at hpausing
    simp only [Worker.step, prepareStep]
    grind
  | _ =>
    simp only [Worker.step, parkQuiescentHostCall, resumeQuiescentHostCall, prepareStep]
    grind

/-! ### The gate -/

theorem endCallback_executing (h : w.endCallback.debuggerExecuting) : w.debuggerExecuting := by
  simp only [endCallback, parkQuiescentHostCall] at h
  grind

/-- A worker starts to be counted only while the threads may run. -/
theorem step_executing (h : (w.step d allStop id event).debuggerExecuting) :
    w.debuggerExecuting ∨ d.state = .running := by
  have hadmits := @running_of_admits d id
  have hend := @endCallback_executing w
  cases event with
  | leave =>
    have hleave := @endCallback_executing { w with halts := ∅ }
    simp only [step, leave, afterRun, afterCallbackRun] at h
    grind
  | _ =>
    simp only [step, serviceDone, parkQuiescentHostCall, resumeQuiescentHostCall,
      prepareStep, mayResume] at h
    grind

end Worker

/-! ## The system -/

variable {c c' : Config}

/-- The stop owner is alive, or its thread is about to hand the stop on. -/
def OwnerKept (c : Config) : Prop :=
  c.stopOwnerAlive c.coordinator.stopOwner = true
    ∨ (∃ i w, c.workers[i]? = some w ∧ w.place = .terminated ∧ c.coordinator.stopOwner = i + 3)
    ∨ ∃ replacement, c.main.place = .switching c.coordinator.stopOwner replacement

structure Safe (c : Config) : Prop where
  count : c.coordinator.executingWorkers = c.workers.countP (·.debuggerExecuting)
  quiet : c.coordinator.state = .stopped → c.coordinator.executingWorkers = 0
  handing : c.main.place.handing = true → c.coordinator.state = .stopped
  running : c.main.place.running = true → c.coordinator.state ≠ .stopped
  placed : ∀ w ∈ c.workers, w.WellPlaced
  retired : ∀ w ∈ c.workers,
    w.nativeGuestThreadRetiring = true ∨ w.place = .terminated → w.alive = false
  owner : c.coordinator.state ≠ .running → OwnerKept c
  asserted : c.assertionFailed = false

theorem safe_initial : Safe initial where
  count := rfl
  quiet _ := rfl
  handing _ := rfl
  running h := absurd h (by decide)
  placed w hw := absurd hw (by simp [initial])
  retired w hw := absurd hw (by simp [initial])
  owner _ := .inl rfl
  asserted := rfl

/-! ### Owners -/

variable {w : Worker}

theorem stopOwnerAlive_worker {i : ℕ} (h : c.workers[i]? = some w) :
    c.stopOwnerAlive (i + 3) = w.alive := by
  simp [stopOwnerAlive, h]

variable {owner : ℕ}

/-- The stop owner stays alive where the registry does. -/
theorem stopOwnerAlive_mono (h : c.stopOwnerAlive owner)
    (hoverlay : owner = 2 → c.overlayActive → c'.overlayActive)
    (hworkers : ∀ i w, c.workers[i]? = some w → owner = i + 3 → w.alive →
      ∃ w', c'.workers[i]? = some w' ∧ w'.alive) :
    c'.stopOwnerAlive owner := by
  unfold stopOwnerAlive at h ⊢
  split
  · rfl
  · rename_i hone
    rw [if_neg hone] at h
    split
    · rename_i htwo
      rw [if_pos htwo] at h
      exact hoverlay htwo h
    · rename_i htwo
      rw [if_neg htwo] at h
      split at h
      · rename_i w hw
        simp only [Bool.and_eq_true, bne_iff_ne] at h
        obtain ⟨w', hw', halive⟩ := hworkers (owner - 3) w hw (by omega) h.1
        simp [hw', halive, h.2]
      · simp at h

/-! ### One worker -/

theorem put_eq {i : ℕ} {old : Worker} (h : c.workers[i]? = some old) (w : Worker) :
    ∃ n failed, c.put i w = { c with
        workers := c.workers.set i w
        coordinator := { c.coordinator with executingWorkers := n }
        assertionFailed := failed }
      ∧ (c.coordinator.executingWorkers = c.workers.countP (·.debuggerExecuting) →
        n = (c.workers.set i w).countP (·.debuggerExecuting) ∧ failed = c.assertionFailed) := by
  obtain ⟨hlt, hold⟩ := List.getElem?_eq_some_iff.1 h
  have hcount : (c.workers.set i w).countP (·.debuggerExecuting)
      = c.workers.countP (·.debuggerExecuting) - (if old.debuggerExecuting then 1 else 0)
        + if w.debuggerExecuting then 1 else 0 := by
    rw [countP_set hlt, hold]
  have hpos : old.debuggerExecuting → 0 < c.workers.countP (·.debuggerExecuting) := fun hflag =>
    countP_pos_iff.2 ⟨old, mem_of_getElem? h, hflag⟩
  unfold put
  simp only [h]
  split
  · rename_i hsame
    refine ⟨_, _, rfl, fun hexact => ⟨?_, rfl⟩⟩
    rw [hcount, hexact, ← hsame]
    cases hflag : old.debuggerExecuting with
    | false => simp
    | true =>
      have := hpos hflag
      simp only [if_true]
      omega
  · split
    · rename_i hflag
      refine ⟨_, _, rfl, fun hexact => ⟨?_, rfl⟩⟩
      have hfalse : old.debuggerExecuting = false := by simp_all
      simp [hcount, hexact, hfalse, hflag]
    · rename_i hflag
      have htrue : old.debuggerExecuting := by simp_all
      have := hpos htrue
      refine ⟨_, _, rfl, fun hexact => ⟨?_, ?_⟩⟩
      · simp [hcount, hexact, htrue, hflag]
      · simp only [Bool.or_eq_left_iff_imp, beq_iff_eq]
        omega

theorem Safe.put {i : ℕ} {old : Worker} (h : Safe c) (hold : c.workers[i]? = some old)
    (hplaced : w.WellPlaced)
    (hretired : w.nativeGuestThreadRetiring ∨ w.place = .terminated → w.alive = false)
    (hgate : w.debuggerExecuting → old.debuggerExecuting ∨ c.coordinator.state = .running)
    (howner : c.coordinator.state ≠ .running → OwnerKept (c.put i w)) : Safe (c.put i w) := by
  obtain ⟨n, failed, hput, hexact⟩ := put_eq hold w
  obtain ⟨hcount, hfailed⟩ := hexact h.count
  rw [hput] at howner ⊢
  refine ⟨hcount, fun hstopped => ?_, h.handing, h.running, fun x hx => ?_, fun x hx => ?_, howner,
    hfailed.trans h.asserted⟩
  · have hnone := h.quiet hstopped
    rw [h.count, countP_eq_zero] at hnone
    have hfalse : old.debuggerExecuting = false := by
      simpa using hnone old (mem_of_getElem? hold)
    show n = 0
    rw [hcount, countP_eq_zero]
    intro x hx
    rcases mem_or_eq_of_mem_set hx with hx | rfl
    · exact hnone x hx
    · intro hflag
      rcases hgate hflag with hold | hrunning
      · simp [hfalse] at hold
      · cases hstopped.symm.trans hrunning
  · rcases mem_or_eq_of_mem_set hx with hx | rfl
    · exact h.placed x hx
    · exact hplaced
  · rcases mem_or_eq_of_mem_set hx with hx | rfl
    · exact h.retired x hx
    · exact hretired

/-- A step of worker `i` does not lose the stop owner, unless it is worker `i`, which may leave the
    registry only in `bsdthread_terminate`. -/
theorem OwnerKept.put {i : ℕ} {old : Worker} (h : OwnerKept c) (hold : c.workers[i]? = some old)
    (hregistry : c.coordinator.stopOwner = i + 3 →
      w.alive = old.alive ∧ (w.place = .terminated ↔ old.place = .terminated)
        ∨ w.alive = false ∧ w.place = .terminated) : OwnerKept (c.put i w) := by
  obtain ⟨n, failed, hput, -⟩ := put_eq hold w
  obtain ⟨hlt, -⟩ := List.getElem?_eq_some_iff.1 hold
  have hself : (c.workers.set i w)[i]? = some w := by simp [hlt]
  rw [hput]
  rcases h with halive | ⟨j, x, hx, hplace, howner⟩ | ⟨replacement, hswitching⟩
  · by_cases howner : c.coordinator.stopOwner = i + 3 ∧ w.place = .terminated
    · exact .inr (.inl ⟨i, w, hself, howner.2, howner.1⟩)
    · refine .inl (stopOwnerAlive_mono halive (fun _ h => h) fun j x hx hj hxalive => ?_)
      by_cases hij : i = j
      · subst hij
        obtain rfl : old = x := by simpa [hold] using hx
        refine ⟨w, hself, ?_⟩
        rcases hregistry hj with ⟨hsame, -⟩ | ⟨-, hterminated⟩
        · exact hsame.trans hxalive
        · exact absurd ⟨hj, hterminated⟩ howner
      · exact ⟨x, by simpa [getElem?_set_ne hij] using hx, hxalive⟩
  · refine .inr (.inl ?_)
    by_cases hij : i = j
    · subst hij
      obtain rfl : old = x := by simpa [hold] using hx
      refine ⟨i, w, hself, ?_, howner⟩
      rcases hregistry howner with ⟨-, hsame⟩ | ⟨-, hterminated⟩
      · exact hsame.2 hplace
      · exact hterminated
    · exact ⟨j, x, by simpa [getElem?_set_ne hij] using hx, hplace, howner⟩
  · exact .inr (.inr ⟨replacement, hswitching⟩)

theorem Safe.executed (h : Safe c) (n : ℕ) : Safe { c with executed := n } := { h with }

theorem Safe.worker {i : ℕ} (h : Safe c) (hw : c.workers[i]? = some w)
    (hgood : w.callbackCounted event) :
    Safe (c.put i (w.step c.coordinator c.debuggerAllStopRequested (i + 3) event)) := by
  have hmem := mem_of_getElem? hw
  have hplaced := h.placed w hmem
  have hdead := h.retired w hmem
  obtain ⟨hretiring, hregistry⟩ :=
    @Worker.WellPlaced.registry w c.coordinator c.debuggerAllStopRequested (i + 3) hplaced event
  refine h.put hw (hplaced.step (fun hr => hdead (.inl hr)) hgood) ?_
    (fun hflag => step_executing hflag) (fun hstate => (h.owner hstate).put hw fun _ => hregistry)
  intro hnew
  rcases hregistry with ⟨halive, hterminated⟩ | ⟨halive, -⟩
  · rw [halive]
    refine hdead (hnew.imp (fun hr => ?_) hterminated.1)
    rwa [hretiring] at hr
  · exact halive

variable {previous : ℕ}

theorem Safe.handedOn (h : Safe c) (howner : HandedOn c previous owner) :
    Safe { c with coordinator := { c.coordinator with stopOwner := owner } } := by
  refine { h with owner := fun hstate => ?_ }
  rcases howner hstate with ⟨-, rfl⟩ | halive
  · exact h.owner hstate
  · exact .inl halive

theorem Safe.workerTransfer {i : ℕ} (h : Safe c) (hw : c.workers[i]? = some w)
    (hplace : w.place = .terminated) (howner : HandedOn c (i + 3) owner) :
    Safe (Config.put { c with coordinator := { c.coordinator with stopOwner := owner } } i
      w.retire) := by
  have hmem := mem_of_getElem? hw
  have hdead := h.retired w hmem (.inr hplace)
  have hcounted := (h.placed w hmem).counted (by rw [hplace]; rfl)
  refine (h.handedOn howner).put hw (Worker.wellPlaced_working (.inl rfl) (.inl hcounted))
    (fun _ => hdead) (fun _ => .inl hcounted) (fun hstate => ?_)
  -- The owner is not worker `i` any more, so its leaving `terminated` does not matter.
  have hother : owner ≠ i + 3 := by
    rcases howner hstate with ⟨hne, rfl⟩ | halive
    · exact hne
    · rintro rfl
      rw [stopOwnerAlive_worker hw, hdead] at halive
      simp at halive
  exact ((h.handedOn howner).owner hstate).put hw fun hsame => absurd hsame hother

/-! ### The main runner -/

theorem stopOwnerAlive_congr (hworkers : c'.workers = c.workers)
    (hoverlay : c'.overlayActive = c.overlayActive) (owner : ℕ) :
    c'.stopOwnerAlive owner = c.stopOwnerAlive owner := by
  simp only [stopOwnerAlive, hworkers, hoverlay]

/-- The stop owner is kept where neither it nor the registry changes and no transition is due. -/
theorem OwnerKept.congr (h : OwnerKept c) (hworkers : c'.workers = c.workers)
    (hoverlay : c'.overlayActive = c.overlayActive)
    (howner : c'.coordinator.stopOwner = c.coordinator.stopOwner)
    (hplace : ∀ previous replacement, c.main.place ≠ .switching previous replacement) :
    OwnerKept c' := by
  rcases h with halive | ⟨i, w, hw, hterminated, hi⟩ | ⟨replacement, hswitching⟩
  · refine .inl ?_
    rw [howner, stopOwnerAlive_congr hworkers hoverlay]
    exact halive
  · exact .inr (.inl ⟨i, w, by rw [hworkers]; exact hw, hterminated, howner.trans hi⟩)
  · exact absurd hswitching (hplace _ _)

theorem Safe.moved (h : Safe c) (hmoved : MainMoved c c')
    (hplace : ∀ previous replacement, c.main.place ≠ .switching previous replacement)
    (hstate : c.coordinator.state ≠ .stopped) : Safe c' := by
  obtain ⟨m, newer, rfl, hhanding⟩ := hmoved
  exact { h with
    handing := by simp [hhanding]
    running := fun _ => hstate
    owner := fun hstate => (h.owner hstate).congr rfl rfl rfl hplace }

variable {replacement : ℕ}

/-- A context transition on the main runner: a stop of the overlay is about to be handed on. -/
theorem Safe.overlay (h : Safe c) (hplace : c.main.place = .host) (active : Bool)
    (howner : c.overlayActive → active = false → previous = 2) :
    Safe { c with
      overlayActive := active
      main := { c.main with place := .switching previous replacement } } := by
  have hstate := h.running (by rw [hplace]; rfl)
  refine { h with
    handing := by simp [MainPlace.handing]
    running := fun _ => hstate
    owner := fun hnot => ?_ }
  rcases h.owner hnot with halive | hterminated | ⟨replacement, hswitching⟩
  · by_cases htwo : c.coordinator.stopOwner = 2 ∧ c.overlayActive = true ∧ active = false
    · refine .inr (.inr ⟨replacement, ?_⟩)
      simp [howner htwo.2.1 htwo.2.2, htwo.1]
    · refine .inl (stopOwnerAlive_mono halive (fun hsame hactive => ?_)
        fun _ w hw _ hwalive => ⟨w, hw, hwalive⟩)
      by_contra hnone
      exact htwo ⟨hsame, hactive, by simpa using hnone⟩
  · exact .inr (.inl hterminated)
  · simp [hplace] at hswitching

theorem Safe.mainTransfer (h : Safe c) (hplace : c.main.place = .switching previous replacement)
    (howner : HandedOn c previous owner) :
    Safe { c with
      coordinator := { c.coordinator with stopOwner := owner }
      main := { c.main with place := .host } } := by
  have hstate := h.running (by rw [hplace]; rfl)
  refine { h with
    handing := by simp [MainPlace.handing]
    running := fun _ => hstate
    owner := fun hnot => ?_ }
  rcases howner hnot with ⟨hne, rfl⟩ | halive
  · rcases h.owner hnot with halive | hterminated | ⟨replacement, hswitching⟩
    · exact .inl halive
    · exact .inr (.inl hterminated)
    · rw [hplace] at hswitching
      injection hswitching with hsame
      exact absurd hsame.symm hne
  · exact .inl halive

/-! ### Requests, halts and commands -/

/-- Raising and clearing halts touches nothing else. -/
theorem Safe.halts (h : Safe c) (change : HaltReason → HaltReason) {m : Main} {due : ℕ}
    (hplace : m.place = c.main.place ∨ c.main.place.handing ∧ m.place.handing) :
    Safe { c with
      workers := c.workers.map fun w => { w with halts := change w.halts }
      main := m
      haltsDue := due } := by
  have hof : ∀ {p : Worker → Prop}, (∀ w halts, p w → p { w with halts := halts }) →
      (∀ w ∈ c.workers, p w) → ∀ w ∈ c.workers.map fun w => { w with halts := change w.halts },
        p w := by
    intro p hp hall w hw
    obtain ⟨x, hx, rfl⟩ := mem_map.1 hw
    exact hp x _ (hall x hx)
  refine ⟨?_, h.quiet, fun hhanding => ?_, fun hrunning => ?_,
    hof (fun w _ hw => { hw with }) h.placed, hof (fun _ _ hw => hw) h.retired,
    fun hstate => ?_, h.asserted⟩
  · rw [countP_map]
    exact h.count
  · rcases hplace with hplace | ⟨hfrom, -⟩
    · exact h.handing (hplace ▸ hhanding)
    · exact h.handing hfrom
  · rcases hplace with hplace | ⟨-, hto⟩
    · exact h.running (hplace ▸ hrunning)
    · cases hp : m.place <;> simp_all [MainPlace.handing, MainPlace.running]
  · rcases h.owner hstate with halive | ⟨i, w, hw, hterminated, hi⟩ | ⟨replacement, hswitching⟩
    · exact .inl (stopOwnerAlive_mono halive (fun _ hactive => hactive) fun i w hw _ hwalive =>
        ⟨{ w with halts := change w.halts }, by simp [hw], hwalive⟩)
    · exact .inr (.inl ⟨i, { w with halts := change w.halts }, by simp [hw], hterminated, hi⟩)
    · refine .inr (.inr ⟨replacement, ?_⟩)
      rcases hplace with hplace | ⟨hfrom, -⟩
      · exact hplace.trans hswitching
      · simp [hswitching, MainPlace.handing] at hfrom

theorem Safe.consumeInterrupt (h : Safe c) (mode : ResumeMode) (stepThread : ℕ) :
    Safe (c.consumeInterrupt mode stepThread) :=
  ⟨h.count, h.quiet, by simp [Config.consumeInterrupt, MainPlace.handing],
    by simp [Config.consumeInterrupt, MainPlace.running], h.placed,
    h.retired, fun _ => .inl (normalizeStopOwner_alive _), h.asserted⟩

/-- The assertions of `NativeDebuggerBeginExecution` hold where the main runner is in the protocol.
    -/
theorem Safe.beginExecution (h : Safe c) (hplace : c.main.place = .protocol) (mode : ResumeMode)
    (stepThread : ℕ) (runMain : Bool) : Safe (c.beginExecution mode stepThread runMain) := by
  have hstopped := h.handing (by rw [hplace]; rfl)
  have hnone := h.quiet hstopped
  have hselected : ∀ d' : Coordinator, d'.state = .stopped → d'.executingWorkers = 0 →
      d'.stopOwner = c.coordinator.stopOwner → ∀ main : Main, main.place.handing →
      Safe { c with
        assertionFailed := c.assertionFailed || c.coordinator.executingWorkers != 0
          || c.coordinator.state != .stopped
        coordinator := d'
        main := main } := by
    intro d' hstate hcount howner main hhanding
    refine ⟨?_, fun _ => hcount, fun _ => hstate, fun hrunning => ?_, h.placed, h.retired,
      fun _ => ?_, ?_⟩
    · exact hcount.trans (hnone.symm.trans h.count)
    · cases hp : main.place <;> simp_all [MainPlace.handing, MainPlace.running]
    · exact (h.owner (by simp [hstopped])).congr rfl rfl howner (by simp [hplace])
    · simp [h.asserted, hnone, hstopped]
  unfold Config.beginExecution
  dsimp only
  split
  · exact (hselected
      { c.coordinator with resumeMode := mode, stepThread := stepThread } hstopped hnone
      rfl c.main (by rw [hplace]; rfl)).consumeInterrupt mode stepThread
  · exact hselected
      { c.coordinator with resumeMode := mode, stepThread := stepThread, resumeStarting := true }
      hstopped hnone rfl { c.main with place := .selected mode stepThread runMain false } rfl

/-- A command that is answered at once leaves the threads stopped. -/
theorem Safe.answer (h : Safe c) (hplace : c.main.place = .protocol) {d : Coordinator}
    {signals : StopSignals} (hstate : d.state = .stopped)
    (hcount : d.executingWorkers = c.coordinator.executingWorkers)
    (howner : d.stopOwner = c.coordinator.stopOwner) (reply : Reply) :
    Safe (answer { c with coordinator := d, signals := signals } reply) := by
  have hstopped := h.handing (by rw [hplace]; rfl)
  exact ⟨hcount.trans h.count, fun _ => hcount.trans (h.quiet hstopped), fun _ => hstate,
    by simp [Config.answer, MainPlace.running], h.placed, h.retired,
    fun _ => (h.owner (by simp [hstopped])).congr rfl rfl howner (by simp [hplace]), h.asserted⟩

theorem Safe.refuse (h : Safe c) (hplace : c.main.place = .protocol) : Safe c.refuse :=
  h.answer hplace (h.handing (by rw [hplace]; rfl)) rfl rfl _

theorem Safe.signals (h : Safe c) (signals : StopSignals) : Safe { c with signals := signals } :=
  { h with }

theorem Safe.command (h : Safe c) (hplace : c.main.place = .protocol) (command : Command) :
    Safe (c.command command) := by
  rw [Config.command, if_neg (not_not.2 hplace)]
  split
  · refine h.answer hplace ?_ ?_ ?_ _ <;> rfl
  · have hcleared := h.signals { c.signals with reemitPendingGuestStop := false }
    obtain ⟨mode, stepThread, runMain, hbegin⟩ | hrefuse := handOut_cases command
    · rw [hbegin]
      exact hcleared.beginExecution hplace _ _ _
    · rw [hrefuse]
      exact hcleared.refuse hplace

theorem Safe.publish (h : Safe c) {mode : ResumeMode} {stepThread : ℕ} {runMain : Bool}
    (hplace : c.main.place = .selected mode stepThread runMain true) : Safe c.publish := by
  simp only [Config.publish, hplace]
  split
  · exact h.consumeInterrupt mode stepThread
  · refine ⟨h.count, by simp, fun hhanding => ?_, fun _ => by simp,
      h.placed, h.retired, fun hfalse => absurd rfl hfalse, h.asserted⟩
    cases runMain <;> simp [MainPlace.handing] at hhanding

theorem Safe.completeStop (h : Safe c) (hplace : c.main.place = .completing)
    (hstate : c.coordinator.state ≠ .running) (hnone : c.coordinator.executingWorkers = 0) :
    Safe c.completeStop := by
  have hstopped :
      (if c.coordinator.state = .stopping then RunState.stopped else c.coordinator.state)
      = .stopped := by
    cases hs : c.coordinator.state <;> simp_all
  refine ⟨h.count, fun _ => hnone, fun _ => hstopped, fun hfalse => absurd hfalse ?_, h.placed,
    h.retired, fun _ => ?_, h.asserted⟩
  · simp [Config.completeStop, Config.answer, MainPlace.running]
  · exact (h.owner hstate).congr rfl rfl rfl (by simp [hplace])

/-! ## Every run -/

/-- No callback begins on a retiring worker. -/
def callbacksCounted (c : Config) : Event → Bool
  | .worker i event => c.workers[i]?.all (·.callbackCounted event)
  | _ => true

theorem Safe.step (h : Safe c) {event : Event} (hgood : callbacksCounted c event) :
    Safe (c.step event) := by
  refine step_induction h fun htakes => ?_
  cases htakes with
  | worker hw =>
    simp only [callbacksCounted, hw, Option.all_some] at hgood
    exact (h.worker hw hgood).executed _
  | workerTransfer hw hplace howner => exact h.workerTransfer hw hplace howner
  | createWorker =>
    have hkept : ∀ {i : ℕ} {w : Worker}, c.workers[i]? = some w →
        (c.workers ++ [({} : Worker)])[i]? = some w := by
      intro i w hw
      obtain ⟨hlt, -⟩ := List.getElem?_eq_some_iff.1 hw
      rw [getElem?_append_left hlt]
      exact hw
    refine ⟨?_, h.quiet, h.handing, h.running, ?_, ?_, fun hstate => ?_, h.asserted⟩
    · simpa using h.count
    · intro w hw
      rcases mem_append.1 hw with hw | hw
      · exact h.placed w hw
      · obtain rfl := mem_singleton.1 hw
        constructor <;> simp [counted, working]
    · intro w hw
      rcases mem_append.1 hw with hw | hw
      · exact h.retired w hw
      · obtain rfl := mem_singleton.1 hw
        simp
    · rcases h.owner hstate with halive | ⟨i, w, hw, hplace, hi⟩ | hswitching
      · exact .inl (stopOwnerAlive_mono halive (fun _ h => h)
          fun i w hw _ hwalive => ⟨w, hkept hw, hwalive⟩)
      · exact .inr (.inl ⟨i, w, hkept hw, hplace, hi⟩)
      · exact .inr (.inr hswitching)
  | requestStop hstate =>
    simp only [requestStop, if_pos hstate]
    refine ⟨h.count, by simp, fun hhanding => ?_, fun _ => by simp,
      h.placed, h.retired, fun _ => .inl (normalizeStopOwner_alive _), h.asserted⟩
    exact absurd (h.handing hhanding) (by simp [hstate])
  | queueStop =>
    exact { h with }
  | haltAll hdue =>
    simp only [haltAll, if_neg hdue]
    refine h.halts (insert .debuggerPause) (.inl ?_)
    rfl
  | signals => exact h.signals _
  | command hplace => exact h.command hplace _
  | clearHalts hplace =>
    simp only [clearHalts, hplace]
    refine h.halts (· \ {.debuggerPause}) (.inr ⟨by rw [hplace]; rfl, ?_⟩)
    rfl
  | publish hplace => exact h.publish hplace
  | main hplace hswitching hmoved => exact h.moved hmoved hswitching (h.running hplace)
  | @mainInstruction halts hplace =>
    have hmoved : MainMoved c { c with main := { c.main with halts := halts } } :=
      .goto (by simp [hplace, MainPlace.handing])
    exact (h.moved hmoved (by simp [hplace]) (h.running (by rw [hplace]; rfl))).executed _
  | overlay hplace howner => exact h.overlay hplace _ howner
  | mainTransfer hplace howner => exact h.mainTransfer hplace howner
  | mainSuperseded hplace hstate =>
    exact h.moved (.goto rfl) (by simp [hplace]) (by simp [hstate])
  | completeBegin hplace =>
    exact { h with
      handing := by simp [MainPlace.handing]
      running := by simp [MainPlace.running]
      owner := fun hstate => (h.owner hstate).congr rfl rfl rfl (by simp [hplace]) }
  | completeStop hplace hstate hnone => exact h.completeStop hplace hstate hnone

/-- The events that hand a command to the threads. -/
def Event.handsOut : Event → Bool
  | .command _ | .publish => true
  | _ => false

/-- The published stop is `(reason, signal)`. -/
def Published (reason : HaltReason) (signal : ℤ) (c : Config) : Prop :=
  c.coordinator.state ≠ .running ∧ c.coordinator.stopReason = reason
    ∧ c.coordinator.stopSignal = signal

variable {reason : HaltReason} {signal : ℤ}

theorem Published.put (h : Published reason signal c) {i : ℕ} {old : Worker}
    (hold : c.workers[i]? = some old) (w : Worker) :
    Published reason signal (c.put i w) := by
  obtain ⟨n, failed, hput, -⟩ := put_eq hold w
  rw [hput]
  exact h

/-- A published stop stays as it is until the next command. -/
theorem Published.step {event : Event} (h : Published reason signal c)
    (hkeeps : event.handsOut = false) :
    Published reason signal (c.step event) := by
  refine step_induction h fun htakes => ?_
  cases htakes with
  | worker hw => exact h.put hw _
  | @workerTransfer i owner w hw =>
    exact @Published.put
      { c with coordinator := { c.coordinator with stopOwner := owner } } _ _ h _ _
      hw _
  | requestStop hstate => exact absurd hstate h.1
  | haltAll hdue =>
    simp only [haltAll, if_neg hdue]
    exact h
  | command | publish => simp [Event.handsOut] at hkeeps
  | clearHalts hplace =>
    simp only [clearHalts, hplace]
    exact h
  | main _ _ hmoved =>
    obtain ⟨m, newer, rfl, -⟩ := hmoved
    exact h
  | completeStop =>
    refine ⟨?_, h.2.1, h.2.2⟩
    simp only [completeStop, answer]
    split
    · simp
    · exact h.1
  | _ => exact h

/-- What the debugger may rely on in a state. -/
structure AllStopped (c : Config) : Prop where
  /-- The counter is the number of runtimes that are marked as executing. -/
  counted : c.coordinator.executingWorkers = c.workers.countP (·.debuggerExecuting)
  /-- No assertion has failed: the counter was never lowered from zero, and every
      `NativeDebuggerBeginExecution` found the threads stopped. -/
  asserted : c.assertionFailed = false
  /-- Between two commands, and until the next one is published, the stop is complete. -/
  protocol : c.main.place.handing = true → c.coordinator.state = .stopped
  /-- After a completed stop no thread is in guest code until a command is published. -/
  quiet : c.coordinator.state = .stopped →
    c.main.place ≠ .guest ∧ ∀ w ∈ c.workers, w.place ≠ .guest
  /-- The owner of a completed stop is alive. -/
  owner : c.coordinator.state = .stopped → c.stopOwnerAlive c.coordinator.stopOwner = true

theorem Safe.allStopped (h : Safe c) : AllStopped c := by
  have hnone : c.coordinator.state = .stopped → ∀ w ∈ c.workers, w.place.counted = false := by
    intro hstopped w hw
    have hcount := h.quiet hstopped
    rw [h.count, countP_eq_zero] at hcount
    exact Bool.eq_false_iff.2 fun hcounted => hcount w hw ((h.placed w hw).counted hcounted)
  refine ⟨h.count, h.asserted, h.handing,
    fun hstopped => ⟨fun hguest => h.running (by rw [hguest]; rfl) hstopped, fun w hw hguest => ?_⟩,
    fun hstopped => ?_⟩
  · exact absurd (hnone hstopped w hw) (by simp [hguest, counted])
  · rcases h.owner (by simp [hstopped]) with halive | ⟨i, w, hw, hplace, -⟩ | ⟨replacement, hplace⟩
    · exact halive
    · exact absurd (hnone hstopped w (mem_of_getElem? hw)) (by simp [hplace, counted])
    · exact absurd hstopped (h.running (by rw [hplace]; rfl))

/-- **All-stop safety.** In every run in which no callback begins on a retiring worker, the counter
    is exact and no assertion fails; from a completed stop until the next command is published no
    thread is in guest code, and the stop owner is alive. A request that is taken while the threads
    run publishes an owner that is alive, and its reason and signal stay until the next command. -/
theorem allStop_safe {events : List Event}
    (hgood : Execution.Always (fun c event => callbacksCounted c event = true) Config.step initial
      events) :
    AllStopped (run Config.step initial events)
      ∧ ∀ before after owner reason forcedSignal forcedPendingSignal queueWhileStopped current,
        events = before ++ .requestStop owner reason forcedSignal forcedPendingSignal
          queueWhileStopped current :: after →
        (run Config.step initial before).coordinator.state = .running →
        (let taken := (run Config.step initial before).step (.requestStop owner reason
          forcedSignal forcedPendingSignal queueWhileStopped current)
        taken.stopOwnerAlive taken.coordinator.stopOwner = true)
        ∧ ((∀ event ∈ after, event.handsOut = false) →
          (run Config.step initial events).coordinator.stopReason
              = Config.publishedReason reason
            ∧ (run Config.step initial events).coordinator.stopSignal
              = normalizeGuestStopSignal
                (Config.stopRequest reason forcedSignal forcedPendingSignal current).signal) := by
  refine ⟨(run_invariant_of_always (fun _ _ h hgood => h.step hgood) safe_initial
    hgood).allStopped, ?_⟩
  intro before after owner reason forcedSignal forcedPendingSignal queueWhileStopped current hevents
    hrunning
  constructor
  · simp only [Config.step, Config.requestStop, if_pos hrunning]
    exact normalizeStopOwner_alive owner
  · intro hkeeps
    have htaken : Published (publishedReason reason) (normalizeGuestStopSignal
        (stopRequest reason forcedSignal forcedPendingSignal current).signal)
        ((run step initial before).step (.requestStop owner reason forcedSignal
          forcedPendingSignal queueWhileStopped current)) := by
      simp only [Config.step, Config.requestStop, if_pos hrunning]
      exact ⟨by simp, rfl, rfl⟩
    have hfinal := run_invariant_of_mem
      (fun _ event hevent h => Published.step h (hkeeps event hevent)) htaken
    rw [hevents, run, foldl_append]
    exact hfinal.2

/-- All threads run, and the worker makes a native call. -/
def nativeCall : List Event :=
  [.createWorker, .command (.continue .all), .clearHalts, .publish, .mainRun,
    .worker 0 .takeCommand, .worker 0 .start, .worker 0 .run, .worker 0 .instruction,
    .worker 0 (.leave {.svc}), .worker 0 .quiescenceBegin]

/-- The debugger interrupts the main runner and collects the stop. -/
def interrupted : List Event :=
  [.interrupt 1, .haltAll, .mainLeave ∅, .completeBegin, .completeStop]

theorem allStop_safe_nativeCall :
    AllStopped (run Config.step initial (nativeCall ++ interrupted))
      ∧ (run Config.step initial (nativeCall ++ interrupted)).coordinator.state = .stopped :=
  ⟨(allStop_safe (by decide +kernel)).1, by decide +kernel⟩

/-- The worker's native call runs a callback, which ends the thread. -/
def retiresInCallback : List Event :=
  [.worker 0 .callbackBegin, .worker 0 .run, .worker 0 (.leave {.svc}), .worker 0 .terminate,
    .workerTransfer 0, .worker 0 .serviceDone]

/-- The native call runs two more callbacks; the first takes the halt of the exit. -/
def moreCallbacks : List Event :=
  [.worker 0 .callbackBegin, .worker 0 .run, .worker 0 (.leave ∅), .worker 0 .callbackBegin,
    .worker 0 .run, .worker 0 .instruction]

/-- The stop is complete, and the retiring worker executes an instruction. -/
theorem retiringCallback_runs_while_stopped :
    let stopped := run Config.step initial (nativeCall ++ retiresInCallback ++ interrupted)
    let later := run Config.step stopped moreCallbacks
    stopped.main.place = .protocol ∧ stopped.coordinator.state = .stopped
      ∧ later.coordinator.state = .stopped ∧ later.main.place = .protocol
      ∧ (∃ w ∈ later.workers, w.place = .guest) ∧ later.executed = stopped.executed + 1 := by
  decide +kernel

end LiveExec32.AllStop
