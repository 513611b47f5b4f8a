import LiveExec32.ThreadState.Snapshot

/-! # A suspension holds the thread

Once a suspension is acknowledged, the owner changes no register before the count is back at zero,
and then a wait that it is in for the suspension ends. The count is the number of suspensions that
were granted less the number of resumptions. -/

namespace LiveExec32.ThreadState

open Config Execution

variable {ρ : Type} {c : Config ρ}

/-- No acknowledgement is being made for a count of zero. -/
theorem Consistent.slotFree_of_resumed (h : Consistent c) (hcount : c.slot.suspendCount = 0) :
    c.slotFree := by
  by_contra hlocked
  obtain ⟨-, -, hfalse⟩ := h.slotLocked (by simpa using hlocked)
  exact hfalse hcount

section

variable [Inhabited ρ]

/-- **A held owner stays held** while the count is not zero. -/
theorem held_step (h : Consistent c) (hack : c.slot.suspendAcknowledged) {event : Event ρ}
    (hcount : (c.step event).slot.suspendCount ≠ 0) :
    (c.step event).slot.suspendAcknowledged ∧ Unmoved c.target (c.step event).target := by
  obtain ⟨-, -, hholds⟩ := h.acknowledged hack
  have hkeeps := step_keeps h event
  exact ⟨hkeeps.acknowledged hack hcount, hkeeps.unmoved hholds⟩

theorem counts_initial (debuggerActive isMain : Bool) (registers : Context ρ) (callers : ℕ) :
    Counts (initial debuggerActive isMain registers callers) := by
  intro _
  simp [initial, List.countP_replicate, Caller.suspends]

/-! ## Every run -/

/-- The owner's wait for a suspension ends with the next turn. -/
theorem released_published (h : Consistent c) {back : Back}
    (hplace : c.target.place = .published back)
    (hcount : c.slot.suspendCount = 0)
    (hreleased : c.slot.requestedGeneration ≤ c.slot.releasedGeneration) :
    (run step c [.target .recheck, .target .publish]).target.place = back.place := by
  have hfree := h.slotFree_of_resumed hcount
  let waiting := c.setTarget { c.target with place := .publishing back }
  have hrecheck : c.step (.target .recheck) = waiting := by
    simp [step, unlocked, move, hplace, waiting]
  have hpublish : waiting.step (.target .publish) = waiting.publish back := by
    have hslot : waiting.slotFree := hfree
    exact if_pos (by simp [unlocked, hslot])
  have hparks : ¬ waiting.slot.parks waiting.target.nativeGuestThreadRetiring := by
    simp [waiting, setTarget, Slot.parks, Slot.pauseRequested, hcount, hreleased]
  simp only [run, List.foldl_cons, List.foldl_nil, hrecheck, hpublish, publish, if_neg hparks]
  rfl

theorem released_gated (h : Consistent c) {gate : Gate} (hplace : c.target.place = .gated gate)
    (hcount : c.slot.suspendCount = 0) (hregisters : c.registersFree) :
    let released := run step c [.target .recheckGate, .target .checkGate]
    released.target.place = .host ∨ released.target.place = .native := by
  have hfree := h.slotFree_of_resumed hcount
  let waiting := c.setTarget { c.target with place := .gate gate }
  have hrecheck : c.step (.target .recheckGate) = waiting := by
    simp [step, unlocked, move, hplace, waiting]
  have hcheck : waiting.step (.target .checkGate) = waiting.checkGate gate := by
    have hlocks : waiting.registersFree ∧ waiting.slotFree := ⟨hregisters, hfree⟩
    exact if_pos (by simp [unlocked, hlocks.1, hlocks.2])
  have hzero : waiting.slot.suspendCount = 0 := hcount
  simp only [run, List.foldl_cons, List.foldl_nil, hrecheck, hcheck, checkGate,
    if_pos (Or.inl hzero)]
  split
  · exact Or.inr rfl
  · exact Or.inl rfl

/-- A suspension returns when it is acknowledged, or when it is over. -/
theorem suspended_acknowledged {k : ℕ} {allStop : Bool}
    (hwaiting : c.callers[k]? = some .suspendWaiting)
    (hsuccess : (c.step (.caller k (.next allStop))).callers[k]? = some (.finished .success none))
    (hcount : (c.step (.caller k (.next allStop))).slot.suspendCount ≠ 0) :
    (c.step (.caller k (.next allStop))).slot.suspendAcknowledged := by
  have hlt := (List.getElem?_eq_some_iff.1 hwaiting).1
  revert hsuccess hcount
  simp only [step, hwaiting, callerStep, advance, suspendWait]
  split
  · intro hfalse
    simp [hwaiting] at hfalse
  · split
    · intro hfalse
      simp [put, hlt] at hfalse
    · rename_i hunacknowledged
      split
      · intro hfalse
        simp [put, hlt] at hfalse
      · rename_i hexited
        intro _ hcount
        have hcount : c.slot.suspendCount ≠ 0 := hcount
        show c.slot.suspendAcknowledged = true
        simpa [Slot.unacknowledged, hcount, hexited] using hunacknowledged

/-- **A suspension holds the thread**, in every run whose acknowledgements find the target held.
    From the return of a suspension until the count is back at zero the target executes no
    instruction and is given no result; the count is what was granted less what was taken back; and
    a target that waits only for the suspension goes on when the count is zero. -/
theorem suspension_holds {debuggerActive isMain : Bool} {registers : Context ρ} {callers : ℕ}
    {events : List (Event ρ)}
    (hgood : Execution.Always (fun c event => findsHeld c event = true) Config.step
      (initial debuggerActive isMain registers callers) events) :
    let c := Execution.run Config.step (initial debuggerActive isMain registers callers) events
    (∀ before k allStop after, events = before ++ .caller k (.next allStop) :: after →
      let waiting := Execution.run Config.step
        (initial debuggerActive isMain registers callers) before
      let returned := waiting.step (.caller k (.next allStop))
      waiting.callers[k]? = some .suspendWaiting →
      returned.callers[k]? = some (.finished .success none) →
      returned.slot.suspendCount ≠ 0 →
      Execution.Always (fun c event => (c.step event).slot.suspendCount ≠ 0) Config.step returned
        after →
      Unmoved returned.target c.target)
    ∧ (c.slot.ownerExited = false →
      c.slot.suspendCount + c.resumed = c.suspended + c.callers.countP Caller.suspends)
    ∧ (c.slot.suspendCount = 0 → c.resume.1 ≠ .success ∧ c.resume.2 = c)
    ∧ (c.slot.suspendCount = 0 →
      (∀ back, c.target.place = .published back →
        c.slot.requestedGeneration ≤ c.slot.releasedGeneration →
        (Execution.run Config.step c [.target .recheck, .target .publish]).target.place
          = back.place)
      ∧ ∀ gate, c.target.place = .gated gate → c.registersFree = true →
        let released := Execution.run Config.step c [.target .recheckGate, .target .checkGate]
        released.target.place = .host ∨ released.target.place = .native) := by
  intro c
  have hstep : ∀ (s : Config ρ) event, Consistent s ∧ Counts s → findsHeld s event →
      Consistent (s.step event) ∧ Counts (s.step event) :=
    fun _ event h hheld => ⟨h.1.step hheld, (step_keeps h.1 event).counts h.2⟩
  obtain ⟨hconsistent, hcounts⟩ : Consistent c ∧ Counts c :=
    run_invariant_of_always hstep ⟨consistent_initial debuggerActive isMain registers callers,
      counts_initial debuggerActive isMain registers callers⟩ hgood
  refine ⟨?_, hcounts, ?_, ?_⟩
  · intro before k allStop after hevents waiting returned hwaiting hsuccess hcount hstays
    rw [hevents] at hgood
    obtain ⟨hbefore, hreturn, hafter⟩ := always_append.1 hgood
    have hheld : Consistent returned := Consistent.step (run_invariant_of_always
      (fun _ _ h hheld => h.step hheld)
      (consistent_initial debuggerActive isMain registers callers) hbefore) hreturn
    have hack : returned.slot.suspendAcknowledged := suspended_acknowledged hwaiting hsuccess hcount
    have hstep : ∀ s event, (Consistent s ∧ s.slot.suspendAcknowledged
          ∧ Unmoved returned.target s.target) →
        (findsHeld s event ∧ (s.step event).slot.suspendCount ≠ 0) →
        Consistent (s.step event) ∧ (s.step event).slot.suspendAcknowledged
          ∧ Unmoved returned.target (s.step event).target := by
      intro s event ⟨hs, hs_ack, hunmoved⟩ ⟨hfinds, hcount⟩
      obtain ⟨hack', hunmoved'⟩ := held_step hs hs_ack hcount
      exact ⟨hs.step hfinds, hack', hunmoved.trans hunmoved'⟩
    have hfinal := run_invariant_of_always hstep ⟨hheld, hack, .refl _⟩ (hafter.and hstays)
    have hrun : c = run step returned after := by
      simp only [c, hevents, run, List.foldl_append, List.foldl_cons]
      rfl
    rw [hrun]
    exact hfinal.2.2
  · intro hzero
    unfold resume
    split
    · exact ⟨by simp, rfl⟩
    · exact ⟨by simp, by simp⟩
  · intro hzero
    exact ⟨fun back hplace => released_published hconsistent hplace hzero,
      fun gate hplace hregisters => released_gated hconsistent hplace hzero hregisters⟩

end

/-- A thread in guest code is suspended; it acknowledges, and the call returns. -/
def suspendedInGuest : List (Event Bool) :=
  [.target .command, .target (.run true), .caller 0 .suspend, .caller 0 (.next false),
    .target (.leave false), .target .consume, .target .publish]

/-- The thread tries to go on. -/
def triesToRun : List (Event Bool) :=
  [.target .recheck, .target (.instruction fun _ => true), .target .publish]

theorem suspension_holds_inGuest :
    Unmoved ((Execution.run Config.step (initial false false (fun _ => false) 1)
        suspendedInGuest).step (.caller 0 (.next false))).target
      (Execution.run Config.step (initial false false (fun _ => false) 1)
        (suspendedInGuest ++ .caller 0 (.next false) :: triesToRun)).target :=
  (suspension_holds (by decide +kernel)).1 suspendedInGuest 0 false triesToRun rfl
    (by decide +kernel)
    (by decide +kernel) (by decide +kernel) (by decide +kernel)

/-- The worker of a suspension that has returned is given the result of its host wait. -/
theorem suspended_result_written :
    let suspended := Execution.run Config.step (initial true false (fun _ => false) 1)
      suspendedInHostWait
    let c := Execution.run Config.step suspended
      [.target .debuggerWake, .target (.write fun _ => true)]
    suspended.callers[0]? = some (.finished .success none) ∧ c.slot.suspendCount = 1
      ∧ c.target.results = suspended.target.results + 1
      ∧ c.target.registers .regs ≠ suspended.target.registers .regs := by
  decide +kernel

end LiveExec32.ThreadState
