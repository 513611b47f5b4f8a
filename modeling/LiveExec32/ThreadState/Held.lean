import LiveExec32.ThreadState.Slot

/-! # What holds the owner of a slot

`Consistent` says what a quiescent register file, a thread that the debugger has parked, and an
acknowledged suspension have in common: the owner is at a place from which it writes no register
before it has taken a mutex that a copier holds, or before the suspension ends. -/

namespace LiveExec32.ThreadState

open Config Slot

variable {ρ : Type}

/-! ## Places -/

/-- The places of the owner while its registers are quiescent. -/
def Place.quiescent : Place → Bool
  | .native => true
  | .resuming next | .gate next | .gated next | .pausedGated next =>
    next == .quiescenceEnd || next == .callbackBegin || next == .quiescenceBegin
  | _ => false

/-- The places at which the debugger has parked the owner, if it is not in a native call. -/
def Place.parked : Place → Bool
  | .idle | .pausedHost | .pausedPublished _ | .pausedGated _ | .exited => true
  | _ => false

/-- The places in a native call, before it opens another scope. -/
def Place.inCall : Place → Bool
  | .native | .resuming _ => true
  | _ => false

/-- The places in a native call. -/
def Place.inNative : Place → Bool
  | .native | .resuming _ => true
  | .gate next | .gated next | .pausedGated next => next == .quiescenceBegin
  | _ => false

namespace Target

/-- The debugger has parked the owner. -/
def parked (t : Target ρ) : Bool :=
  t.place.parked || (t.debuggerHostCallQuiescent && t.place.inNative)

/-- The owner is in a native call, or is parked for one. -/
def inCall (t : Target ρ) : Bool := t.debuggerHostCallQuiescent || t.place.inCall

/-- The `ThreadState` halt is raised, or the owner has seen it. -/
def armed (t : Target ρ) : Bool :=
  t.halted || match t.place with
    | .left halted _ => halted
    | .publishing _ | .published _ | .pausedPublished _ => true
    | _ => false

/-- The owner comes to the next wait for the end of its suspension before it changes a register. -/
def holds (t : Target ρ) : Bool :=
  match t.place with
  | .idle | .ready => t.halted && !t.guestDeferredSVC
  | .guest => t.halted
  | .left halted _ => halted
  | .publishing _ | .published _ | .asking | .native | .resuming _ | .gate _ | .gated _
  | .pausedPublished _ | .pausedGated _ => true
  | .ran _ | .host | .pausedHost | .stopped | .exited => false

end Target

/-! ## The invariant -/

/-- What has been copied is what the registers are. -/
def Caller.agrees (registers : Context ρ) : Caller ρ → Prop
  | .copying _ left copied => ∀ field, field ∉ left → copied field = registers field
  | _ => True

structure Consistent (c : Config ρ) : Prop where
  quiescent : c.slot.hostRegistersQuiescent = true → c.target.place.quiescent = true
  inNative : c.target.debuggerHostCallQuiescent = true → c.target.place.inNative = true
  inCall : c.target.inCall = true → c.slot.hostRegistersQuiescent = true
  outside : c.slot.hostRegistersQuiescent = true → c.slot.guestCallbackDepth = 0
  /-- An owner that is not counted is parked. -/
  counted : c.debuggerActive = true → c.target.nativeGuestThreadRetiring = false →
    c.target.debuggerExecuting = false → c.target.parked = true
  exited : c.slot.ownerExited = true → c.slot.suspendCount = 0
  armed : c.slot.suspendCount ≠ 0 → c.target.nativeGuestThreadRetiring = false →
    c.target.armed = true
  acknowledged : c.slot.suspendAcknowledged = true → c.slot.suspendCount ≠ 0
    ∧ c.target.nativeGuestThreadRetiring = false ∧ c.target.holds = true
  /-- The snapshot of an acknowledged suspension is not out of date. -/
  current : c.slot.suspendAcknowledged = true → c.slot.snapshotValid = true →
    c.slot.snapshot = c.target.registers
  registersLocked : c.registersFree = false → c.slot.hostRegistersQuiescent = true
  debuggerLocked : c.debuggerFree = false → c.target.debuggerExecuting = false
    ∧ c.target.nativeGuestThreadRetiring = false ∧ c.target.parked = true
  slotLocked : c.slotFree = false → c.target.nativeGuestThreadRetiring = false
    ∧ c.target.holds = true ∧ c.slot.suspendCount ≠ 0
  agrees : ∀ caller ∈ c.callers, caller.agrees c.target.registers

variable {c : Config ρ} {caller : Caller ρ} {copy : Copy} {t' : Target ρ}

theorem Consistent.notQuiescent (h : Consistent c) (hplace : c.target.place.quiescent = false) :
    c.slot.hostRegistersQuiescent = false := by
  by_contra hflag
  simp [h.quiescent (by simpa using hflag)] at hplace

/-- Nobody copies quiescent registers where they are not. -/
theorem Consistent.registersFree (h : Consistent c) (hplace : c.target.place.quiescent = false) :
    c.registersFree := by
  by_contra hlocked
  have hflag := h.registersLocked (by simpa using hlocked)
  simp [h.notQuiescent hplace] at hflag

theorem Consistent.debuggerFree (h : Consistent c) (hparked : c.target.parked = false) :
    c.debuggerFree := by
  by_contra hlocked
  obtain ⟨-, -, hfalse⟩ := h.debuggerLocked (by simpa using hlocked)
  simp [hparked] at hfalse

/-- While the owner can change a register, nobody copies. -/
theorem Consistent.uncopied (h : Consistent c) (hquiescent : c.target.place.quiescent = false)
    (hparked : c.target.parked = false) (hmem : caller ∈ c.callers) (registers : Context ρ) :
    caller.agrees registers := by
  cases caller with
  | copying copy =>
    have hr := List.all_eq_true.1 (h.registersFree hquiescent) _ hmem
    have hd := List.all_eq_true.1 (h.debuggerFree hparked) _ hmem
    cases copy <;> simp [Caller.holdsRegisters, Caller.holdsDebugger] at hr hd
  | _ => trivial

/-- Whether an acknowledgement or a copy finds the owner held: it is not retiring, and the debugger
    has not parked it in a host wait or before a deferred supervisor call. -/
def findsHeld [Inhabited ρ] (c : Config ρ) : Event ρ → Bool
  | .target .nested => !(c.target.nativeGuestThreadRetiring && c.slot.unacknowledged)
  | .caller k (.next _) =>
    match c.callers[k]? with
    | some .askingDebugger =>
      !c.debuggerActive || !c.target.nativeGuestThreadRetiring || c.target.debuggerExecuting
    | some .acknowledging =>
      !c.target.nativeGuestThreadRetiring || !c.slot.quiescent || !c.slot.unacknowledged
    | some .acknowledgingStopped =>
      (!c.target.nativeGuestThreadRetiring && c.target.holds)
        || c.target.debuggerExecuting || !c.slot.unacknowledged || !c.parksWorker
    | _ => true
  | _ => true

/-! ## The owner's steps -/

/-- Wherever the owner was held it is still held, and nothing else of it has changed but its place,
    its halt and its deferred supervisor call. -/
structure StaysHeld (t t' : Target ρ) : Prop where
  registers : t'.registers = t.registers
  retiring : t'.nativeGuestThreadRetiring = t.nativeGuestThreadRetiring
  executing : t'.debuggerExecuting = t.debuggerExecuting
  hostCall : t'.debuggerHostCallQuiescent = t.debuggerHostCallQuiescent
  quiescent : t.place.quiescent = true → t'.place.quiescent = true
  inNative : t.place.inNative = true → t'.place.inNative = true
  inCall : t'.inCall = true → t.inCall = true
  parked : t.parked = true → t'.parked = true
  armed : t.armed = true → t'.armed = true
  holds : t.holds = true → t'.holds = true

/-- The owner goes on with the registers it has, and wherever it was held it is still held. -/
theorem Consistent.retarget (h : Consistent c) (hregisters : t'.registers = c.target.registers)
    (hretiring : t'.nativeGuestThreadRetiring = c.target.nativeGuestThreadRetiring)
    (hquiescent : c.target.place.quiescent → t'.place.quiescent)
    (hnative : t'.debuggerHostCallQuiescent → t'.place.inNative)
    (hinCall : t'.inCall → c.target.inCall)
    (hcounted : c.debuggerActive → c.target.nativeGuestThreadRetiring = false →
      t'.debuggerExecuting = false → t'.parked)
    (harmed : c.target.armed → t'.armed) (hholds : c.target.holds → t'.holds)
    (hlocked : c.debuggerFree = false → t'.debuggerExecuting = false ∧ t'.parked) :
    Consistent (c.setTarget t') where
  quiescent hflag := hquiescent (h.quiescent hflag)
  inNative := hnative
  inCall hcall := h.inCall (hinCall hcall)
  outside := h.outside
  counted hactive hnot := hcounted hactive (hretiring.symm.trans hnot)
  exited := h.exited
  armed hcount hnot := harmed (h.armed hcount (hretiring.symm.trans hnot))
  acknowledged hack := by
    obtain ⟨hcount, hnot, hheld⟩ := h.acknowledged hack
    exact ⟨hcount, hretiring.trans hnot, hholds hheld⟩
  current hack hvalid := (h.current hack hvalid).trans hregisters.symm
  registersLocked := h.registersLocked
  debuggerLocked hbusy := by
    obtain ⟨-, hnot, -⟩ := h.debuggerLocked hbusy
    exact ⟨(hlocked hbusy).1, hretiring.trans hnot, (hlocked hbusy).2⟩
  slotLocked hbusy := by
    obtain ⟨hnot, hheld, hcount⟩ := h.slotLocked hbusy
    exact ⟨hretiring.trans hnot, hholds hheld, hcount⟩
  agrees caller hmem := by
    show caller.agrees t'.registers
    rw [hregisters]
    exact h.agrees caller hmem

theorem Consistent.staysHeld (h : Consistent c) (hheld : StaysHeld c.target t') :
    Consistent (c.setTarget t') := by
  refine h.retarget hheld.registers hheld.retiring hheld.quiescent ?_ hheld.inCall ?_ hheld.armed
    hheld.holds ?_
  · exact fun hnative => hheld.inNative (h.inNative (hheld.hostCall.symm.trans hnative))
  · exact fun hactive hretiring hexecuting =>
      hheld.parked (h.counted hactive hretiring (hheld.executing.symm.trans hexecuting))
  · intro hlocked
    obtain ⟨hexecuting, -, hparked⟩ := h.debuggerLocked hlocked
    exact ⟨hheld.executing.trans hexecuting, hheld.parked hparked⟩

/-- The owner changes its registers where nothing holds it. -/
theorem Consistent.overwrite (h : Consistent c) (hquiescent : c.target.place.quiescent = false)
    (hparked : c.target.parked = false) (hholds : c.target.holds = false) (registers : Context ρ)
    (instructions results : ℕ) :
    Consistent (c.setTarget { c.target with
      registers := registers, instructions := instructions, results := results }) := by
  refine { h with
    current := fun hack => ?_
    agrees := fun caller hmem => h.uncopied hquiescent hparked hmem registers }
  obtain ⟨-, -, hheld⟩ := h.acknowledged hack
  simp [hholds] at hheld

/-- The registers are published where the owner is held. -/
theorem Consistent.acknowledge (h : Consistent c) (hheld : c.slot.suspendCount ≠ 0 →
    c.target.nativeGuestThreadRetiring = false ∧ c.target.holds) :
    Consistent { c with slot := c.slot.acknowledge c.target.registers } := by
  refine { h with acknowledged := fun hack => ?_, current := fun _ _ => rfl }
  have hcount : c.slot.suspendCount ≠ 0 := by simpa [Slot.acknowledge] using hack
  exact ⟨hcount, hheld hcount⟩

variable {s' : Slot ρ}

/-- The owner goes on from a wait, where nobody copies and no suspension is acknowledged. -/
theorem Consistent.goOn (h : Consistent c) (hregistersFree : c.registersFree)
    (hslotFree : c.slotFree) (hparked : c.target.parked = false)
    (hack : s'.suspendAcknowledged = false) (hexited : s'.ownerExited → s'.suspendCount = 0)
    (harmed : s'.suspendCount ≠ 0 → t'.nativeGuestThreadRetiring = false → t'.armed)
    (hquiescent : s'.hostRegistersQuiescent → t'.place.quiescent)
    (hinCall : t'.place.inCall → s'.hostRegistersQuiescent)
    (houtside : s'.hostRegistersQuiescent → s'.guestCallbackDepth = 0)
    (hregisters : t'.registers = c.target.registers)
    (hretiring : t'.nativeGuestThreadRetiring = false → c.target.nativeGuestThreadRetiring = false)
    (hexecuting : t'.debuggerExecuting = c.target.debuggerExecuting)
    (hhostCall : t'.debuggerHostCallQuiescent = c.target.debuggerHostCallQuiescent) :
    Consistent { c with target := t', slot := s' } := by
  have hnative : c.target.debuggerHostCallQuiescent = false := by
    by_contra hflag
    have hplace := h.inNative (by simpa using hflag)
    simp [Target.parked, hplace] at hparked
    simp [hparked.2] at hflag
  refine ⟨hquiescent, ?_, fun hcall => hinCall ?_, houtside, ?_, hexited, harmed, ?_,
    ?_, ?_, ?_, ?_,
    ?_⟩
  · intro hflag
    simp [hhostCall, hnative] at hflag
  · simpa [Target.inCall, hhostCall, hnative] using hcall
  · intro hactive hnot hcounted
    have hfalse := h.counted hactive (hretiring hnot) (hexecuting.symm.trans hcounted)
    simp [hparked] at hfalse
  · exact by simp [hack]
  · exact by simp [hack]
  · exact fun hlocked => absurd (hregistersFree.symm.trans hlocked) nofun
  · exact fun hlocked => absurd ((h.debuggerFree hparked).symm.trans hlocked) nofun
  · exact fun hlocked => absurd (hslotFree.symm.trans hlocked) nofun
  · rw [hregisters]
    exact h.agrees

/-- No acknowledgement is being made where the owner is not held. -/
theorem Consistent.slotFree (h : Consistent c) (hholds : c.target.holds = false) : c.slotFree := by
  by_contra hlocked
  obtain ⟨-, hheld, -⟩ := h.slotLocked (by simpa using hlocked)
  simp [hholds] at hheld

theorem Consistent.unacknowledged (h : Consistent c) (hholds : c.target.holds = false) :
    c.slot.suspendAcknowledged = false := by
  by_contra hack
  obtain ⟨-, -, hheld⟩ := h.acknowledged (by simpa using hack)
  simp [hholds] at hheld

/-- The suspension of a retiring owner is not acknowledged. -/
theorem Consistent.unacknowledged_of_retiring (h : Consistent c)
    (hnone : c.slot.suspendCount ≠ 0 → c.target.nativeGuestThreadRetiring) :
    c.slot.suspendAcknowledged = false := by
  by_contra hack
  obtain ⟨hcount, hretiring, -⟩ := h.acknowledged (by simpa using hack)
  simp [hnone hcount] at hretiring

section

attribute [local simp] Target.holds Target.armed Target.parked Target.inCall Place.quiescent
  Place.parked Place.inNative Place.inCall

theorem Consistent.publish (h : Consistent c) {back : Back}
    (hplace : c.target.place = .publishing back)
    (hslotFree : c.slotFree) : Consistent (c.publish back) := by
  have hholds : c.target.holds := by simp [hplace]
  unfold Config.publish
  split
  · rename_i hparks
    have hretiring : c.target.nativeGuestThreadRetiring = false := by
      simp only [parks, Bool.and_eq_true, Bool.not_eq_true'] at hparks
      exact hparks.2
    have hslot : Consistent { c with slot := c.slot.publish c.target.registers } := by
      unfold Slot.publish
      split
      · exact h.acknowledge fun _ => ⟨hretiring, hholds⟩
      · rename_i hnot
        have hsame : c.slot.suspendCount ≠ 0 → c.slot.suspendAcknowledged := by
          intro hcount
          by_contra hack
          exact hnot (.inr ⟨hcount, by simpa using hack⟩)
        exact { h with
          acknowledged := fun hack => ⟨by simpa using hack, hretiring, hholds⟩
          current := fun hack => h.current (hsame (by simpa using hack)) }
    refine hslot.staysHeld ?_
    constructor <;> simp_all
  · rename_i hparks
    -- a suspension or a request would have parked the owner, unless it is retiring
    have hnone : c.slot.suspendCount ≠ 0 → c.target.nativeGuestThreadRetiring := by
      intro hcount
      have hexited : c.slot.ownerExited = false := by
        by_contra hexited
        exact hcount (h.exited (by simpa using hexited))
      by_contra hretiring
      exact hparks (by simpa [parks, pauseRequested, hcount, hexited] using hretiring)
    have hquiescent : c.target.place.quiescent = false := by rw [hplace]; rfl
    have hparked : c.target.parked = false := by simp [hplace]
    refine h.goOn (h.registersFree hquiescent) hslotFree hparked
      (h.unacknowledged_of_retiring hnone) h.exited ?_ ?_ ?_ h.outside rfl id rfl rfl
    · intro hcount hretiring
      simp [hnone hcount] at hretiring
    · intro hflag
      simp [h.notQuiescent hquiescent] at hflag
    · cases back <;> simp [Back.place]

/-- A transition leaves the suspension and the snapshot as they are. -/
theorem Slot.pass_keeps (s : Slot ρ) (gate : Gate) : (s.pass gate).suspendCount = s.suspendCount
      ∧ (s.pass gate).suspendAcknowledged = s.suspendAcknowledged
      ∧ (s.pass gate).ownerExited = s.ownerExited
      ∧ (s.pass gate).snapshotValid = s.snapshotValid ∧ (s.pass gate).snapshot = s.snapshot := by
  cases gate with
  | quiescenceBegin =>
    simp only [Slot.pass]
    split <;> simp
  | _ => simp [pass]

/-- A native call that the debugger has parked opens another scope. -/
theorem Consistent.nestedScope (h : Consistent c) {gate : Gate}
    (hplace : c.target.place = .gate gate)
    (hcall : c.target.debuggerHostCallQuiescent) :
    Consistent { c with
      slot := c.slot.pass gate
      target := { c.target with
        place := if (c.slot.pass gate).hostRegistersQuiescent ∧ gate = .quiescenceBegin then .native
          else .host } } := by
  obtain rfl : gate = .quiescenceBegin := by simpa [hplace] using h.inNative hcall
  have hflag : c.slot.hostRegistersQuiescent := h.inCall (by simp [hcall])
  obtain ⟨hcount, hack, hexited, hvalid, hsnapshot⟩ := c.slot.pass_keeps .quiescenceBegin
  have hquiescent : (c.slot.pass .quiescenceBegin).hostRegistersQuiescent
      ∧ (c.slot.pass .quiescenceBegin).guestCallbackDepth = 0 := by
    simp only [Slot.pass]
    split
    · exact ⟨hflag, h.outside hflag⟩
    · simpa using h.outside hflag
  have hslot : Consistent { c with slot := c.slot.pass .quiescenceBegin } := { h with
    quiescent := fun _ => h.quiescent hflag
    inCall := fun _ => hquiescent.1
    outside := fun _ => hquiescent.2
    exited := by rw [hexited, hcount]; exact h.exited
    armed := by rw [hcount]; exact h.armed
    acknowledged := by rw [hack, hcount]; exact h.acknowledged
    current := by rw [hack, hvalid, hsnapshot]; exact h.current
    registersLocked := fun _ => hquiescent.1
    slotLocked := by rw [hcount]; exact h.slotLocked }
  rw [if_pos ⟨hquiescent.1, rfl⟩]
  refine hslot.staysHeld ?_
  constructor <;> simp_all

theorem Consistent.checkGate (h : Consistent c) {gate : Gate} (hplace : c.target.place = .gate gate)
    (hregistersFree : c.registersFree) (hslotFree : c.slotFree) :
    Consistent (c.checkGate gate) := by
  unfold Config.checkGate
  split
  · rename_i hpass
    by_cases hcall : c.target.debuggerHostCallQuiescent
    · exact h.nestedScope hplace hcall
    have hparked : c.target.parked = false := by simp [hplace, hcall]
    have hnone : c.slot.suspendCount ≠ 0 → c.target.nativeGuestThreadRetiring := by
      intro hcount
      rcases hpass with hzero | hexited | hretiring
      · exact absurd hzero hcount
      · exact absurd (h.exited hexited) hcount
      · exact hretiring
    obtain ⟨hcount, hack, hexited, -⟩ := c.slot.pass_keeps gate
    refine h.goOn hregistersFree hslotFree hparked
      (hack.trans (h.unacknowledged_of_retiring hnone)) ?_ ?_ ?_ ?_ ?_ rfl id rfl rfl
    · rw [hcount, hexited]
      exact h.exited
    · rw [hcount]
      intro hcount hretiring
      simp [hnone hcount] at hretiring
    · cases gate <;> simp_all [Slot.pass]
    · dsimp only
      split
      · next hflag => exact fun _ => hflag.1
      · simp
    · have houtside := h.outside
      cases gate with
      | quiescenceBegin =>
        simp only [Slot.pass]
        split
        · exact houtside
        · simp
      | _ => simp [Slot.pass]
  · rename_i hwait
    have hretiring : c.target.nativeGuestThreadRetiring = false := by
      by_contra hretiring
      exact hwait (.inr (.inr (by simpa using hretiring)))
    refine (h.acknowledge fun _ => ⟨hretiring, by simp [hplace]⟩).staysHeld ?_
    constructor <;> simp_all

theorem Consistent.move (h : Consistent c) {event : TargetEvent ρ} (hfree : c.unlocked event)
    (hnested : event = .nested → c.target.nativeGuestThreadRetiring →
      c.slot.unacknowledged = false) : Consistent (c.move event) := by
  cases event with
  | run _ | leave _ | consume | again | service | callbackReturned | enterRun | ask | asked
  | recheck | stop | recheckGate | pauseHostWait | leaveNative _ | retired =>
    simp only [Config.move]
    repeat' split
    all_goals first
      | exact h
      | refine h.staysHeld ?_
        constructor <;> simp_all
  | enterGate =>
    simp only [Config.move]
    split
    · rename_i hguard
      refine h.staysHeld ?_
      rcases hguard with ⟨hplace, -⟩ | ⟨hplace, rfl⟩ <;> constructor <;> simp_all
    · exact h
  | instruction =>
    simp only [Config.move]
    split
    · rename_i hguard
      apply h.overwrite <;> simp [hguard.1, hguard.2]
    · exact h
  | write =>
    simp only [Config.move]
    split
    · rename_i hplace
      apply h.overwrite <;> simp [hplace]
    · exact h
  | publish =>
    simp only [Config.move]
    split
    · next back hplace => exact h.publish hplace (by simpa [unlocked] using hfree)
    · exact h
  | debuggerPause | debuggerWake | resumeNative | parkNative | park | command =>
    have hdebugger : c.debuggerFree := by simpa [unlocked] using hfree
    have hnative := h.inNative
    have hcounted := h.counted
    have hbusy : c.debuggerFree = false → False := by simp [hdebugger]
    simp only [Config.move]
    repeat' split
    all_goals first
      | exact h
      | refine h.retarget rfl rfl ?_ ?_ ?_ ?_ ?_ ?_ fun hlocked => (hbusy hlocked).elim <;> simp_all
  | nested =>
    simp only [Config.move]
    split
    · rename_i hplace
      unfold acknowledgeNested
      split
      · rename_i hpending
        refine h.acknowledge fun hcount => ⟨?_, by simp [hplace]⟩
        by_contra hretiring
        have hunacknowledged := hnested rfl (by simpa using hretiring)
        have hack : c.slot.suspendAcknowledged := by
          simpa [Slot.unacknowledged, hcount, hpending.2] using hunacknowledged
        exact hretiring (h.acknowledged hack).2.1
      · exact h
    · exact h
  | checkGate =>
    have hlocks : c.registersFree ∧ c.slotFree := by
      simpa [unlocked] using hfree
    simp only [Config.move]
    split
    · next gate hplace => exact h.checkGate hplace hlocks.1 hlocks.2
    · exact h
  | callbackEnd =>
    simp only [Config.move]
    split
    · rename_i hguard
      have hholds : c.target.holds = false := by simp [hguard.1]
      have hparked : c.target.parked = false := by simp [hguard.1]
      refine h.goOn (h.registersFree (by rw [hguard.1]; rfl)) (h.slotFree hholds) hparked
        (h.unacknowledged hholds) h.exited ?_ ?_ ?_ ?_ rfl id rfl rfl
      · intro hcount hretiring
        have harmed := h.armed hcount hretiring
        have hhalted : c.target.halted := by simpa [hguard.1] using harmed
        simp [hhalted]
      · intro hflag
        simp only [hflag]
        rfl
      · cases c.slot.callbackEnd.hostRegistersQuiescent <;> simp
      · simp only [Slot.callbackEnd, Bool.and_eq_true, beq_iff_eq]
        omega
    · exact h
  | terminate =>
    simp only [Config.move]
    split
    · rename_i hguard
      have hholds : c.target.holds = false := by simp [hguard.1]
      have hparked : c.target.parked = false := by simp [hguard.1]
      exact h.goOn (h.registersFree (by rw [hguard.1]; rfl)) (h.slotFree hholds) hparked
        (h.unacknowledged hholds) h.exited (by simp) h.quiescent (by simp [hguard.1]) h.outside rfl
        (nofun) rfl rfl
    · exact h
  | exit =>
    have hslotFree : c.slotFree := by simpa [unlocked] using hfree
    simp only [Config.move]
    split
    · rename_i hguard
      refine { h with
        quiescent := fun hflag => ?_
        inNative := fun hflag => ?_
        inCall := fun hflag => ?_
        counted := fun _ _ _ => rfl
        exited := fun _ => rfl
        armed := fun hfalse => absurd rfl hfalse
        acknowledged := by simp [exit]
        current := by simp [exit]
        debuggerLocked := fun hlocked => ?_
        slotLocked := fun hlocked => absurd (hslotFree.symm.trans hlocked) nofun }
      · have hfalse := h.quiescent hflag
        simp [hguard.1] at hfalse
      · have hfalse := h.inNative hflag
        simp [hguard.1] at hfalse
      · exact h.inCall (by simpa [hguard.1] using hflag)
      · obtain ⟨hexecuting, hretiring, -⟩ := h.debuggerLocked hlocked
        exact ⟨hexecuting, hretiring, rfl⟩
    · exact h

end

/-! ## The callers' steps -/

variable {holds : Caller ρ → Bool} {callers : List (Caller ρ)} {k : ℕ}

theorem free_set (hlocked : (callers.set k caller).all (!holds ·) = false) :
    callers.all (!holds ·) = false ∨ holds caller := by
  simp only [List.all_eq_false, Bool.not_eq_true', Bool.not_eq_false] at hlocked ⊢
  obtain ⟨x, hx, hholds⟩ := hlocked
  rcases List.mem_or_eq_of_mem_set hx with hx | rfl
  · exact .inl ⟨x, hx, hholds⟩
  · exact .inr hholds

/-- A caller moves; what it locks protects what it copies. -/
theorem Consistent.put (h : Consistent c) (k : ℕ)
    (hregisters : caller.holdsRegisters → c.slot.hostRegistersQuiescent)
    (hdebugger : caller.holdsDebugger → c.target.debuggerExecuting = false
      ∧ c.target.nativeGuestThreadRetiring = false ∧ c.target.parked)
    (hslot : caller.holdsSlot → c.target.nativeGuestThreadRetiring = false
      ∧ c.target.holds ∧ c.slot.suspendCount ≠ 0)
    (hagrees : caller.agrees c.target.registers) : Consistent (c.put k caller) := by
  refine { h with
    registersLocked := fun hlocked => (free_set hlocked).elim h.registersLocked hregisters
    debuggerLocked := fun hlocked => (free_set hlocked).elim h.debuggerLocked hdebugger
    slotLocked := fun hlocked => (free_set hlocked).elim h.slotLocked hslot
    agrees := fun x hx => ?_ }
  rcases List.mem_or_eq_of_mem_set hx with hx | rfl
  · exact h.agrees x hx
  · exact hagrees

/-- A caller that is not copying. -/
def Caller.plain : Caller ρ → Bool
  | .copying _ _ _ => false
  | _ => true

theorem Consistent.putPlain (h : Consistent c) (k : ℕ) (hplain : caller.plain) :
    Consistent (c.put k caller) := by
  cases caller with
  | copying => simp [Caller.plain] at hplain
  | _ =>
    exact h.put k nofun nofun nofun trivial

/-- The `ThreadState` halt is raised. -/
theorem Consistent.halt (h : Consistent c)
    (hquiescent : s'.hostRegistersQuiescent = c.slot.hostRegistersQuiescent)
    (hdepth : s'.guestCallbackDepth = c.slot.guestCallbackDepth)
    (hexited : s'.ownerExited → s'.suspendCount = 0)
    (hcount : c.slot.suspendCount ≠ 0 → s'.suspendCount ≠ 0)
    (hack : s'.suspendAcknowledged → s'.suspendCount ≠ 0 ∧ c.slot.suspendAcknowledged)
    (hcurrent : s'.suspendAcknowledged → s'.snapshotValid → s'.snapshot = c.target.registers) :
    Consistent { c with slot := s', target := { c.target with halted := true } } := by
  have hholds : c.target.holds → Target.holds { c.target with halted := true } := by
    unfold Target.holds
    cases c.target.place <;> simp
  refine { h with
    quiescent := fun hflag => h.quiescent (hquiescent.symm.trans hflag)
    inCall := fun hcall => hquiescent.trans (h.inCall hcall)
    outside := fun hflag => hdepth.trans (h.outside (hquiescent.symm.trans hflag))
    exited := hexited
    armed := fun _ _ => rfl
    acknowledged := fun hacknowledged => ?_
    current := hcurrent
    registersLocked := fun hlocked => hquiescent.trans (h.registersLocked hlocked)
    slotLocked := fun hlocked => ?_ }
  · obtain ⟨hcount, hold⟩ := hack hacknowledged
    obtain ⟨-, hretiring, hheld⟩ := h.acknowledged hold
    exact ⟨hcount, hretiring, hholds hheld⟩
  · obtain ⟨hretiring, hheld, hold⟩ := h.slotLocked hlocked
    exact ⟨hretiring, hholds hheld, hcount hold⟩

/-- The `ThreadState` halt may be cleared while nobody is suspended. -/
theorem Consistent.unhalt {halted : Bool} (h : Consistent c)
    (hquiescent : s'.hostRegistersQuiescent = c.slot.hostRegistersQuiescent)
    (hdepth : s'.guestCallbackDepth = c.slot.guestCallbackDepth)
    (hcount : s'.suspendCount = 0) (hack : s'.suspendAcknowledged = false)
    (hslotFree : c.slotFree) :
    Consistent { c with slot := s', target := { c.target with halted := halted } } :=
  { h with
    quiescent := fun hflag => h.quiescent (hquiescent.symm.trans hflag)
    inCall := fun hcall => hquiescent.trans (h.inCall hcall)
    outside := fun hflag => hdepth.trans (h.outside (hquiescent.symm.trans hflag))
    exited := fun _ => hcount
    armed := fun hfalse => absurd hcount hfalse
    acknowledged := by simp [hack]
    current := by simp [hack]
    registersLocked := fun hlocked => hquiescent.trans (h.registersLocked hlocked)
    slotLocked := fun hlocked => absurd (hslotFree.symm.trans hlocked) nofun }

theorem Consistent.request (h : Consistent c) (k : ℕ) : Consistent (c.request k) := by
  refine Consistent.putPlain ?_ k rfl
  refine h.halt rfl rfl h.exited id ?_ ?_
  · exact fun hack => ⟨(h.acknowledged hack).1, hack⟩
  · exact by simp

theorem Consistent.release (h : Consistent c) (k generation : ℕ) (result : KernReturn)
    (snapshot : Option (Context ρ)) (hslotFree : c.slotFree) :
    Consistent (c.release k generation result snapshot) := by
  refine Consistent.putPlain ?_ k rfl
  by_cases hcount : c.slot.suspendCount = 0
  · refine h.unhalt rfl rfl hcount ?_ hslotFree
    by_contra hack
    exact (h.acknowledged (by simpa using hack)).1 hcount
  · simp only [if_neg hcount]
    exact { h with }

theorem Consistent.decideSnapshot (h : Consistent c) (k generation : ℕ)
    (copied : Option (Context ρ))
    (allStop : Bool) (hslotFree : c.slotFree) :
    Consistent (c.decideSnapshot k generation copied allStop) := by
  unfold Config.decideSnapshot
  split
  · exact h.release _ _ _ _ hslotFree
  · split
    · exact h.release _ _ _ _ hslotFree
    · split
      · exact h.release _ _ _ _ hslotFree
      · exact h.putPlain k rfl

theorem Consistent.suspend (h : Consistent c) (k : ℕ) : Consistent (c.suspend k) := by
  unfold Config.suspend
  split
  · exact h.putPlain k rfl
  · rename_i hexited
    split
    · exact h.putPlain k rfl
    · refine Consistent.putPlain ?_ k rfl
      refine h.halt rfl rfl (fun hfalse => absurd hfalse hexited)
        (fun _ => Nat.succ_ne_zero _) ?_ ?_
      · intro hack
        simp only [Bool.and_eq_true] at hack
        exact ⟨by simp, hack.2⟩
      · intro hack
        simp only [Bool.and_eq_true] at hack
        exact h.current hack.2

theorem Consistent.suspendWait (h : Consistent c) (k : ℕ) : Consistent (c.suspendWait k) := by
  unfold Config.suspendWait
  split
  · exact h.putPlain k rfl
  · split
    · exact h.putPlain k rfl
    · refine Consistent.putPlain ?_ k rfl
      exact { h with }

theorem Consistent.resume (h : Consistent c) (hslotFree : c.slotFree) : Consistent c.resume.2 := by
  unfold Config.resume
  split
  · exact h
  · rename_i hexited
    split
    · exact h
    · split
      · have hnone : Consistent { c with
            slot := { c.slot with suspendCount := 0, suspendAcknowledged := false }
            target := { c.target with
              halted := if c.slot.requestedGeneration ≤ c.slot.releasedGeneration then false
                else c.target.halted } } := h.unhalt rfl rfl rfl rfl hslotFree
        exact { hnone with }
      · rename_i hzero hone
        exact { h with
          exited := fun hfalse => absurd hfalse hexited
          armed := fun _ hretiring => h.armed hzero hretiring
          acknowledged := fun hack => ⟨by simp; omega, (h.acknowledged hack).2⟩
          slotLocked := fun hlocked => absurd (hslotFree.symm.trans hlocked) nofun }

theorem counted_of_unacknowledged {s : Slot ρ} (h : s.unacknowledged) : s.suspendCount ≠ 0 := by
  simp only [unacknowledged, Bool.and_eq_true] at h
  simpa using h.1.1

/-- A caller that holds a mutex is why it is not free. -/
theorem locked_of_mem (hmem : caller ∈ callers) (hholds : holds caller) :
    callers.all (!holds ·) = false := by
  simp only [List.all_eq_false, Bool.not_eq_true', Bool.not_eq_false]
  exact ⟨caller, hmem, hholds⟩

/-- The next field is copied. -/
theorem Consistent.copyField (h : Consistent c) (k : ℕ) {field : Field} {left : List Field}
    {copied : Context ρ} (hmem : .copying copy (field :: left) copied ∈ c.callers) :
    Consistent (c.put k (.copying copy left
      (Function.update copied field (c.target.registers field)))) := by
  refine h.put k (fun hholds => ?_) (fun hholds => ?_) (fun hholds => ?_) ?_
  · refine h.registersLocked (locked_of_mem hmem ?_)
    cases copy <;> simp_all [Caller.holdsRegisters]
  · refine h.debuggerLocked (locked_of_mem hmem ?_)
    cases copy <;> simp_all [Caller.holdsDebugger]
  · refine h.slotLocked (locked_of_mem hmem ?_)
    cases copy <;> simp_all [Caller.holdsSlot]
  · intro other hother
    by_cases hsame : other = field
    · subst hsame
      simp
    · rw [Function.update_of_ne hsame]
      exact h.agrees _ hmem other (by simp [hsame, hother])

/-- A finished copy is what the registers are. -/
theorem Consistent.copied_eq (h : Consistent c) {copied : Context ρ}
    (hmem : .copying copy [] copied ∈ c.callers) : copied = c.target.registers :=
  funext fun field => h.agrees _ hmem field (by simp)

theorem Consistent.copied (h : Consistent c) (k : ℕ) {copied : Context ρ}
    (hmem : .copying copy [] copied ∈ c.callers) : Consistent (c.copied k copy copied) := by
  cases copy with
  | attempt attempt => cases attempt <;> exact h.putPlain k rfl
  | stopped => exact h.putPlain k rfl
  | quiescentSuspension | stoppedSuspension =>
    have hheld := h.slotLocked (locked_of_mem hmem rfl)
    rw [h.copied_eq hmem]
    exact (h.acknowledge fun _ => ⟨hheld.1, hheld.2.1⟩).putPlain k rfl

section

variable [Inhabited ρ]

theorem Consistent.advance (h : Consistent c) (allStop : Bool)
    (hcaller : c.callers[k]? = some caller) (hheld : findsHeld c (.caller k (.next allStop))) :
    Consistent (c.advance k allStop caller) := by
  have hmem := List.mem_of_getElem? hcaller
  simp only [findsHeld, hcaller] at hheld
  cases caller with
  | idle | finished _ _ => exact h
  | called =>
    simp only [advance]
    split
    · exact h
    · split <;> exact h.putPlain k rfl
  | trying attempt =>
    simp only [advance]
    split
    · exact h
    · split
      · rename_i hquiescent
        refine h.put k (fun _ => ?_) nofun nofun fun field hfield =>
          absurd (Field.mem_all field) hfield
        simp only [Slot.quiescent, Bool.and_eq_true] at hquiescent
        exact hquiescent.1.1.1
      · cases attempt <;> exact h.putPlain k rfl
  | copying _ left copied =>
    cases left with
    | nil => exact h.copied k hmem
    | cons => exact h.copyField k hmem
  | askingDebugger =>
    simp only [advance]
    split
    · exact h.putPlain k rfl
    · rename_i hactive
      have hactive : c.debuggerActive := by simpa using hactive
      split
      · exact h
      · split
        · exact h.putPlain k rfl
        · rename_i hexecuting
          have hexecuting : c.target.debuggerExecuting = false := by simpa using hexecuting
          have hretiring : c.target.nativeGuestThreadRetiring = false := by
            simpa [hactive, hexecuting] using hheld
          exact h.put k nofun
            (fun _ => ⟨hexecuting, hretiring, h.counted hactive hretiring hexecuting⟩) nofun
            fun field hfield => absurd (Field.mem_all field) hfield
  | waitingTurn =>
    simp only [advance]
    split
    · exact h
    · split
      · exact h.putPlain k rfl
      · split
        · exact h.putPlain k rfl
        · exact h.request k
  | deciding =>
    simp only [advance]
    split
    · exact h
    · next hfree => exact h.decideSnapshot k _ _ _ (by simpa using hfree)
  | suspending =>
    simp only [advance]
    split
    · exact h
    · exact h.suspend k
  | suspendWaiting =>
    simp only [advance]
    split
    · exact h
    · exact h.suspendWait k
  | acknowledging =>
    simp only [advance]
    split
    · exact h
    · split
      · rename_i hguard
        have hretiring : c.target.nativeGuestThreadRetiring = false := by
          simpa [hguard.1, hguard.2] using hheld
        have hquiescent : c.slot.hostRegistersQuiescent := by
          have hquiescent := hguard.1
          simp only [Slot.quiescent, Bool.and_eq_true] at hquiescent
          exact hquiescent.1.1.1
        have hplace := h.quiescent hquiescent
        refine h.put k (fun _ => hquiescent) nofun
          (fun _ => ⟨hretiring, ?_, counted_of_unacknowledged hguard.2⟩)
          fun field hfield => absurd (Field.mem_all field) hfield
        cases hp : c.target.place <;> simp_all [Target.holds, Place.quiescent]
      · exact h.putPlain k rfl
  | acknowledgingStopped =>
    simp only [advance]
    split
    · exact h
    · split
      · rename_i hguard
        obtain ⟨hparks, hexecuting, hunacknowledged⟩ := hguard
        have hexecuting : c.target.debuggerExecuting = false := by simpa using hexecuting
        have hactive : c.debuggerActive := by
          simp only [parksWorker, Bool.and_eq_true] at hparks
          exact hparks.1
        have hheld : c.target.nativeGuestThreadRetiring = false ∧ c.target.holds := by
          simpa [hexecuting, hunacknowledged, hparks] using hheld
        exact h.put k nofun
          (fun _ => ⟨hexecuting, hheld.1, h.counted hactive hheld.1 hexecuting⟩)
          (fun _ => ⟨hheld.1, hheld.2, counted_of_unacknowledged hunacknowledged⟩)
          fun field hfield => absurd (Field.mem_all field) hfield
      · exact h.putPlain k rfl

theorem Consistent.step (h : Consistent c) {event : Event ρ} (hheld : findsHeld c event) :
    Consistent (c.step event) := by
  cases event with
  | target =>
    simp only [Config.step]
    split
    · rename_i hfree
      refine h.move hfree fun hnested hretiring => ?_
      subst hnested
      simpa [findsHeld, hretiring] using hheld
    · exact h
  | caller k event =>
    simp only [Config.step]
    split
    · exact h
    · rename_i caller hcaller
      cases event with
      | ask | suspend =>
        simp only [callerStep]
        split
        · exact h.putPlain k rfl
        · exact h
      | next allStop => exact h.advance allStop hcaller hheld
  | resume =>
    simp only [Config.step]
    split
    · next hguard => exact h.resume hguard.1
    · exact h

theorem consistent_initial (debuggerActive isMain : Bool) (registers : Context ρ) (callers : ℕ) :
    Consistent (initial debuggerActive isMain registers callers) := by
  have hidle : ∀ caller ∈ (initial debuggerActive isMain registers callers).callers,
      caller = .idle := fun caller hmem => List.eq_of_mem_replicate hmem
  have hfree : ∀ {holds : Caller ρ → Bool}, holds .idle = false →
      (initial debuggerActive isMain registers callers).callers.all (!holds ·) := by
    intro holds hnot
    rw [List.all_eq_true]
    intro caller hmem
    simp [hidle caller hmem, hnot]
  refine ⟨nofun, nofun, nofun, fun _ => rfl, fun _ _ _ => rfl, fun _ => rfl,
    fun hfalse => absurd rfl hfalse, nofun, nofun, ?_, ?_, ?_, ?_⟩
  · exact fun hfalse => absurd ((@hfree Caller.holdsRegisters rfl).symm.trans hfalse) nofun
  · exact fun hfalse => absurd ((@hfree Caller.holdsDebugger rfl).symm.trans hfalse) nofun
  · exact fun hfalse => absurd ((@hfree Caller.holdsSlot rfl).symm.trans hfalse) nofun
  · intro caller hmem
    rw [hidle caller hmem]
    trivial

end

end LiveExec32.ThreadState
