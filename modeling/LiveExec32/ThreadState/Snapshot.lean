import LiveExec32.ThreadState.Steps

/-! # Snapshots of another thread's registers

Whatever path `RequestNativeThreadStateSnapshot` takes, what it returns is the register file of one
instant of the call: the one that the owner published after the request, the one that was copied
under a mutex which the owner needs to go on, or the one that a suspended owner still has. -/

namespace LiveExec32.ThreadState

open Config Execution

variable {ρ : Type} {c : Config ρ}

/-! ## The caller's snapshot -/

/-- What the caller has or may still take is a register file that `seen` allows. -/
def Caller.Justified (seen : Context ρ → Prop) (s : Slot ρ) : Caller ρ → Prop
  | .trying (.outstanding _) | .copying (.attempt (.outstanding _)) _ _ =>
    s.snapshotValid = true → seen s.snapshot
  | .deciding _ copied => (s.snapshotValid = true → seen s.snapshot) ∧ ∀ r ∈ copied, seen r
  | .finished _ snapshot => ∀ r ∈ snapshot, seen r
  | _ => True

/-- `seen` allows the registers of every instant at which the owner executes no guest code. -/
structure Watched (seen : Context ρ → Prop) (k : ℕ) (c : Config ρ) : Prop where
  consistent : Consistent c
  now : c.target.executesGuest = false → seen c.target.registers
  caller : ∀ caller, c.callers[k]? = some caller → caller.Justified seen c.slot

variable {seen : Context ρ → Prop} {k : ℕ} {caller : Caller ρ}

theorem Caller.Justified.kept {s' : Slot ρ} (h : caller.Justified seen c.slot)
    (hnow : c.target.executesGuest = false → seen c.target.registers) (hkept : SnapshotKept c s') :
    caller.Justified seen s' := by
  have hsnapshot : (c.slot.snapshotValid → seen c.slot.snapshot) →
      s'.snapshotValid → seen s'.snapshot := by
    intro hold hvalid
    rcases hkept hvalid with ⟨hvalid, hsame⟩ | ⟨htaken, hexecutes⟩
    · exact hsame ▸ hold hvalid
    · exact htaken ▸ hnow hexecutes
  cases caller with
  | trying attempt =>
    cases attempt with
    | outstanding => exact hsnapshot h
    | _ => trivial
  | copying copy =>
    cases copy with
    | attempt attempt =>
      cases attempt with
      | outstanding => exact hsnapshot h
      | _ => trivial
    | _ => trivial
  | deciding => exact ⟨hsnapshot h.1, h.2⟩
  | finished => exact h
  | _ => trivial

theorem justified_put (hcaller : caller.Justified seen c.slot) :
    ∀ caller', (c.put k caller).callers[k]? = some caller' →
      caller'.Justified seen (c.put k caller).slot := by
  intro caller' hget
  have hlt : k < (c.callers.set k caller).length := (List.getElem?_eq_some_iff.1 hget).1
  rw [put, List.getElem?_set_self (by simpa using hlt)] at hget
  cases hget
  exact hcaller

section

variable [Inhabited ρ]

/-- The caller's own step takes only what `seen` allows. -/
theorem Watched.advance (h : Watched seen k c) (allStop : Bool)
    (hcaller : c.callers[k]? = some caller) :
    ∀ caller', (c.advance k allStop caller).callers[k]? = some caller' →
      caller'.Justified seen (c.advance k allStop caller).slot := by
  have hmem := List.mem_of_getElem? hcaller
  have hold := h.caller caller hcaller
  cases caller with
  | idle | finished _ _ => exact h.caller
  | called =>
    simp only [Config.advance]
    split
    · exact h.caller
    · split
      · rename_i hsuspended
        obtain ⟨-, hack, hvalid⟩ := hsuspended
        refine justified_put fun r hr => ?_
        cases hr
        rw [h.consistent.current hack hvalid]
        exact h.now (holds_not_executing (h.consistent.acknowledged hack).2.2)
      · exact justified_put trivial
  | trying attempt =>
    simp only [Config.advance]
    split
    · exact h.caller
    · refine justified_put ?_
      cases attempt with
      | outstanding =>
        split
        · exact hold
        · exact ⟨hold, fun r hr => absurd hr (by simp)⟩
      | first | turn => split <;> trivial
  | copying copy left copied =>
    cases left with
    | nil =>
      have hseen : seen copied := by
        rw [h.consistent.copied_eq hmem]
        exact h.now (h.consistent.copying_not_executing hmem)
      have hfinished : ∀ r ∈ some copied, seen r := fun r hr => Option.some.inj hr ▸ hseen
      cases copy with
      | attempt attempt =>
        cases attempt with
        | outstanding => exact justified_put ⟨hold, hfinished⟩
        | first | turn => exact justified_put hfinished
      | stopped => exact justified_put hfinished
      | quiescentSuspension | stoppedSuspension => exact justified_put trivial
    | cons =>
      cases copy with
      | attempt attempt => cases attempt <;> exact justified_put hold
      | _ => exact justified_put trivial
  | askingDebugger =>
    simp only [Config.advance]
    split
    · exact justified_put trivial
    · split
      · exact h.caller
      · split <;> exact justified_put trivial
  | waitingTurn =>
    simp only [Config.advance]
    split
    · exact h.caller
    · split
      · exact justified_put trivial
      · split
        · exact justified_put fun r hr => absurd hr (by simp)
        · exact justified_put (by simp [Caller.Justified])
  | deciding =>
    simp only [Config.advance]
    split
    · exact h.caller
    · unfold decideSnapshot
      split
      · exact justified_put hold.2
      · split
        · next hvalid => exact justified_put fun r hr => Option.some.inj hr ▸ hold.1 hvalid.2
        · split
          · exact justified_put fun r hr => absurd hr (by simp)
          · exact justified_put hold.1
  | suspending =>
    simp only [Config.advance]
    split
    · exact h.caller
    · unfold suspend
      split
      · exact justified_put fun r hr => absurd hr (by simp)
      · split
        · exact justified_put fun r hr => absurd hr (by simp)
        · exact justified_put trivial
  | suspendWaiting =>
    simp only [Config.advance]
    split
    · exact h.caller
    · unfold suspendWait
      split
      · exact justified_put trivial
      · split <;> exact justified_put fun r hr => absurd hr (by simp)
  | acknowledging | acknowledgingStopped =>
    simp only [Config.advance]
    split
    · exact h.caller
    · split <;> exact justified_put trivial

theorem Watched.step (h : Watched seen k c) {event : Event ρ} (hheld : findsHeld c event)
    (hnow : (c.step event).target.executesGuest = false → seen (c.step event).target.registers) :
    Watched seen k (c.step event) := by
  refine ⟨h.consistent.step hheld, hnow, ?_⟩
  by_cases hown : ∃ e, event = .caller k e
  · obtain ⟨e, rfl⟩ := hown
    simp only [Config.step]
    split
    · exact h.caller
    · rename_i caller hcaller
      cases e with
      | ask | suspend =>
        simp only [callerStep]
        split
        · exact justified_put trivial
        · exact h.caller
      | next allStop => exact h.advance allStop hcaller
  · have hkeeps := step_keeps h.consistent event
    intro caller hcaller
    rw [hkeeps.others k fun e hsame => hown ⟨e, hsame⟩] at hcaller
    exact (h.caller caller hcaller).kept h.now hkeeps.snapshot

/-- **A snapshot is the register file of one instant of its call**, at which the target executed no
    guest code, in every run whose acknowledgements and copies find the target held. -/
theorem snapshot_consistent {debuggerActive isMain : Bool} {registers snapshot : Context ρ}
    {callers k : ℕ} {before after : List (Event ρ)}
    (hgood : Execution.Always (fun c event => findsHeld c event = true) Config.step
      (initial debuggerActive isMain registers callers) (before ++ .caller k .ask :: after))
    (hasked : (Execution.run Config.step (initial debuggerActive isMain registers callers)
      (before ++ [.caller k .ask])).callers[k]? = some .called)
    (hreturned : (Execution.run Config.step (initial debuggerActive isMain registers callers)
      (before ++ .caller k .ask :: after)).callers[k]?
        = some (.finished .success (some snapshot))) :
    ∃ pre post, after = pre ++ post
      ∧ (Execution.run Config.step (initial debuggerActive isMain registers callers)
        (before ++ .caller k .ask :: pre)).target.registers = snapshot
      ∧ (Execution.run Config.step (initial debuggerActive isMain registers callers)
        (before ++ .caller k .ask :: pre)).target.executesGuest = false := by
  have hsplit : ∀ events, run step (initial debuggerActive isMain registers callers)
      (before ++ .caller k .ask :: events) = run step ((run step
          (initial debuggerActive isMain registers callers) before).step
            (.caller k .ask)) events := by
    intro events
    simp only [run, List.foldl_append, List.foldl_cons]
  obtain ⟨hbefore, hask, hafter⟩ := always_append.1 hgood
  have hconsistent : Consistent ((run step
      (initial debuggerActive isMain registers callers) before).step (.caller k .ask)) :=
    Consistent.step (run_invariant_of_always (fun _ _ h hheld => h.step hheld)
      (consistent_initial debuggerActive isMain registers callers) hbefore) hask
  simp only [hsplit] at hasked hreturned ⊢
  generalize (run step (initial debuggerActive isMain registers callers) before).step
    (.caller k .ask) = asked at hasked hreturned hafter hconsistent ⊢
  -- the instants of the call are the ones that the run goes through
  let seen : Context ρ → Prop := fun r => ∃ pre post, after = pre ++ post
    ∧ (run step asked pre).target.registers = r
    ∧ (run step asked pre).target.executesGuest = false
  have hvisits : ∀ pre post, after = pre ++ post →
      (run step asked pre).target.executesGuest = false →
      seen (run step asked pre).target.registers :=
    fun pre post hsplit hexecutes => ⟨pre, post, hsplit, rfl, hexecutes⟩
  have hstart : Watched seen k asked := by
    refine ⟨hconsistent, hvisits [] after rfl, fun caller hcaller => ?_⟩
    obtain rfl : Caller.called = caller := Option.some.inj (hasked.symm.trans hcaller)
    trivial
  have hall : Execution.Always (fun c event => findsHeld c event
      ∧ ((c.step event).target.executesGuest = false → seen (c.step event).target.registers))
      step asked after :=
    @Execution.Always.visited _ _ step _
      (fun c => c.target.executesGuest = false → seen c.target.registers) asked after hafter hvisits
  have hfinal : Watched seen k (run step asked after) :=
    run_invariant_of_always (fun _ _ h hstep => h.step hstep.1 hstep.2) hstart hall
  exact hfinal.caller _ hreturned snapshot rfl

end

/-- The target is in guest code. -/
def runsGuest : List (Event Bool) :=
  [.target .command, .target (.run true), .target (.instruction fun _ => true)]

/-- The request is made, the target publishes its registers, and the request is released. -/
def published : List (Event Bool) :=
  [.caller 0 (.next false), .caller 0 (.next false), .caller 0 (.next false),
    .caller 0 (.next false),
    .caller 0 (.next false), .target (.leave false), .target .consume, .target .publish,
    .caller 0 (.next false)]

theorem snapshot_consistent_published :
    ∃ pre post, published = pre ++ post
      ∧ (Execution.run Config.step (initial false false (fun _ => false) 1)
        (runsGuest ++ .caller 0 .ask :: pre)).target.registers = (fun _ => true)
      ∧ (Execution.run Config.step (initial false false (fun _ => false) 1)
        (runsGuest ++ .caller 0 .ask :: pre)).target.executesGuest = false :=
  snapshot_consistent (by decide +kernel) (by decide +kernel) (by decide +kernel)

/-- A worker that the debugger has parked in a host wait is suspended. -/
def suspendedInHostWait : List (Event Bool) :=
  [.target .command, .target (.run true), .target (.leave true), .target .consume, .target .service,
    .target .debuggerPause, .caller 0 .suspend]
    ++ List.replicate 11 (.caller 0 (.next false))

/-- The debugger continues, the host wait returns its result, and the worker parks for the
    suspension. -/
def returnsFromHostWait : List (Event Bool) :=
  [.target .debuggerWake, .target (.write fun _ => true), .target .enterRun, .target (.run true),
    .target (.leave false), .target .consume, .target .publish]

/-- What a call that has succeeded returns. -/
def Caller.returned {ρ : Type} : Caller ρ → Option (Context ρ)
  | .finished .success snapshot => snapshot
  | _ => none

/-- The call returns the registers from before the result was written, which the target has had at
    no instant of the call. -/
theorem suspended_snapshot_outdated :
    let c := Execution.run Config.step (initial true false (fun _ => false) 2)
      (suspendedInHostWait ++ returnsFromHostWait)
    let asked := c.step (.caller 1 .ask)
    let returned := asked.step (.caller 1 (.next false))
    c.callers[0]? = some (.finished .success none)
      ∧ asked.callers[1]? = some .called
      ∧ (returned.callers[1]?.bind Caller.returned).map (· .regs) = some false
      ∧ asked.target.registers .regs = true ∧ returned.target.registers .regs = true := by
  decide +kernel

end LiveExec32.ThreadState
