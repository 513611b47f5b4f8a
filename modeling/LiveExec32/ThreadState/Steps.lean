import LiveExec32.ThreadState.Held

/-! # What a step keeps

Every event is taken apart once. `Keeps` says what a step leaves to the calls that it is not part
of: where they are, the snapshot in the slot, an acknowledged suspension, an owner that is held, and
the count of the suspensions. -/

namespace LiveExec32.ThreadState

open Config Target

variable {ρ : Type} {c : Config ρ}

/-! ## Guest code -/

/-- The owner is in guest code, and no halt stops it there. -/
def Target.executesGuest (t : Target ρ) : Bool := t.place == .guest && !t.halted

variable {e : CallerEvent} {event : Event ρ} {t' t : Target ρ} {k : ℕ}

theorem holds_not_executing (hholds : t.holds) : t.executesGuest = false := by
  cases hplace : t.place <;> simp_all [holds, executesGuest]

theorem parked_not_executing (hparked : t.parked) : t.executesGuest = false := by
  cases hplace : t.place <;>
    simp_all [parked, executesGuest, Place.parked, Place.inNative]

theorem quiescent_not_executing (hquiescent : t.place.quiescent) : t.executesGuest = false := by
  cases hplace : t.place <;> simp_all [Place.quiescent, executesGuest]

/-- A finished copy was made while the owner executed no guest code. -/
theorem Consistent.copying_not_executing (h : Consistent c) {copy : Copy} {left : List Field}
    {copied : Context ρ} (hmem : .copying copy left copied ∈ c.callers) :
    c.target.executesGuest = false := by
  cases copy with
  | attempt _ | quiescentSuspension =>
    exact quiescent_not_executing (h.quiescent (h.registersLocked (locked_of_mem hmem rfl)))
  | stopped | stoppedSuspension =>
    exact parked_not_executing (h.debuggerLocked (locked_of_mem hmem rfl)).2.2

/-! ## The slot's snapshot -/

/-- The snapshot of `s'` is the one of `s`, or it has been taken where the owner executes no guest
    code. -/
def SnapshotKept (c : Config ρ) (s' : Slot ρ) : Prop :=
  s'.snapshotValid = true →
    (c.slot.snapshotValid = true ∧ s'.snapshot = c.slot.snapshot)
      ∨ (s'.snapshot = c.target.registers ∧ c.target.executesGuest = false)

theorem SnapshotKept.refl (c : Config ρ) : SnapshotKept c c.slot := fun hvalid => .inl ⟨hvalid, rfl⟩

theorem SnapshotKept.acknowledge (hexecutes : c.target.executesGuest = false) :
    SnapshotKept c (c.slot.acknowledge c.target.registers) := fun _ => .inr ⟨rfl, hexecutes⟩

/-! ## The owner's progress -/

/-- The owner has executed nothing and has been given no result. -/
structure Unmoved (t t' : Target ρ) : Prop where
  registers : t'.registers = t.registers
  instructions : t'.instructions = t.instructions
  results : t'.results = t.results

theorem Unmoved.refl (t : Target ρ) : Unmoved t t := ⟨rfl, rfl, rfl⟩

theorem Unmoved.trans {t'' : Target ρ} (h : Unmoved t t') (h' : Unmoved t' t'') : Unmoved t t'' :=
  ⟨h'.registers.trans h.registers, h'.instructions.trans h.instructions, h'.results.trans h.results⟩

/-! ## The count -/

theorem countP_set {α : Type} (p : α → Bool) {xs : List α} {old : α} (hold : xs[k]? = some old)
    (new : α) :
    (xs.set k new).countP p + (if p old then 1 else 0)
      = xs.countP p + (if p new then 1 else 0) := by
  obtain ⟨hlt, rfl⟩ := List.getElem?_eq_some_iff.1 hold
  have hle : (if p xs[k] then 1 else 0) ≤ xs.countP p := by
    split
    · next hp => exact List.countP_pos_iff.2 ⟨_, List.getElem_mem hlt, hp⟩
    · exact Nat.zero_le _
  rw [List.countP_set hlt]
  omega

/-- The count is what was granted less what was taken back; a suspension whose call has not returned
    yet is granted. -/
def Counts (c : Config ρ) : Prop :=
  c.slot.ownerExited = false →
    c.slot.suspendCount + c.resumed = c.suspended + c.callers.countP Caller.suspends

variable {old new : Caller ρ} {s' : Slot ρ}

/-- A caller moves on without being granted a suspension, or without losing it. -/
theorem Counts.put (h : Counts c) (hold : c.callers[k]? = some old)
    (hsame : new.suspends = old.suspends) (hcount : s'.suspendCount = c.slot.suspendCount)
    (hexited : s'.ownerExited = c.slot.ownerExited) :
    Counts (put { c with slot := s', target := t' } k new) := by
  intro halive
  have hcounts := h (hexited.symm.trans halive)
  have hset := countP_set Caller.suspends hold new
  rw [hsame] at hset
  simp only [Config.put]
  omega

/-! ## What a step keeps -/

structure Keeps (event : Event ρ) (c c' : Config ρ) : Prop where
  others : ∀ k, (∀ e, event ≠ .caller k e) → c'.callers[k]? = c.callers[k]?
  snapshot : SnapshotKept c c'.slot
  acknowledged : c.slot.suspendAcknowledged = true → c'.slot.suspendCount ≠ 0 →
    c'.slot.suspendAcknowledged = true
  unmoved : c.target.holds = true → Unmoved c.target c'.target
  counts : Counts c → Counts c'

theorem Keeps.refl (event : Event ρ) : Keeps event c c :=
  ⟨fun _ _ => rfl, .refl c, fun hack _ => hack, fun _ => .refl _, id⟩

/-- The owner goes on and leaves the slot as it is. -/
theorem Keeps.walk (hunmoved : c.target.holds → Unmoved c.target t') :
    Keeps event c (c.setTarget t') :=
  ⟨fun _ _ => rfl, .refl c, fun hack _ => hack, hunmoved, id⟩

/-- The owner goes on and writes the slot. -/
theorem Keeps.write (hcount : s'.suspendCount = c.slot.suspendCount)
    (hexited : s'.ownerExited = c.slot.ownerExited)
    (hack : c.slot.suspendAcknowledged → s'.suspendCount ≠ 0 → s'.suspendAcknowledged)
    (hsnapshot : SnapshotKept c s') (hunmoved : Unmoved c.target t') :
    Keeps event c { c with slot := s', target := t' } := by
  refine ⟨fun _ _ => rfl, hsnapshot, hack, fun _ => hunmoved, fun h halive => ?_⟩
  simp only [hcount]
  exact h (hexited.symm.trans halive)

theorem acknowledged_acknowledge {s : Slot ρ} {registers : Context ρ}
    (hcount : (s.acknowledge registers).suspendCount ≠ 0) :
    (s.acknowledge registers).suspendAcknowledged := by
  simpa [Slot.acknowledge] using hcount

theorem Keeps.acknowledge {place : Place} (hexecutes : c.target.executesGuest = false) :
    Keeps event c { c with
      slot := c.slot.acknowledge c.target.registers, target := { c.target with place := place } } :=
  .write rfl rfl (fun _ => acknowledged_acknowledge) (.acknowledge hexecutes) ⟨rfl, rfl, rfl⟩

theorem move_keeps (event : TargetEvent ρ) : Keeps (.target event) c (c.move event) := by
  cases event with
  | instruction =>
    simp only [move]
    split
    · next hguard => exact .walk fun hholds => absurd hholds (by simp [holds, hguard])
    · exact .refl _
  | write =>
    simp only [move]
    split
    · next hplace => exact .walk fun hholds => absurd hholds (by simp [holds, hplace])
    · exact .refl _
  | publish =>
    simp only [move]
    split
    · rename_i back hplace
      simp only [publish, Slot.publish]
      split
      · split
        · exact .acknowledge (by simp [executesGuest, hplace])
        · exact .write rfl rfl (fun _ hcount => by simpa using hcount) (.refl c) ⟨rfl, rfl, rfl⟩
      · exact .walk fun _ => ⟨rfl, rfl, rfl⟩
    · exact .refl _
  | nested =>
    simp only [move]
    split
    · rename_i hplace
      simp only [Slot.acknowledgeNested]
      split
      · exact .write rfl rfl (fun _ => acknowledged_acknowledge)
          (.acknowledge (by simp [executesGuest, hplace])) (.refl _)
      · exact .refl _
    · exact .refl _
  | checkGate =>
    simp only [move]
    split
    · rename_i gate hplace
      obtain ⟨hcount, hack, hexited, hvalid, hsnapshot⟩ := c.slot.pass_keeps gate
      simp only [checkGate]
      split
      · exact .write hcount hexited (fun hold _ => hack.trans hold)
          (fun hnew => .inl ⟨hvalid.symm.trans hnew, hsnapshot⟩) ⟨rfl, rfl, rfl⟩
      · exact .acknowledge (by simp [executesGuest, hplace])
    · exact .refl _
  | callbackEnd =>
    simp only [move]
    split
    · exact .write rfl rfl (fun hack _ => hack) (.refl c) ⟨rfl, rfl, rfl⟩
    · exact .refl _
  | exit =>
    simp only [move]
    split
    · exact ⟨fun _ _ => rfl, .refl c, fun _ hcount => absurd rfl hcount, fun _ => ⟨rfl, rfl, rfl⟩,
        fun _ hfalse => absurd hfalse (by simp [Slot.exit])⟩
    · exact .refl _
  | _ =>
    simp only [move]
    repeat' split
    all_goals exact .walk fun _ => ⟨rfl, rfl, rfl⟩

theorem others_put (j : ℕ) (hother : ∀ e', (.caller k e : Event ρ) ≠ .caller j e') :
    (c.put k new).callers[j]? = c.callers[j]? := by
  refine List.getElem?_set_ne fun hsame => ?_
  exact hother e (hsame ▸ rfl)

/-- A caller moves on without being granted a suspension, or without losing it. -/
theorem Keeps.put (hold : c.callers[k]? = some old) (hsame : new.suspends = old.suspends)
    (hcount : s'.suspendCount = c.slot.suspendCount) (hexited : s'.ownerExited = c.slot.ownerExited)
    (hack : c.slot.suspendAcknowledged → s'.suspendCount ≠ 0 → s'.suspendAcknowledged)
    (hsnapshot : SnapshotKept c s') (hunmoved : Unmoved c.target t') :
    Keeps (.caller k e) c (put { c with slot := s', target := t' } k new) :=
  ⟨others_put, hsnapshot, hack, fun _ => hunmoved, fun h => h.put hold hsame hcount hexited⟩

theorem Keeps.goOn (hold : c.callers[k]? = some old) (hsame : new.suspends = old.suspends) :
    Keeps (.caller k e) c (c.put k new) :=
  .put hold hsame rfl rfl (fun hack _ => hack) (.refl c) (.refl _)

section

variable [Inhabited ρ]

theorem advance_keeps (h : Consistent c) {caller : Caller ρ} (allStop : Bool)
    (hcaller : c.callers[k]? = some caller) :
    Keeps (.caller k (.next allStop)) c (c.advance k allStop caller) := by
  cases caller with
  | idle | finished _ _ => exact .refl _
  | trying attempt =>
    simp only [advance]
    split
    · exact .refl _
    · split
      · exact .goOn hcaller rfl
      · cases attempt <;> exact .goOn hcaller rfl
  | copying copy left =>
    cases left with
    | nil =>
      have hmem := List.mem_of_getElem? hcaller
      cases copy with
      | attempt attempt => cases attempt <;> exact .goOn hcaller rfl
      | stopped => exact .goOn hcaller rfl
      | quiescentSuspension | stoppedSuspension =>
        rw [h.copied_eq hmem] at hcaller ⊢
        exact .put hcaller rfl rfl rfl (fun _ => acknowledged_acknowledge)
          (.acknowledge (h.copying_not_executing hmem)) (.refl _)
    | cons => cases copy <;> exact .goOn hcaller rfl
  | waitingTurn =>
    simp only [advance]
    split
    · exact .refl _
    · split
      · exact .goOn hcaller rfl
      · split
        · exact .goOn hcaller rfl
        · exact .put hcaller rfl rfl rfl (fun hack _ => hack)
            (by simp [SnapshotKept]) ⟨rfl, rfl, rfl⟩
  | deciding generation =>
    have hreleases : ∀ result snapshot, Keeps (.caller k (.next allStop)) c
        (c.release k generation result snapshot) := fun _ _ =>
      .put hcaller rfl rfl rfl (fun hack _ => hack) (.refl c) ⟨rfl, rfl, rfl⟩
    simp only [advance, decideSnapshot]
    split
    · exact .refl _
    · split
      · exact hreleases _ _
      · split
        · exact hreleases _ _
        · split
          · exact hreleases _ _
          · exact .goOn hcaller rfl
  | suspending =>
    simp only [advance, suspend]
    split
    · exact .refl _
    · split
      · exact .goOn hcaller rfl
      · split
        · exact .goOn hcaller rfl
        · -- the suspension is granted, and its call has not returned
          refine ⟨others_put, .refl c, fun hack _ => by simp [put, hack, (h.acknowledged hack).1],
            fun _ => ⟨rfl, rfl, rfl⟩, fun hcounts halive => ?_⟩
          have hcounts := hcounts halive
          have hset := countP_set Caller.suspends hcaller .suspendWaiting
          simp only [Caller.suspends, if_true, Bool.false_eq_true, if_false] at hset
          simp only [put]
          omega
  | suspendWaiting =>
    simp only [advance, suspendWait]
    split
    · exact .refl _
    · split
      · exact .goOn hcaller rfl
      · split
        · rename_i hexited
          exact ⟨others_put, .refl c, fun hack _ => hack, fun _ => .refl _,
            fun _ halive => absurd hexited (by simpa [put] using halive)⟩
        · refine ⟨others_put, .refl c, fun hack _ => hack, fun _ => .refl _,
            fun hcounts halive => ?_⟩
          have hcounts := hcounts halive
          have hset := countP_set Caller.suspends hcaller (.finished .success none)
          simp only [Caller.suspends, if_true, Bool.false_eq_true, if_false] at hset
          simp only [put]
          omega
  | called | askingDebugger | acknowledging | acknowledgingStopped =>
    simp only [advance]
    repeat' split
    all_goals first | exact .refl _ | exact .goOn hcaller rfl

theorem step_keeps (h : Consistent c) (event : Event ρ) : Keeps event c (c.step event) := by
  cases event with
  | target event =>
    simp only [step]
    split
    · exact move_keeps event
    · exact .refl _
  | caller k event =>
    simp only [step]
    split
    · exact .refl _
    · rename_i caller hcaller
      cases event with
      | ask | suspend =>
        simp only [callerStep]
        split
        · refine .goOn hcaller ?_
          cases caller <;> simp_all [available, Caller.suspends]
        · exact .refl _
      | next allStop => exact advance_keeps h allStop hcaller
  | resume =>
    simp only [step, resume]
    split
    · split
      · exact .refl _
      · split
        · exact .refl _
        · split
          · refine ⟨fun _ _ => rfl, .refl c, fun _ hcount => absurd rfl hcount,
              fun _ => ⟨rfl, rfl, rfl⟩, fun hcounts halive => ?_⟩
            have hcounts := hcounts halive
            simp only
            omega
          · refine ⟨fun _ _ => rfl, .refl c, fun hack _ => hack, fun _ => .refl _,
              fun hcounts halive => ?_⟩
            have hcounts := hcounts halive
            simp only
            omega
    · exact .refl _

end

end LiveExec32.ThreadState
