import LiveExec32.Vm.Basic

/-! # Epoch reclamation

A retired backing may still be in use by a thread that loaded a pointer into it before it was
unpublished. Threads access guest memory inside a `GuestVmEpochGuard`, which notes the epoch of its
outermost entry; retiring a backing advances the epoch, and the backing is unmapped once no thread
is inside a guard it entered in an earlier epoch. Each function below runs under
`guestVmEpochMutex`. -/

namespace LiveExec32.Vm

open List Function

/-- `struct GuestVmEpochParticipant`. -/
structure GuestVmEpochParticipant where
  epoch : ℕ := 0
  activeDepth : ℕ := 0
  registered : Bool := false
deriving DecidableEq, Repr

/-- `struct RetiredMemoryBacking`. -/
structure RetiredMemoryBacking where
  backing : ℕ
  retirementEpoch : ℕ
deriving DecidableEq, Repr

/-- What `guestVmEpochMutex` guards. `reclaimed` are the backings that were unmapped. -/
structure EpochState where
  guestVmEpoch : ℕ
  participant : ℕ → GuestVmEpochParticipant
  guestVmEpochParticipants : List ℕ
  retiredMemoryBackings : List RetiredMemoryBacking
  reclaimed : List ℕ

open EpochState

def EpochState.initial : EpochState where
  guestVmEpoch := 1
  participant := fun _ => {}
  guestVmEpochParticipants := []
  retiredMemoryBackings := []
  reclaimed := []

/-- The participant is inside a guard. -/
def EpochState.active (e : EpochState) (p : ℕ) : Bool :=
  decide (p ∈ e.guestVmEpochParticipants) && decide ((e.participant p).activeDepth ≠ 0)

/-- Some participant entered its outermost guard before the retirement. -/
def EpochState.blocked (e : EpochState) (retired : RetiredMemoryBacking) : Bool :=
  e.guestVmEpochParticipants.any (fun p =>
    decide ((e.participant p).activeDepth ≠ 0)
      && decide ((e.participant p).epoch < retired.retirementEpoch))

/-- The loop erases the entries that are safe; whether one is does not depend on the others. -/
def reclaimRetiredMemoryBackingsLocked (e : EpochState) : EpochState :=
  { e with
    retiredMemoryBackings := e.retiredMemoryBackings.filter e.blocked
    reclaimed := e.reclaimed
      ++ (e.retiredMemoryBackings.filter (fun r => !e.blocked r)).map (·.backing) }

def registerGuestVmEpochParticipant (p : ℕ) (e : EpochState) : EpochState :=
  if (e.participant p).registered then e
  else
    { e with
      participant := update e.participant p ⟨e.guestVmEpoch, 0, true⟩
      guestVmEpochParticipants := e.guestVmEpochParticipants ++ [p] }

/-- A participant that is still inside a guard fails the assertion: nothing happens. -/
def unregisterGuestVmEpochParticipant (p : ℕ) (e : EpochState) : EpochState :=
  if !(e.participant p).registered ∨ (e.participant p).activeDepth ≠ 0 then e
  else
    reclaimRetiredMemoryBackingsLocked
      { e with
        participant := update e.participant p { e.participant p with registered := false }
        guestVmEpochParticipants := e.guestVmEpochParticipants.filter (· ≠ p) }

/-- The epoch side of `RetireMemoryBacking`. -/
def EpochState.retire (b : ℕ) (e : EpochState) : EpochState :=
  reclaimRetiredMemoryBackingsLocked
    { e with
      guestVmEpoch := e.guestVmEpoch + 1
      retiredMemoryBackings := e.retiredMemoryBackings ++ [⟨b, e.guestVmEpoch + 1⟩] }

/-- The constructor of `GuestVmEpochGuard`. Only the outermost entry refreshes the epoch. -/
def enterGuestVmEpochGuard (p : ℕ) (e : EpochState) : EpochState :=
  if !(e.participant p).registered then e
  else
    { e with
      participant := update e.participant p
        { e.participant p with
          activeDepth := (e.participant p).activeDepth + 1
          epoch := if (e.participant p).activeDepth = 0 then e.guestVmEpoch
            else (e.participant p).epoch } }

/-- The destructor of `GuestVmEpochGuard`. -/
def exitGuestVmEpochGuard (p : ℕ) (e : EpochState) : EpochState :=
  if (e.participant p).activeDepth = 0 then e
  else
    let left := { e with
      participant := update e.participant p
        { e.participant p with activeDepth := (e.participant p).activeDepth - 1 } }
    if (e.participant p).activeDepth - 1 = 0 then reclaimRetiredMemoryBackingsLocked left else left

/-! ## Reclaiming -/

variable {e : EpochState} {p : ℕ}

theorem EpochState.blocked_of_active {r : RetiredMemoryBacking} (hp : e.active p)
    (hlt : (e.participant p).epoch < r.retirementEpoch) : e.blocked r := by
  simp only [active, Bool.and_eq_true, decide_eq_true_eq] at hp
  refine any_eq_true.2 ⟨p, hp.1, ?_⟩
  simp [hp.2, hlt]

/-- With nobody inside a guard, everything that was retired is reclaimed. -/
theorem reclaim_empty (hidle : ∀ p, e.active p = false) :
    (reclaimRetiredMemoryBackingsLocked e).retiredMemoryBackings = [] := by
  refine filter_eq_nil_iff.2 (fun r _ => ?_)
  intro hblocked
  obtain ⟨p, hp, hactive⟩ := any_eq_true.1 hblocked
  have hidle' := hidle p
  simp only [Bool.and_eq_true, decide_eq_true_eq] at hactive
  simp [active, hp, hactive.1] at hidle'

/-- Reclaiming changes nothing about the participants. -/
@[simp] theorem reclaim_active (p : ℕ) :
    (reclaimRetiredMemoryBackingsLocked e).active p = e.active p := rfl

theorem mem_reclaimed {b : ℕ} : b ∈ (reclaimRetiredMemoryBackingsLocked e).reclaimed
      ↔ b ∈ e.reclaimed ∨ ∃ r ∈ e.retiredMemoryBackings, e.blocked r = false ∧ r.backing = b := by
  simp [reclaimRetiredMemoryBackingsLocked, and_assoc]

/-- Unregistering ends with a pass over the retired backings. -/
theorem unregister_reclaims (hregistered : (e.participant p).registered)
    (hdepth : (e.participant p).activeDepth = 0) :
    ∃ left, unregisterGuestVmEpochParticipant p e = reclaimRetiredMemoryBackingsLocked left := by
  unfold unregisterGuestVmEpochParticipant
  split
  · next hrefused => simp [hregistered, hdepth] at hrefused
  · exact ⟨_, rfl⟩

/-- So does leaving the outermost guard. -/
theorem exit_reclaims (hdepth : (e.participant p).activeDepth = 1) :
    ∃ left, exitGuestVmEpochGuard p e = reclaimRetiredMemoryBackingsLocked left := by
  unfold exitGuestVmEpochGuard
  split
  · next hzero => simp [hdepth] at hzero
  · split
    · exact ⟨_, rfl⟩
    · next hnested => simp [hdepth] at hnested

/-! ## The safety invariant

`dead` are the backings that were retired so far and `exposed p` those participant `p` may still
use. -/

structure EpochSafe (dead : List ℕ) (exposed : ℕ → Set ℕ) (e : EpochState) : Prop where
  listed : ∀ p, p ∈ e.guestVmEpochParticipants ↔ (e.participant p).registered = true
  bounded : ∀ p, (e.participant p).epoch ≤ e.guestVmEpoch
  retired_dead : ∀ r ∈ e.retiredMemoryBackings, r.backing ∈ dead
  reclaimed_dead : ∀ b ∈ e.reclaimed, b ∈ dead
  kept : ∀ p b, e.active p = true → b ∈ exposed p → b ∉ e.reclaimed
  older : ∀ p r, e.active p = true → r ∈ e.retiredMemoryBackings → r.backing ∈ exposed p →
    (e.participant p).epoch < r.retirementEpoch

variable {dead : List ℕ} {exposed : ℕ → Set ℕ}

theorem EpochSafe.initial : EpochSafe [] (fun _ => ∅) initial where
  listed := by intro p; simp [EpochState.initial]
  bounded := by intro p; simp [EpochState.initial]
  retired_dead := by intro r hr; simp [EpochState.initial] at hr
  reclaimed_dead := by intro b hb; simp [EpochState.initial] at hb
  kept := by intro p b hp; simp [EpochState.active, EpochState.initial] at hp
  older := by intro p r hp; simp [EpochState.active, EpochState.initial] at hp

/-- Reclaiming is safe: whatever an active participant may use is blocked by it. -/
theorem EpochSafe.reclaim (h : EpochSafe dead exposed e) :
    EpochSafe dead exposed (reclaimRetiredMemoryBackingsLocked e) where
  listed := h.listed
  bounded := h.bounded
  retired_dead := fun r hr => h.retired_dead r (mem_of_mem_filter hr)
  reclaimed_dead := by
    intro b hb
    rcases mem_reclaimed.1 hb with hb | ⟨r, hr, -, rfl⟩
    · exact h.reclaimed_dead b hb
    · exact h.retired_dead r hr
  kept := by
    intro p b hp hb hmem
    rw [reclaim_active] at hp
    rcases mem_reclaimed.1 hmem with hmem | ⟨r, hr, hfree, rfl⟩
    · exact h.kept p b hp hb hmem
    · have hblocked := blocked_of_active hp (h.older p r hp hr hb)
      rw [hfree] at hblocked
      simp at hblocked
  older := fun p r hp hr hb => h.older p r hp (mem_of_mem_filter hr) hb

/-- Retiring is safe: the new epoch is later than every participant's. -/
theorem EpochSafe.retire (h : EpochSafe dead exposed e) (b : ℕ) :
    EpochSafe (b :: dead) exposed (e.retire b) := by
  refine EpochSafe.reclaim ⟨h.listed, fun p => Nat.le_succ_of_le (h.bounded p), ?_,
    fun c hc => mem_cons_of_mem b (h.reclaimed_dead c hc), h.kept, ?_⟩
  · intro r hr
    rcases mem_append.1 hr with hr | hr
    · exact mem_cons_of_mem b (h.retired_dead r hr)
    · rw [mem_singleton] at hr
      subst hr
      exact mem_cons_self
  · intro p r hp hr hb
    rcases mem_append.1 hr with hr | hr
    · exact h.older p r hp hr hb
    · rw [mem_singleton] at hr
      subst hr
      exact Nat.lt_succ_of_le (h.bounded p)

/-- Changing one participant: it stays as listed, is not ahead of the epoch, and if it is active
    afterwards it either was active in the same epoch before or may use nothing yet. -/
theorem EpochSafe.update (h : EpochSafe dead exposed e) (p : ℕ) (q : GuestVmEpochParticipant)
    (list : List ℕ) (hlisted : ∀ r, r ∈ list ↔ (update e.participant p q r).registered)
    (hbounded : q.epoch ≤ e.guestVmEpoch) (hactive : p ∈ list → q.activeDepth ≠ 0 →
      (e.active p ∧ q.epoch = (e.participant p).epoch) ∨ exposed p = ∅) :
    EpochSafe dead exposed
      { e with
        participant := update e.participant p q
        guestVmEpochParticipants := list } := by
  -- who was active before, or has nothing to lose
  have hcases : ∀ r, active
      { e with
        participant := Function.update e.participant p q
        guestVmEpochParticipants := list } r = true →
      (e.active r = true ∧ (Function.update e.participant p q r).epoch = (e.participant r).epoch)
        ∨ exposed r = ∅ := by
    intro r hr
    simp only [active, Bool.and_eq_true, decide_eq_true_eq] at hr
    by_cases hrp : r = p
    · subst hrp
      simpa using hactive hr.1 (by simpa using hr.2)
    · refine .inl ⟨?_, by simp [hrp]⟩
      have hmem : r ∈ e.guestVmEpochParticipants := by
        rw [h.listed r]
        simpa [hrp] using (hlisted r).1 hr.1
      simpa [active, hmem, hrp] using hr.2
  refine ⟨hlisted, ?_, h.retired_dead, h.reclaimed_dead, ?_, ?_⟩
  · intro r
    by_cases hrp : r = p
    · subst hrp; simpa using hbounded
    · simpa [hrp] using h.bounded r
  · intro r b hr hb
    rcases hcases r hr with ⟨hbefore, -⟩ | hempty
    · exact h.kept r b hbefore hb
    · rw [hempty] at hb
      simp at hb
  · intro r retired hr hretired hb
    rcases hcases r hr with ⟨hbefore, hepoch⟩ | hempty
    · have hlt := h.older r retired hbefore hretired hb
      simpa [hepoch] using hlt
    · rw [hempty] at hb
      simp at hb

/-! ## The operations are safe -/

theorem EpochSafe.register (h : EpochSafe dead exposed e) (p : ℕ) :
    EpochSafe dead exposed (registerGuestVmEpochParticipant p e) := by
  unfold registerGuestVmEpochParticipant
  split
  · exact h
  · refine h.update p ⟨e.guestVmEpoch, 0, true⟩ _ ?_ (Nat.le_refl _)
      (fun _ hdepth => absurd rfl hdepth)
    intro r
    by_cases hrp : r = p
    · simp [hrp]
    · simpa [hrp] using h.listed r

theorem EpochSafe.unregister (h : EpochSafe dead exposed e) (p : ℕ) :
    EpochSafe dead exposed (unregisterGuestVmEpochParticipant p e) := by
  unfold unregisterGuestVmEpochParticipant
  split
  · exact h
  · rename_i hok
    simp only [not_or, not_not] at hok
    refine EpochSafe.reclaim (h.update p { e.participant p with registered := false } _ ?_
      (h.bounded p) (fun _ hdepth => absurd hok.2 hdepth))
    intro r
    by_cases hrp : r = p
    · simp [hrp]
    · simpa [hrp] using h.listed r

/-- Entering is safe: a participant that was outside may use nothing yet, and a nested entry keeps
    the epoch of the outermost one. -/
theorem EpochSafe.enter (h : EpochSafe dead exposed e) (p : ℕ)
    (hempty : e.active p = false → exposed p = ∅) :
    EpochSafe dead exposed (enterGuestVmEpochGuard p e) := by
  unfold enterGuestVmEpochGuard
  split
  · exact h
  · refine h.update p _ e.guestVmEpochParticipants ?_ ?_ ?_
    · intro r
      by_cases hrp : r = p
      · subst hrp
        simpa using h.listed r
      · simpa [hrp] using h.listed r
    · split
      · exact Nat.le_refl _
      · exact h.bounded p
    · intro hmem _
      by_cases hdepth : (e.participant p).activeDepth = 0
      · exact .inr (hempty (by simp [active, hdepth]))
      · exact .inl ⟨by simp [active, hmem, hdepth], by simp [hdepth]⟩

theorem EpochSafe.exit (h : EpochSafe dead exposed e) (p : ℕ) :
    EpochSafe dead exposed (exitGuestVmEpochGuard p e) := by
  unfold exitGuestVmEpochGuard
  split
  · exact h
  · rename_i hdepth
    have hleft : EpochSafe dead exposed
        { e with
          participant := Function.update e.participant p
            { e.participant p with activeDepth := (e.participant p).activeDepth - 1 } } := by
      refine h.update p _ e.guestVmEpochParticipants ?_ (h.bounded p) ?_
      · intro r
        by_cases hrp : r = p
        · subst hrp
          simpa using h.listed r
        · simpa [hrp] using h.listed r
      · exact fun hmem _ => .inl ⟨by simp [active, hmem, hdepth], rfl⟩
    split
    · exact hleft.reclaim
    · exact hleft

/-- Adding backings that were not retired to what the active participants may use. -/
theorem EpochSafe.expose (h : EpochSafe dead exposed e) {exposed' : ℕ → Set ℕ}
    (hnew : ∀ p b, e.active p → b ∈ exposed' p → b ∈ exposed p ∨ b ∉ dead) :
    EpochSafe dead exposed' e where
  listed := h.listed
  bounded := h.bounded
  retired_dead := h.retired_dead
  reclaimed_dead := h.reclaimed_dead
  kept := by
    intro p b hp hb hmem
    rcases hnew p b hp hb with hold | hfresh
    · exact h.kept p b hp hold hmem
    · exact hfresh (h.reclaimed_dead b hmem)
  older := by
    intro p r hp hr hb
    rcases hnew p r.backing hp hb with hold | hfresh
    · exact h.older p r hp hr hold
    · exact absurd (h.retired_dead r hr) hfresh

end LiveExec32.Vm
