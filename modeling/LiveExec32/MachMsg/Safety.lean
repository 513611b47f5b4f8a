import LiveExec32.MachMsg.Overlays

/-! # Memory safety of the Mach trap

`TrapSafe` is the memory safety of one trap; `trapSafe_iff` says for which arguments, message
contents and emulator states it holds. It fails for the handlers that lay their structures over the
buffer without looking at its size: a header-only `host_get_io_main` with room for a header only is
answered with a port descriptor behind the buffer's end. -/

namespace LiveExec32.MachMsg

open Bytes

/-- One trap is memory safe: every read and write of the staging message stays inside the buffer,
    what is taken from the message stays inside what the guest has sent, every loop ends, and a
    reply that is reported as a success fits. -/
structure TrapSafe (fuel : ℕ) (host : Host) (world : World) (t : Trap) : Prop where
  inBuffer :
    ∀ entry ∈ (guestMachMsgTrap fuel host world t).footprint Access.sem (allocated world t),
    t.InBuffer entry.1 entry.2
  validated :
    ∀ entry ∈ (guestMachMsgTrap fuel host world t).footprint Access.sem (allocated world t),
    t.Validated entry.1 entry.2
  terminates : ((guestMachMsgTrap fuel host world t).run Access.sem (allocated world t)).1 ≠ .stuck
  replyFits :
    t.ReplyFits ((guestMachMsgTrap fuel host world t).run Access.sem (allocated world t)).1
    ((guestMachMsgTrap fuel host world t).run Access.sem (allocated world t)).2

section

variable {fuel : ℕ} {host : Host} {world : World} {t : Trap} {m : Bytes}

/-- Safety is the weakest precondition of the trap. -/
theorem trapSafe_iff_safe :
    TrapSafe fuel host world t
      ↔ t.Safe (guestMachMsgTrap fuel host world t) (allocated world t) := by
  rw [Trap.Safe, Trap.Meets, Prog.guarded_iff_footprint]
  constructor
  · intro h
    exact ⟨fun entry hmem => ⟨h.inBuffer entry hmem, h.validated entry hmem⟩, h.terminates,
      h.replyFits⟩
  · rintro ⟨haccess, hends, hfits⟩
    exact ⟨fun entry hmem => (haccess entry hmem).1,
      fun entry hmem => (haccess entry hmem).2, hends,
      hfits⟩

/-! ## Around the `switch` -/

/-- Completing the header and copying the buffer out changes neither the size nor the verdict. -/
theorem meets_finish (ending : Ending) :
    t.Meets (finish t ending) m t.Answered ↔ t.Answered ending m := by
  have := t.rcvSize_le_capacity
  cases ending with
  | reply =>
    simp [finish, copyOut, word_write_of_disjoint]
    omega
  | returned => rfl
  | crashed => rfl
  | stuck => rfl

/-- The message after the copy from the guest. -/
def copiedIn (world : World) (t : Trap) : Bytes := (allocated world t).write 0 t.content

/-- The message when the `switch` is reached. -/
def served (world : World) (t : Trap) : Bytes :=
  ((copiedIn world t).write msghSize (encodeWord t.sendSize)).write msghBits
    (encodeWord
      (((copiedIn world t).write msghSize (encodeWord t.sendSize)).word msghBits &&& 0xff))

theorem served_msghSize : (served world t).word msghSize = t.sendSize := by
  have := t.sendSize_lt
  simp [served, word_write_of_disjoint]
  omega

/-- Whether the trap returns `MACH_SEND_INVALID_DEST`. -/
def Rejected (world : World) (t : Trap) : Prop :=
  t.option.testBit 0 = true ∧ headerSize ≤ t.sendSize
    ∧ portValid ((copiedIn world t).word msghRequestPort) = false

/-- The trap does not reach the `switch`. -/
def Unserved (world : World) (t : Trap) : Prop :=
  (t.sendSize = 0 ∧ t.option.testBit 1 = true) ∨ Rejected world t

theorem serve_safe_iff : (∀ host, t.Safe (serve fuel host world t) (copiedIn world t))
      ↔ Sufficient fuel world t (served world t) (routine ((served world t).word msghId)) := by
  rw [← dispatch_safe_iff fuel world
    (((copiedIn world t).write msghSize (encodeWord t.sendSize)).word msghBits)
    ((served world t).word msghId) _ served_msghSize]
  refine forall_congr' fun host => ?_
  simp only [Trap.Safe, serve, meets_bind, meets_store32, meets_load32, meets_finish]
  exact ⟨fun h => h.2.2.2.2, fun h => ⟨by simp, by simp, by simp, by simp, h⟩⟩

theorem guestMachMsgTrap_unserved (h : Unserved world t) :
    t.Safe (guestMachMsgTrap fuel host world t) (allocated world t) := by
  have := t.sendSize_le_capacity
  have := t.content_le
  simp only [Trap.Safe, guestMachMsgTrap, meets_bind, meets_store]
  refine ⟨by omega, ?_⟩
  split
  next honly => exact receiveOnly_safe host world honly.2
  next honly =>
    obtain ⟨hsends, hheader, hport⟩ := h.resolve_left honly
    simp only [copiedIn, msghRequestPort] at hport
    simp [destinationInvalid, hsends, hheader, hport]

theorem guestMachMsgTrap_served (h : ¬Unserved world t) :
    t.Safe (guestMachMsgTrap fuel host world t) (allocated world t)
      ↔ t.Safe (serve fuel host world t) (copiedIn world t) := by
  have := t.sendSize_le_capacity
  have := t.content_le
  have hserve : t.Meets (destinationInvalid t) (copiedIn world t) (fun invalid m' =>
      t.Meets (if invalid = true then pure (.returned MACH_SEND_INVALID_DEST false)
        else serve fuel host world t) m' t.Answered)
      ↔ t.Safe (serve fuel host world t) (copiedIn world t) := by
    have hrejected : ¬Rejected world t := fun hrejected => h (.inr hrejected)
    simp only [destinationInvalid, meets_ite, meets_bind, meets_load32, Prog.pure_eq, meets_ret]
    by_cases hsends : t.option.testBit 0 = true ∧ headerSize ≤ t.sendSize
    · have hport : portValid ((copiedIn world t).word msghRequestPort) := by
        by_contra hinvalid
        exact hrejected ⟨hsends.1, hsends.2, Bool.not_eq_true _ ▸ hinvalid⟩
      simp [hsends, hport, Trap.Safe]
    · simp only [hsends, false_implies, true_and, not_false_eq_true, true_implies, Trap.Safe,
        Bool.false_eq_true]
  simp only [Trap.Safe, guestMachMsgTrap, meets_bind, meets_store]
  rw [if_neg fun honly => h (.inl honly), meets_bind]
  exact ⟨fun hsafe => hserve.1 hsafe.2, fun hsafe => ⟨by omega, hserve.2 hsafe⟩⟩

/-- Safety for every host, with the loops given `fuel` steps. -/
theorem forall_trapSafe_iff : (∀ host, TrapSafe fuel host world t) ↔ Unserved world t
        ∨ Sufficient fuel world t (served world t) (routine ((served world t).word msghId)) := by
  simp only [trapSafe_iff_safe]
  by_cases h : Unserved world t
  · simp [h, guestMachMsgTrap_unserved]
  · simp only [guestMachMsgTrap_served h, h, false_or, serve_safe_iff]

end

/-- **Memory safety of the trap.** For every message, message id, pair of sizes and emulator state,
    the trap is memory safe for every answer of the host just if it receives only, is refused, or
    meets the condition of the handler that its id selects. -/
theorem trapSafe_iff (world : World) (t : Trap) :
    (∃ fuel, ∀ host, TrapSafe fuel host world t)
      ↔ Unserved world t
        ∨ ∃ fuel,
          Sufficient fuel world t (served world t) (routine ((served world t).word msghId)) := by
  constructor
  · rintro ⟨fuel, h⟩
    exact (forall_trapSafe_iff.1 h).imp_right fun hsufficient => ⟨fuel, hsufficient⟩
  · rintro (h | ⟨fuel, h⟩)
    · exact ⟨0, forall_trapSafe_iff.2 (.inl h)⟩
    · exact ⟨fuel, forall_trapSafe_iff.2 (.inr h)⟩

/-- No images and nothing else to run. -/
def idleWorld : World where
  taskSelf := 0x203
  heap := fun _ => 0
  cooperativeTransition := false
  canYieldBeforeBlocking := false
  yieldsBeforeBlocking := false
  mappings := []
  image := fun _ _ => 0
  resolvesImagePath := fun _ => false
  exceptionReturns := false

/-- `host_get_io_main`, id 205: a header to port 0x103 is sent, and a header is expected back. -/
def ioMainRequest : Trap where
  option := 3
  sendSize := 24
  rcvSize := 24
  rcvName := 0x107
  timeout := 0
  notify := 0
  content := [0x13, 0x15, 0, 0, 24, 0, 0, 0, 3, 1, 0, 0, 7, 1, 0, 0, 0, 0, 0, 0, 205, 0, 0, 0]
  sendSize_lt := by decide
  rcvSize_lt := by decide
  content_le := by decide

/-- The reply to `host_get_io_main` has forty bytes, and its port descriptor is written behind a
    buffer of twenty-four. -/
theorem ioMainRequest_overruns : ¬∃ fuel, ∀ host, TrapSafe fuel host idleWorld ioMainRequest := by
  rintro ⟨fuel, h⟩
  have hid : (served idleWorld ioMainRequest).word msghId = 205 := by decide
  have hport : portValid ((copiedIn idleWorld ioMainRequest).word msghRequestPort) := by decide
  rw [forall_trapSafe_iff, hid] at h
  rcases h with (hreceive | hrejected) | hroom
  · cases hreceive.1
  · cases hport.symm.trans hrejected.2.2
  · exact absurd (show 40 ≤ 24 from hroom) (by decide)

end LiveExec32.MachMsg
