import LiveExec32.MachMsg.Trap

/-! # The handlers that check their sizes

A handler that compares `send_size` with its request before it reads that, and `rcv_size` with its
reply before it writes that, is memory safe whatever the message holds and whatever the host
answers. Each proof computes the weakest precondition of the handler along its branches; what is
left is arithmetic about the two sizes. -/

namespace LiveExec32.MachMsg

open Bytes

section

variable {t : Trap} {m : Bytes} (host : Host) (world : World) (requestBits : ℕ)

@[simp] theorem answered_reply (result : ℕ) :
    t.Answered (.reply result) m ↔ (result = MACH_MSG_SUCCESS → m.word msghSize ≤ t.rcvSize) := by
  simp [Trap.Answered, Trap.ReplyFits]

@[simp] theorem answered_returned_true (result : ℕ) : t.Answered (.returned result true) m
      ↔ (result = MACH_MSG_SUCCESS → m.word msghSize ≤ t.rcvSize) := by
  simp [Trap.Answered, Trap.ReplyFits]

@[simp] theorem answered_returned_false (result : ℕ) : t.Answered (.returned result false) m := by
  simp [Trap.Answered, Trap.ReplyFits]

/-- The header is always inside the buffer. -/
@[simp] theorem le_capacity_of_header {n : ℕ} (h : n ≤ 24) : n ≤ t.capacity :=
  le_trans h t.headerSize_le_capacity

@[simp] theorem length_ndrRecord : ndrRecord.length = 8 := rfl

@[simp] theorem ndrRecord_ne_nil : ndrRecord ≠ [] := by decide

/-- A write behind the size leaves it alone. -/
theorem word_msghSize_write {offset : ℕ} {data : List UInt8} (h : 8 ≤ offset) :
    (m.write offset data).word 4 = m.word 4 := word_write_of_disjoint (.inl h)

/-! ## Replies -/

@[simp] theorem meets_tooLarge (size : ℕ) : t.Meets (tooLarge size) m t.Answered := by
  simp [tooLarge]

/-- An error reply needs the room it takes. -/
@[simp] theorem meets_writeMigError (code : ℕ) :
    t.Meets (writeMigError code) m t.Answered ↔ 36 ≤ t.rcvSize := by
  have := t.rcvSize_le_capacity
  simp [writeMigError, word_write_of_disjoint]
  omega

@[simp] theorem meets_writeError (code : ℕ) : t.Meets (writeError t code) m t.Answered := by
  simp [writeError]

theorem meets_countedReply {words : List ℕ} (hlength : words.length ≤ 68) :
    t.Meets (countedReply t words) m t.Answered := by
  have := t.rcvSize_le_capacity
  simp [countedReply]
  omega

@[simp] theorem meets_setComplex (post : Unit → Bytes → Prop) : t.Meets setComplex m post
      ↔ post () (m.write 0 (encodeWord (m.word 0 ||| MACH_MSGH_BITS_COMPLEX))) := by
  simp [setComplex]

@[simp] theorem meets_portDescriptorReply (name : ℕ) (disposition : UInt8) :
    t.Meets (portDescriptorReply name disposition) m t.Answered ↔ 40 ≤ t.rcvSize := by
  have := t.rcvSize_le_capacity
  simp [portDescriptorReply, word_write_of_disjoint]
  omega

/-! ## Host, tasks and virtual memory -/

theorem machPortsRegister_safe : t.Safe (machPortsRegister world t) m := by
  simp [Trap.Safe, machPortsRegister]

/-- **Variable replies.** The handlers with an in-out count are safe: the count is bounded before
    the call and the reply's size is compared with the guest's buffer after it. -/
theorem countInOut_safe {maximum : ℕ} {refuses : (flavor capacity : ℕ) → Bool}
    {call : (port flavor capacity : ℕ) → Answer capacity}
    {expects : (flavor capacity count : ℕ) → Bool} {present : ℕ → List ℕ → List ℕ}
    (hmaximum : maximum ≤ 68)
    (hpresent : ∀ flavor words, (present flavor words).length = words.length) :
    t.Safe (countInOut t maximum refuses call expects present) m := by
  have := t.sendSize_le_capacity
  simp only [Trap.Safe, countInOut, ne_eq, ite_not, meets_ite, meets_bind, meets_load,
    meets_writeError, implies_true, and_true, true_and]
  intro hsend
  refine ⟨by omega, ?_⟩
  intro hcapacity _ _ hcount _
  refine meets_countedReply ?_
  rw [hpresent]
  omega

theorem length_armBasicInfo (words : List ℕ) : (armBasicInfo words).length = words.length := by
  unfold armBasicInfo
  split <;> simp

theorem hostInfo_safe : t.Safe (hostInfo host t) m := by
  refine countInOut_safe (by omega) fun flavor words => ?_
  split
  · exact length_armBasicInfo words
  · rfl

theorem hostStatistics_safe : t.Safe (hostStatistics host t) m :=
  countInOut_safe (by omega) fun _ _ => rfl

theorem threadInfo_safe : t.Safe (threadInfo host t) m := countInOut_safe (by simp) fun _ _ => rfl

theorem clockGetTime_safe : t.Safe (clockGetTime host t) m := by
  have := t.rcvSize_le_capacity
  simp [Trap.Safe, clockGetTime]
  omega

theorem vmCopy_safe : t.Safe (vmCopy host world t) m := by
  have := t.sendSize_le_capacity
  simp [Trap.Safe, vmCopy]
  omega

theorem vmReadOverwrite_safe : t.Safe (vmReadOverwrite host world t requestBits) m := by
  have := t.sendSize_le_capacity
  simp [Trap.Safe, vmReadOverwrite]
  omega

theorem meets_vmRemap_respond {answer : Answer 2} (herror : 36 ≤ t.rcvSize)
    (hsuccess : answer.code = KERN_SUCCESS → 48 ≤ t.rcvSize) :
    t.Meets (vmRemap.respond answer) m t.Answered := by
  have := t.rcvSize_le_capacity
  simp at hsuccess
  simp [vmRemap.respond]
  omega

/-- The address is mapped only after the reply is known to fit. -/
theorem vmRemap_safe : t.Safe (vmRemap host world t requestBits) m := by
  have := t.sendSize_le_capacity
  simp only [Trap.Safe, vmRemap, meets_ite, meets_tooLarge, implies_true, true_and, meets_bind,
    meets_load]
  intro hroom
  have herror : 36 ≤ t.rcvSize := Nat.not_lt.mp hroom
  refine ⟨fun hsend => ⟨by omega, ?_, fun _ => ⟨?_, fun _ hreply => ?_⟩⟩, fun _ => ?_⟩
  · exact fun _ => meets_vmRemap_respond herror (by simp [MIG_BAD_ARGUMENTS])
  · exact fun _ => meets_vmRemap_respond herror (by simp)
  · exact meets_vmRemap_respond herror fun _ => Nat.not_lt.mp hreply
  · exact meets_vmRemap_respond herror (by simp [MIG_BAD_ARGUMENTS])

theorem machMakeMemoryEntry64_safe : t.Safe (machMakeMemoryEntry64 world t requestBits) m := by
  have := t.sendSize_le_capacity
  simp [Trap.Safe, machMakeMemoryEntry64]
  omega

theorem taskThreads_safe : t.Safe (taskThreads host world t) m := by
  have := t.rcvSize_le_capacity
  simp [Trap.Safe, taskThreads, word_write_of_disjoint]
  omega

theorem taskInfo_safe : t.Safe (taskInfo host t) m := by
  have := t.sendSize_le_capacity
  have := t.rcvSize_le_capacity
  simp [Trap.Safe, taskInfo]
  omega

/-! ## Threads -/

theorem threadSuspendResume_safe (suspend : Bool) :
    t.Safe (threadSuspendResume host t requestBits suspend) m := by
  simp [Trap.Safe, threadSuspendResume]
  omega

/-- The registers are written before the final check of the reply's size, but no more of them than
    the first check has made room for. -/
theorem threadGetState_safe : t.Safe (threadGetState host t) m := by
  have := t.sendSize_le_capacity
  have := t.rcvSize_le_capacity
  simp [Trap.Safe, threadGetState]
  omega

theorem meets_policyReply {policy : List ℕ} (hlength : policy.length ≤ 16) (getDefault : ℕ) :
    t.Meets (policyReply t policy getDefault) m t.Answered := by
  have := t.rcvSize_le_capacity
  have htail : 8 ≤ 40 + 4 * policy.length := by omega
  simp [policyReply, word_msghSize_write htail, word_msghSize_write]
  omega

theorem threadPolicySetGet_safe (setting : Bool) :
    t.Safe (threadPolicySetGet host t requestBits setting) m := by
  have := t.sendSize_le_capacity
  cases setting with
  | true =>
    simp [Trap.Safe, threadPolicySetGet]
    omega
  | false =>
    simp only [Trap.Safe, threadPolicySetGet, meets_ite, meets_bind, meets_load, meets_load32,
      meets_writeError, implies_true, true_and, Bool.false_eq_true, if_false]
    intro hsend
    refine ⟨by omega, ?_⟩
    intro _ _ hsize _
    refine ⟨by omega, ?_⟩
    intro _ hcount
    exact meets_policyReply (by simp at hcount ⊢; omega) _

/-! ## `ReplyWriter` -/

/-- A reply copied over the message carries its own size. -/
theorem meets_putReply {body : List UInt8} (hfits : headerSize + body.length ≤ t.rcvSize) :
    t.Meets (putReply body) m t.Answered := by
  have := t.rcvSize_le_capacity
  simp only [headerSize] at hfits
  simp [putReply, replyHeader, word_write_of_disjoint]
  omega

theorem meets_require {size : ℕ} {continuation : Staging Ending}
    (h : size ≤ t.rcvSize → t.Meets continuation m t.Answered) :
    t.Meets (require t size continuation) m t.Answered := by
  simpa [require] using h

@[simp] theorem meets_replyError (code : ℕ) : t.Meets (replyError t code) m t.Answered :=
  meets_require fun hsize => meets_putReply (by simpa using hsize)

@[simp] theorem meets_replyScalar (code : ℕ) (value : List ℕ) :
    t.Meets (replyScalar t code value) m t.Answered := by
  unfold replyScalar
  split
  · exact meets_replyError code
  · refine meets_require fun hsize => meets_putReply ?_
    simp at hsize ⊢
    omega

/-! ## `HandleGuestSimpleMachMessage` and `HandleGuestExceptionPortMessage` -/

theorem meets_hostKernelVersion (target : ℕ) :
    t.Meets (hostKernelVersion host t target) m t.Answered := by
  simp only [hostKernelVersion]
  split
  · exact meets_replyError _
  · split
    · exact meets_replyError _
    · refine meets_require fun hsize => meets_putReply ?_
      simp at hsize ⊢
      omega

theorem meets_clockGetAttributes (target : ℕ) (arguments : List ℕ) :
    t.Meets (clockGetAttributes host t target arguments) m t.Answered := by
  simp only [clockGetAttributes]
  split
  · exact meets_replyError _
  · refine meets_require fun hsize => ?_
    split
    · exact meets_replyError _
    · split
      · exact meets_replyError _
      · refine meets_putReply ?_
        simp at *
        omega

theorem meets_simpleReply (id target : ℕ) (arguments : List ℕ) :
    t.Meets (simpleReply host t id target arguments) m t.Answered := by
  unfold simpleReply
  split
  · exact meets_hostKernelVersion host target
  · exact meets_replyScalar _ _
  · exact meets_clockGetAttributes host target arguments
  · exact meets_replyScalar _ _
  · exact meets_replyScalar _ _
  · exact meets_replyScalar _ _
  · exact meets_replyError _

theorem handleGuestSimpleMachMessage_safe (id argumentCount replySize : ℕ) :
    t.Safe (handleGuestSimpleMachMessage host t requestBits id argumentCount replySize) m := by
  have := t.sendSize_le_capacity
  simp only [Trap.Safe, handleGuestSimpleMachMessage, meets_bind, meets_load32,
    meets_ite, meets_load,
    meets_replyError, implies_true, true_and]
  refine ⟨by simp, fun hvalid => ⟨fun _ => ?_, fun hcount => ?_⟩⟩
  · refine meets_require fun _ => ?_
    simp [meets_simpleReply]
  · -- the arguments end where the request does
    have hsize : t.sendSize = 32 + 4 * argumentCount := by
      simp [simpleRequestSize, hcount] at hvalid
      omega
    refine ⟨by simp; omega, fun _ => ⟨by omega, meets_require fun _ => ?_⟩⟩
    simp [meets_simpleReply]

theorem meets_exceptionReply (id : ℕ) (valid : Bool) (h : 36 ≤ t.rcvSize) :
    t.Meets (exceptionReply world id valid) m t.Answered := by
  simp only [exceptionReply, meets_bind, meets_load32]
  exact ⟨by simp, meets_putReply (by simpa using h)⟩

theorem handleGuestExceptionPortMessage_safe (id : ℕ) :
    t.Safe (handleGuestExceptionPortMessage world t requestBits id) m := by
  have := t.sendSize_le_capacity
  simp only [Trap.Safe, handleGuestExceptionPortMessage, meets_ite, meets_tooLarge, implies_true,
    true_and, meets_bind, meets_load32, meets_load]
  intro hroom
  have hreply : ∀ m' valid, t.Meets (exceptionReply world id valid) m' t.Answered :=
    fun _ valid => meets_exceptionReply world id valid (Nat.not_lt.mp hroom)
  simp [hreply]
  omega

/-! ## Messages that the host answers -/

variable {option : ℕ}

theorem meets_debuggerAwareMachMsg {host : Host} {sendSize timeout : ℕ} {post : ℕ → Bytes → Prop}
    (hsend : sendSize ≤ t.sendSize) (hpost : ∀ (delivery : Delivery option t.rcvSize) (m' : Bytes),
      post delivery.result (m'.write 0 delivery.received)) :
    t.Meets (debuggerAwareMachMsg host t option sendSize timeout) m post := by
  have := t.sendSize_le_capacity
  have := t.rcvSize_le_capacity
  simp only [debuggerAwareMachMsg, meets_bind, meets_load, meets_store, Prog.pure_eq, meets_ret]
  refine ⟨by omega, ?_, hpost _ m⟩
  have := (host.machMsg option sendSize t.rcvSize t.rcvName timeout t.notify (m.shift 0)).fits
  omega

/-- What the host has received fits, by the host's own account. -/
theorem meets_delivered (delivery : Delivery option t.rcvSize) (hreceives : option.testBit 1) :
    t.Meets (delivered t delivery.result) (m.write 0 delivery.received) t.Answered := by
  have := t.rcvSize_le_capacity
  have hsized := fun hresult => delivery.sized hreceives hresult m
  simp only [delivered, copyOut, meets_ite, meets_bind, meets_load, Prog.pure_eq, meets_ret,
    answered_returned_true, answered_returned_false, implies_true, and_true]
  exact fun _ => ⟨by omega, hsized⟩

theorem forwardMessage_safe : t.Safe (forwardMessage host t requestBits) m := by
  simp only [Trap.Safe, forwardMessage, meets_bind, meets_store32, msghBits]
  refine ⟨by simp, meets_debuggerAwareMachMsg le_rfl fun delivery m' => ?_⟩
  split
  · next hreceives => exact meets_delivered delivery hreceives
  · simp

theorem blockingReceive_safe (hreceives : t.option.testBit 1) :
    t.Safe (blockingReceive host world t) m := by
  unfold Trap.Safe blockingReceive
  split
  · simp
  · rw [meets_bind]
    exact meets_debuggerAwareMachMsg (Nat.zero_le _) fun delivery _ =>
      meets_delivered delivery hreceives

theorem receiveOnly_safe (hreceives : t.option.testBit 1) :
    t.Safe (receiveOnly host world t) m := by
  unfold Trap.Safe receiveOnly
  split
  · simp
  · split
    · rw [meets_bind]
      refine meets_debuggerAwareMachMsg (Nat.zero_le _) fun delivery _ => ?_
      split
      · exact meets_delivered delivery (by simp [Nat.testBit_or, hreceives])
      · split
        · simp
        · exact blockingReceive_safe host world hreceives
    · exact blockingReceive_safe host world hreceives

end

end LiveExec32.MachMsg
