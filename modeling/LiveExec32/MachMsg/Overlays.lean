import LiveExec32.MachMsg.Replies

/-! # The handlers that do not check their sizes

The handlers over `MACH_MSG_UNION`, the notifications of the dynamic linker and the fallbacks are
memory safe for some sizes and contents only. `Sufficient` says which ones, for each case of the
`switch`, and `dispatch_safe_iff` that it says so exactly: a request that meets it is handled safely
whatever the host answers, and for any other the host that grants every call is enough to leave the
buffer, to read past what was sent, to loop forever or to report a reply that does not fit. -/

namespace LiveExec32.MachMsg

open Bytes

/-- The host on which every call succeeds and fills its output. -/
def obligingHost : Host where
  call _ _ capacity :=
    { code := KERN_SUCCESS, words := List.replicate capacity 0, fits := by simp }
  machMsg _ _ _ _ _ _ _ :=
    { result := MACH_RCV_TIMED_OUT, received := [], fits := Nat.zero_le _, sized := by simp }
  hasHostGetIoMain := true
  hasHostGetIoMaster := true
  hasIoServerVersion := true
  hasIoServiceGetMatchingServices := true

@[simp] theorem obligingHost_code (call : HostCall) (arguments : List ℕ) (capacity : ℕ) :
    (obligingHost.call call arguments capacity).code = KERN_SUCCESS := rfl

@[simp] theorem obligingHost_length (call : HostCall) (arguments : List ℕ) (capacity : ℕ) :
    (obligingHost.call call arguments capacity).words.length = capacity := by simp [obligingHost]

/-! ## What a request has to satisfy -/

/-- The request of `io_service_get_matching_services` ends in a string. -/
def hasMatching (t : Trap) (m : Bytes) : Prop := 40 < t.sendSize ∧ m.Terminated 40 t.sendSize

instance (t : Trap) (m : Bytes) : Decidable (hasMatching t m) :=
  inferInstanceAs (Decidable (40 < t.sendSize ∧ m.Terminated 40 t.sendSize))

/-- The load address of an entry, as the loop reads it. -/
def imageAddress (m : Bytes) (index : ℕ) : ℕ := m.word (m.word 32 + 32 * index + 16)

/-- Where the path of an entry starts. -/
def imagePath (m : Bytes) (index : ℕ) : ℕ := m.word 36 + m.word (m.word 32 + 32 * index + 24)

/-- Whether the path of an entry is found on the host. -/
def imageResolved (world : World) (m : Bytes) (index : ℕ) : Bool :=
  m (imagePath m index) = 47 && world.resolvesImagePath (m.shift (imagePath m index))

/-- What registering the entry does. -/
def imageRegistration (world : World) (m : Bytes) (index : ℕ) (mappings : List GuestMapping) :
    Registration :=
  registerImage mappings (imageAddress m index) (imageResolved world m index)

/-- The table after `count` entries from `index` on, unless the loop has stopped at a full table. -/
def mappingsAfter (world : World) (m : Bytes) :
    (count index : ℕ) → List GuestMapping → Option (List GuestMapping)
  | 0, _, mappings => some mappings
  | count + 1, index, mappings =>
    match imageRegistration world m index mappings with
    | .skip => mappingsAfter world m count (index + 1) mappings
    | .full => none
    | .register mappings' => mappingsAfter world m count (index + 1) mappings'

/-- An entry of a load notification is well formed: the entry lies inside what was sent, so does its
    path as far as that is read, and its image has a `__TEXT` segment. -/
@[mk_iff]
structure ImageReadable (fuel : ℕ) (world : World) (t : Trap) (m : Bytes) (index : ℕ)
    (mappings : List GuestMapping) : Prop where
  entry : m.word 32 + 32 * index + 28 ≤ t.sendSize
  text : (findText (world.image (imageAddress m index)) fuel machHeaderSize).isSome
  first : imagePath m index < t.sendSize
  resolvedPath : m (imagePath m index) = 47 → m.Terminated (imagePath m index) t.sendSize
  keptPath : ∀ mappings', imageRegistration world m index mappings = .register mappings' →
    imageResolved world m index = false → m.Terminated (imagePath m index) t.sendSize

/-- What the sizes and the contents of a request have to satisfy for its handler to be memory safe.
    The reply has to fit into the guest's buffer, and where the request's fields end behind the
    reply, they have to lie inside the staging buffer; places and counts in the request have to stay
    inside what was sent. Nothing is asked of a handler that checks its sizes. -/
def Sufficient (fuel : ℕ) (world : World) (t : Trap) (m : Bytes) : Routine → Prop
  | .hostGetIoMain | .hostGetClockService | .hostGetSpecialPort | .machPortType
  | .taskGetSpecialPort | .semaphoreCreate | .notifyServerCancel => 40 ≤ t.rcvSize
  | .hostRequestNotification => 36 ≤ t.rcvSize ∧ 52 ≤ t.capacity
  | .machPortRequestNotification => 40 ≤ t.rcvSize ∧ 60 ≤ t.capacity
  | .machPortGetAttributes =>
    44 ≤ t.capacity ∧ if 17 < m.word 40 then 36 ≤ t.rcvSize else 40 + 4 * m.word 40 ≤ t.rcvSize
  | .machPortSetAttributes =>
    36 ≤ t.rcvSize ∧ 44 ≤ t.capacity
      ∧ (m.word 40 ≤ 17 → m.word 40 = 0 ∨ 44 + 4 * m.word 40 ≤ t.sendSize)
  | .taskSetSpecialPort => t.sendSize ≤ t.rcvSize ∧ 52 ≤ t.capacity
  | .semaphoreDestroy | .taskRegisterDyldImageInfos | .taskRegisterDyldSharedCacheImageInfo
  | .threadPolicy => 36 ≤ t.rcvSize
  | .notifyServerRegisterCheck => 52 ≤ t.rcvSize
  | .notifyServerCheck | .ioServerVersion => 44 ≤ t.rcvSize
  | .ioServiceGetMatchingServices => if hasMatching t m then 40 ≤ t.rcvSize else 36 ≤ t.rcvSize
  | .dyldNotifyMain => 24 ≤ t.rcvSize
  | .dyldNotifyUnload =>
    24 ≤ t.rcvSize ∧ 36 ≤ t.capacity
      ∧ ∀ index < m.word 28, m.word 32 + 32 * index + 24 ≤ t.sendSize
  | .dyldNotifyLoad =>
    24 ≤ t.rcvSize ∧ 40 ≤ t.capacity
      ∧ ∀ index < m.word 28, ∀ mappings,
        mappingsAfter world m index 0 world.mappings = some mappings →
          ImageReadable fuel world t m index mappings
  | .unhandled => world.exceptionReturns = true → t.sendSize ≤ t.rcvSize
  | .machPortsRegister | .noId | .hostInfo | .hostStatistics | .clockGetTime | .vmCopy
  | .vmReadOverwrite | .vmRemap | .machMakeMemoryEntry64 | .taskThreads | .taskInfo
  | .threadSuspend | .threadResume | .threadGetState | .threadInfo | .threadPolicySet
  | .threadPolicyGet | .notifyServerRegisterMachPort | .forwarded | .exceptionPort
  | .simple _ _ => True

section

variable {t : Trap} {m : Bytes} {fuel : ℕ} {world : World}

/-- A condition that does not depend on the host. -/
theorem forall_host_iff {safe : Host → Prop} {condition : Prop}
    (h : ∀ host, safe host ↔ condition) : (∀ host, safe host) ↔ condition :=
  ⟨fun hall => (h obligingHost).1 (hall obligingHost), fun hcondition host => (h host).2 hcondition⟩

/-! ## Ports in the reply -/

/-- With room for the reply, the port's name and the arguments are inside the buffer; a reply with a
    port that is reported as a success has to fit. -/
theorem portUnion_safe_iff {arguments : List ℕ} {call : Host → List ℕ → Answer 1}
    (harguments : ∀ offset ∈ arguments, offset + 4 ≤ 40)
    (hcode : ∀ values, (call obligingHost values).code = 0) :
    (∀ host, t.Safe (portUnion arguments (call host)) m) ↔ 40 ≤ t.rcvSize := by
  refine ⟨fun hsafe => ?_, fun hroom host => ?_⟩
  · have hobliging := hsafe obligingHost
    simp [portUnion, Trap.Safe, word_write_of_disjoint, hcode] at hobliging
    omega
  · have := t.rcvSize_le_capacity
    have hinside : ∀ offset ∈ arguments, offset + 4 ≤ t.capacity :=
      fun offset hmem => by have := harguments offset hmem; omega
    simp [portUnion, Trap.Safe, word_write_of_disjoint]
    refine ⟨hinside, ?_, by omega, by omega, by omega, fun _ => hroom⟩
    generalize call host _ = answer
    have := answer.fits
    omega

/-! ## Fixed replies -/

/-- The message after its fields have been set. -/
def withFields (m : Bytes) (fields : List (ℕ × ℕ)) : Bytes :=
  fields.foldl (fun m field => m.write field.1 (encodeWord field.2)) m

theorem meets_storeFields (fields : List (ℕ × ℕ)) (post : Unit → Bytes → Prop) :
    t.Meets (acknowledge.storeFields fields) m post
      ↔ (∀ field ∈ fields, field.1 + 4 ≤ t.capacity) ∧ post () (withFields m fields) := by
  induction fields generalizing m with
  | nil => simp [acknowledge.storeFields, withFields]
  | cons field rest ih =>
    simp only [acknowledge.storeFields, meets_bind, meets_store32, ih, List.forall_mem_cons,
      and_assoc]
    rfl

variable {fields : List (ℕ × ℕ)}

theorem word_msghSize_withFields (hbehind : ∀ field ∈ fields, 8 ≤ field.1) :
    (withFields m fields).word 4 = m.word 4 := by
  induction fields generalizing m with
  | nil => rfl
  | cons field rest ih =>
    rw [List.forall_mem_cons] at hbehind
    exact (ih hbehind.2).trans (word_msghSize_write hbehind.1)

/-- A fixed reply, with all its fields behind the size and inside it, is safe just if it fits. -/
theorem acknowledge_safe_iff {size : ℕ} (hsize : size < 2 ^ 32)
    (hfields : ∀ field ∈ fields, 8 ≤ field.1 ∧ field.1 + 4 ≤ size) :
    t.Safe (acknowledge size fields) m ↔ size ≤ t.rcvSize := by
  have := t.rcvSize_le_capacity
  have hword := word_msghSize_withFields (m := m.write 4 (encodeWord size))
    (fun field hmem => (hfields field hmem).1)
  rw [word_write_encodeWord, Nat.mod_eq_of_lt hsize] at hword
  simp only [Trap.Safe, acknowledge, meets_bind, meets_store32, meets_storeFields, msghSize,
    Prog.pure_eq, meets_ret, answered_reply, forall_const, hword]
  refine ⟨fun h => h.2.2, fun hroom => ⟨by simp, fun field hmem => ?_, hroom⟩⟩
  have := (hfields field hmem).2
  omega

/-! ## Ports, tasks and IOKit

The sufficient half holds for every host, the necessary half already for the obliging one. -/

theorem hostRequestNotification_safe_iff (host : Host) :
    t.Safe (hostRequestNotification host) m ↔ 36 ≤ t.rcvSize ∧ 52 ≤ t.capacity := by
  simp [Trap.Safe, hostRequestNotification, word_write_of_disjoint]
  omega

theorem machPortType_safe_iff : (∀ host, t.Safe (machPortType host) m) ↔ 40 ≤ t.rcvSize := by
  refine ⟨fun hsafe => ?_, fun hroom host => ?_⟩
  · have hobliging := hsafe obligingHost
    simp [Trap.Safe, machPortType] at hobliging
    omega
  · have := t.rcvSize_le_capacity
    simp only [Trap.Safe, machPortType, meets_bind, meets_store, meets_store32, meets_loadWords,
      Prog.pure_eq, meets_ret, length_ndrRecord]
    generalize host.call _ _ 1 = answer
    have := answer.fits
    simp
    split <;> omega

theorem machPortRequestNotification_safe_iff : (∀ host, t.Safe (machPortRequestNotification host) m)
      ↔ Sufficient fuel world t m .machPortRequestNotification := by
  refine ⟨fun hsafe => ?_, fun ⟨hroom, hrequest⟩ host => ?_⟩
  · have hobliging := hsafe obligingHost
    simp [Trap.Safe, machPortRequestNotification] at hobliging
    simp only [Sufficient]
    omega
  · simp [Trap.Safe, machPortRequestNotification]
    omega

theorem machPortGetAttributes_safe_iff : (∀ host, t.Safe (machPortGetAttributes host) m)
      ↔ Sufficient fuel world t m .machPortGetAttributes := by
  have hword : (m.write 24 ndrRecord).word 40 = m.word 40 := word_write_of_disjoint (.inr (by simp))
  refine ⟨fun hsafe => ?_, fun ⟨hcount, hroom⟩ host => ?_⟩
  · have hobliging := hsafe obligingHost
    simp [Trap.Safe, machPortGetAttributes, hword] at hobliging
    simp only [Sufficient]
    split <;> omega
  · have := t.rcvSize_le_capacity
    rw [← hword] at hroom
    simp only [Trap.Safe, machPortGetAttributes, meets_bind, meets_store,
      meets_store32, meets_load32,
      meets_ite, meets_loadWords, Prog.pure_eq, meets_ret, length_ndrRecord, ndrOffset, portInfoMax]
    generalize (m.write 24 ndrRecord).word 40 = count at hroom ⊢
    generalize host.call _ _ count = answer
    have := answer.fits
    split at hroom
    all_goals simp
    all_goals omega

theorem machPortSetAttributes_safe_iff (host : Host) :
    t.Safe (machPortSetAttributes host) m ↔ Sufficient fuel world t m .machPortSetAttributes := by
  simp [Trap.Safe, machPortSetAttributes, Sufficient, word_write_of_disjoint]
  omega

theorem taskSetSpecialPort_safe_iff (host : Host) (hsize : m.word msghSize = t.sendSize) :
    t.Safe (taskSetSpecialPort host) m ↔ t.sendSize ≤ t.rcvSize ∧ 52 ≤ t.capacity := by
  simp [Trap.Safe, taskSetSpecialPort, word_write_of_disjoint, hsize]
  omega

theorem semaphoreDestroy_safe_iff (host : Host) :
    t.Safe (semaphoreDestroy host) m ↔ 36 ≤ t.rcvSize := by
  have := t.rcvSize_le_capacity
  simp [Trap.Safe, semaphoreDestroy, word_write_of_disjoint]
  omega

theorem threadPolicy_safe_iff : t.Safe threadPolicy m ↔ 36 ≤ t.rcvSize := by
  have := t.rcvSize_le_capacity
  simp [Trap.Safe, threadPolicy, word_write_of_disjoint]
  omega

theorem ioServerVersion_safe_iff : (∀ host, t.Safe (ioServerVersion host) m) ↔ 44 ≤ t.rcvSize := by
  refine ⟨fun hsafe => ?_, fun hroom host => ?_⟩
  · have hobliging := hsafe obligingHost
    have hsymbol : obligingHost.hasIoServerVersion := rfl
    simp [Trap.Safe, ioServerVersion, hsymbol] at hobliging
    omega
  · have := t.rcvSize_le_capacity
    simp only [Trap.Safe, ioServerVersion, meets_bind, meets_load32, meets_store, meets_store32,
      Prog.pure_eq, meets_ret, length_ndrRecord]
    generalize (if host.hasIoServerVersion then _ else _ : Answer 2) = answer
    simp
    split <;> omega

theorem terminated_shift (offset limit : ℕ) :
    (m.shift offset).Terminated 0 (limit - offset) ↔ m.Terminated offset limit := by
  constructor
  · rintro ⟨i, hi, -, hzero⟩
    exact ⟨offset + i, by omega, by omega, hzero⟩
  · rintro ⟨i, hi, hfrom, hzero⟩
    refine ⟨i - offset, by omega, Nat.zero_le _, ?_⟩
    show m (offset + (i - offset)) = 0
    rwa [Nat.add_sub_cancel' hfrom]

theorem ioServiceGetMatchingServices_safe_iff :
    (∀ host, t.Safe (ioServiceGetMatchingServices host t) m)
      ↔ Sufficient fuel world t m .ioServiceGetMatchingServices := by
  have hsymbol : obligingHost.hasIoServiceGetMatchingServices := rfl
  simp only [Sufficient, Trap.Safe, ioServiceGetMatchingServices, meets_ite,
    meets_bind, meets_record,
    meets_load32, meets_string, matchingOffset, terminated_shift, meets_writeMigError,
    meets_portDescriptorReply]
  refine ⟨fun hsafe => ?_, fun hroom host => ?_⟩
  · have hobliging := hsafe obligingHost
    simp only [hsymbol, and_true, obligingHost_code, ne_eq, not_true_eq_false, not_false_eq_true,
      false_implies, true_implies, true_and] at hobliging
    split
    · rename_i hmatching
      exact ((hobliging.2 (by have := hmatching.1; omega)).2.1 hmatching.2).2.2
    · rename_i hmatching
      by_cases hlong : t.sendSize ≤ 40
      · exact hobliging.1 hlong
      · exact (hobliging.2 hlong).2.2 fun hterminated => hmatching ⟨by omega, hterminated⟩
  · have herror : 36 ≤ t.rcvSize := by split at hroom <;> omega
    simp only [herror, implies_true, true_and, and_true]
    refine fun hlong => ⟨by omega, fun hmatching => ⟨by simp, hmatching.1, fun _ => ?_⟩⟩
    rwa [if_pos ⟨by omega, hmatching.1⟩] at hroom

/-! ## Notifications of the dynamic linker -/

@[simp] theorem meets_resolveImagePath (world : World) (path : ℕ) (post : Bool → Bytes → Prop) :
    t.Meets (resolveImagePath world path) m post
      ↔ path < t.sendSize ∧ (m path = 47 → m.Terminated path t.sendSize)
        ∧ post (m path = 47 && world.resolvesImagePath (m.shift path)) m := by
  simp only [resolveImagePath, meets_bind, meets_record, meets_ite, meets_string, Prog.pure_eq,
    meets_ret, Bytes.shift, Nat.add_zero, Nat.add_one_le_iff]
  by_cases hslash : m path = 47 <;> simp [hslash]

variable {post : Bool → Bytes → Prop}

/-- One round of the loop over the images. -/
theorem meets_loadImages_succ (hstuck : ¬post false m) (remaining index : ℕ)
    (mappings : List GuestMapping) :
    t.Meets (loadImages fuel world (m.word 32) (m.word 36) (remaining + 1) index mappings) m post
      ↔ ImageReadable fuel world t m index mappings
        ∧ match imageRegistration world m index mappings with
          | .skip =>
            t.Meets (loadImages fuel world (m.word 32) (m.word 36) remaining (index + 1) mappings)
              m post
          | .full => post true m
          | .register mappings' =>
            t.Meets (loadImages fuel world (m.word 32) (m.word 36) remaining (index + 1) mappings')
              m post := by
  have hrecords : m.word 32 + 32 * index + 16 + 8 ≤ t.sendSize
      ∧ m.word 32 + 32 * index + 24 + 4 ≤ t.sendSize
      ↔ m.word 32 + 32 * index + 28 ≤ t.sendSize := by omega
  rw [imageReadable_iff, loadImages]
  simp only [meets_bind, meets_record, imageEntrySize, word_shift, Nat.add_zero]
  rw [← and_assoc, show (8 = 0) = False from by simp, show (4 = 0) = False from by simp,
    false_or, false_or, hrecords, and_assoc]
  refine and_congr_right fun _ => ?_
  simp only [← imageAddress.eq_1, ← imagePath.eq_1]
  cases findText (world.image (imageAddress m index)) fuel machHeaderSize with
  | none => simpa using hstuck
  | some seg =>
    simp only [meets_bind, meets_resolveImagePath, Option.isSome_some, true_and, and_assoc,
      ← imageResolved.eq_1, ← imageRegistration.eq_1]
    refine and_congr_right fun _ => and_congr_right fun _ => ?_
    cases imageRegistration world m index mappings with
    | skip => simp
    | full => simp
    | register mappings' =>
      cases imageResolved world m index with
      | true => simp
      | false => simp

/-- **The loop over the images.** It ends, without leaving the message, just if every entry it comes
    to is well formed. The induction follows the loop; `mappings` is the table when it arrives. -/
theorem meets_loadImages (hstuck : ¬post false m) (remaining index : ℕ)
    (mappings : List GuestMapping) :
    t.Meets (loadImages fuel world (m.word 32) (m.word 36) remaining index mappings) m post
      ↔ (∀ k < remaining, ∀ mappings', mappingsAfter world m k index mappings = some mappings' →
          ImageReadable fuel world t m (index + k) mappings') ∧ post true m := by
  induction remaining generalizing index mappings with
  | zero => simp [loadImages]
  | succ remaining ih =>
    rw [Nat.forall_lt_succ_left, meets_loadImages_succ hstuck]
    simp only [mappingsAfter, Option.some.injEq, forall_eq', Nat.add_zero, and_assoc]
    cases imageRegistration world m index mappings with
    | skip | register => simp only [ih, Nat.add_assoc, Nat.add_comm 1]
    | full => simp

theorem dyldNotifyMain_safe_iff : t.Safe dyldNotifyMain m ↔ 24 ≤ t.rcvSize := by
  simp [Trap.Safe, dyldNotifyMain]

theorem dyldNotifyLoad_safe_iff :
    t.Safe (dyldNotifyLoad fuel world) m ↔ Sufficient fuel world t m .dyldNotifyLoad := by
  have hstuck : ¬t.Meets (if false = true then dyldNotifyMain else pure .stuck) m t.Answered := by
    simp [Trap.Answered]
  have hloop := @meets_loadImages t m fuel world
    (fun ended m' => t.Meets (if ended = true then dyldNotifyMain else pure .stuck) m' t.Answered)
    hstuck (m.word 28) 0 world.mappings
  simp only [Trap.Safe, dyldNotifyLoad, meets_bind, meets_load32, imagesOffsetOffset,
    stringsOffsetOffset, imageCountOffset, hloop, if_true, Nat.zero_add]
  rw [show t.Meets dyldNotifyMain m t.Answered ↔ 24 ≤ t.rcvSize from dyldNotifyMain_safe_iff]
  constructor
  · rintro ⟨-, hstrings, -, himages, hroom⟩
    exact ⟨hroom, hstrings, himages⟩
  · rintro ⟨hroom, hstrings, himages⟩
    exact ⟨by omega, hstrings, by omega, himages, hroom⟩

theorem meets_unloadImages (images remaining index : ℕ) (post : Unit → Bytes → Prop) :
    t.Meets (unloadImages images remaining index) m post
      ↔ (∀ k < remaining, images + 32 * (index + k) + 24 ≤ t.sendSize) ∧ post () m := by
  induction remaining generalizing index with
  | zero => simp [unloadImages]
  | succ remaining ih =>
    rw [Nat.forall_lt_succ_left]
    simp only [unloadImages, meets_bind, meets_record, ih, imageEntrySize, Nat.add_zero, and_assoc,
      Nat.add_right_comm index 1, Nat.add_assoc index]
    refine and_congr ?_ Iff.rfl
    omega

theorem dyldNotifyUnload_safe_iff :
    t.Safe dyldNotifyUnload m ↔ Sufficient fuel world t m .dyldNotifyUnload := by
  simp only [Trap.Safe, dyldNotifyUnload, meets_bind, meets_load32, imagesOffsetOffset,
    imageCountOffset, meets_unloadImages, Nat.zero_add]
  rw [show t.Meets dyldNotifyMain m t.Answered ↔ 24 ≤ t.rcvSize from dyldNotifyMain_safe_iff]
  constructor
  · rintro ⟨himages, -, hentries, hroom⟩
    exact ⟨hroom, himages, hentries⟩
  · rintro ⟨hroom, himages, hentries⟩
    exact ⟨himages, by omega, hentries, hroom⟩

/-! ## All cases -/

/-- **Exactness.** Whatever the host answers, a request is handled safely just if it meets the
    condition of its handler. -/
theorem dispatch_safe_iff (fuel : ℕ) (world : World) (requestBits id : ℕ) (r : Routine)
    (hsize : m.word msghSize = t.sendSize) :
    (∀ host, t.Safe (dispatch fuel host world t requestBits id r) m)
      ↔ Sufficient fuel world t m r := by
  cases r with
  | machPortsRegister => exact iff_true_intro fun _ => machPortsRegister_safe world
  | noId => exact iff_true_intro fun _ => by simp [dispatch, Trap.Safe]
  | hostInfo => exact iff_true_intro fun host => hostInfo_safe host
  | hostGetIoMain | hostGetClockService | hostGetSpecialPort =>
    exact portUnion_safe_iff (by simp) fun _ => rfl
  | hostStatistics => exact iff_true_intro fun host => hostStatistics_safe host
  | hostRequestNotification =>
    exact forall_host_iff fun host => hostRequestNotification_safe_iff host
  | clockGetTime => exact iff_true_intro fun host => clockGetTime_safe host
  | dyldNotifyLoad => exact forall_host_iff fun _ => dyldNotifyLoad_safe_iff
  | dyldNotifyUnload => exact forall_host_iff fun _ => dyldNotifyUnload_safe_iff
  | dyldNotifyMain => exact forall_host_iff fun _ => dyldNotifyMain_safe_iff
  | machPortType => exact machPortType_safe_iff
  | vmCopy => exact iff_true_intro fun host => vmCopy_safe host world
  | vmReadOverwrite => exact iff_true_intro fun host => vmReadOverwrite_safe host world requestBits
  | vmRemap => exact iff_true_intro fun host => vmRemap_safe host world requestBits
  | machMakeMemoryEntry64 =>
    exact iff_true_intro fun _ => machMakeMemoryEntry64_safe world requestBits
  | machPortRequestNotification => exact machPortRequestNotification_safe_iff
  | machPortGetAttributes => exact machPortGetAttributes_safe_iff
  | machPortSetAttributes => exact forall_host_iff fun host => machPortSetAttributes_safe_iff host
  | taskThreads => exact iff_true_intro fun host => taskThreads_safe host world
  | taskInfo => exact iff_true_intro fun host => taskInfo_safe host
  | threadSuspend =>
    exact iff_true_intro fun host => threadSuspendResume_safe host requestBits true
  | threadResume =>
    exact iff_true_intro fun host => threadSuspendResume_safe host requestBits false
  | threadGetState => exact iff_true_intro fun host => threadGetState_safe host
  | threadInfo => exact iff_true_intro fun host => threadInfo_safe host
  | taskGetSpecialPort | semaphoreCreate => exact portUnion_safe_iff (by simp) fun _ => rfl
  | taskSetSpecialPort => exact forall_host_iff fun host => taskSetSpecialPort_safe_iff host hsize
  | semaphoreDestroy => exact forall_host_iff fun host => semaphoreDestroy_safe_iff host
  | taskRegisterDyldImageInfos | taskRegisterDyldSharedCacheImageInfo | notifyServerRegisterCheck
  | notifyServerCancel | notifyServerCheck =>
    exact forall_host_iff fun _ => acknowledge_safe_iff (by simp) (by simp)
  | threadPolicySet =>
    exact iff_true_intro fun host => threadPolicySetGet_safe host requestBits true
  | threadPolicyGet =>
    exact iff_true_intro fun host => threadPolicySetGet_safe host requestBits false
  | threadPolicy => exact forall_host_iff fun _ => threadPolicy_safe_iff
  | notifyServerRegisterMachPort => exact iff_true_intro fun _ => by simp [dispatch, Trap.Safe]
  | ioServerVersion => exact ioServerVersion_safe_iff
  | ioServiceGetMatchingServices => exact ioServiceGetMatchingServices_safe_iff
  | forwarded => exact iff_true_intro fun host => forwardMessage_safe host requestBits
  | exceptionPort =>
    exact iff_true_intro fun _ => handleGuestExceptionPortMessage_safe world requestBits id
  | simple argumentCount replySize =>
    exact iff_true_intro fun host =>
      handleGuestSimpleMachMessage_safe host requestBits id argumentCount replySize
  | unhandled =>
    refine forall_host_iff fun _ => ?_
    cases hreturns : world.exceptionReturns with
    | true =>
      simp [dispatch, Trap.Safe, Sufficient, hreturns, hsize]
    | false => simp [dispatch, Trap.Safe, Sufficient, hreturns, Trap.Answered, Trap.ReplyFits]

end

end LiveExec32.MachMsg
