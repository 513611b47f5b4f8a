import LiveExec32.Lib.Records
import LiveExec32.MachMsg.Basic

/-! # The handlers of `guest_mach_msg_trap`

One definition per message id, in the order of the `switch`. The handlers written out for the 32-bit
guest check `send_size` against their request and `rcv_size` against their reply before they touch
either. The others lay the union of the host SDK's `__Request__` and `__Reply__` structures over the
buffer (`MACH_MSG_UNION`) and check neither. The offsets of their fields are those that MIG
generates: after the header, the arguments of a simple message follow its `NDR` field, and those of
a message with a port descriptor follow the descriptor and the `NDR` field behind it. -/

namespace LiveExec32.MachMsg

open Bytes

/-! ## Replies -/

/-- A `mig_reply_error_t`, whatever the guest's buffer can hold. -/
def writeMigError (code : ℕ) : Staging Ending := do
  store32 msghSize errorSize
  store ndrOffset ndrRecord
  store32 retCode code
  pure (.reply MACH_MSG_SUCCESS)

/-- The guest's buffer is too small for a reply of `size` bytes. -/
def tooLarge (size : ℕ) : Staging Ending := do
  store32 msghSize size
  pure (.reply MACH_RCV_TOO_LARGE)

/-- `writeError`. -/
def writeError (t : Trap) (code : ℕ) : Staging Ending :=
  if t.rcvSize < errorSize then tooLarge errorSize else writeMigError code

/-- `msgh_bits |= MACH_MSGH_BITS_COMPLEX`. -/
def setComplex : Staging Unit := do
  let bits ← load32 msghBits
  store32 msghBits (bits ||| MACH_MSGH_BITS_COMPLEX)

/-- `{ Head; NDR; RetCode; count; array[count] }`. -/
def countedReply (t : Trap) (words : List ℕ) : Staging Ending :=
  if t.rcvSize < 40 + 4 * words.length then tooLarge (40 + 4 * words.length)
  else do
    store ndrOffset ndrRecord
    store32 retCode KERN_SUCCESS
    store32 36 words.length
    store 40 (encodeWords words)
    store32 msghSize (40 + 4 * words.length)
    pure (.reply MACH_MSG_SUCCESS)

/-- `{ Head; msgh_body; port }`, with the descriptor cleared before it is filled in. -/
def portDescriptorReply (name : ℕ) (disposition : UInt8) : Staging Ending := do
  setComplex
  store32 msghSize portReplySize
  store32 descriptorCount 1
  store portName (List.replicate 12 0)
  store32 portName name
  store portDisposition [disposition]
  store portType [MACH_MSG_PORT_DESCRIPTOR]
  pure (.reply MACH_MSG_SUCCESS)

/-! ## Host requests -/

/-- 3403. -/
def machPortsRegister (world : World) (t : Trap) : Staging Ending := do
  let target ← load32 msghRequestPort
  if t.rcvSize < errorSize then tooLarge errorSize
  else do
    let bits ← load32 msghBits
    store32 msghBits (bits &&& 0x7fffffff)
    writeMigError
      (if t.sendSize ≠ 52 then MIG_BAD_ARGUMENTS
        else if target ≠ world.taskSelf then KERN_INVALID_ARGUMENT else KERN_NOT_SUPPORTED)

def HOST_BASIC_INFO : ℕ := 1

/-- Describe the guest's processor in a `host_basic_info`. -/
def armBasicInfo (words : List ℕ) : List ℕ :=
  if words.length = 12 then ((words.set 3 12).set 4 11).set 5 0 else (words.set 3 12).set 4 11

/-- The common part of `host_info`, `host_statistics` and `thread_info`: the request
    `{ Head; NDR; flavor; count }`, and a reply with as many words as the service returns. -/
def countInOut (t : Trap) (maximum : ℕ) (refuses : (flavor capacity : ℕ) → Bool)
    (call : (port flavor capacity : ℕ) → Answer capacity)
    (expects : (flavor capacity count : ℕ) → Bool) (present : ℕ → List ℕ → List ℕ) :
    Staging Ending :=
  if t.sendSize ≠ 40 then writeError t MIG_BAD_ARGUMENTS
  else do
    let request ← load 0 40
    let flavor := request.word 32
    let capacity := request.word 36
    let answer := call (request.word msghRequestPort) flavor capacity
    if maximum < capacity then writeError t MIG_ARRAY_TOO_LARGE
    else if refuses flavor capacity then writeError t KERN_FAILURE
    else if answer.code ≠ KERN_SUCCESS then writeError t answer.code
    else if maximum < answer.words.length ∨ capacity < answer.words.length then
      writeError t MIG_ARRAY_TOO_LARGE
    else if !expects flavor capacity answer.words.length then writeError t KERN_FAILURE
    else countedReply t (present flavor answer.words)

/-- 200. -/
def hostInfo (host : Host) (t : Trap) : Staging Ending :=
  countInOut t 68 (fun flavor capacity => flavor = HOST_BASIC_INFO && capacity < 5)
    (fun port flavor capacity => host.call .hostInfo [port, flavor] capacity)
    (fun flavor capacity count =>
      flavor ≠ HOST_BASIC_INFO || count = if 12 ≤ capacity then 12 else 5)
    (fun flavor words => if flavor = HOST_BASIC_INFO then armBasicInfo words else words)

/-- A handler over `MACH_MSG_UNION` whose reply is a send right. The arguments are the words at
    `arguments` of the request; the call writes the port's name straight into the reply. -/
def portUnion (arguments : List ℕ) (call : List ℕ → Answer 1) : Staging Ending := do
  setComplex
  store32 msghSize portReplySize
  let values ← loadWords (msghRequestPort :: arguments)
  let answer := call values
  store portName (encodeWords answer.words)
  store portType [MACH_MSG_PORT_DESCRIPTOR]
  store portDisposition [MACH_MSG_TYPE_MOVE_SEND]
  store32 descriptorCount 1
  pure (.reply answer.code)

/-- 205. -/
def hostGetIoMain (host : Host) : Staging Ending :=
  portUnion [] fun values =>
    if host.hasHostGetIoMain then host.call .hostGetIoMain values 1
    else if host.hasHostGetIoMaster then host.call .hostGetIoMaster values 1
    else { code := KERN_NOT_SUPPORTED, words := [], fits := Nat.zero_le _ }

/-- 206: `{ Head; NDR; clock_id }`. -/
def hostGetClockService (host : Host) : Staging Ending :=
  portUnion [32] fun values => host.call .hostGetClockService values 1

/-- 216. -/
def hostStatistics (host : Host) (t : Trap) : Staging Ending :=
  countInOut t 68 (fun _ _ => false)
    (fun port flavor capacity => host.call .hostStatistics [port, flavor] capacity)
    (fun _ _ _ => true) (fun _ words => words)

/-- 217: `{ Head; msgh_body; notify_port; NDR; notify_type }`. The reply's `NDR` is written over the
    name of `notify_port` before that is read. -/
def hostRequestNotification (host : Host) : Staging Ending := do
  store32 msghSize errorSize
  store ndrOffset ndrRecord
  let values ← loadWords [msghRequestPort, 48, portName]
  store32 retCode (host.call .hostRequestNotification values 0).code
  pure (.reply MACH_MSG_SUCCESS)

/-- 412: `{ Head; NDR; node; which }`. -/
def hostGetSpecialPort (host : Host) : Staging Ending :=
  portUnion [32, 36] fun values => host.call .hostGetSpecialPort values 1

/-- 1000. -/
def clockGetTime (host : Host) (t : Trap) : Staging Ending :=
  if t.sendSize ≠ headerSize then writeError t MIG_BAD_ARGUMENTS
  else if t.rcvSize < 44 then tooLarge 44
  else do
    let port ← load32 msghRequestPort
    let answer := host.call .clockGetTime [port] 2
    store ndrOffset ndrRecord
    store32 retCode answer.code
    if answer.code = KERN_SUCCESS then do
      store 36 (encodeWords answer.filled)
      store32 msghSize 44
      pure (.reply MACH_MSG_SUCCESS)
    else do
      store32 msghSize errorSize
      pure (.reply MACH_MSG_SUCCESS)

/-! ## Notifications of the dynamic linker -/

@[simp] abbrev imageCountOffset : ℕ := 28
@[simp] abbrev imagesOffsetOffset : ℕ := 32
@[simp] abbrev stringsOffsetOffset : ℕ := 36

/-- `sizeof(dyld_process_info_image_entry)`. -/
@[simp] abbrev imageEntrySize : ℕ := 32

/-- `sizeof(struct mach_header)`. -/
@[simp] abbrev machHeaderSize : ℕ := 28

/-- `seg->cmd == LC_SEGMENT && strcmp(seg->segname, SEG_TEXT) == 0`. -/
def isTextSegment (image : Bytes) (seg : ℕ) : Bool :=
  image.word seg = 1 && image.slice (seg + 8) 7 = [95, 95, 84, 69, 88, 84, 0]

/-- The load command behind the one at `seg`. -/
def nextCommand (image : Bytes) (seg : ℕ) : ℕ := seg + image.word (seg + 4)

/-- The search for the `__TEXT` segment, which nothing but finding it ends. -/
def findText (image : Bytes) : ℕ → ℕ → Option ℕ
  | 0, _ => none
  | fuel + 1, seg =>
    if isTextSegment image seg then some seg else findText image fuel (nextCommand image seg)

/-- What registering an image does to the loop over the entries. -/
inductive Registration where
  | skip
  | full
  | register (mappings : List GuestMapping)
deriving DecidableEq, Repr

/-- The update of `guestMappings` for the image at `address`. -/
def registerImage (mappings : List GuestMapping) (address : ℕ) (resolved : Bool) : Registration :=
  match mappings.find? (fun mapping => mapping.start = address) with
  | some mapping =>
    if mapping.debuggerPathResolved || !resolved then .skip
    else
      .register (Records.modifyFirst (fun other => other.start = address)
        (fun other => { other with debuggerPathResolved := resolved }) mappings)
  | none =>
    if 1000 ≤ mappings.length then .full
    else .register (mappings ++ [{ start := address, debuggerPathResolved := resolved }])

/-- The guest path of an image: only a path that starts with a slash is resolved, and only then is
    it read to its end. Paths are taken to be shorter than `PATH_MAX`: of a longer one,
    `pathGuestToHost` reads the first `PATH_MAX` bytes, and the rest is read only if there is a
    `debuggerSymbolsRoot`. -/
def resolveImagePath (world : World) (path : ℕ) : Staging Bool := do
  let first ← record path 1
  if first 0 = 47 then do
    let name ← string path
    pure (world.resolvesImagePath name)
  else pure false

/-- The loop over the entries of a load notification, with `remaining` entries from `index` on.
    Nothing in it writes to the message, so `imageCount` is read only once here. It answers whether
    the loop has ended. -/
def loadImages (fuel : ℕ) (world : World) (images strings : ℕ) :
    (remaining index : ℕ) → List GuestMapping → Staging Bool
  | 0, _, _ => pure true
  | remaining + 1, index, mappings => do
    let loadAddress ← record (images + imageEntrySize * index + 16) 8
    let pathOffset ← record (images + imageEntrySize * index + 24) 4
    let address := loadAddress.word 0
    match findText (world.image address) fuel machHeaderSize with
    | none => pure false
    | some _ => do
      let path := strings + pathOffset.word 0
      let resolved ← resolveImagePath world path
      match registerImage mappings address resolved with
      | .skip => loadImages fuel world images strings remaining (index + 1) mappings
      | .full => pure true
      | .register mappings' => do
        -- `strdup(mappingName)`: an unresolved image keeps its guest path
        if resolved then pure ()
        else do
          let _ ← string path
          pure ()
        loadImages fuel world images strings remaining (index + 1) mappings'

/-- 0x3000, where the other two end as well. -/
def dyldNotifyMain : Staging Ending := do
  store32 msghBits (19 + 20 * 2 ^ 8)
  store32 msghId 0
  store32 msghReplyPort 0
  store32 msghReserved 0
  store32 msghSize headerSize
  pure (.reply MACH_MSG_SUCCESS)

/-- 0x1000. -/
def dyldNotifyLoad (fuel : ℕ) (world : World) : Staging Ending := do
  let images ← load32 imagesOffsetOffset
  let strings ← load32 stringsOffsetOffset
  let imageCount ← load32 imageCountOffset
  let ended ← loadImages fuel world images strings imageCount 0 world.mappings
  if ended then dyldNotifyMain else pure .stuck

/-- The loop over the entries of an unload notification. `RemoveGuestMapping` does not touch the
    message. -/
def unloadImages (images : ℕ) : (remaining index : ℕ) → Staging Unit
  | 0, _ => pure ()
  | remaining + 1, index => do
    let _ ← record (images + imageEntrySize * index + 16) 8
    unloadImages images remaining (index + 1)

/-- 0x2000. -/
def dyldNotifyUnload : Staging Ending := do
  let images ← load32 imagesOffsetOffset
  let imageCount ← load32 imageCountOffset
  unloadImages images imageCount 0
  dyldNotifyMain

/-! ## Ports -/

/-- 3201: `{ Head; NDR; name }`. -/
def machPortType (host : Host) : Staging Ending := do
  store ndrOffset ndrRecord
  let values ← loadWords [msghRequestPort, 32]
  let answer := host.call .machPortType values 1
  store 36 (encodeWords answer.words)
  store32 retCode answer.code
  store32 msghSize (if answer.code = KERN_SUCCESS then 40 else errorSize)
  pure (.reply MACH_MSG_SUCCESS)

/-- 3213: `{ Head; msgh_body; notify; NDR; name; msgid; sync }`. -/
def machPortRequestNotification (host : Host) : Staging Ending := do
  let values ← loadWords [msghRequestPort, 48, 52, 56, portName]
  let disposition ← load portDisposition 1
  let answer := host.call .machPortRequestNotification (values ++ [(disposition 0).toNat]) 1
  if answer.code ≠ KERN_SUCCESS then writeMigError answer.code
  else portDescriptorReply (answer.filled.headD 0) MACH_MSG_TYPE_MOVE_SEND_ONCE

/-- The length of the host SDK's `port_info` arrays. -/
@[simp] abbrev portInfoMax : ℕ := 17

/-- 3217: `{ Head; NDR; name; flavor; port_info_outCnt }`, and a reply with the attributes at 40. -/
def machPortGetAttributes (host : Host) : Staging Ending := do
  store ndrOffset ndrRecord
  let count ← load32 40
  if portInfoMax < count then do
    store32 retCode MIG_ARRAY_TOO_LARGE
    store32 msghSize errorSize
    pure (.reply MACH_MSG_SUCCESS)
  else do
    let values ← loadWords [msghRequestPort, 32, 36]
    let answer := host.call .machPortGetAttributes values count
    store 40 (encodeWords answer.words)
    store32 retCode answer.code
    if answer.code = KERN_SUCCESS then do
      store32 36 answer.words.length
      store32 msghSize (40 + 4 * answer.words.length)
      pure (.reply MACH_MSG_SUCCESS)
    else do
      store32 msghSize errorSize
      pure (.reply MACH_MSG_SUCCESS)

/-- 3218: `{ Head; NDR; name; flavor; port_infoCnt; port_info[] }`. -/
def machPortSetAttributes (host : Host) : Staging Ending := do
  store32 msghSize errorSize
  store ndrOffset ndrRecord
  let count ← load32 40
  if portInfoMax < count then do
    store32 retCode MIG_ARRAY_TOO_LARGE
    pure (.reply MACH_MSG_SUCCESS)
  else do
    let values ← loadWords [msghRequestPort, 32, 36]
    let info ← record 44 (4 * count)
    let words := (List.range count).map fun i => info.word (4 * i)
    store32 retCode (host.call .machPortSetAttributes (values ++ words) 0).code
    pure (.reply MACH_MSG_SUCCESS)

/-! ## Tasks -/

/-- 3402. -/
def taskThreads (host : Host) (world : World) (t : Trap) : Staging Ending :=
  if t.sendSize ≠ headerSize then writeError t MIG_BAD_ARGUMENTS
  else if t.rcvSize < 52 then tooLarge 52
  else do
    let port ← load32 msghRequestPort
    let answer := host.call .copyGuestTaskThreadPorts [] 2
    if port ≠ world.taskSelf then writeMigError KERN_INVALID_ARGUMENT
    else if answer.code ≠ KERN_SUCCESS then writeMigError answer.code
    else do
      setComplex
      store32 msghSize 52
      store32 descriptorCount 1
      -- `act_list`: address, count and flags of the out-of-line array
      store 28 (List.replicate 12 0)
      store32 28 (answer.filled.getD 0 0)
      store32 32 (answer.filled.getD 1 0)
      store 36 [0, MACH_MSG_PHYSICAL_COPY, MACH_MSG_TYPE_MOVE_SEND, MACH_MSG_OOL_PORTS_DESCRIPTOR]
      store 40 ndrRecord
      store32 48 (answer.filled.getD 1 0)
      pure (.reply MACH_MSG_SUCCESS)

def TASK_BASIC_INFO_32 : ℕ := 4
@[simp] abbrev TASK_BASIC_INFO_32_COUNT : ℕ := 8

/-- 3405. -/
def taskInfo (host : Host) (t : Trap) : Staging Ending :=
  if t.sendSize ≠ 40 then writeError t MIG_BAD_ARGUMENTS
  else do
    let flavor ← load32 32
    let count ← load32 36
    if ¬(flavor = TASK_BASIC_INFO_32 ∧ TASK_BASIC_INFO_32_COUNT ≤ count) then
      writeError t KERN_INVALID_ARGUMENT
    else if t.rcvSize < 72 then tooLarge 72
    else do
      let port ← load32 msghRequestPort
      let answer := host.call .taskInfo [port, TASK_BASIC_INFO_32] TASK_BASIC_INFO_32_COUNT
      if answer.code ≠ KERN_SUCCESS then writeMigError answer.code
      else if answer.words.length ≠ TASK_BASIC_INFO_32_COUNT then writeMigError KERN_FAILURE
      else do
        store ndrOffset ndrRecord
        store32 retCode KERN_SUCCESS
        store32 36 TASK_BASIC_INFO_32_COUNT
        store 40 (encodeWords answer.filled)
        store32 msghSize 72
        pure (.reply MACH_MSG_SUCCESS)

/-- 3409: `{ Head; NDR; which_port }`. -/
def taskGetSpecialPort (host : Host) : Staging Ending :=
  portUnion [32] fun values => host.call .taskGetSpecialPort values 1

/-- 3410: `{ Head; msgh_body; special_port; NDR; which_port }`. It leaves `msgh_size` at the size of
    the request. -/
def taskSetSpecialPort (host : Host) : Staging Ending := do
  let values ← loadWords [msghRequestPort, 48, portName]
  store32 retCode (host.call .taskSetSpecialPort values 0).code
  pure (.reply MACH_MSG_SUCCESS)

/-- 3418: `{ Head; NDR; policy; value }`. -/
def semaphoreCreate (host : Host) : Staging Ending :=
  portUnion [32, 36] fun values => host.call .semaphoreCreate values 1

/-- 3419: `{ Head; msgh_body; semaphore }`. -/
def semaphoreDestroy (host : Host) : Staging Ending := do
  let values ← loadWords [msghRequestPort, portName]
  store32 msghSize errorSize
  store ndrOffset ndrRecord
  store32 retCode (host.call .semaphoreDestroy values 0).code
  pure (.reply MACH_MSG_SUCCESS)

/-- A handler over `MACH_MSG_UNION` that acknowledges the request with a fixed reply: `fields` are
    the words it sets, by their offsets. -/
def acknowledge (size : ℕ) (fields : List (ℕ × ℕ)) : Staging Ending := do
  store32 msghSize size
  storeFields fields
  pure (.reply MACH_MSG_SUCCESS)
where
  storeFields : List (ℕ × ℕ) → Staging Unit
    | [] => pure ()
    | (offset, value) :: rest => do
      store32 offset value
      storeFields rest

/-- 3444. -/
def taskRegisterDyldImageInfos : Staging Ending := acknowledge errorSize [(retCode, KERN_SUCCESS)]

/-- 3447. -/
def taskRegisterDyldSharedCacheImageInfo : Staging Ending :=
  acknowledge errorSize [(retCode, KERN_SUCCESS)]

/-! ## Virtual memory -/

/-- 3808. -/
def vmCopy (host : Host) (world : World) (t : Trap) : Staging Ending :=
  if t.sendSize ≠ 44 then writeError t MIG_BAD_ARGUMENTS
  else if t.rcvSize < errorSize then tooLarge errorSize
  else do
    let request ← load 0 44
    writeMigError
      (if request.word msghRequestPort = world.taskSelf then
        (host.call .copyGuestVmMemory
          [request.word 32, request.word 40, request.word 36] 0).code
      else KERN_INVALID_ARGUMENT)

/-- 3809. -/
def vmReadOverwrite (host : Host) (world : World) (t : Trap) (requestBits : ℕ) : Staging Ending :=
  if t.sendSize ≠ 44 ∨ isComplex requestBits then writeError t MIG_BAD_ARGUMENTS
  else if t.rcvSize < 40 then tooLarge 40
  else do
    let request ← load 0 44
    let code :=
      if request.word msghRequestPort = world.taskSelf then
        (host.call .copyGuestVmMemory
          [request.word 32, request.word 40, request.word 36] 0).code
      else KERN_INVALID_ARGUMENT
    store ndrOffset ndrRecord
    store32 retCode code
    if code = KERN_SUCCESS then do
      store32 36 (request.word 36)
      store32 msghSize 40
      pure (.reply MACH_MSG_SUCCESS)
    else do
      store32 msghSize errorSize
      pure (.reply MACH_MSG_SUCCESS)

def VM_INHERIT_SHARE : ℕ := 0
def VM_INHERIT_NONE : ℕ := 2

/-- The descriptor of the request is one port that is copied. -/
def hasCopySendDescriptor (request : Bytes) : Bool :=
  request.word descriptorCount = 1 && request portType = MACH_MSG_PORT_DESCRIPTOR
    && request portDisposition = MACH_MSG_TYPE_COPY_SEND

/-- 3814: `{ Head; Body; sourceTask; NDR; address; size; mask; flags; source; copy; inheritance }`.
    -/
def vmRemap (host : Host) (world : World) (t : Trap) (requestBits : ℕ) : Staging Ending :=
  if t.rcvSize < errorSize then tooLarge errorSize
  else if t.sendSize = 76 ∧ isComplex requestBits then do
    let request ← load 0 76
    if ¬(hasCopySendDescriptor request ∧ request.slice 40 8 = ndrRecord) then
      respond { code := MIG_BAD_ARGUMENTS, words := [], fits := Nat.zero_le _ }
    else if ¬(request.word msghRequestPort = world.taskSelf ∧ request.word portName = world.taskSelf
        ∧ VM_INHERIT_SHARE ≤ request.word 72 ∧ request.word 72 ≤ VM_INHERIT_NONE) then
      respond { code := KERN_INVALID_ARGUMENT, words := [], fits := Nat.zero_le _ }
    else if t.rcvSize < 48 then tooLarge 48
    else
      respond (host.call .dynarmicVmRemap
        [request.word 48, request.word 52, request.word 56, request.word 60, request.word 64,
          request.word 68] 2)
  else respond { code := MIG_BAD_ARGUMENTS, words := [], fits := Nat.zero_le _ }
where
  /-- The answer is the address and the protection of the new mapping. -/
  respond (answer : Answer 2) : Staging Ending := do
    store ndrOffset ndrRecord
    store32 retCode answer.code
    store32 msghSize errorSize
    if answer.code = KERN_SUCCESS then do
      store32 36 (answer.filled.getD 0 0)
      store32 40 (answer.filled.getD 1 0)
      store32 44 (answer.filled.getD 1 0)
      store32 msghSize 48
      pure (.reply MACH_MSG_SUCCESS)
    else pure (.reply MACH_MSG_SUCCESS)

/-- 3825. -/
def machMakeMemoryEntry64 (world : World) (t : Trap) (requestBits : ℕ) : Staging Ending :=
  if t.rcvSize < errorSize then tooLarge errorSize
  else if t.sendSize = 68 ∧ isComplex requestBits then do
    let request ← load 0 68
    writeMigError
      (if hasCopySendDescriptor request then
        if request.word msghRequestPort = world.taskSelf then KERN_NOT_SUPPORTED
        else KERN_INVALID_ARGUMENT
      else MIG_BAD_ARGUMENTS)
  else writeMigError MIG_BAD_ARGUMENTS

/-! ## Threads -/

/-- 3605 and 3606. -/
def threadSuspendResume (host : Host) (t : Trap) (requestBits : ℕ) (suspend : Bool) :
    Staging Ending :=
  if t.rcvSize < errorSize then tooLarge errorSize
  else if t.sendSize = headerSize ∧ !isComplex requestBits then do
    let port ← load32 msghRequestPort
    writeMigError (host.call .changeGuestThreadSuspendCount [port, suspend.toNat] 0).code
  else writeMigError MIG_BAD_ARGUMENTS

def ARM_THREAD_STATE : ℕ := 1
def ARM_THREAD_STATE32 : ℕ := 9

/-- `CopyGuestThreadState`: on success, sixteen registers and the status register. -/
def copyGuestThreadState (host : Host) (target flavor capacity : ℕ) : Answer 17 :=
  if !portValid target || (flavor ≠ ARM_THREAD_STATE && flavor ≠ ARM_THREAD_STATE32)
      || capacity < 17 then
    { code := KERN_INVALID_ARGUMENT, words := [], fits := Nat.zero_le _ }
  else host.call .copyGuestThreadState [target] 17

/-- 3603. -/
def threadGetState (host : Host) (t : Trap) : Staging Ending :=
  if t.sendSize ≠ 40 then writeError t MIG_BAD_ARGUMENTS
  else do
    let flavor ← load32 32
    let capacity ← load32 36
    let valid := (flavor = ARM_THREAD_STATE ∨ flavor = ARM_THREAD_STATE32)
      ∧ 17 ≤ capacity ∧ capacity ≤ 144
    if valid ∧ t.rcvSize < 108 then tooLarge 108
    else if ¬valid ∧ t.rcvSize < errorSize then tooLarge errorSize
    else if valid then do
      let port ← load32 msghRequestPort
      let answer := copyGuestThreadState host port flavor capacity
      if answer.code ≠ KERN_SUCCESS then writeMigError answer.code
      else do
        store 40 (encodeWords answer.filled)
        if t.rcvSize < 40 + 4 * 17 then writeMigError MIG_ARRAY_TOO_LARGE
        else do
          store ndrOffset ndrRecord
          store32 retCode KERN_SUCCESS
          store32 36 17
          store32 msghSize (40 + 4 * 17)
          pure (.reply MACH_MSG_SUCCESS)
    else writeMigError MIG_BAD_ARGUMENTS

@[simp] abbrev THREAD_INFO_MAX : ℕ := 32

/-- 3612. -/
def threadInfo (host : Host) (t : Trap) : Staging Ending :=
  countInOut t THREAD_INFO_MAX (fun _ _ => false)
    (fun port flavor capacity => host.call .copyGuestThreadInfo [port, flavor] capacity)
    (fun _ _ _ => true) (fun _ words => words)

/-- 3616. -/
def threadPolicy : Staging Ending := do
  store32 msghSize errorSize
  store ndrOffset ndrRecord
  store32 retCode KERN_SUCCESS
  pure (.reply MACH_MSG_SUCCESS)

@[simp] abbrev maximumPolicyCount : ℕ := 16

/-- The reply of `thread_policy_get`, in which `get_default` follows the actual array. -/
def policyReply (t : Trap) (policy : List ℕ) (getDefault : ℕ) : Staging Ending :=
  if t.rcvSize < 44 + 4 * policy.length then tooLarge (44 + 4 * policy.length)
  else do
    store32 msghSize (44 + 4 * policy.length)
    store ndrOffset ndrRecord
    store32 retCode KERN_SUCCESS
    store32 36 policy.length
    store 40 (encodeWords policy)
    store32 (40 + 4 * policy.length) getDefault
    pure (.reply MACH_MSG_SUCCESS)

/-- 3617 and 3618: `{ Head; NDR; flavor; count }`, followed by the policy or by `get_default`. -/
def threadPolicySetGet (host : Host) (t : Trap) (requestBits : ℕ) (setting : Bool) :
    Staging Ending :=
  if t.sendSize < 40 ∨ isComplex requestBits then writeError t MIG_BAD_ARGUMENTS
  else do
    let request ← load 0 40
    let flavor := request.word 32
    let count := request.word 36
    if request.word msghSize ≠ t.sendSize ∨ request.slice ndrOffset 8 ≠ ndrRecord then
      writeError t MIG_BAD_ARGUMENTS
    else if maximumPolicyCount < count then writeError t MIG_ARRAY_TOO_LARGE
    else if t.sendSize ≠ 40 + (if setting then 4 * count else 4) then
      writeError t MIG_BAD_ARGUMENTS
    else if t.rcvSize < errorSize then writeError t KERN_SUCCESS
    else if setting then do
      let policy ← record 40 (4 * count)
      let words := (List.range count).map fun i => policy.word (4 * i)
      writeError t
        (host.call .setGuestThreadPolicy (request.word msghRequestPort :: flavor :: words) 0).code
    else do
      let getDefault ← load32 40
      -- the last word of the answer is `getDefault`, those before it the policy
      let answer := host.call .copyGuestThreadPolicy
        [request.word msghRequestPort, flavor, count, getDefault] (count + 1)
      let policy := answer.words.dropLast
      if answer.code ≠ KERN_SUCCESS then writeError t answer.code
      else if count < policy.length ∨ maximumPolicyCount < policy.length then
        writeError t MIG_ARRAY_TOO_LARGE
      else policyReply t policy (answer.words.getLastD getDefault)

/-! ## Notifications, IOKit and forwarded messages -/

/-- 78945670. -/
def notifyServerRegisterCheck : Staging Ending :=
  acknowledge 52 [(36, 2 ^ 32 - 1), (40, 2 ^ 32 - 1), (44, 0), (48, 0), (retCode, 0)]

/-- 78945679. -/
def notifyServerCancel : Staging Ending := acknowledge 40 [(retCode, KERN_SUCCESS), (36, 0)]

/-- 78945680. -/
def notifyServerCheck : Staging Ending :=
  acknowledge 44 [(retCode, KERN_SUCCESS), (36, 0), (40, 0)]

/-- 2877. -/
def ioServerVersion (host : Host) : Staging Ending := do
  let port ← load32 msghRequestPort
  let answer : Answer 2 :=
    if host.hasIoServerVersion then host.call .ioServerVersion [port] 2
    else { code := KERN_NOT_SUPPORTED, words := [], fits := Nat.zero_le _ }
  store ndrOffset ndrRecord
  store32 retCode answer.code
  store 36 (encodeWords answer.filled)
  store32 msghSize (if answer.code = KERN_SUCCESS then 44 else errorSize)
  pure (.reply MACH_MSG_SUCCESS)

@[simp] abbrev matchingOffset : ℕ := 40

/-- 2804: the request ends in a string. -/
def ioServiceGetMatchingServices (host : Host) (t : Trap) : Staging Ending :=
  if t.sendSize ≤ matchingOffset then writeMigError MIG_BAD_ARGUMENTS
  else do
    -- `memchr` over what is left of the request
    let matching ← record matchingOffset (t.sendSize - matchingOffset)
    if matching.Terminated 0 (t.sendSize - matchingOffset) ∧ host.hasIoServiceGetMatchingServices
    then do
      let port ← load32 msghRequestPort
      let _ ← string matchingOffset
      let answer := host.call .ioServiceGetMatchingServices [port] 1
      if answer.code ≠ KERN_SUCCESS then writeMigError answer.code
      else portDescriptorReply (answer.filled.headD 0) MACH_MSG_TYPE_MOVE_SEND
    else writeMigError MIG_BAD_ARGUMENTS

/-- `Dynarmic_mem_1write(guest_msg, rcv_size, host_msg)`. -/
def copyOut (t : Trap) : Staging Unit := do
  let _ ← load 0 t.rcvSize
  pure ()

/-- `debugger_aware_mach_msg`. -/
def debuggerAwareMachMsg (host : Host) (t : Trap) (option sendSize timeout : ℕ) : Staging ℕ := do
  let message ← load 0 sendSize
  let delivery := host.machMsg option sendSize t.rcvSize t.rcvName timeout t.notify message
  store 0 delivery.received
  pure delivery.result

/-- Copy what a host call received out to the guest, unless the call was interrupted. -/
def delivered (t : Trap) (result : ℕ) : Staging Ending :=
  if t.rcvSize ≠ 0 ∧ result ≠ MACH_RCV_INTERRUPTED ∧ result ≠ MACH_SEND_INTERRUPTED then do
    copyOut t
    pure (.returned result true)
  else pure (.returned result false)

/-- 78, 79, 0x77303074, 0x10000000 and 0x20000000. -/
def forwardMessage (host : Host) (t : Trap) (requestBits : ℕ) : Staging Ending := do
  store32 msghBits requestBits
  let result ← debuggerAwareMachMsg host t t.option t.sendSize t.timeout
  if t.option.testBit 1 then delivered t result else pure (.returned result false)

end LiveExec32.MachMsg
