import LiveExec32.MachMsg.Requests

/-! # `guest_mach_msg_trap`

The handlers for the remaining message ids, which live in files of their own and share one reply
writer, the dispatch on the message id, and the trap around it. -/

namespace LiveExec32.MachMsg

open Bytes

/-! ## `ReplyWriter` -/

/-- `header`: the request's header with the reply's size. -/
def replyHeader (size : ℕ) : Staging (List UInt8) := do
  let message ← load 0 headerSize
  pure (encodeWord (message.word msghBits &&& 0x7fffffff) ++ encodeWord size ++ message.slice 8 16)

/-- Copy a reply built elsewhere over the message: the header and `body`. -/
def putReply (body : List UInt8) : Staging Ending := do
  let header ← replyHeader (headerSize + body.length)
  store 0 (header ++ body)
  pure (.reply MACH_MSG_SUCCESS)

/-- `require`: continue if the guest's buffer holds `size` bytes. -/
def require (t : Trap) (size : ℕ) (continuation : Staging Ending) : Staging Ending :=
  if size ≤ t.rcvSize then continuation else tooLarge size

/-- `error`. -/
def replyError (t : Trap) (code : ℕ) : Staging Ending :=
  require t errorSize (putReply (ndrRecord ++ encodeWord code))

/-- `scalar`, with a value of one or two words. -/
def replyScalar (t : Trap) (code : ℕ) (value : List ℕ) : Staging Ending :=
  if code ≠ KERN_SUCCESS then replyError t code
  else
    require t (errorSize + 4 * value.length)
      (putReply (ndrRecord ++ encodeWord KERN_SUCCESS ++ encodeWords value))

/-! ## `HandleGuestSimpleMachMessage` -/

/-- The number of arguments of a routine and the size of the reply it may not go without. -/
def simpleRoutine : ℕ → Option (ℕ × ℕ)
  | 201 => some (0, errorSize)
  | 202 => some (0, 40)
  | 3204 => some (1, 40)
  | 3228 => some (1, 44)
  | 3205 | 3206 => some (1, errorSize)
  | 3207 => some (2, 40)
  | 1001 | 3202 | 3203 | 3210 | 3212 | 3216 | 3226 | 3227 => some (2, errorSize)
  | 3208 | 3229 => some (3, errorSize)
  | _ => none

/-- The routines that return nothing but a code. -/
def codeRoutine : ℕ → HostCall
  | 3202 => .machPortRename
  | 3203 => .machPortAllocateName
  | 3205 => .machPortDestroy
  | 3206 => .machPortDeallocate
  | 3208 => .machPortModRefs
  | 3210 => .machPortSetMscount
  | 3212 => .machPortMoveMember
  | 3216 => .machPortSetSeqno
  | 3226 => .machPortInsertMember
  | 3227 => .machPortExtractMember
  | _ => .machPortSetContext

/-- 201: the version is a string in a buffer of 512 bytes. -/
def hostKernelVersion (host : Host) (t : Trap) (target : ℕ) : Staging Ending :=
  let answer := host.call .hostKernelVersion [target] 128
  let version := (encodeWords answer.filled).takeWhile (· ≠ 0)
  let count := version.length + 1
  let padded := (count + 3) / 4 * 4
  if answer.code ≠ KERN_SUCCESS then replyError t answer.code
  else if 512 ≤ version.length then replyError t MIG_TYPE_ERROR
  else
    require t (44 + padded)
      (putReply (ndrRecord ++ encodeWords [KERN_SUCCESS, 0, count] ++ version
        ++ List.replicate (padded - version.length) 0))

/-- 1001. -/
def clockGetAttributes (host : Host) (t : Trap) (target : ℕ) (arguments : List ℕ) :
    Staging Ending :=
  let capacity := arguments.getD 1 0
  let answer := host.call .clockGetAttributes [target, arguments.getD 0 0] capacity
  if 1 < capacity then replyError t MIG_ARRAY_TOO_LARGE
  else
    require t (40 + 4 * capacity)
      (if answer.code ≠ KERN_SUCCESS then replyError t answer.code
      else if capacity < answer.words.length ∨ 1 < answer.words.length then
        replyError t MIG_TYPE_ERROR
      else
        putReply (ndrRecord ++ encodeWords (KERN_SUCCESS :: answer.words.length :: answer.words)))

/-- `DYN_PAGE_SIZE`. -/
def dynPageSize : ℕ := 4096

/-- The second `switch` of `HandleGuestSimpleMachMessage`. -/
def simpleReply (host : Host) (t : Trap) (id target : ℕ) (arguments : List ℕ) : Staging Ending :=
  match id with
  | 201 => hostKernelVersion host t target
  | 202 => replyScalar t (host.call .hostPageSize [target] 2).code [dynPageSize]
  | 1001 => clockGetAttributes host t target arguments
  | 3204 =>
    let answer := host.call .machPortAllocate (target :: arguments) 1
    replyScalar t answer.code answer.filled
  | 3207 =>
    let answer := host.call .machPortGetRefs (target :: arguments) 1
    replyScalar t answer.code answer.filled
  | 3228 =>
    let answer := host.call .machPortGetContext (target :: arguments) 2
    replyScalar t answer.code answer.filled
  | id => replyError t (host.call (codeRoutine id) (target :: arguments) 0).code

/-- The size of a request with that many arguments. -/
def simpleRequestSize (argumentCount : ℕ) : ℕ :=
  headerSize + if argumentCount = 0 then 0 else 8 + 4 * argumentCount

/-- `HandleGuestSimpleMachMessage`, for a routine of `argumentCount` arguments. -/
def handleGuestSimpleMachMessage (host : Host) (t : Trap) (requestBits id : ℕ)
    (argumentCount replySize : ℕ) : Staging Ending := do
  let size ← load32 msghSize
  if t.sendSize ≠ simpleRequestSize argumentCount ∨ size ≠ t.sendSize ∨ isComplex requestBits then
    replyError t MIG_BAD_ARGUMENTS
  else if argumentCount = 0 then
    require t replySize do
      let target ← load32 msghRequestPort
      simpleReply host t id target []
  else do
    let ndr ← load ndrOffset 8
    if ndr.slice 0 8 ≠ ndrRecord then replyError t MIG_BAD_ARGUMENTS
    else do
      let values ← load 32 (4 * argumentCount)
      require t replySize do
        let target ← load32 msghRequestPort
        simpleReply host t id target ((List.range argumentCount).map fun i => values.word (4 * i))

/-! ## `HandleGuestExceptionPortMessage` -/

/-- The exception port messages of threads. -/
def isThreadException (id : ℕ) : Bool := 3613 ≤ id && id ≤ 3615

def isExceptionQuery (id : ℕ) : Bool := id = 3414 || id = 3614

def isExceptionPort (id : ℕ) : Bool :=
  isThreadException id || isExceptionQuery id || id = 3413 || id = 3415

/-- The reply: an error in place of the message. -/
def exceptionReply (world : World) (id : ℕ) (valid : Bool) : Staging Ending := do
  let port ← load32 msghRequestPort
  putReply (ndrRecord ++ encodeWord
    (if !valid then MIG_BAD_ARGUMENTS
      else if !portValid port || (!isThreadException id && port ≠ world.taskSelf) then
        KERN_INVALID_ARGUMENT
      else KERN_NOT_SUPPORTED))

def handleGuestExceptionPortMessage (world : World) (t : Trap) (requestBits id : ℕ) :
    Staging Ending :=
  if t.rcvSize < errorSize then tooLarge errorSize
  else do
    let size ← load32 msghSize
    if isExceptionQuery id then
      if size = t.sendSize ∧ t.sendSize = 36 ∧ !isComplex requestBits then do
        let request ← load 0 36
        exceptionReply world id (request.slice ndrOffset 8 = ndrRecord)
      else exceptionReply world id false
    else
      if size = t.sendSize ∧ t.sendSize = 60 ∧ isComplex requestBits then do
        let request ← load 0 60
        exceptionReply world id
          (hasCopySendDescriptor request && request.slice 40 8 = ndrRecord)
      else exceptionReply world id false

/-! ## The dispatch -/

/-- The cases of the `switch`. -/
inductive Routine where
  | machPortsRegister
  | noId
  | hostInfo
  | hostGetIoMain
  | hostGetClockService
  | hostStatistics
  | hostRequestNotification
  | hostGetSpecialPort
  | clockGetTime
  | dyldNotifyLoad
  | dyldNotifyUnload
  | dyldNotifyMain
  | machPortType
  | vmCopy
  | vmReadOverwrite
  | vmRemap
  | machMakeMemoryEntry64
  | machPortRequestNotification
  | machPortGetAttributes
  | machPortSetAttributes
  | taskThreads
  | taskInfo
  | threadSuspend
  | threadResume
  | threadGetState
  | threadInfo
  | taskGetSpecialPort
  | taskSetSpecialPort
  | semaphoreCreate
  | semaphoreDestroy
  | taskRegisterDyldImageInfos
  | taskRegisterDyldSharedCacheImageInfo
  | threadPolicySet
  | threadPolicyGet
  | threadPolicy
  | notifyServerRegisterCheck
  | notifyServerCancel
  | notifyServerCheck
  | notifyServerRegisterMachPort
  | ioServerVersion
  | ioServiceGetMatchingServices
  | forwarded
  | exceptionPort
  | simple (argumentCount replySize : ℕ)
  | unhandled
deriving DecidableEq, Repr

/-- The case that a message id selects; the last three are those of the `default`. -/
def routine (id : ℕ) : Routine :=
  match id with
  | 3403 => .machPortsRegister
  | 0 => .noId
  | 200 => .hostInfo
  | 205 => .hostGetIoMain
  | 206 => .hostGetClockService
  | 216 => .hostStatistics
  | 217 => .hostRequestNotification
  | 412 => .hostGetSpecialPort
  | 1000 => .clockGetTime
  | 0x1000 => .dyldNotifyLoad
  | 0x2000 => .dyldNotifyUnload
  | 0x3000 => .dyldNotifyMain
  | 3201 => .machPortType
  | 3808 => .vmCopy
  | 3809 => .vmReadOverwrite
  | 3814 => .vmRemap
  | 3825 => .machMakeMemoryEntry64
  | 3213 => .machPortRequestNotification
  | 3217 => .machPortGetAttributes
  | 3218 => .machPortSetAttributes
  | 3402 => .taskThreads
  | 3405 => .taskInfo
  | 3605 => .threadSuspend
  | 3606 => .threadResume
  | 3603 => .threadGetState
  | 3612 => .threadInfo
  | 3409 => .taskGetSpecialPort
  | 3410 => .taskSetSpecialPort
  | 3418 => .semaphoreCreate
  | 3419 => .semaphoreDestroy
  | 3444 => .taskRegisterDyldImageInfos
  | 3447 => .taskRegisterDyldSharedCacheImageInfo
  | 3617 => .threadPolicySet
  | 3618 => .threadPolicyGet
  | 3616 => .threadPolicy
  | 78945670 => .notifyServerRegisterCheck
  | 78945679 => .notifyServerCancel
  | 78945680 => .notifyServerCheck
  | 78945698 => .notifyServerRegisterMachPort
  | 2877 => .ioServerVersion
  | 2804 => .ioServiceGetMatchingServices
  | 78 | 79 | 0x77303074 | 0x10000000 | 0x20000000 => .forwarded
  | id =>
    if isExceptionPort id then .exceptionPort
    else
      match simpleRoutine id with
      | some (argumentCount, replySize) => .simple argumentCount replySize
      | none => .unhandled

/-- The body of the `switch`. -/
def dispatch (fuel : ℕ) (host : Host) (world : World) (t : Trap) (requestBits id : ℕ) :
    Routine → Staging Ending
  | .machPortsRegister => machPortsRegister world t
  | .noId => pure (.reply MACH_SEND_INVALID_HEADER)
  | .hostInfo => hostInfo host t
  | .hostGetIoMain => hostGetIoMain host
  | .hostGetClockService => hostGetClockService host
  | .hostStatistics => hostStatistics host t
  | .hostRequestNotification => hostRequestNotification host
  | .hostGetSpecialPort => hostGetSpecialPort host
  | .clockGetTime => clockGetTime host t
  | .dyldNotifyLoad => dyldNotifyLoad fuel world
  | .dyldNotifyUnload => dyldNotifyUnload
  | .dyldNotifyMain => dyldNotifyMain
  | .machPortType => machPortType host
  | .vmCopy => vmCopy host world t
  | .vmReadOverwrite => vmReadOverwrite host world t requestBits
  | .vmRemap => vmRemap host world t requestBits
  | .machMakeMemoryEntry64 => machMakeMemoryEntry64 world t requestBits
  | .machPortRequestNotification => machPortRequestNotification host
  | .machPortGetAttributes => machPortGetAttributes host
  | .machPortSetAttributes => machPortSetAttributes host
  | .taskThreads => taskThreads host world t
  | .taskInfo => taskInfo host t
  | .threadSuspend => threadSuspendResume host t requestBits true
  | .threadResume => threadSuspendResume host t requestBits false
  | .threadGetState => threadGetState host t
  | .threadInfo => threadInfo host t
  | .taskGetSpecialPort => taskGetSpecialPort host
  | .taskSetSpecialPort => taskSetSpecialPort host
  | .semaphoreCreate => semaphoreCreate host
  | .semaphoreDestroy => semaphoreDestroy host
  | .taskRegisterDyldImageInfos => taskRegisterDyldImageInfos
  | .taskRegisterDyldSharedCacheImageInfo => taskRegisterDyldSharedCacheImageInfo
  | .threadPolicySet => threadPolicySetGet host t requestBits true
  | .threadPolicyGet => threadPolicySetGet host t requestBits false
  | .threadPolicy => threadPolicy
  | .notifyServerRegisterCheck => notifyServerRegisterCheck
  | .notifyServerCancel => notifyServerCancel
  | .notifyServerCheck => notifyServerCheck
  | .notifyServerRegisterMachPort => pure (.returned MACH_MSG_SUCCESS false)
  | .ioServerVersion => ioServerVersion host
  | .ioServiceGetMatchingServices => ioServiceGetMatchingServices host t
  | .forwarded => forwardMessage host t requestBits
  | .exceptionPort => handleGuestExceptionPortMessage world t requestBits id
  | .simple argumentCount replySize =>
    handleGuestSimpleMachMessage host t requestBits id argumentCount replySize
  | .unhandled =>
    -- `ExceptionRaised` under a debugger returns, and the unanswered request becomes the reply
    pure (if world.exceptionReturns then .reply MACH_MSG_SUCCESS else .crashed)

/-! ## The trap -/

/-- A blocking receive. -/
def blockingReceive (host : Host) (world : World) (t : Trap) : Staging Ending :=
  if world.yieldsBeforeBlocking then pure (.returned MACH_RCV_INTERRUPTED false)
  else do
    let result ← debuggerAwareMachMsg host t t.option 0 t.timeout
    delivered t result

/-- The trap without a message to send. -/
def receiveOnly (host : Host) (world : World) (t : Trap) : Staging Ending :=
  if world.cooperativeTransition then pure (.returned MACH_RCV_INTERRUPTED false)
  else if world.canYieldBeforeBlocking then do
    let probeResult ← debuggerAwareMachMsg host t (t.option ||| 0x100) 0 0
    if probeResult ≠ MACH_RCV_TIMED_OUT then delivered t probeResult
    else if t.option.testBit 8 ∧ t.timeout = 0 then
      pure (.returned MACH_RCV_TIMED_OUT false)
    else blockingReceive host world t
  else blockingReceive host world t

/-- What follows the `switch`: the reply's header is completed and the buffer copied out. -/
def finish (t : Trap) : Ending → Staging Ending
  | .reply result => do
    store32 msghReplyPort t.rcvName
    store32 msghRequestPort 0
    let id ← load32 msghId
    store32 msghId (id + 100)
    copyOut t
    pure (.reply result)
  | ending => pure ending

/-- The `switch`, from the reading of the header on. -/
def serve (fuel : ℕ) (host : Host) (world : World) (t : Trap) : Staging Ending := do
  store32 msghSize t.sendSize
  let requestBits ← load32 msghBits
  store32 msghBits (requestBits &&& 0xff)
  let id ← load32 msghId
  let ending ← dispatch fuel host world t requestBits id (routine id)
  finish t ending

/-- Whether the message is sent to no port. A shorter message than a header is not looked at. -/
def destinationInvalid (t : Trap) : Staging Bool :=
  if t.option.testBit 0 ∧ headerSize ≤ t.sendSize then do
    let port ← load32 msghRequestPort
    pure (!portValid port)
  else pure false

/-- `guest_mach_msg_trap`, after the allocation of the buffer. The result of `calloc` is not checked
    in the code, and is taken to be a buffer. -/
def guestMachMsgTrap (fuel : ℕ) (host : Host) (world : World) (t : Trap) : Staging Ending := do
  -- `Dynarmic_mem_1read`, whose result is not looked at
  store 0 t.content
  if t.sendSize = 0 ∧ t.option.testBit 1 then receiveOnly host world t
  else do
    let invalid ← destinationInvalid t
    if invalid then pure (.returned MACH_SEND_INVALID_DEST false)
    else serve fuel host world t

/-- The buffer as `calloc` returns it, with the heap behind it. -/
def allocated (world : World) (t : Trap) : Bytes :=
  fun i => if i < t.capacity then 0 else world.heap i

end LiveExec32.MachMsg
