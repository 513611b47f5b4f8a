import LiveExec32.Vm.Remapped
import LiveExec32.Vm.Concurrency
import LiveExec32.Psynch.LostWakeup
import LiveExec32.Psynch.MutexGrants
import LiveExec32.Psynch.ConditionGenerations
import LiveExec32.Psynch.RwlockGrants
import LiveExec32.Psynch.UlockWakes
import LiveExec32.Workqueue.Compensation
import LiveExec32.Workqueue.Cooperative
import LiveExec32.Workqueue.DeliveryOnce
import LiveExec32.Workqueue.RegistrationKeys
import LiveExec32.Workqueue.Expirations
import LiveExec32.Callback.Delivery
import LiveExec32.Filesystem.RoundTrip
import LiveExec32.MachMsg.Safety
import LiveExec32.Guest.Gathered
import LiveExec32.Guest.ImageAddresses
import LiveExec32.Bootstrap.Environment
import LiveExec32.Injection.Rerun
import LiveExec32.Debugger.Tracepoints
import LiveExec32.Debugger.Untracked
import LiveExec32.AllStop.Safety
import LiveExec32.ThreadState.Suspend
