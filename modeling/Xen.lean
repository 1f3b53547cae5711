import Xen.Lib.Logged
import Xen.Lib.Runs
import Xen.Lib.Memory
import Xen.Lib.CString
import Xen.Lib.Copy
import Xen.Lib.Intervals
import Xen.Lib.Bits
import Xen.Lib.Blocks
import Xen.Lib.Packed
import Xen.Intel.Image
import Xen.Intel.Loader
import Xen.Intel.Progress
import Xen.Intel.Matching
import Xen.Intel.Revision
import Xen.Intel.Validation
import Xen.Intel.Corruption
import Xen.Intel.Signature
import Xen.Intel.Driver
import Xen.Amd.Container
import Xen.Amd.Resume
import Xen.Amd.Revision
import Xen.Amd.Buffer
import Xen.Amd.Equiv
import Xen.Amd.Sections
import Xen.Amd.Driver
import Xen.Numa.Domains
import Xen.Numa.Bounds
import Xen.Numa.Coverage
import Xen.Numa.Affinity
import Xen.Numa.Scan
import Xen.Numa.Lookups
import Xen.Numa.Forget
import Xen.Numa.Off
import Xen.Numa.Slit
import Xen.Monitor.Domctl
import Xen.Monitor.Msr
import Xen.Monitor.Ctrlregs
import Xen.Monitor.Requests
import Xen.Monitor.Lifecycle
import Xen.Percpu.Areas
import Xen.Percpu.Freeing
import Xen.Percpu.Allocation
import Xen.Percpu.Hotplug
import Xen.Irq.I8259
import Xen.Irq.History
import Xen.Irq.ReadMode
import Xen.Irq.Programming
import Xen.Irq.Setup
import Xen.Time.Platform
import Xen.Strings.Compare
import Xen.Strings.Search
import Xen.Strings.Copy
import Xen.Strings.FindFirst
import Xen.Strings.Chr
import Xen.Strings.Algebra
import Xen.Fpu.Lazy
import Xen.Fpu.Xcr0
import Xen.Fpu.Saving
import Xen.Xstate.Init
import Xen.MapCache.Unlocked
import Xen.Mm.PageRef
import Xen.Sched.Thread
import Xen.Sched.Stack
import Xen.Gdb.Resume
import Xen.Gdb.Copy
import Xen.Gdb.Overlap
import Xen.VmEvent.Records
import Xen.VmEvent.Segments
import Xen.VmEvent.Canonical
import Xen.VmEvent.Emulate
import Xen.VmEvent.Singlestep
import Xen.VmEvent.Contents
import Xen.VmEvent.Responses
import Xen.Trace.Records
import Xen.Apic.Clear
import Xen.Lib.Threads
import Xen.Lib.Atomic
import Xen.Lib.LinkedList
import Xen.Lock.Plain
import Xen.Lock.Recursive
import Xen.Lock.Linear
