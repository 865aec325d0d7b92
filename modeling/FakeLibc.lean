import FakeLibc.Lib.Run
import FakeLibc.Lib.Linked
import FakeLibc.Lib.CString
import FakeLibc.Lib.Ownership
import FakeLibc.Lib.Words
import FakeLibc.Lib.RefCount
import FakeLibc.Lib.Counting
import FakeLibc.Lib.RoundRobin
import FakeLibc.Lib.Ledger
import FakeLibc.Lib.Condition
import FakeLibc.Lib.OnDemand
import FakeLibc.Lib.Custody
import FakeLibc.Lib.Observe
import FakeLibc.Lib.Places
import FakeLibc.Lib.Designated
import FakeLibc.Lib.Names
import FakeLibc.Lib.Loop
import FakeLibc.Lib.ListIterator
import FakeLibc.PropertyGet
import FakeLibc.PropertyCache
import FakeLibc.PropertyStreams
import FakeLibc.PropertyBuffers
import FakeLibc.DynamicLinker
import FakeLibc.AddrInfo
import FakeLibc.AddrInfoCalls
import FakeLibc.ThreadTable
import FakeLibc.ThreadRegistry
import FakeLibc.ThreadStart
import FakeLibc.ThreadHandshake
import FakeLibc.ThreadWait
import FakeLibc.ThreadResult
import FakeLibc.ThreadLifetime
import FakeLibc.PthreadWords
import FakeLibc.PthreadPointers
import FakeLibc.ObjectRelease
import FakeLibc.MutexKinds
import FakeLibc.CondTimeouts
import FakeLibc.LazyInit
import FakeLibc.LazyInitAlone
import FakeLibc.OneObject
import FakeLibc.Dirents
import FakeLibc.Sysconf
import FakeLibc.StringCopies
import FakeLibc.GlibcPointers
import FakeLibc.StdStreams
import FakeLibc.StreamPositions
import FakeLibc.Egl
import FakeLibc.EglDisplay
import FakeLibc.EglSurface
import FakeLibc.ContextVersion
import FakeLibc.ExtensionStrings
import FakeLibc.ImageWrapping
import FakeLibc.GlesTables
import FakeLibc.GlesForwarding
import FakeLibc.FbDevWindow
import FakeLibc.FbDevStep
import FakeLibc.FbDevHandOut
import FakeLibc.FbDevFreeCount
import FakeLibc.FbDevThreads
import FakeLibc.FbDevWaiting
import FakeLibc.FbDevWakeUps
import FakeLibc.HwComposerWindow
import FakeLibc.HwComposerTrace
import FakeLibc.HwComposerList
import FakeLibc.HwComposerHandOut
import FakeLibc.HwComposerFences
import FakeLibc.OutstandingBuffers
import FakeLibc.WaylandWindow
import FakeLibc.WaylandStep
import FakeLibc.WaylandListLoops
import FakeLibc.WaylandBufferCount
import FakeLibc.WaylandLock
import FakeLibc.WaylandReferences
import FakeLibc.WaylandClient
import FakeLibc.WaylandFreeCount
import FakeLibc.WaylandPosting
import FakeLibc.WaylandOwners
import FakeLibc.WaylandRelease
import FakeLibc.WaylandSelection
import FakeLibc.WaylandDequeue
import FakeLibc.WaylandSizes
import FakeLibc.WaylandSetup
import FakeLibc.GivenFences
import FakeLibc.NativeHandles
import FakeLibc.SerializedBuffers
import FakeLibc.ServerWlegl
import FakeLibc.HandleRequests
import FakeLibc.HandleEvents
import FakeLibc.RemoteBuffers
import FakeLibc.BufferServer
import FakeLibc.DescriptorBalance
import FakeLibc.GrallocFailures
import FakeLibc.BufferFormats
import FakeLibc.FbDevRequests
import FakeLibc.Lib.Listeners
import FakeLibc.WaylandCallbacks
import FakeLibc.Lib.Arm
import FakeLibc.SetJmp
import FakeLibc.SetJmpRestore
import FakeLibc.SetJmpRuns
import FakeLibc.SignalActions
import FakeLibc.WaylandReadQueue
import FakeLibc.Lib.Boxed
import FakeLibc.Lib.Circulation
import FakeLibc.Lib.MutualLinks
import FakeLibc.PthreadAttrs
import FakeLibc.SingleWindow
import FakeLibc.SingleWindowLife
import FakeLibc.SingleWindowRetry
import FakeLibc.WaylandOrderly
import FakeLibc.WlEglWindow
import FakeLibc.WlEglWindowCounts
import FakeLibc.WlEglWindowRuns
import FakeLibc.Lib.Records
import FakeLibc.SyncPoints
import FakeLibc.FbDevScreen
import FakeLibc.WlEglWindowSecond
