import IntelGfx.Theory.Run
import IntelGfx.Theory.FirstFit
import IntelGfx.Theory.SharedTrie
import IntelGfx.Verify.BufferObject
import IntelGfx.Verify.FlatMap
import IntelGfx.Verify.RenderClient
import IntelGfx.Kernel.Device
import IntelGfx.Verify.GalliumContext
import IntelGfx.Verify.SimpleMtx
import IntelGfx.Verify.Egl
import IntelGfx.Verify.SyncObjects
import IntelGfx.Verify.Ring
import IntelGfx.Verify.Locks
import IntelGfx.Verify.Scheduler
import IntelGfx.Verify.Fences
import IntelGfx.Verify.StateLayout
import IntelGfx.Verify.Forcewake
import IntelGfx.Verify.Awake
import IntelGfx.Verify.Topology
import IntelGfx.Verify.CachedTables
import IntelGfx.Verify.Activity
import IntelGfx.Verify.Presentation
import IntelGfx.Verify.IntelWinsys
import IntelGfx.Verify.Lifetime
import IntelGfx.Verify.AddressSpace
import IntelGfx.Verify.Submission
import IntelGfx.Verify.EngineStatus
import IntelGfx.Verify.Coherence
import IntelGfx.Verify.Reclaim
import IntelGfx.Verify.Swapchain
import IntelGfx.Verify.Registration
import IntelGfx.Verify.Timestamp
import IntelGfx.Verify.RasBuffer
import IntelGfx.Verify.ShmBuffers
import IntelGfx.Theory.Placement
import IntelGfx.Verify.Layout
import IntelGfx.Verify.Frame
import IntelGfx.Verify.TablePool
import IntelGfx.Verify.TableBudget
import IntelGfx.Verify.TableHistory
import IntelGfx.Verify.Quarantine
import IntelGfx.Theory.RingQueue
import IntelGfx.Display.Engine
import IntelGfx.Verify.Accelerant
import IntelGfx.Theory.KeepBest
import IntelGfx.Display.PLL
import IntelGfx.Display.TigerLakePLL
import IntelGfx.Verify.PLL
import IntelGfx.Verify.TigerLakePLL
import IntelGfx.Verify.Framebuffer
import IntelGfx.Verify.Isolation
import IntelGfx.Verify.Retention
