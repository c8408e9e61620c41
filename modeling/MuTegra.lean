import MuTegra.BootManager.BootGraphics
import MuTegra.BootManager.BootLock
import MuTegra.BootManager.BootOptions
import MuTegra.BootManager.PreBootChecks
import MuTegra.BootManager.PriorityBoot
import MuTegra.BootManager.ReadyToBoot
import MuTegra.BootPolicy.DevicePath
import MuTegra.BootPolicy.LoadImage
import MuTegra.Buttons.Services
import MuTegra.Dfci.Assembly
import MuTegra.Dfci.Events
import MuTegra.Dfci.Exchange
import MuTegra.Dfci.Frames
import MuTegra.Dfci.Frees
import MuTegra.Dfci.Holdings
import MuTegra.Dfci.Leaks
import MuTegra.Dfci.Location
import MuTegra.Dfci.Mailbox
import MuTegra.Dfci.MainLogic
import MuTegra.Dfci.Menu
import MuTegra.Dfci.MenuForms
import MuTegra.Dfci.MenuReads
import MuTegra.Dfci.MenuSession
import MuTegra.Dfci.NicLoop
import MuTegra.Dfci.OwnBody
import MuTegra.Dfci.PhaseOrder
import MuTegra.Dfci.Phases
import MuTegra.Dfci.Request
import MuTegra.Dfci.Requested
import MuTegra.Dfci.Restore
import MuTegra.Dfci.Retries
import MuTegra.Dfci.Settings
import MuTegra.Dfci.StandaloneRecovery
import MuTegra.Dfci.State
import MuTegra.Dfci.Trace
import MuTegra.Dfci.Traffic
import MuTegra.Dfci.Transport
import MuTegra.Dfci.Update
import MuTegra.Dfci.UsbFile
import MuTegra.Dfci.UsbFrees
import MuTegra.Dfci.UsbName
import MuTegra.Dfci.UsbSearch
import MuTegra.Dfci.UsbUpdate
import MuTegra.EarlyGraphics.FrameBufferInfo
import MuTegra.EarlyStorage.AppendLog
import MuTegra.EarlyStorage.ArrayLaw
import MuTegra.EarlyStorage.Bounds
import MuTegra.EarlyStorage.FailedAdd
import MuTegra.EarlyStorage.LogInvariant
import MuTegra.EarlyStorage.Record
import MuTegra.EarlyStorage.Region
import MuTegra.EarlyStorage.Storage
import MuTegra.Foundation.AppendLog
import MuTegra.Foundation.Blocks
import MuTegra.Foundation.BoundedFifo
import MuTegra.Foundation.ByteFields
import MuTegra.Foundation.Conveying
import MuTegra.Foundation.DigitRoot
import MuTegra.Foundation.FrontWrites
import MuTegra.Foundation.GrowingWalks
import MuTegra.Foundation.HighBits
import MuTegra.Foundation.Inking
import MuTegra.Foundation.LastWrites
import MuTegra.Foundation.ListWalks
import MuTegra.Foundation.Loops
import MuTegra.Foundation.MachineWords
import MuTegra.Foundation.Numbering
import MuTegra.Foundation.Overlay
import MuTegra.Foundation.Ownership
import MuTegra.Foundation.Plotting
import MuTegra.Foundation.RecordWalks
import MuTegra.Foundation.Records
import MuTegra.Foundation.Registering
import MuTegra.Foundation.RingQueue
import MuTegra.Foundation.Runs
import MuTegra.Foundation.Tallies
import MuTegra.Foundation.Words.Occurrence
import MuTegra.Foundation.Words.Packing
import MuTegra.Foundation.Words.Periods
import MuTegra.Foundation.Words.SuffixScan
import MuTegra.FrontPage.DisplayStrings
import MuTegra.FrontPage.FirmwareVersions
import MuTegra.FrontPage.FormMap
import MuTegra.FrontPage.Passwords
import MuTegra.FrontPage.Secrets
import MuTegra.FrontPage.Session
import MuTegra.FrontPage.SessionEnd
import MuTegra.FrontPage.SessionForms
import MuTegra.Keyboard.Binding
import MuTegra.Keyboard.ConsoleIn
import MuTegra.Keyboard.Delivery
import MuTegra.Keyboard.Fifo
import MuTegra.Keyboard.KeyMatrix
import MuTegra.Keyboard.LockState
import MuTegra.Keyboard.Notify
import MuTegra.Keyboard.NotifyPool
import MuTegra.Keyboard.NotifyWalk
import MuTegra.Keyboard.PollDelta
import MuTegra.Keyboard.Queue
import MuTegra.Keyboard.Registry
import MuTegra.Keyboard.TextIn
import MuTegra.Keyboard.TextInEx
import MuTegra.Loader.HandOver
import MuTegra.Loader.Payloads
import MuTegra.Loader.TrustZone
import MuTegra.MathLib.BitScan
import MuTegra.MathLib.Sqrt
import MuTegra.MemDraw.FrameBufferConfig
import MuTegra.MemDraw.SetUp
import MuTegra.MemorySearch.CriticalCut
import MuTegra.MemorySearch.Memmem
import MuTegra.MemorySearch.Memory
import MuTegra.MemorySearch.Safety
import MuTegra.MemorySearch.SuffixLoops
import MuTegra.MemorySearch.TwoWay
import MuTegra.MemorySearch.WindowSearch
import MuTegra.Pei.MemoryMap
import MuTegra.Pei.VolumeHobs
import MuTegra.Screen.Cursor
import MuTegra.Screen.Framebuffer
import MuTegra.Screen.Glyph
import MuTegra.Screen.GlyphPixels
import MuTegra.Screen.Interrupts
import MuTegra.Screen.Pages
import MuTegra.Screen.TextScreen
import MuTegra.SiPolicy.Provisioning
import MuTegra.Smbios.Handles
import MuTegra.Smbios.StringPack
import MuTegra.Timer.Counter
import MuTegra.Timer.Delay
import MuTegra.Timer.Driver
import MuTegra.Timer.Nanoseconds
import MuTegra.Timer.Period
import MuTegra.Timer.Reload
import MuTegra.Timer.Run
import MuTegra.Uefi.Forms
import MuTegra.Uefi.Status
import MuTegra.Uefi.Strings
import MuTegra.Uefi.Variables
