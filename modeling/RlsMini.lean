import RlsMini.Lib.Machine
import RlsMini.Lib.Ring
import RlsMini.Lib.Hex
import RlsMini.Lib.CInt
import RlsMini.Lib.Pages
import RlsMini.Lib.BitFields
import RlsMini.Lib.Rounding
import RlsMini.Lib.Numerals
import RlsMini.Lib.Secrets
import RlsMini.Lib.Simulation
import RlsMini.Lib.Fairness
import RlsMini.Lib.Commuting
import RlsMini.Lib.PrefixCode
import RlsMini.Lib.Brackets
import RlsMini.Dma.Proxy
import RlsMini.Dma.Message
import RlsMini.Dma.Channel
import RlsMini.Dma.Frame
import RlsMini.Dma.ReceiveRing
import RlsMini.Dma.Receive
import RlsMini.Dma.Dump
import RlsMini.Dma.RxPlan
import RlsMini.Dma.BufferOrder
import RlsMini.Samples.SampleFile
import RlsMini.Samples.Lines
import RlsMini.Samples.RoundTrip
import RlsMini.Dma.Transmit
import RlsMini.Dma.Lifecycle
import RlsMini.Dma.Lockstep
import RlsMini.Dma.Reload
import RlsMini.Dma.Accesses
import RlsMini.Dma.Detections
import RlsMini.Dma.Api
import RlsMini.Dma.Blocking
import RlsMini.Dma.MainRun
import RlsMini.Dma.MainEnds
import RlsMini.Dma.MainDump
import RlsMini.Regs.Driver
import RlsMini.Regs.Positional
import RlsMini.Regs.Handles
import RlsMini.Regs.Access
import RlsMini.Regs.Stack
import RlsMini.Regs.AxiDsp
import RlsMini.Regs.Codecs
import RlsMini.Regs.FixedPoint
import RlsMini.Regs.Calls
import RlsMini.Regs.Leaks
import RlsMini.Regs.ReadBack
import RlsMini.Regs.Descriptors
import RlsMini.Regs.Lifetime
import RlsMini.Regs.Clients
import RlsMini.Regs.Locking
import RlsMini.Regs.Users
import RlsMini.Regs.Sequential
import RlsMini.Regs.Unwind
import RlsMini.Regs.Instances
import RlsMini.Regs.FailStop
import RlsMini.Regs.Configure
import RlsMini.Regs.AxiMultiplier
import RlsMini.Regs.SelfTest
import RlsMini.Reset.PlReset
import RlsMini.Reset.Resets
import RlsMini.Reset.Binding
import RlsMini.Misc.BitLists
