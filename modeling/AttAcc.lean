import AttAcc.Weights
import AttAcc.Compression
import AttAcc.RoutingModes
import AttAcc.Devices
import AttAcc.Tiles
import AttAcc.AluEnergy
import AttAcc.Reports
import AttAcc.Batches
import AttAcc.Hardware
import AttAcc.Work
import AttAcc.Library.Memo
import AttAcc.Ramulator
import AttAcc.Trace.Generate
import AttAcc.Trace.Emit
import AttAcc.Trace.Coverage
import AttAcc.Library.Regions
import AttAcc.Trace.Regions
import AttAcc.Dram.Banks
import AttAcc.Library.Runs
import AttAcc.Dram.Progress
import AttAcc.Controller.Scheduler
import AttAcc.Controller.BestRequest
import AttAcc.Controller.Tick
import AttAcc.Controller.Passes
import AttAcc.Controller.Barrier
import AttAcc.Controller.DualIssue
import AttAcc.Controller.Precharge
import AttAcc.Controller.Conservation
import AttAcc.Library.Fences
import AttAcc.Trace.Order
import AttAcc.Trace.Traffic
import AttAcc.Trace.Prefetch
import AttAcc.Restarts
import AttAcc.Library.Numerals
import AttAcc.Trace.File
import AttAcc.Dram.AddrMapper
import AttAcc.Trace.Frontend
import AttAcc.Trace.Statistics
import AttAcc.Configure
import AttAcc.Breakdown
import AttAcc.Overlap
import AttAcc.Library.Chunks
import AttAcc.Interpolation
import AttAcc.Prefill
import AttAcc.MaxBatch
import AttAcc.TimedBlocks
import AttAcc.Completion
import AttAcc.DeepStack
import AttAcc.VisionTokens
import AttAcc.Trace.Partition
import AttAcc.Trace.Calls
import AttAcc.TileChoice
import AttAcc.TileMemo
import AttAcc.Roofline
import AttAcc.Hierarchy
import AttAcc.Library.Waves
import AttAcc.Loads
import AttAcc.Scaling
import AttAcc.VitTemplate
import AttAcc.Library.Offload
import AttAcc.StepGain
import AttAcc.Library.Calls
import AttAcc.SampleSet
import AttAcc.Efficiency
import AttAcc.Library.Components
import AttAcc.Controller.Refresh
import AttAcc.Memory.System
import AttAcc.Memory.Order
import AttAcc.Memory.Generated
import AttAcc.Controller.PimOnly
import AttAcc.Memory.Completion
import AttAcc.Library.Demand
import AttAcc.Controller.Rows
import AttAcc.Controller.Service
import AttAcc.Controller.Hbm3Pim
import AttAcc.Memory.Termination
import AttAcc.Controller.Timings
import AttAcc.Memory.GeneratedEnds
import AttAcc.Library.Replay
import AttAcc.Controller.Bus
import AttAcc.Memory.Protocol
import AttAcc.Memory.Bandwidth
import AttAcc.Memory.Answer
import AttAcc.Memory.Wrapper
import AttAcc.Controller.Hbm3
import AttAcc.Controller.Recorder
import AttAcc.FasterGpu
import AttAcc.FasterRuns
