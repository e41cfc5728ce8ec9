import AttAcc.Capacity
import AttAcc.Graph
import AttAcc.Pipeline
import AttAcc.Sampling
import AttAcc.Totals

/-!
# The system simulator

`System` of `src/system.py`: its configuration calls and `simulate`. The graph `build`
leaves on the model is mutated in place by the passes, so `simulate` threads it through
the loop over the batches.
-/

namespace AttAcc

/-- The part of a `System` that the passes over a graph read. Only `set_accelerator` names
a PIM, and it stores a `PIM` then. -/
structure Platform where
  heteroName : DeviceType
  gpu : Xpu
  acc : AccDevice
  prefillChunkSize : ℕ := 512
  prefillSampleCount : ℕ := 8
  imageSize : Option ImageSize := none
  acc_pim : heteroName = .PIM → acc.pimType.isSome

/-- A `System`. -/
structure System extends Platform where
  model : Option Transformer
  routingMode : Option RoutingMode := none
  routingLayerList : Option (List ℤ) := none

namespace Platform

/-- `self.hetero_name in [DeviceType.CPU, DeviceType.PIM]`. -/
def isHetero (sys : Platform) : Bool :=
  match sys.heteroName with
  | .CPU | .PIM => true
  | _ => false

/-- `_accelerator_routing_name`. -/
def acceleratorRoutingName (sys : Platform) : RoutingDevice :=
  match sys.heteroName with
  | .PIM => .pim
  | .CPU => .cpu
  | _ => .gpu

/-- The entries a routing stands for, once `build` has put in its default. -/
def entriesOf (sys : Platform) (t : Transformer) (routing : Option (List RoutingEntry)) :
    List RoutingEntry :=
  routing.getD (t.defaultRouting sys.isHetero)

/-- `get_required_mem_capacity`: under a PIM accelerator the KV cache is not on the GPU. -/
def getRequiredMemCapacity (sys : Platform) (t : Transformer) (batchSize lin lout : ℕ) :
    MemComponents :=
  let c := t.computeMemComponents batchSize lin lout
  { c with kvMemory := if sys.heteroName = .PIM then 0 else c.kvMemory }

end Platform

namespace System

/-- `__init__` without an accelerator. With one it cannot succeed for a PIM: the `PIM`
constructor takes a third argument it does not pass. -/
def new (gpu : Xpu) (modelinfos : Option ModelInfos) : Except PyError System := do
  let model ← modelinfos.mapM fun mi => Transformer.new mi gpu.numXpu
  return { heteroName := .NONE, gpu := gpu, acc := .xpu gpu, model := model, acc_pim := nofun }

/-- `set_model`. -/
def setModel (sys : System) (modelinfos : ModelInfos) : Except PyError System := do
  let model ← Transformer.new modelinfos sys.gpu.numXpu
  return { sys with model := some model }

/-- `set_routing`. -/
def setRouting (sys : System) (mode : RoutingMode) (layerList : Option (List ℤ)) : System :=
  { sys with routingMode := some mode, routingLayerList := layerList }

/-- `set_prefill_config`. -/
def setPrefillConfig (sys : System) (chunkSize sampleCount : ℕ) : System :=
  { sys with prefillChunkSize := chunkSize, prefillSampleCount := sampleCount }

/-- `set_image_size`. -/
def setImageSize (sys : System) (imageSize : Option ImageSize) : System :=
  { sys with imageSize := imageSize }

/-- `set_accelerator` with a PIM. -/
def setAcceleratorPim (sys : System) (pim : Pim) : System :=
  { sys with heteroName := .PIM, acc := .pim pim, acc_pim := fun _ => rfl }

/-- `set_accelerator` with a CPU. -/
def setAcceleratorCpu (sys : System) (cpu : Xpu) : System :=
  { sys with heteroName := .CPU, acc := .xpu cpu, acc_pim := nofun }

/-- `set_xpu`. It also writes an attribute `tp` of the model, which nothing reads. -/
def setXpu (sys : System) (gpu : Xpu) : System :=
  { sys with heteroName := .NONE, gpu := gpu, acc := .xpu gpu, acc_pim := nofun }

/-- `self.routing_layer_list or list(range(self.model.ndec))`. -/
def orAllLayers (layerList : Option (List ℤ)) (ndec : ℕ) : List ℤ :=
  match layerList with
  | some (i :: is) => i :: is
  | _ => (List.range ndec).map fun idx : ℕ => (idx : ℤ)

/-- The `routing` that `simulate` passes to `build`. -/
def routing (sys : System) (t : Transformer) : Except PyError (Option (List RoutingEntry)) :=
  match sys.routingMode with
  | some mode => do
    let groups ← (Routing.new t.hasDeepstack mode sys.routingLayerList
      sys.acceleratorRoutingName).toGroups t.ndec
    return some groups
  | none =>
    if sys.isHetero then
      -- a DeepStack model keeps its layer indices: the routing is forced into list mode
      if t.hasDeepstack then do
        let groups ← (Routing.new t.hasDeepstack .list
          (some (orAllLayers sys.routingLayerList t.ndec)) sys.acceleratorRoutingName).toGroups
          t.ndec
        return some groups
      else return some [⟨.all, sys.acceleratorRoutingName, t.ndec, none⟩]
    else return none

/-- Whatever routing `simulate` passes, `build` assigns a device to every layer, under
distinct names. -/
theorem exists_assigns_of_routing {sys : System} {t : Transformer}
    {groups : Option (List RoutingEntry)} (h : sys.routing t = .ok groups) :
    ∃ devices, Routing.Assigns (sys.entriesOf t groups) devices ∧ devices.length = t.ndec := by
  unfold routing at h
  split at h
  · obtain ⟨groups', hgroups', h⟩ := Library.bind_ok_iff.mp h
    obtain rfl := Except.ok.inj h
    exact Routing.exists_assigns_of_toGroups hgroups'
  · split_ifs at h with hhetero hdeep
    · obtain ⟨groups', hgroups', h⟩ := Library.bind_ok_iff.mp h
      obtain rfl := Except.ok.inj h
      exact Routing.exists_assigns_of_toGroups hgroups'
    · obtain rfl := Except.ok.inj h
      exact ⟨_, Routing.assigns_all _ _, List.length_replicate⟩
    · obtain rfl := Except.ok.inj h
      exact ⟨_, ⟨t.names_nodup_defaultRouting sys.isHetero,
        t.assignment_defaultRouting sys.isHetero⟩, List.length_replicate⟩

end System

/-! ## The passes over a group -/

/-- The arguments of `simulate` that the passes read. -/
structure PassArgs where
  batchSize : ℕ
  lin : ℕ
  lout : ℕ
  pipe : Bool := false
  parallelFf : Bool := false
  deriving DecidableEq, Repr

/-- The arguments of `simulate`. -/
structure SimArgs extends PassArgs where
  powerConstraint : Bool := false
  numReqs : ℕ := 0
  deriving DecidableEq, Repr

/-- The number of decode steps the decode numbers are averaged over. -/
def PassArgs.genSteps (args : PassArgs) : ℕ := max 1 (args.lout - 1)

/-- An entry of `sum_decoder_groups` and of `gen_decoder_groups`, as simulation sees it. -/
structure SimGroup where
  sumDecoder : List SimLayer
  genDecoder : List (List SimLayer)
  count : ℕ
  device : RoutingDevice

/-- The graph with its mutable layers. -/
structure SimGraph where
  visionDecoder : List SimLayer
  groups : List SimGroup

/-- A group as `build` leaves it. -/
def SimGroup.fresh (g : Group) : SimGroup where
  sumDecoder := g.sumDecoder.map .fresh
  genDecoder := g.genDecoder.map fun block => block.map .fresh
  count := g.count
  device := g.device

/-- The graph as `build` leaves it. -/
def SimGraph.fresh (g : Graph) : SimGraph where
  visionDecoder := g.visionDecoder.map .fresh
  groups := g.groups.map .fresh

namespace Platform

variable (sys : Platform)

/-- `_select_acc_device(layer, group_device).get_time_and_energy(layer)`. -/
def timeOn (device : RoutingDevice) (l : Layer) : Except PyError Outcome :=
  if device ≠ .gpu ∧ (l.type = .MATMUL ∨ l.type = .SOFTMAX ∨ l.type = .X2G) then
    sys.acc.getTimeAndEnergy l
  else sys.gpu.getTimeAndEnergy l

/-- How `_simulate_sum_group` times a layer: the score of a PIM group is chunked. -/
def timeSum (device : RoutingDevice) (l : Layer) : Except PyError Outcome :=
  if device = .pim ∧ l.name = .score then do
    let cost ← simulatePimPrefillScore sys.acc.getTimeAndEnergy sys.prefillChunkSize
      sys.prefillSampleCount l
    return { execTime := cost.1, energy := cost.2 }
  else sys.timeOn device l

/-- The FLOPs of a list of layers, over all devices. -/
def groupFlops (ls : List SimLayer) : ℕ :=
  (ls.map fun l => l.layer.getFlops * sys.gpu.numXpu).sum

/-- The loop of `_simulate_sum_group`. A transfer waits until the one before it has left
the write port. -/
def simulateSumLayers (device : RoutingDevice) :
    ℚ → ℚ → List SimLayer → Except PyError (List SimLayer)
  | _, _, [] => .ok []
  | time, wrtIoBusy, l :: ls => do
    let outcome ← sys.timeSum device l.layer
    let execTime := if l.layer.type = .X2G then outcome.execTime + max (wrtIoBusy - time) 0
      else outcome.execTime
    let wrtIoBusy := if l.layer.type = .X2G then time + execTime else wrtIoBusy
    let rest ← simulateSumLayers device (time + execTime) wrtIoBusy ls
    return l.assign { outcome with execTime := execTime } :: rest

/-- `_simulate_sum_group`. -/
def simulateSumGroup (args : PassArgs) (device : RoutingDevice) (sDecoder : List SimLayer) :
    Except PyError (List SimLayer × ℕ) := do
  let timed ← sys.simulateSumLayers device 0 0 sDecoder
  let adjusted ← applyEffLat sys.acc.numHbm args.batchSize device timed
  return (adjusted, sys.groupFlops sDecoder)

/-- The layers of a decode block, timed. -/
def timeGenBlock (device : RoutingDevice) (block : List SimLayer) :
    Except PyError (List SimLayer) :=
  block.mapM fun l => do
    let outcome ← sys.timeOn device l.layer
    return l.assign outcome

/-- The adjustments of a timed decode block, which only a PIM group sees. -/
def adjustGenBlock (t : Transformer) (args : PassArgs) (bs : ℕ) (device : RoutingDevice)
    (timed : List SimLayer) : Except PyError (List SimLayer) :=
  if device = .pim then do
    let adjusted ← applyEffLat sys.acc.numHbm args.batchSize device timed
    let piped ← pipeline t.numKvHeads sys.gpu.numXpu args.pipe adjusted
    if args.parallelFf then ffParallel sys.gpu sys.acc bs piped else .ok piped
  else .ok timed

/-- The body of the loop of `_simulate_gen_group`: energies are accumulated before times
are adjusted. -/
def simulateGenBlock (t : Transformer) (args : PassArgs) (bs : ℕ) (device : RoutingDevice)
    (acc : GenEnergies) (block : List SimLayer) : Except PyError (List SimLayer × GenEnergies) := do
  let timed ← sys.timeGenBlock device block
  let adjusted ← sys.adjustGenBlock t args bs device timed
  return (adjusted, timed.foldl GenEnergies.accumulate acc)

/-- The loop of `_simulate_gen_group`. -/
def simulateGenBlocks (t : Transformer) (args : PassArgs) (bs : ℕ) (device : RoutingDevice) :
    GenEnergies → List (List SimLayer) → Except PyError (List (List SimLayer) × GenEnergies)
  | acc, [] => .ok ([], acc)
  | acc, block :: blocks => do
    let (block, acc) ← sys.simulateGenBlock t args bs device acc block
    let (blocks, acc) ← simulateGenBlocks t args bs device acc blocks
    return (block :: blocks, acc)

/-- `_simulate_gen_group`. -/
def simulateGenGroup (t : Transformer) (args : PassArgs) (bs : ℕ) (device : RoutingDevice)
    (gDecoder : List (List SimLayer)) :
    Except PyError (List (List SimLayer) × ℕ × GenEnergies) := do
  let (gDecoder', acc) ← sys.simulateGenBlocks t args bs device .zero gDecoder
  return (gDecoder', (gDecoder.map sys.groupFlops).sum, acc)

/-- The passes over one group, and what they report for one of its layers. -/
def simulateGroup (t : Transformer) (args : PassArgs) (bs : ℕ) (g : SimGroup) :
    Except PyError (SimGroup × Totals) := do
  let (sDecoder, sFlops) ← sys.simulateSumGroup args g.device g.sumDecoder
  let (gDecoder, gFlops, energies) ← sys.simulateGenGroup t args bs g.device g.genDecoder
  return ({ g with sumDecoder := sDecoder, genDecoder := gDecoder },
    { sPerf := collectSPerf sDecoder
      gPerf := fun key => collectGPerf gDecoder key / args.genSteps
      energy := collectEnergies energies args.genSteps
      sFlops := sFlops
      gFlops := gFlops })

/-- The VLM floor overhead, in seconds. -/
def vlmFloor (t : Transformer) : ℚ :=
  if 0 < t.vlmFloorOverheadMs then t.vlmFloorOverheadMs / 1000 else 0

/-- The vision pass. The floor overhead counts once, and only where there is a vision
graph. -/
def simulateVision (t : Transformer) (args : PassArgs) (vision : List SimLayer) :
    Except PyError (List SimLayer × Totals) :=
  if vision.isEmpty then .ok (vision, 0)
  else do
    let (vision, flops) ← sys.simulateSumGroup args .gpu vision
    return (vision,
      { (0 : Totals) with
        sPerf := fun key => collectSPerf vision key + if key = .all then vlmFloor t else 0
        sFlops := flops })

/-- The loop over the groups, from the accumulators the vision pass leaves. -/
def simulateGroups (t : Transformer) (args : PassArgs) (bs : ℕ) :
    Totals → List SimGroup → Except PyError (List SimGroup × Totals)
  | totals, [] => .ok ([], totals)
  | totals, g :: gs => do
    let (g', report) ← sys.simulateGroup t args bs g
    let (gs', totals') ← simulateGroups t args bs (totals + report.scale g.count) gs
    return (g' :: gs', totals')

/-- One iteration of the loop over the batches. -/
def simulateBatch (t : Transformer) (args : PassArgs) (bs : ℕ) (graph : SimGraph) :
    Except PyError (SimGraph × Totals) := do
  let (vision, totals) ← sys.simulateVision t args graph.visionDecoder
  let (groups, totals) ← sys.simulateGroups t args bs totals graph.groups
  return (⟨vision, groups⟩, totals)

end Platform

/-! ## `simulate` -/

/-- The performance vector in ms and the energy vector in nJ. -/
@[ext] structure Report where
  sPerf : SPerfKey → ℚ
  gPerf : GPerfKey → ℚ
  energy : EnergyColumn → ℚ

namespace Report

/-- The vectors of one iteration. -/
def ofTotals (totals : Totals) : Report where
  sPerf key := totals.sPerf key * 1000
  gPerf key := totals.gPerf key * 1000
  energy column := totals.energy column / 1000

instance : Add Report := ⟨fun a b => ⟨a.sPerf + b.sPerf, a.gPerf + b.gPerf, a.energy + b.energy⟩⟩

instance : SMul ℕ Report := ⟨fun n a => ⟨n • a.sPerf, n • a.gPerf, n • a.energy⟩⟩

@[simp] theorem sPerf_add (a b : Report) : (a + b).sPerf = a.sPerf + b.sPerf := rfl
@[simp] theorem gPerf_add (a b : Report) : (a + b).gPerf = a.gPerf + b.gPerf := rfl
@[simp] theorem energy_add (a b : Report) : (a + b).energy = a.energy + b.energy := rfl
@[simp] theorem sPerf_smul (n : ℕ) (a : Report) : (n • a).sPerf = n • a.sPerf := rfl
@[simp] theorem gPerf_smul (n : ℕ) (a : Report) : (n • a).gPerf = n • a.gPerf := rfl
@[simp] theorem energy_smul (n : ℕ) (a : Report) : (n • a).energy = n • a.energy := rfl

end Report

/-- What the loop over the batches leaves behind. `perf_all` and `energy_all` are lists
that are empty before the first iteration and are filled together. -/
structure Results where
  all : Option Report
  capUsagePerGpu : ℚ
  sFlops : ℚ
  gFlops : ℚ

/-- `perf_all[...]` of an empty list raises. -/
def Results.report (results : Results) : Except PyError Report :=
  match results.all with
  | some report => .ok report
  | none => .error .indexError

/-- The variables as they are initialised before the loop. -/
def Results.initial : Results := ⟨none, 0, 0, 0⟩

/-- The state of the loop over the batches. -/
structure LoopState where
  graph : SimGraph
  results : Results

/-- The first entry of a row's `config`: the accelerator, or the kind of PIM. -/
inductive ConfigName where
  | device (name : DeviceType)
  | pim (type : PIMType)
  deriving DecidableEq, Repr

/-- The row `simulate` appends: `[tag, config, perf_all, energy_all]`. -/
structure Row where
  modelName : String
  dtype : DataType
  gpuName : DeviceType
  cap : ℕ
  bwScale : ℚ
  opb : ℚ
  configName : ConfigName
  numXpu : ℕ
  pipe : Bool
  parallelFf : Bool
  powerConstraint : Bool
  gqaSize : ℕ
  lin : ℕ
  lout : ℕ
  batchSize : ℕ
  capUsagePerGpu : ℚ
  sFlops : ℚ
  gFlops : ℚ
  report : Report

namespace Platform

variable (sys : Platform)

/-- `target_bs`. -/
def targetBs (args : SimArgs) : List ℕ :=
  if 0 < args.numReqs ∧ 0 < args.numReqs % args.batchSize then
    [args.batchSize, args.numReqs % args.batchSize]
  else [args.batchSize]

/-- `num_batches`. -/
def numBatches (args : SimArgs) : ℕ :=
  if 0 < args.numReqs then args.numReqs / args.batchSize else 1

/-- The merge at the end of an iteration. Only an iteration that is the first and yet
finds results there multiplies by `num_batches`. -/
def mergeReport (numBatches itr : ℕ) (all : Option Report) (report : Report) : Option Report :=
  if itr = 0 then
    match all with
    | some sum => some (sum + numBatches • report)
    | none => some report
  else all.map fun sum => sum + report

/-- The end of an iteration, for the totals its passes reported. -/
def endBatch (t : Transformer) (args : SimArgs) (results : Results) (step : ℕ × ℕ)
    (totals : Totals) : Results :=
  let (bs, itr) := step
  let mem := sys.getRequiredMemCapacity t bs args.lin args.lout
  { all := mergeReport (numBatches args) itr results.all (.ofTotals totals)
    capUsagePerGpu := mem.weightMemory + mem.kvMemory + mem.tempMemory
    sFlops := totals.sFlops / args.genSteps
    gFlops := totals.gFlops / args.genSteps }

/-- The body of the loop over the batches. -/
def simulateStep (t : Transformer) (args : SimArgs) (s : LoopState) (step : ℕ × ℕ) :
    Except PyError LoopState := do
  let (graph, totals) ← sys.simulateBatch t args.toPassArgs step.1 s.graph
  return ⟨graph, sys.endBatch t args s.results step totals⟩

/-- The accelerator a row names. -/
def configName : ConfigName :=
  match sys.acc.pimType with
  | some type => if sys.heteroName = .PIM then .pim type else .device sys.heteroName
  | none => .device sys.heteroName

/-- What follows the loop: the tag and the configuration, and the throughput that is
printed, which divides by the decode time. -/
def finishRow (t : Transformer) (args : SimArgs) (s : Results) : Except PyError Row := do
  let cap := sys.gpu.aggregateMemoryCapacity +
    if sys.isHetero then sys.acc.aggregateMemoryCapacity else 0
  let bwScale ← fdiv sys.acc.peakMemoryBandwidth sys.gpu.peakMemoryBandwidth
  let opb ← fdiv sys.gpu.peakFlops sys.gpu.peakMemoryBandwidth
  let report ← s.report
  let _ ← fdiv args.batchSize (report.gPerf .all / 1000)
  return {
    modelName := t.name
    dtype := t.dtype
    gpuName := sys.gpu.name
    cap := cap / (1024 * 1024 * 1024)
    bwScale := bwScale
    opb := if t.dtype = .W8A8 then opb * 2 else opb
    configName := sys.configName
    numXpu := sys.gpu.numXpu
    pipe := args.pipe
    parallelFf := args.parallelFf
    powerConstraint := args.powerConstraint
    gqaSize := t.gqaSize
    lin := args.lin
    lout := args.lout
    batchSize := args.batchSize
    capUsagePerGpu := s.capUsagePerGpu
    sFlops := s.sFlops
    gFlops := s.gFlops
    report := report }

/-- `simulate`, from the graph `build` left. -/
def simulateGraph (t : Transformer) (args : SimArgs) (graph : Graph) : Except PyError Row := do
  if args.batchSize = 0 then throw .zeroDivision
  let s ← (targetBs args).zipIdx.foldlM (sys.simulateStep t args)
    ⟨.fresh graph, .initial⟩
  sys.finishRow t args s.results

/-- `simulate`, from the routing it passes to `build`. -/
def simulateRouting (t : Transformer) (args : SimArgs) (routing : Option (List RoutingEntry)) :
    Except PyError Row := do
  let graph ← t.build args.batchSize args.lin args.lout sys.isHetero routing sys.imageSize
  sys.simulateGraph t args graph

end Platform

/-- `assert self.model_set`. -/
def System.requireModel (sys : System) : Except PyError Transformer :=
  match sys.model with
  | some t => .ok t
  | none => .error (.assertion "Need to set_model")

/-- `simulate`. -/
def System.simulate (sys : System) (args : SimArgs) : Except PyError Row := do
  let t ← sys.requireModel
  let routing ← sys.routing t
  sys.simulateRouting t args routing

end AttAcc
