import AttAcc.Hardware
import AttAcc.Library.Runs
import AttAcc.Ramulator
import AttAcc.Work

/-!
# Configuration calls

The constructor of `System` and its methods `set_model`, `set_xpu` and `set_accelerator`,
as calls on a mutable object: each of them reports whether it raised, and leaves the object
in some state either way. The object keeps the GPU twice, in `GPU` and in `devices['GPU']`,
and its model holds the degrees of tensor parallelism that the constructor of `Transformer`
derived from the number of GPUs there were.

`set_xpu` puts in another pool of GPUs and assigns its size to `model.tp`. That attribute is
an alias which nothing reads: the degrees the graph is built with stay what they were. So a
run of calls ends with a model that is sharded for its GPUs exactly when their number is
again what it was when `set_model` was last called.
-/

namespace AttAcc

open Library

/-- A `Transformer` as an object, with the alias `tp` of `fc_tp`. -/
structure TransformerObject where
  transformer : Transformer
  tp : ℕ

/-- A configuration that `set_accelerator` may be given. -/
inductive HeteroConfig where
  | xpu (config : XpuConfig)
  | pim (config : PimConfig)

/-- A `System` that has a model, as an object. -/
structure SystemObject where
  heteroName : DeviceType
  maxL : ℕ
  gpu : Xpu
  deviceGpu : Xpu
  deviceAcc : AccDevice
  model : TransformerObject

/-- A configuration call. With a PIM, `set_accelerator` also finds a log of simulations, or
none. -/
inductive ConfigCall where
  | setModel (modelinfos : ModelInfos)
  | setXpu (config : XpuConfig)
  | setAccelerator (modelinfos : ModelInfos) (name : DeviceType) (config : HeteroConfig)
      (outputLog : Option LogFile)

/-- `xPU(name, config, scaling_factor)`. -/
def XpuConfig.newXpu (name : DeviceType) (config : XpuConfig) : Xpu :=
  { config with name := name }.device

/-- `self.model = Transformer(...)`. -/
def TransformerObject.ofTransformer (t : Transformer) : TransformerObject := ⟨t, t.fcTp⟩

namespace SystemObject

/-- The accelerator of `__init__`. The `PIM` constructor takes an argument that it does not
pass. -/
def newAttDevice (gpu : Xpu) (heteroName : DeviceType) (heteroConfig : Option HeteroConfig) :
    Except PyError AccDevice :=
  match heteroName, heteroConfig with
  | .PIM, _ => .error .typeError
  | .CPU, some (.xpu config) => .ok (.xpu (config.newXpu .CPU))
  | .CPU, some (.pim _) => .error .keyError
  | .CPU, none => .error .typeError
  | _, _ => .ok (.xpu gpu)

/-- `__init__` with a model. -/
def new (gpuConfig : XpuConfig) (modelinfos : ModelInfos) (heteroName : DeviceType)
    (heteroConfig : Option HeteroConfig) (maxL : ℕ) : Except PyError SystemObject := do
  let gpu := gpuConfig.newXpu .GPU
  let attDevice ← newAttDevice gpu heteroName heteroConfig
  let model ← Transformer.new modelinfos gpu.numXpu
  return ⟨heteroName, maxL, gpu, gpu, attDevice, .ofTransformer model⟩

variable (env : Toolchain) (o : SystemObject)

/-- `set_model`. -/
def setModel (modelinfos : ModelInfos) : Except PyError Unit × SystemObject :=
  match Transformer.new modelinfos o.gpu.numXpu with
  | .ok model => (.ok (), { o with model := .ofTransformer model })
  | .error e => (.error e, o)

/-- `set_xpu`. -/
def setXpu (config : XpuConfig) : SystemObject :=
  let gpu := config.newXpu .GPU
  { o with
    heteroName := .NONE, gpu := gpu, deviceGpu := gpu, deviceAcc := .xpu gpu
    model := { o.model with tp := gpu.numXpu } }

/-- `set_accelerator`. It assigns the name before anything that may raise. The device of a
PIM answers what a first query of its `Ramulator` returns. -/
def setAccelerator (modelinfos : ModelInfos) (name : DeviceType) (config : HeteroConfig)
    (outputLog : Option LogFile) : Except PyError Unit × SystemObject :=
  let o := { o with heteroName := name }
  match name, config with
  | .PIM, .pim config =>
    match Ramulator.new env modelinfos false config.numHbm o.maxL outputLog with
    | .ok ramulator =>
      let pim := config.device fun pimType layer powerConstraint =>
        (ramulator.output env ⟨pimType, layer, powerConstraint⟩).map Prod.fst
      (.ok (), { o with deviceAcc := .pim pim })
    | .error e => (.error e, o)
  | .PIM, .xpu _ => (.error .keyError, o)
  | .CPU, .xpu config => (.ok (), { o with deviceAcc := .xpu (config.newXpu .CPU) })
  | .CPU, .pim _ => (.error .keyError, o)
  | _, _ => (.ok (), o)

/-- A call: whether it raised, and the object it leaves. -/
def call : ConfigCall → Except PyError Unit × SystemObject
  | .setModel modelinfos => o.setModel modelinfos
  | .setXpu config => (.ok (), o.setXpu config)
  | .setAccelerator modelinfos name config outputLog =>
    o.setAccelerator env modelinfos name config outputLog

/-- The object a call leaves. -/
def step (c : ConfigCall) : SystemObject := (o.call env c).2

/-- **Sharding is in step with the GPU count**: the current GPU is also the one in
`devices`, and the degrees of the model are those a `Transformer` of the same description
has for the number of its devices. -/
structure InStep : Prop where
  deviceGpu : o.deviceGpu = o.gpu
  fresh : ∃ modelinfos tp t, Transformer.new modelinfos tp = .ok o.model.transformer ∧
    Transformer.new modelinfos o.gpu.numXpu = .ok t ∧ o.model.transformer.fcTp = t.fcTp ∧
      o.model.transformer.ffTp = t.ffTp ∧ o.model.transformer.attnTp = t.attnTp

/-- What every call keeps. -/
structure Consistent : Prop where
  deviceGpu : o.deviceGpu = o.gpu
  built : ∃ modelinfos tp, Transformer.new modelinfos tp = .ok o.model.transformer

end SystemObject

/-- The constructor of `Transformer` accepts the description: it divides by both head
counts. -/
def ModelInfos.hasHeads (mi : ModelInfos) : Bool :=
  match mi.numQHeads.or mi.numHeads with
  | none => false
  | some numQHeads => decide (0 < numQHeads ∧ 0 < mi.numKvHeads.getD numQHeads)

/-- A `set_model` that returns. -/
def ConfigCall.rebuilds : ConfigCall → Bool
  | .setModel modelinfos => modelinfos.hasHeads
  | _ => false

/-- The number of GPUs after a call, when there were `n`. -/
def ConfigCall.gpuCount (n : ℕ) : ConfigCall → ℕ
  | .setXpu config => config.numXpu
  | _ => n

/-- Whether the constructor accepts a description does not depend on the degree, which it
takes over. -/
theorem Transformer.new_of_hasHeads {mi : ModelInfos} (tp : ℕ) (h : mi.hasHeads = true) :
    ∃ t, Transformer.new mi tp = .ok t ∧ t.fcTp = tp := by
  unfold ModelInfos.hasHeads at h
  unfold Transformer.new
  generalize mi.numQHeads.or mi.numHeads = heads at h ⊢
  cases heads with
  | none => cases h
  | some numQHeads =>
    obtain ⟨hq, hkv⟩ := of_decide_eq_true h
    exact ⟨_, (dif_pos hq).trans (dif_pos hkv), rfl⟩

theorem Transformer.new_of_not_hasHeads {mi : ModelInfos} (tp : ℕ) (h : mi.hasHeads = false) :
    ∃ e, Transformer.new mi tp = .error e := by
  unfold ModelInfos.hasHeads at h
  unfold Transformer.new
  generalize mi.numQHeads.or mi.numHeads = heads at h ⊢
  cases heads with
  | none => exact ⟨_, rfl⟩
  | some numQHeads =>
    have hheads := of_decide_eq_false h
    by_cases hq : 0 < numQHeads
    · have hkv : ¬ 0 < mi.numKvHeads.getD numQHeads := fun hkv => hheads ⟨hq, hkv⟩
      exact ⟨_, (dif_pos hq).trans (dif_neg hkv)⟩
    · exact ⟨_, dif_neg hq⟩

namespace SystemObject

variable {env : Toolchain} {o : SystemObject}

/-! ### What a call leaves alone -/

/-- Only the name and the accelerator depend on `set_accelerator`. -/
theorem setAccelerator_frame (env : Toolchain) (o : SystemObject) (modelinfos : ModelInfos)
    (name : DeviceType) (config : HeteroConfig) (outputLog : Option LogFile) :
    let o' := (o.setAccelerator env modelinfos name config outputLog).2
    o'.gpu = o.gpu ∧ o'.deviceGpu = o.deviceGpu ∧ o'.model = o.model := by
  unfold setAccelerator
  cases name <;> cases config <;> try exact ⟨rfl, rfl, rfl⟩
  -- a PIM: its simulator may raise
  dsimp only
  split <;> exact ⟨rfl, rfl, rfl⟩

/-- `set_model` puts in the model it constructs, or raises and changes nothing. -/
theorem setModel_cases (modelinfos : ModelInfos) :
    (modelinfos.hasHeads = true ∧
      ∃ t, Transformer.new modelinfos o.gpu.numXpu = .ok t ∧ t.fcTp = o.gpu.numXpu ∧
        o.setModel modelinfos = (.ok (), { o with model := .ofTransformer t })) ∨
    (modelinfos.hasHeads = false ∧
      ∃ e, o.setModel modelinfos = (.error e, o)) := by
  unfold setModel
  cases h : modelinfos.hasHeads with
  | true =>
    obtain ⟨t, ht, hfcTp⟩ := Transformer.new_of_hasHeads o.gpu.numXpu h
    rw [ht]
    exact .inl ⟨rfl, t, rfl, hfcTp, rfl⟩
  | false =>
    obtain ⟨e, he⟩ := Transformer.new_of_not_hasHeads o.gpu.numXpu h
    rw [he]
    exact .inr ⟨rfl, e, rfl⟩

theorem gpu_setModel (modelinfos : ModelInfos) : (o.setModel modelinfos).2.gpu = o.gpu := by
  rcases o.setModel_cases modelinfos with ⟨-, t, -, -, h⟩ | ⟨-, e, h⟩
  · rw [h]
  · rw [h]

/-- The number of GPUs is that of the last `set_xpu`. -/
theorem numXpu_step (c : ConfigCall) : (o.step env c).gpu.numXpu = c.gpuCount o.gpu.numXpu := by
  cases c with
  | setModel modelinfos => exact congrArg Xpu.numXpu (gpu_setModel modelinfos)
  | setXpu config => rfl
  | setAccelerator modelinfos name config outputLog =>
    exact congrArg Xpu.numXpu (setAccelerator_frame env o modelinfos name config outputLog).1

theorem numXpu_foldl (env : Toolchain) (o : SystemObject) (calls : List ConfigCall) :
    (calls.foldl (step env) o).gpu.numXpu =
      calls.foldl ConfigCall.gpuCount o.gpu.numXpu := by
  induction calls generalizing o with
  | nil => rfl
  | cons c calls ih => rw [List.foldl_cons, List.foldl_cons, ih, numXpu_step]

/-- A `set_model` that returns shards the model for the GPUs there are. -/
theorem fcTp_step_of_rebuilds {c : ConfigCall} (h : c.rebuilds = true) :
    (o.step env c).model.transformer.fcTp = (o.step env c).gpu.numXpu := by
  cases c with
  | setModel modelinfos =>
    rcases o.setModel_cases modelinfos with ⟨-, t, -, hfcTp, hstep⟩ | ⟨hfalse, -⟩
    · have hstep : o.step env (.setModel modelinfos) = { o with model := .ofTransformer t } :=
        congrArg Prod.snd hstep
      rw [hstep]
      exact hfcTp
    · exact absurd (h.symm.trans hfalse) (by decide)
  | setXpu config => cases h
  | setAccelerator modelinfos name config outputLog => cases h

/-- No other call changes the degree, `set_xpu` included. -/
theorem fcTp_step_of_not_rebuilds {c : ConfigCall} (h : c.rebuilds = false) :
    (o.step env c).model.transformer.fcTp = o.model.transformer.fcTp := by
  cases c with
  | setModel modelinfos =>
    rcases o.setModel_cases modelinfos with ⟨htrue, -⟩ | ⟨-, e, hstep⟩
    · exact absurd (h.symm.trans htrue) (by decide)
    · have hstep : o.step env (.setModel modelinfos) = o := congrArg Prod.snd hstep
      rw [hstep]
  | setXpu config => rfl
  | setAccelerator modelinfos name config outputLog =>
    have hmodel := (setAccelerator_frame env o modelinfos name config outputLog).2.2
    exact congrArg (fun model => model.transformer.fcTp) hmodel

/-! ### What every call keeps -/

theorem Consistent.step (ho : o.Consistent) (c : ConfigCall) : (o.step env c).Consistent := by
  cases c with
  | setModel modelinfos =>
    rcases o.setModel_cases modelinfos with ⟨-, t, ht, -, hstep⟩ | ⟨-, e, hstep⟩
    · have hstep : o.step env (.setModel modelinfos) = { o with model := .ofTransformer t } :=
        congrArg Prod.snd hstep
      rw [hstep]
      exact ⟨ho.deviceGpu, modelinfos, o.gpu.numXpu, ht⟩
    · have hstep : o.step env (.setModel modelinfos) = o := congrArg Prod.snd hstep
      rw [hstep]
      exact ho
  | setXpu config => exact ⟨rfl, ho.built⟩
  | setAccelerator modelinfos name config outputLog =>
    obtain ⟨hgpu, hdevice, hmodel⟩ :=
      setAccelerator_frame env o modelinfos name config outputLog
    refine ⟨?_, ?_⟩
    · exact hdevice.trans (ho.deviceGpu.trans hgpu.symm)
    · obtain ⟨mi, tp, hbuilt⟩ := ho.built
      refine ⟨mi, tp, hbuilt.trans ?_⟩
      exact congrArg (fun model => Except.ok model.transformer) hmodel.symm

/-- Every call keeps the alias in step, which nothing reads. -/
theorem tp_step (ho : o.model.tp = o.gpu.numXpu) (c : ConfigCall) :
    (o.step env c).model.tp = (o.step env c).gpu.numXpu := by
  cases c with
  | setModel modelinfos =>
    rcases o.setModel_cases modelinfos with ⟨-, t, -, hfcTp, hstep⟩ | ⟨-, e, hstep⟩
    · have hstep : o.step env (.setModel modelinfos) = { o with model := .ofTransformer t } :=
        congrArg Prod.snd hstep
      rw [hstep]
      exact hfcTp
    · have hstep : o.step env (.setModel modelinfos) = o := congrArg Prod.snd hstep
      rw [hstep]
      exact ho
  | setXpu config => rfl
  | setAccelerator modelinfos name config outputLog =>
    obtain ⟨hgpu, -, hmodel⟩ :=
      setAccelerator_frame env o modelinfos name config outputLog
    have htp := congrArg TransformerObject.tp hmodel
    exact htp.trans (ho.trans (congrArg Xpu.numXpu hgpu.symm))

/-- The model is sharded for the GPUs exactly when `fc_tp` is their number: the other degrees
follow from it and from the description. -/
theorem Consistent.inStep_iff (ho : o.Consistent) :
    o.InStep ↔ o.model.transformer.fcTp = o.gpu.numXpu := by
  refine ⟨?_, ?_⟩
  · rintro ⟨-, mi, tp, t, hbuilt, ht, hfcTp, -, -⟩
    exact hfcTp.trans (Transformer.new_withTensorParallel ht).1
  · intro hfcTp
    obtain ⟨mi, tp, hbuilt⟩ := ho.built
    obtain ⟨hfresh, hnew⟩ := Transformer.new_withTensorParallel hbuilt
    have htp : o.gpu.numXpu = tp := hfcTp.symm.trans hfresh
    refine ⟨ho.deviceGpu, mi, tp, o.model.transformer, hbuilt, ?_, rfl, rfl, rfl⟩
    rw [htp]
    exact hbuilt

theorem InStep.consistent (ho : o.InStep) : o.Consistent := by
  obtain ⟨hdevice, mi, tp, t, hbuilt, -⟩ := ho
  exact ⟨hdevice, mi, tp, hbuilt⟩

/-- The constructor starts in step. -/
theorem inStep_of_new {gpuConfig : XpuConfig} {modelinfos : ModelInfos} {heteroName : DeviceType}
    {heteroConfig : Option HeteroConfig} {maxL : ℕ}
    (h : new gpuConfig modelinfos heteroName heteroConfig maxL = .ok o) : o.InStep := by
  obtain ⟨attDevice, -, h⟩ := bind_ok_iff.mp h
  obtain ⟨model, hmodel, h⟩ := bind_ok_iff.mp h
  obtain rfl := Except.ok.inj h
  exact ⟨rfl, modelinfos, _, model, hmodel, hmodel, rfl, rfl, rfl⟩

/-! ### Runs of calls -/

/-- The call leaves the number of GPUs as it is. -/
def KeepsCount (o : SystemObject) (c : ConfigCall) : Prop := c.gpuCount o.gpu.numXpu = o.gpu.numXpu

/-- **A run stays in step throughout** exactly when no `set_xpu` in it changes the number of
GPUs. -/
theorem throughout_inStep_iff (ho : o.InStep) (calls : List ConfigCall) :
    Throughout (step env) InStep o calls ↔ Along (step env) KeepsCount o calls := by
  refine throughout_iff_along ?_ ho
  intro o c ho
  have hfcTp := ho.consistent.inStep_iff.mp ho
  rw [(ho.consistent.step c).inStep_iff, numXpu_step, KeepsCount]
  cases hc : c.rebuilds with
  | true =>
    rw [fcTp_step_of_rebuilds hc, numXpu_step]
    cases c with
    | setModel modelinfos => exact iff_of_true rfl rfl
    | setXpu config => cases hc
    | setAccelerator modelinfos name config outputLog => cases hc
  | false => rw [fcTp_step_of_not_rebuilds hc, hfcTp, eq_comm]

/-- What `fc_tp` is after a run: the number of GPUs when `set_model` last returned. -/
theorem fcTp_foldl (ho : o.model.transformer.fcTp = o.gpu.numXpu) (calls : List ConfigCall) :
    (calls.foldl (step env) o).model.transformer.fcTp =
      (calls.rdropWhile fun c => !c.rebuilds).foldl ConfigCall.gpuCount o.gpu.numXpu := by
  rw [← numXpu_foldl env]
  let source : SystemObject → ℕ := fun o => o.gpu.numXpu
  let copy : SystemObject → ℕ := fun o => o.model.transformer.fcTp
  have hrun : copy (calls.foldl (step env) o) =
      source ((calls.rdropWhile fun c => !c.rebuilds).foldl (step env) o) := by
    refine copy_foldl ConfigCall.rebuilds ?_ ?_ ho
    · intro o c hc
      exact fcTp_step_of_rebuilds hc
    · intro o c hc
      exact fcTp_step_of_not_rebuilds hc
  exact hrun

theorem Consistent.foldl (ho : o.Consistent) (calls : List ConfigCall) :
    (calls.foldl (SystemObject.step env) o).Consistent :=
  foldl_of_step (fun _ c ho => ho.step c) ho

/-- **A run of configuration calls ends in step** exactly when it ends with as many GPUs as
there were when `set_model` last returned, or at its start. -/
theorem inStep_foldl_iff (ho : o.InStep) (calls : List ConfigCall) :
    (calls.foldl (step env) o).InStep ↔
      calls.foldl ConfigCall.gpuCount o.gpu.numXpu =
        (calls.rdropWhile fun c => !c.rebuilds).foldl ConfigCall.gpuCount o.gpu.numXpu := by
  have hfcTp := ho.consistent.inStep_iff.mp ho
  rw [(ho.consistent.foldl calls).inStep_iff, numXpu_foldl, fcTp_foldl hfcTp, eq_comm]

/-! ### The systems of `main` -/

section Main

variable (gpuType : GPUType) (modelinfos : ModelInfos)

/-- What `main` calls for `dgx-cpu`. It makes the configuration of the GPUs again, this time
without their number. -/
def dgxCpuCalls : List ConfigCall :=
  [.setXpu (makeGpuConfig gpuType 8),
   .setAccelerator modelinfos .CPU (.xpu (makeCpuConfig gpuType)) none]

/-- What `main` calls for `dgx-attacc`. -/
def dgxAttaccCalls (config : PimConfig) (outputLog : Option LogFile) : List ConfigCall :=
  [.setAccelerator modelinfos .PIM (.pim config) outputLog]

variable {gpuType modelinfos}

/-- `dgx-attacc` is in step whatever the number of GPUs. -/
theorem inStep_dgxAttacc (ho : o.InStep) (config : PimConfig) (outputLog : Option LogFile) :
    ((dgxAttaccCalls modelinfos config outputLog).foldl (step env) o).InStep := by
  have hkeeps : Along (step env) KeepsCount o (dgxAttaccCalls modelinfos config outputLog) :=
    And.intro rfl trivial
  exact ((throughout_inStep_iff ho _).mpr hkeeps).last

/-- `dgx-cpu` is in step on eight GPUs only. -/
theorem inStep_dgxCpu_iff (ho : o.InStep) :
    ((dgxCpuCalls gpuType modelinfos).foldl (step env) o).InStep ↔ o.gpu.numXpu = 8 := by
  have hfcTp := ho.consistent.inStep_iff.mp ho
  rw [(ho.consistent.foldl _).inStep_iff, fcTp_foldl hfcTp, numXpu_foldl]
  cases gpuType <;> rfl

end Main

/-- Four GPUs, and a run that ends on four. -/
theorem inStep_foldl_iff_four : ∃ o, new (makeGpuConfig .A100a 4)
    (makeModelConfig .llama7B .W16A16) .NONE none 2048 = .ok o ∧ o.InStep ∧
      (([.setXpu (makeGpuConfig .H100 2), .setModel (makeModelConfig .qwen3_4B .W16A16),
        .setXpu (makeGpuConfig .A100a 2)] : List ConfigCall).foldl
          (step Session.oneMac) o).InStep := by
  obtain ⟨o, ho⟩ : ∃ o, new (makeGpuConfig .A100a 4) (makeModelConfig .llama7B .W16A16) .NONE none
      2048 = .ok o := ⟨_, rfl⟩
  refine ⟨o, ho, inStep_of_new ho, ?_⟩
  exact (inStep_foldl_iff (inStep_of_new ho) _).mpr rfl

/-- `main` with `--system dgx-cpu --ngpu 4`: the model is sharded four ways, and run on eight
GPUs. -/
theorem not_inStep_foldl : ∃ o, new (makeGpuConfig .A100a 4)
    (makeModelConfig .llama7B .W16A16) .NONE none 2048 = .ok o ∧ o.InStep ∧
      ¬((dgxCpuCalls .A100a (makeModelConfig .llama7B .W16A16)).foldl (step Session.oneMac)
        o).InStep := by
  obtain ⟨o, ho, hgpu⟩ : ∃ o, new (makeGpuConfig .A100a 4) (makeModelConfig .llama7B .W16A16) .NONE
      none 2048 = .ok o ∧ o.gpu.numXpu = 4 := ⟨_, rfl, rfl⟩
  have hstep := inStep_of_new ho
  refine ⟨o, ho, hstep, ?_⟩
  rw [inStep_dgxCpu_iff hstep, hgpu]
  decide

/-! ### The system the simulator sees -/

variable {modelinfos : ModelInfos} {sys : System}

/-- The system that `simulate` reads has the attributes of the object. -/
structure Represents (o : SystemObject) (sys : System) : Prop where
  heteroName : sys.heteroName = o.heteroName
  gpu : sys.gpu = o.gpu
  deviceGpu : sys.gpu = o.deviceGpu
  deviceAcc : sys.acc = o.deviceAcc
  model : sys.model = some o.model.transformer

theorem exists_represents_of_new {gpuConfig : XpuConfig} {maxL : ℕ}
    (h : new gpuConfig modelinfos .NONE none maxL = .ok o) :
    ∃ sys, System.new (gpuConfig.newXpu .GPU) (some modelinfos) = .ok sys ∧
      o.Represents sys := by
  obtain ⟨attDevice, hatt, h⟩ := bind_ok_iff.mp h
  obtain ⟨model, hmodel, h⟩ := bind_ok_iff.mp h
  obtain rfl := Except.ok.inj h
  obtain rfl := Except.ok.inj hatt
  refine ⟨_, bind_ok_iff.mpr ⟨some model, ?_, rfl⟩, rfl, rfl, rfl, rfl, rfl⟩
  exact bind_ok_iff.mpr ⟨model, hmodel, rfl⟩

/-- A call that returns is the call of the system it represents. -/
theorem Represents.setModel (h : o.Represents sys) {o' : SystemObject}
    (hcall : o.setModel modelinfos = (.ok (), o')) :
    ∃ sys', sys.setModel modelinfos = .ok sys' ∧ o'.Represents sys' := by
  rcases o.setModel_cases modelinfos with ⟨-, t, ht, -, hset⟩ | ⟨-, e, hset⟩
  · obtain ⟨-, rfl⟩ := Prod.mk.inj (hset.symm.trans hcall)
    refine ⟨_, bind_ok_iff.mpr ⟨t, ?_, rfl⟩, h.heteroName, h.gpu, h.deviceGpu, h.deviceAcc, rfl⟩
    rw [h.gpu]
    exact ht
  · cases (Prod.mk.inj (hset.symm.trans hcall)).1

theorem Represents.setXpu (h : o.Represents sys) (config : XpuConfig) :
    (o.setXpu config).Represents (sys.setXpu (config.newXpu .GPU)) :=
  ⟨rfl, rfl, rfl, rfl, h.model⟩

theorem Represents.setAcceleratorCpu (h : o.Represents sys) (config : XpuConfig)
    (outputLog : Option LogFile) :
    (o.setAccelerator env modelinfos .CPU (.xpu config) outputLog).2.Represents
      (sys.setAcceleratorCpu (config.newXpu .CPU)) :=
  ⟨rfl, h.gpu, h.deviceGpu, rfl, h.model⟩

theorem Represents.setAcceleratorPim (h : o.Represents sys) {config : PimConfig}
    {outputLog : Option LogFile} {o' : SystemObject}
    (hcall : o.setAccelerator env modelinfos .PIM (.pim config) outputLog = (.ok (), o')) :
    ∃ pim, o'.Represents (sys.setAcceleratorPim pim) := by
  unfold setAccelerator at hcall
  dsimp only at hcall
  split at hcall
  · obtain ⟨-, rfl⟩ := Prod.mk.inj hcall
    exact ⟨_, rfl, h.gpu, h.deviceGpu, rfl, h.model⟩
  · cases (Prod.mk.inj hcall).1

end SystemObject

end AttAcc
