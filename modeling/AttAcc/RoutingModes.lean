import AttAcc.Compression
import AttAcc.Config
import AttAcc.Hardware

/-!
# What the routing modes mean

Two statements about the modes of `Routing`. Without DeepStack they are what they claim:
`optimistic` is a compressed `list`, and `conservative` is the list of all layers and the
default (`simulate_compressed`). With DeepStack the constructor rewrites the mode to
`list` and, since no list was given, falls back on a fixed list of 22 layers, so
`conservative` no longer means every layer (`conservative_routing_iff`).
-/

namespace AttAcc

open Library

namespace System

variable {sys : System} {t : Transformer} {args : SimArgs}

/-- A run of `simulate` is a run with the routing it computes. -/
theorem simulate_eq (hmodel : sys.model = some t) {groups : Option (List RoutingEntry)}
    (hrouting : sys.routing t = .ok groups) :
    sys.simulate args = sys.simulateRouting t args groups := by
  have ht : sys.requireModel = .ok t := by rw [requireModel, hmodel]
  rw [simulate, ht]
  show (sys.routing t >>= fun groups => sys.simulateRouting t args groups) = _
  rw [hrouting]
  rfl

/-- A run with a routing mode is a run with the groups of that mode. -/
theorem simulate_setRouting (hmodel : sys.model = some t) {mode : RoutingMode}
    {layerList : Option (List ℤ)} {groups : List RoutingEntry}
    (hgroups : (Routing.new t.hasDeepstack mode layerList sys.acceleratorRoutingName).toGroups
      t.ndec = .ok groups) :
    (sys.setRouting mode layerList).simulate args = sys.simulateRouting t args (some groups) := by
  have hmodel' : (sys.setRouting mode layerList).model = some t := hmodel
  have hrouting : (sys.setRouting mode layerList).routing t = .ok (some groups) :=
    bind_ok_iff.mpr ⟨groups, hgroups, rfl⟩
  exact simulate_eq hmodel' hrouting

/-- All layers are in the list of all layers. -/
theorem mem_orAllLayers_none {ndec idx : ℕ} (h : idx < ndec) :
    (idx : ℤ) ∈ orAllLayers none ndec :=
  List.mem_map.mpr ⟨idx, List.mem_range.mpr h, rfl⟩

/-- `layer_list or DEFAULT_LAYER_LIST` keeps the list of all layers, if there is one. -/
theorem mem_orDefault_orAllLayers {ndec idx : ℕ} (h : idx < ndec) :
    (idx : ℤ) ∈ Routing.orDefault (some (orAllLayers none ndec)) := by
  have hmem := mem_orAllLayers_none h
  rcases hlist : orAllLayers none ndec with _ | ⟨i, is⟩
  · rw [hlist] at hmem
    exact absurd hmem List.not_mem_nil
  · rw [hlist] at hmem
    exact hmem

/-- Runs with routings that assign the same devices, in another order, agree. -/
theorem simulateRouting_eq_of_assigns (hdeep : t.NoDeepStack)
    {groups groups' : List RoutingEntry} {devices devices' : List RoutingDevice}
    (h : Routing.Assigns groups devices) (h' : Routing.Assigns groups' devices')
    (hperm : devices.Perm devices') :
    (sys.simulateRouting t args (some groups)).toOption =
      (sys.simulateRouting t args (some groups')).toOption := by
  refine Platform.simulateRouting_congr hdeep h.names_nodup h'.names_nodup ?_
  obtain rfl := h.assignment_eq
  obtain rfl := h'.assignment_eq
  exact hperm

/-- The routing that no mode set leads to assigns every layer to the accelerator. -/
theorem simulate_default (hmodel : sys.model = some t) (hmode : sys.routingMode = none)
    (hdeep : t.NoDeepStack) :
    (sys.simulate args).toOption = (sys.simulateRouting t args
      (some [⟨.all, sys.acceleratorRoutingName, t.ndec, none⟩])).toOption := by
  by_cases hhetero : sys.isHetero = true
  · have hrouting : sys.routing t =
        .ok (some [⟨.all, sys.acceleratorRoutingName, t.ndec, none⟩]) := by
      simp only [routing, hmode, hhetero, hdeep.hasDeepstack]
      rfl
    rw [simulate_eq hmodel hrouting]
  · have hname : sys.acceleratorRoutingName = .gpu := by
      rcases h : sys.heteroName <;>
        simp_all [Platform.isHetero, Platform.acceleratorRoutingName]
    have hrouting : sys.routing t = .ok none := by
      simp only [routing, hmode, hhetero]
      rfl
    have hentries : sys.entriesOf t none =
        [⟨.all, sys.acceleratorRoutingName, t.ndec, none⟩] := by
      have hfalse : sys.isHetero = false := Bool.eq_false_iff.mpr hhetero
      rw [hname, Platform.entriesOf, Option.getD_none, Transformer.defaultRouting,
        hdeep.hasDeepstack, hfalse]
      rfl
    rw [simulate_eq hmodel hrouting]
    refine Platform.simulateRouting_congr hdeep ?_ ?_ ?_
    · rw [hentries]
      exact (Routing.assigns_all _ _).names_nodup
    · exact (Routing.assigns_all _ _).names_nodup
    · rw [hentries]
      rfl

/-- **Group compression does not change results.** Without DeepStack, that is with neither
`has_deepstack` nor a list of `deepstack_layers`, and whatever the devices, `optimistic` gives the
row of `list` with the same layer list; and `conservative` gives the row of `list` with all layers,
and that of the default routing. Where one of them raises, so does the other. -/
theorem simulate_compressed (hmodel : sys.model = some t) (hdeep : t.NoDeepStack)
    (args : SimArgs) (layerList layerList' : Option (List ℤ)) :
    ((sys.setRouting .optimistic layerList).simulate args).toOption =
        ((sys.setRouting .list layerList).simulate args).toOption ∧
      ((sys.setRouting .conservative layerList').simulate args).toOption =
        ((sys.setRouting .list (some (orAllLayers none t.ndec))).simulate args).toOption ∧
      ((sys.setRouting .conservative layerList').simulate args).toOption =
        ({ sys with routingMode := none }.simulate args).toOption := by
  have hmode : ∀ mode layerList,
      (Routing.new t.hasDeepstack mode layerList sys.acceleratorRoutingName).mode = mode := by
    intro mode layerList
    rw [Routing.new, hdeep.hasDeepstack]
    rfl
  obtain ⟨all, hall, hassigns⟩ := Routing.toGroups_conservative (hmode .conservative layerList')
    t.ndec
  rw [simulate_setRouting hmodel hall]
  refine ⟨?_, ?_, ?_⟩
  · obtain ⟨acc, hacc, hassigns⟩ := Routing.toGroups_optimistic (hmode .optimistic layerList) t.ndec
    obtain ⟨each, heach, hassigns'⟩ := Routing.toGroups_list (hmode .list layerList) t.ndec
    rw [simulate_setRouting hmodel hacc, simulate_setRouting hmodel heach]
    exact simulateRouting_eq_of_assigns hdeep hassigns hassigns'
      (Routing.map_layerDevice_perm _ t.ndec).symm
  · obtain ⟨each, heach, hassigns'⟩ := Routing.toGroups_list
      (hmode .list (some (orAllLayers none t.ndec))) t.ndec
    rw [simulate_setRouting hmodel heach]
    rw [Routing.map_layerDevice_of_forall_mem fun idx hidx => mem_orDefault_orAllLayers hidx]
      at hassigns'
    exact simulateRouting_eq_of_assigns hdeep hassigns hassigns' (.refl _)
  · have hdefault : ({ sys with routingMode := none }.simulate args).toOption = _ :=
      simulate_default hmodel rfl hdeep
    rw [hdefault]
    exact simulateRouting_eq_of_assigns hdeep hassigns (Routing.assigns_all _ _) (.refl _)

/-- Of the models of the table, only one is a DeepStack model. -/
theorem noDeepStack_makeModelConfig {name : ModelName} {dtype : DataType} {tp : ℕ}
    (ht : Transformer.new (makeModelConfig name dtype) tp = .ok t)
    (hname : name ≠ .qwen3VL4B) : t.NoDeepStack := by
  cases name
  case qwen3VL4B => exact absurd rfl hname
  all_goals
    obtain rfl := Except.ok.inj ht
    exact ⟨rfl, rfl⟩

/-- A DGX H100 with AttAcc devices in BA mode, for a given model and a given source of
DRAM simulations. -/
def dgxAttacc (t : Transformer)
    (output : PIMType → Layer → Bool → Except PyError (ℚ × PimTraffic)) : System where
  heteroName := .PIM
  gpu := (makeGpuConfig .H100 8).device
  acc := .pim ((makePimConfig .BA .NVLINK4 8 5 false).device output)
  model := some t
  acc_pim _ := rfl

/-- Sixteen tokens in, four out, for two requests. -/
def shortArgs : SimArgs := { batchSize := 2, lin := 16, lout := 4 }

/-- The compression of the layers of `Qwen3-4B` with a list that has a duplicate and an
index out of range, on a DGX with AttAcc. -/
theorem simulate_compressed_qwen3 : ∃ t,
    Transformer.new (makeModelConfig .qwen3_4B .W16A16) 8 = .ok t ∧
      ((((dgxAttacc t fun _ _ _ => .ok (1, ⟨1, 1, 1, 1, 1⟩)).setRouting .optimistic
          (some [0, 3, 3, 99])).simulate shortArgs).toOption =
        (((dgxAttacc t fun _ _ _ => .ok (1, ⟨1, 1, 1, 1, 1⟩)).setRouting .list
          (some [0, 3, 3, 99])).simulate shortArgs).toOption) := by
  obtain ⟨t, ht, -⟩ := new_makeModelConfig .qwen3_4B .W16A16 8
  have hdeep := noDeepStack_makeModelConfig ht (by decide)
  have hmodel : (dgxAttacc t fun _ _ _ => .ok (1, ⟨1, 1, 1, 1, 1⟩)).model = some t := rfl
  exact ⟨t, ht, (simulate_compressed hmodel hdeep shortArgs (some [0, 3, 3, 99]) none).1⟩

/-! ### Conservative routing and DeepStack -/

/-- The device of every decoder layer in the graph that `simulate` builds, in the order
of the groups. -/
def layerDevices (sys : System) (t : Transformer) : Except PyError (List RoutingDevice) := do
  let groups ← sys.routing t
  return assignment (sys.entriesOf t groups)

theorem layerDevices_eq_ok {devices : List RoutingDevice} :
    sys.layerDevices t = .ok devices ↔
      ∃ groups, sys.routing t = .ok groups ∧ assignment (sys.entriesOf t groups) = devices := by
  refine bind_ok_iff.trans (exists_congr fun groups => and_congr_right fun _ => ?_)
  exact ⟨Except.ok.inj, congrArg Except.ok⟩

/-- An accelerator the simulator treats as one has a routing name of its own. -/
theorem acceleratorRoutingName_eq_gpu_iff :
    sys.acceleratorRoutingName = .gpu ↔ sys.isHetero = false := by
  unfold Platform.acceleratorRoutingName Platform.isHetero
  cases sys.heteroName <;> decide

/-- With no mode and no layer list set, every layer is on the accelerator, DeepStack or
not. -/
theorem layerDevices_default (hmode : sys.routingMode = none)
    (hlist : sys.routingLayerList = none) (t : Transformer) :
    sys.layerDevices t = .ok (List.replicate t.ndec sys.acceleratorRoutingName) := by
  rw [layerDevices_eq_ok]
  cases hhetero : sys.isHetero with
  | true =>
    cases hdeep : t.hasDeepstack with
    | true =>
      let r := Routing.new true .list (some (orAllLayers none t.ndec)) sys.acceleratorRoutingName
      have hr : r.mode = .list := rfl
      obtain ⟨groups, hgroups, hassigns⟩ := Routing.toGroups_list hr t.ndec
      refine ⟨some groups, ?_, ?_⟩
      · rw [routing, hmode, hlist, hhetero, hdeep]
        exact bind_ok_iff.mpr ⟨groups, hgroups, rfl⟩
      · rw [Routing.map_layerDevice_of_forall_mem fun idx hidx => mem_orDefault_orAllLayers hidx]
          at hassigns
        exact hassigns.assignment_eq
    | false =>
      refine ⟨some [⟨.all, sys.acceleratorRoutingName, t.ndec, none⟩], ?_,
        (Routing.assigns_all _ _).assignment_eq⟩
      rw [routing, hmode, hhetero, hdeep]
      rfl
  | false =>
    have hname := acceleratorRoutingName_eq_gpu_iff.mpr hhetero
    refine ⟨none, ?_, ?_⟩
    · rw [routing, hmode, hhetero]
      rfl
    · rw [hname, Platform.entriesOf, hhetero]
      exact t.assignment_defaultRouting false

/-- With mode `conservative` and no layer list, the layers of a DeepStack model follow
the default layer list. -/
theorem layerDevices_conservative (sys : System) (t : Transformer) :
    (sys.setRouting .conservative none).layerDevices t =
      .ok (if t.hasDeepstack then
          (List.range t.ndec).map ((Routing.new true .conservative none
            sys.acceleratorRoutingName).layerDevice t.ndec)
        else List.replicate t.ndec sys.acceleratorRoutingName) := by
  rw [layerDevices_eq_ok]
  let r := Routing.new t.hasDeepstack .conservative none sys.acceleratorRoutingName
  cases hdeep : t.hasDeepstack with
  | true =>
    have hr : r.mode = .list := by simp only [r, Routing.new, hdeep, if_true]
    obtain ⟨groups, hgroups, hassigns⟩ := Routing.toGroups_list hr t.ndec
    refine ⟨some groups, bind_ok_iff.mpr ⟨groups, hgroups, rfl⟩, ?_⟩
    simp only [r, hdeep] at hassigns
    exact hassigns.assignment_eq
  | false =>
    have hr : r.mode = .conservative := by
      simp only [r, Routing.new, hdeep, Bool.false_eq_true, if_false]
    obtain ⟨groups, hgroups, hassigns⟩ := Routing.toGroups_conservative hr t.ndec
    exact ⟨some groups, bind_ok_iff.mpr ⟨groups, hgroups, rfl⟩, hassigns.assignment_eq⟩

/-- The default layer list names the first layer, and not the second. -/
theorem map_layerDevice_default_iff {device : RoutingDevice} {ndec : ℕ} :
    (List.range ndec).map ((Routing.new true .conservative none device).layerDevice ndec) =
        List.replicate ndec device ↔ ndec ≤ 1 ∨ device = .gpu := by
  refine ⟨?_, ?_⟩
  · intro h
    rcases Nat.lt_or_ge 1 ndec with hndec | hndec
    · have hmem : (Routing.new true .conservative none device).layerDevice ndec 1 ∈
          List.replicate ndec device := by
        rw [← h]
        exact List.mem_map.mpr ⟨1, List.mem_range.mpr hndec, rfl⟩
      have hnot : ((1 : ℕ) : ℤ) ∉ (Routing.new true .conservative none device).layerSet ndec := by
        intro hset
        have hlist : ((1 : ℕ) : ℤ) ∈ defaultLayerList := (Routing.mem_layerSet.mp hset).1
        exact absurd hlist (by decide)
      rw [Routing.layerDevice, if_neg hnot] at hmem
      exact .inr (List.eq_of_mem_replicate hmem).symm
    · exact .inl hndec
  · rintro (hndec | rfl)
    · refine Routing.map_layerDevice_of_forall_mem fun idx hidx => ?_
      obtain rfl : idx = 0 := by omega
      exact List.mem_cons_self
    · refine List.eq_replicate_iff.mpr ⟨by simp, ?_⟩
      intro d hd
      obtain ⟨idx, -, rfl⟩ := List.mem_map.mp hd
      exact ite_self _

/-- **Conservative routing means every layer exactly when DeepStack does not interfere**:
with mode `conservative` and no layer list, `simulate` puts all decoder layers on the
accelerator, as it does with no mode set, if and only if the model has no DeepStack, or
has at most one decoder layer, or there is no accelerator. -/
theorem conservative_routing_iff (sys : System) (t : Transformer) :
    ((sys.setRouting .conservative none).layerDevices t =
          .ok (List.replicate t.ndec sys.acceleratorRoutingName) ∧
        (sys.setRouting .conservative none).layerDevices t =
          { sys with routingMode := none, routingLayerList := none }.layerDevices t) ↔
      t.hasDeepstack = false ∨ t.ndec ≤ 1 ∨ sys.isHetero = false := by
  have hdefault : { sys with routingMode := none, routingLayerList := none }.layerDevices t =
      .ok (List.replicate t.ndec sys.acceleratorRoutingName) :=
    layerDevices_default rfl rfl t
  rw [hdefault, and_self, layerDevices_conservative, Except.ok.injEq]
  cases hdeep : t.hasDeepstack with
  | true =>
    rw [if_pos rfl, map_layerDevice_default_iff, acceleratorRoutingName_eq_gpu_iff]
    simp
  | false => simp

/-- The 36 layers of `Qwen3-VL-4B`, a DeepStack model, are not all on the accelerator
under `conservative`: the second one stays on the GPU. -/
theorem conservative_qwen3VL : ∃ t,
    Transformer.new (makeModelConfig .qwen3VL4B .W16A16) 8 = .ok t ∧
      ((dgxAttacc t fun _ _ _ => .ok (1, ⟨1, 1, 1, 1, 1⟩)).setRouting .conservative
          none).layerDevices t ≠ .ok (List.replicate t.ndec .pim) := by
  obtain ⟨t, ht, hdeep, hndec⟩ : ∃ t,
      Transformer.new (makeModelConfig .qwen3VL4B .W16A16) 8 = .ok t ∧
        t.hasDeepstack = true ∧ t.ndec = 36 := ⟨_, rfl, rfl, rfl⟩
  refine ⟨t, ht, ?_⟩
  intro h
  rw [layerDevices_conservative, Except.ok.injEq, hdeep, if_pos rfl] at h
  rcases map_layerDevice_default_iff.mp h with hle | hgpu
  · omega
  · cases hgpu

end System

end AttAcc
