import AttAcc.RoutingModes
import AttAcc.Hardware
import Mathlib.Algebra.Order.BigOperators.Group.List

/-!
# The work of a sharded graph

Tensor parallelism splits the layers of a block three ways, and `simulate` sums the FLOPs
of a shard as often as there are devices. For the FC layers that gives back the whole
work. The heads are split over `attn_tp` shards only, which is clamped to the number of KV
heads; beyond it attention is counted once too often for every idle device
(`workFlops_eq_iff`).
-/

namespace AttAcc

open Library

/-- The layers whose work the shards divide between them. -/
def LayerType.isWork : LayerType → Bool
  | .FC | .MATMUL | .SOFTMAX => true
  | _ => false

/-- The FLOPs of the layers of some kind, summed over the devices as `simulate` does. -/
def flopsOf (kind : LayerType → Bool) (numXpu : ℕ) (ls : List Layer) : ℕ :=
  ((ls.filter fun l => kind l.type).map fun l : Layer => l.getFlops * numXpu).sum

/-- The FLOPs of a group, prefill and all decode steps, for its `count` layers. -/
def Group.flopsOf (kind : LayerType → Bool) (numXpu : ℕ) (g : Group) : ℕ :=
  (AttAcc.flopsOf kind numXpu g.sumDecoder +
    (g.genDecoder.map (AttAcc.flopsOf kind numXpu)).sum) * g.count

/-- The FLOPs of the decoder layers of a graph. -/
def Graph.flopsOf (kind : LayerType → Bool) (numXpu : ℕ) (graph : Graph) : ℕ :=
  (graph.groups.map (Group.flopsOf kind numXpu)).sum

/-- The FLOPs of the FC, matrix and softmax layers. -/
def Graph.workFlops (numXpu : ℕ) (graph : Graph) : ℕ :=
  graph.flopsOf LayerType.isWork numXpu

namespace Platform

variable {sys : Platform} {t : Transformer} {args : PassArgs} {bs : ℕ}

theorem groupFlops_fresh (ls : List Layer) :
    sys.groupFlops (ls.map .fresh) = AttAcc.flopsOf (fun _ => true) sys.gpu.numXpu ls := by
  have hls : (ls.map SimLayer.fresh).map SimLayer.layer = ls := by
    rw [List.map_map]
    exact List.map_id ls
  rw [groupFlops_eq, hls, AttAcc.flopsOf, List.filter_true]

/-- The FLOPs of a group are what the passes report for it. -/
theorem flops_of_groupTotals {g : Group} {totals : Totals}
    (h : sys.groupTotals t args bs (.fresh g) = .ok totals) :
    (totals.sFlops + totals.gFlops) * g.count =
      g.flopsOf (fun _ => true) sys.gpu.numXpu := by
  obtain ⟨g', h⟩ := groupTotals_eq_ok.mp h
  obtain ⟨⟨sDecoder, sFlops⟩, hsum, h⟩ := bind_ok_iff.mp h
  obtain ⟨⟨gDecoder, gFlops, energies⟩, hgen, h⟩ := bind_ok_iff.mp h
  obtain ⟨-, rfl⟩ := Prod.mk.inj (Except.ok.inj h)
  obtain ⟨timed, -, hsum⟩ := bind_ok_iff.mp hsum
  obtain ⟨adjusted, -, hsum⟩ := bind_ok_iff.mp hsum
  obtain ⟨-, rfl⟩ := Prod.mk.inj (Except.ok.inj hsum)
  obtain ⟨⟨gDecoder', energies'⟩, -, hgen⟩ := bind_ok_iff.mp hgen
  obtain ⟨-, hgen⟩ := Prod.mk.inj (Except.ok.inj hgen)
  obtain ⟨rfl, -⟩ := Prod.mk.inj hgen
  have hblocks : (g.genDecoder.map fun block : List Layer => block.map SimLayer.fresh).map
      sys.groupFlops = g.genDecoder.map (AttAcc.flopsOf (fun _ => true) sys.gpu.numXpu) := by
    rw [List.map_map]
    exact List.map_congr_left fun block _ => groupFlops_fresh block
  rw [Group.flopsOf, ← hblocks, ← groupFlops_fresh]
  rfl

/-- The FLOPs of a graph are what an iteration reports beyond the vision pass. -/
theorem flops_of_batchTotals {graph : Graph} {totals : Totals}
    (h : sys.batchTotals t args bs (.fresh graph) = .ok totals) :
    ∃ vision, sys.visionTotals t args (graph.visionDecoder.map .fresh) = .ok vision ∧
      totals.sFlops + totals.gFlops = vision.sFlops + vision.gFlops +
        graph.flopsOf (fun _ => true) sys.gpu.numXpu := by
  obtain ⟨vision, hvision, hgroups, rfl⟩ := batchTotals_eq_ok.mp h
  refine ⟨vision, hvision, ?_⟩
  have hsum : ∀ groups : List Group,
      (∀ g ∈ groups.map SimGroup.fresh, ∃ r, sys.groupTotals t args bs g = .ok r) →
      ((groups.map SimGroup.fresh).map fun g =>
          g.count • valueOf (sys.groupTotals t args bs g)).sum.sFlops +
        ((groups.map SimGroup.fresh).map fun g =>
          g.count • valueOf (sys.groupTotals t args bs g)).sum.gFlops =
      (groups.map (Group.flopsOf (fun _ => true) sys.gpu.numXpu)).sum := by
    intro groups hgroups
    induction groups with
    | nil => rfl
    | cons g gs ih =>
      rw [List.map_cons, List.forall_mem_cons] at hgroups
      obtain ⟨⟨r, hr⟩, hgs⟩ := hgroups
      have ih := ih hgs
      have hg := flops_of_groupTotals hr
      rw [List.map_cons, List.map_cons, List.map_cons, List.sum_cons, List.sum_cons, hr,
        valueOf_ok, ← Totals.scale_eq_nsmul, Totals.sFlops_add, Totals.gFlops_add, ← ih, ← hg]
      show r.sFlops * g.count + _ + (r.gFlops * g.count + _) = _
      ring
  rw [Totals.sFlops_add, Totals.gFlops_add, Graph.flopsOf, ← hsum graph.groups hgroups]
  exact add_add_add_comm _ _ _ _

end Platform

/-- The work of one operator on one shard. -/
def LayerArgs.work (a : LayerArgs) : ℕ :=
  if a.type.isWork then a.getFlops else 0

theorem LayerArgs.work_of_not_isWork {type : LayerType} (h : type.isWork = false) :
    ∀ a : LayerArgs, a.type = type → a.work = 0 := by
  rintro a rfl
  exact if_neg (by simp [h])

/-- The work of a block over the devices, from its arguments. -/
theorem flopsOf_isWork (numXpu : ℕ) (ls : List Layer) :
    flopsOf LayerType.isWork numXpu ls =
      ((ls.map Layer.toLayerArgs).map LayerArgs.work).sum * numXpu := by
  induction ls with
  | nil => exact (Nat.zero_mul numXpu).symm
  | cons l ls ih =>
    rw [List.map_cons, List.map_cons, List.sum_cons, Nat.add_mul, ← ih]
    unfold flopsOf LayerArgs.work
    cases h : l.type.isWork with
    | true =>
      rw [List.filter_cons_of_pos (p := fun l : Layer => l.type.isWork) h, List.map_cons,
        List.sum_cons, if_pos rfl]
    | false =>
      have hneg : ¬ (l.type.isWork = true) := by simp [h]
      rw [List.filter_cons_of_neg (p := fun l : Layer => l.type.isWork) hneg,
        if_neg Bool.false_ne_true, Nat.zero_mul, Nat.zero_add]

namespace Transformer

variable {t : Transformer} {batch lin lout : ℕ}

/-- The FC work of a block on some tokens, over all shards. -/
def fcWork (t : Transformer) (tokens : ℕ) : ℕ :=
  2 * tokens * t.hdim * (t.qkvProjOutTotal + t.hdim + t.ffnMatrices * t.ffIntermediate)

/-- The attention work of one query head, for some queries and keys. -/
def headWork (t : Transformer) (queries keys : ℕ) : ℕ :=
  (4 * t.dhead + 5) * queries * keys

theorem sum_work_finishArgs (s : GenShards t) (stage : Stage) (tokens : ℕ) :
    ((t.finishArgs stage tokens s.hdimPerTp s.ffPerTp).map LayerArgs.work).sum * t.fcTp =
      2 * tokens * t.hdim * (t.hdim + t.ffnMatrices * t.ffIntermediate) := by
  rw [sum_finishArgs (LayerArgs.work_of_not_isWork rfl) (LayerArgs.work_of_not_isWork rfl)
    (LayerArgs.work_of_not_isWork rfl)]
  have hhdim : s.hdimPerTp * t.fcTp = t.hdim := s.hdim_eq.symm
  have hff : s.ffPerTp * t.fcTp = t.ffIntermediate := by
    rw [t.fcTp_eq, ← t.ffTp_eq, ← s.ffIntermediate_eq]
  have hproj : 2 * tokens * t.hdim * s.hdimPerTp * t.fcTp = 2 * tokens * t.hdim * t.hdim := by
    rw [mul_assoc, hhdim]
  rw [mul_add (2 * tokens * t.hdim), Nat.add_mul, ffnMatrices, ← hff, ← hproj]
  cases t.ffnType <;>
    simp only [LayerArgs.work, LayerType.isWork, LayerArgs.getFlops, if_true] <;>
    ring

/-- The work of a prefill block over the devices: the FC work, and the attention of the
heads of a shard on every device. -/
theorem sum_work_sumBlock (s : Shards t) (attnOnHetero : Bool) (layerIdx : Option ℕ) :
    ((sumBlock s batch lin attnOnHetero layerIdx).map LayerArgs.work).sum * t.fcTp =
      t.fcWork (batch * lin) + batch * t.headWork lin lin * (s.qHeads * t.fcTp) := by
  rw [sumBlock, List.map_append, List.sum_append, Nat.add_mul, sum_work_finishArgs,
    sum_sumAttnArgs (LayerArgs.work_of_not_isWork rfl) (LayerArgs.work_of_not_isWork rfl)]
  have hqkv : s.qkvPerTp * t.fcTp = t.qkvProjOutTotal := s.qkvProjOutTotal_eq.symm
  rw [fcWork, headWork, ← hqkv]
  simp only [LayerArgs.work, LayerType.isWork, LayerArgs.getFlops, if_true]
  ring

/-- The work of a decode block over the devices. -/
theorem sum_work_genBlock (s : GenShards t) (stage : ℕ) (attnOnHetero : Bool) :
    ((genBlock s batch lin stage attnOnHetero).map LayerArgs.work).sum * t.fcTp =
      t.fcWork batch + batch * t.headWork 1 (lin + stage) * (s.qHeads * t.fcTp) := by
  rw [genBlock, List.map_append, List.sum_append, Nat.add_mul, sum_work_finishArgs,
    sum_genAttnArgs (LayerArgs.work_of_not_isWork rfl)]
  have hqkv : s.qkvPerTp * t.fcTp = t.qkvProjOutTotal := s.qkvProjOutTotal_eq.symm
  rw [fcWork, headWork, ← hqkv]
  simp only [LayerArgs.work, LayerType.isWork, LayerArgs.getFlops, if_true]
  ring

/-- The FC work of a layer, over prefill and all decode steps. -/
def layerFcWork (t : Transformer) (batch lin lout : ℕ) : ℕ :=
  t.fcWork (batch * lin) + (lout - 1) * t.fcWork batch

/-- The attention work of one query head, over prefill and all decode steps. -/
def layerHeadWork (t : Transformer) (batch lin lout : ℕ) : ℕ :=
  batch * (t.headWork lin lin +
    ((List.range' 1 (lout - 1)).map fun stage => t.headWork 1 (lin + stage)).sum)

/-- The work of the decode blocks over the devices. -/
theorem sum_flopsOf_genDecoder (s : GenShards t) {attnOnHetero : Bool} {stages : List ℕ}
    {genDecoder : List (List Layer)}
    (hgen : List.Forall₂ (fun stage (block : List Layer) =>
      block.map Layer.toLayerArgs = genBlock s batch lin stage attnOnHetero) stages genDecoder) :
    (genDecoder.map (flopsOf LayerType.isWork t.fcTp)).sum =
      stages.length * t.fcWork batch +
        batch * (stages.map fun stage => t.headWork 1 (lin + stage)).sum * (s.qHeads * t.fcTp) := by
  induction hgen with
  | nil => simp
  | cons hblock _ ih =>
    rw [List.map_cons, List.sum_cons, ih, flopsOf_isWork, hblock, sum_work_genBlock,
      List.map_cons, List.sum_cons, List.length_cons]
    ring

/-- The work of a built group over the devices: the FC work once, and the attention work
for the query heads of a shard on every device. -/
theorem flopsOf_of_builtFrom (s : Shards t) {e : RoutingEntry} {g : Group}
    (hg : t.BuiltFrom batch lin lout e g) :
    g.flopsOf LayerType.isWork t.fcTp =
      (t.layerFcWork batch lin lout +
        t.layerHeadWork batch lin lout * (s.qHeads * t.fcTp)) * e.count := by
  obtain ⟨-, s', hsum, hgen⟩ := buildBlocks_eq_ok.mp hg.blocks
  have hs : s'.qHeads = s.qHeads := by rw [s'.toGenShards.eq s.toGenShards]
  rw [Group.flopsOf, flopsOf_isWork, hsum, sum_work_sumBlock, sum_flopsOf_genDecoder _ hgen, hs,
    hg.count, List.length_range', layerFcWork, layerHeadWork]
  ring

/-- **The work of a built graph**: that of a layer, for every decoder layer. -/
theorem workFlops_of_builtFrom (s : Shards t) {entries : List RoutingEntry} {graph : Graph}
    (h : List.Forall₂ (t.BuiltFrom batch lin lout) entries graph.groups) :
    graph.workFlops t.fcTp =
      (t.layerFcWork batch lin lout + t.layerHeadWork batch lin lout * (s.qHeads * t.fcTp)) *
        (assignment entries).length := by
  rw [Graph.workFlops, Graph.flopsOf]
  generalize graph.groups = groups at h ⊢
  induction h with
  | nil => rfl
  | cons hg _ ih =>
    rw [assignment_cons, List.length_append, List.length_replicate, List.map_cons,
      List.sum_cons, ih, flopsOf_of_builtFrom s hg]
    ring

/-! ### The same model on one device -/

/-- The model of the same description for another `tensor_parallel`. -/
def withTensorParallel (t : Transformer) (tp : ℕ) : Transformer :=
  { t with
    tpArg := tp, fcTp := tp, attnTp := min tp t.numKvHeads, ffTp := tp
    fcTp_eq := rfl, attnTp_eq := rfl, ffTp_eq := rfl }

/-- A description that gives a model for one degree gives it for every other. -/
theorem new_withTensorParallel {mi : ModelInfos} {tp : ℕ} (h : new mi tp = .ok t) :
    t.fcTp = tp ∧ ∀ tp', new mi tp' = .ok (t.withTensorParallel tp') := by
  unfold new at h ⊢
  generalize mi.numQHeads.or mi.numHeads = heads at h ⊢
  rcases heads with _ | numQHeads
  · cases h
  · dsimp only at h ⊢
    split_ifs at h with hq hkv
    obtain rfl := Except.ok.inj h
    exact ⟨rfl, fun tp' => (dif_pos hq).trans (dif_pos hkv)⟩

/-- On one device nothing is split. -/
def Shards.one (t : Transformer) : Shards (t.withTensorParallel 1) :=
  have hattn : (t.withTensorParallel 1).attnTp = 1 := Nat.min_eq_left t.numKvHeads_pos
  { qHeads := t.numQHeads
    kvHeads := t.numKvHeads
    qkvPerTp := t.qkvProjOutTotal
    qPerAttnTp := t.qProjOut
    hdimPerTp := t.hdim
    ffPerTp := t.ffIntermediate
    qPerFcTp := t.qProjOut
    kvPerFcTp := t.kvProjOut
    fcTp_pos := Nat.one_pos
    attnTp_pos := hattn.symm ▸ Nat.one_pos
    numQHeads_eq := by rw [hattn, Nat.mul_one]; rfl
    numKvHeads_eq := by rw [hattn, Nat.mul_one]; rfl
    qkvProjOutTotal_eq := (Nat.mul_one _).symm
    qProjOut_eq := by rw [hattn, Nat.mul_one]; rfl
    hdim_eq := (Nat.mul_one _).symm
    ffIntermediate_eq := (Nat.mul_one _).symm
    qProjOut_fc_eq := (Nat.mul_one _).symm
    kvProjOut_eq := (Nat.mul_one _).symm }

/-- The projector of one device has the layers of the sharded one, without a broadcast. -/
theorem exists_buildProjector_one {imageSize : Option ImageSize} {ls : List Layer}
    (h : t.buildProjector batch imageSize = .ok ls) :
    ∃ ls', (t.withTensorParallel 1).buildProjector batch imageSize = .ok ls' := by
  have hfewer : ∀ as bs : List LayerArgs, (as ++ bs).mapM Layer.new = .ok ls →
      ∃ ls', (as ++ []).mapM Layer.new = .ok ls' := by
    intro as bs h
    have hsupp := (Layer.mapM_new_eq_ok.mp h).1
    rw [List.append_nil]
    have has : ∀ a ∈ as, a.dtype.Supported := fun a ha => hsupp a (List.mem_append_left bs ha)
    obtain ⟨ls', hls'⟩ := Layer.exists_map_toLayerArgs has
    exact ⟨ls', Layer.mapM_new_eq_ok.mpr ⟨has, hls'⟩⟩
  obtain ⟨tokens, htokens, h⟩ := bind_ok_iff.mp h
  have htokens' : (t.withTensorParallel 1).computeVisualTokens imageSize = .ok tokens := htokens
  have htype : (t.withTensorParallel 1).projectorType = t.projectorType := rfl
  simp only [buildProjector, bind_ok_iff, htokens', Except.ok.injEq, exists_eq_left', htype]
  generalize t.projectorType = projectorType at h ⊢
  rcases projectorType with _ | projectorType
  · exact ⟨[], rfl⟩
  · dsimp only at h ⊢
    by_cases htokens : tokens = 0
    · exact ⟨[], if_pos htokens⟩
    · rw [if_neg htokens] at h ⊢
      exact hfewer _ _ h

theorem exists_buildVision_one {imageSize : Option ImageSize} {ls : List Layer}
    (h : t.buildVision batch imageSize = .ok ls) :
    ∃ ls', (t.withTensorParallel 1).buildVision batch imageSize = .ok ls' := by
  obtain ⟨vit, hvit, h⟩ := bind_ok_iff.mp h
  obtain ⟨projector, hprojector, -⟩ := bind_ok_iff.mp h
  obtain ⟨projector', hprojector'⟩ := exists_buildProjector_one hprojector
  have hvit' : (t.withTensorParallel 1).buildVit batch imageSize = .ok vit := hvit
  exact ⟨vit ++ projector', bind_ok_iff.mpr ⟨vit, hvit', bind_ok_iff.mpr ⟨_, hprojector', rfl⟩⟩⟩

/-- What is built on several devices is built on one, from the same routing. -/
theorem exists_build_one {attnOnHetero : Bool} {routing : Option (List RoutingEntry)}
    {imageSize : Option ImageSize} {graph : Graph}
    (hnames : ((routing.getD (t.defaultRouting attnOnHetero)).map
      RoutingEntry.groupName).Nodup)
    (hbuild : t.build batch lin lout attnOnHetero routing imageSize = .ok graph) :
    ∃ graph₁, (t.withTensorParallel 1).build batch lin lout attnOnHetero routing imageSize =
      .ok graph₁ := by
  obtain ⟨hvision, hgroups⟩ := (build_eq_ok hnames).mp hbuild
  obtain ⟨vision, hvision₁⟩ := exists_buildVision_one hvision
  have hentries : ∀ e ∈ (routing.getD (t.defaultRouting attnOnHetero)).filter
      fun e => decide (0 < e.count),
      ∃ g, (t.withTensorParallel 1).BuiltFrom batch lin lout e g := by
    intro e he
    obtain ⟨g, hg⟩ := exists_forall₂_iff.mp ⟨_, hgroups⟩ e he
    obtain ⟨hsupp, -⟩ := buildBlocks_eq_ok.mp hg.blocks
    obtain ⟨blocks, hblocks⟩ := exists_buildBlocks (t := t.withTensorParallel 1)
      hsupp (Shards.one t) e.device (e.indices.bind List.head?)
    have hcount : 0 < e.count := of_decide_eq_true (List.mem_filter.mp he).2
    exact ⟨⟨e.groupName, blocks.1, blocks.2, e.count, e.device, e.indices, hcount⟩,
      rfl, rfl, rfl, rfl, hblocks⟩
  obtain ⟨groups, hgroups⟩ := exists_forall₂_iff.mpr hentries
  exact ⟨⟨vision, groups⟩,
    (build_eq_ok (t := t.withTensorParallel 1) hnames).mpr ⟨hvision₁, hgroups⟩⟩

/-! ### Where the work goes -/

/-- Attention costs nothing exactly when there are no queries. -/
theorem layerHeadWork_eq_zero :
    t.layerHeadWork batch lin lout = 0 ↔ batch = 0 ∨ lin = 0 ∧ lout ≤ 1 := by
  rw [layerHeadWork, Nat.mul_eq_zero, Nat.add_eq_zero_iff, List.sum_eq_zero_iff]
  refine or_congr_right (and_congr ?_ ?_)
  · rw [headWork, mul_assoc, Nat.mul_eq_zero, Nat.mul_eq_zero]
    omega
  · refine ⟨?_, ?_⟩
    · intro h
      by_contra hlout
      have hmem : 1 ∈ List.range' 1 (lout - 1) := by
        rw [List.mem_range'_1]
        omega
      have hzero := h _ (List.mem_map.mpr ⟨1, hmem, rfl⟩)
      rw [headWork, Nat.mul_one, Nat.mul_eq_zero] at hzero
      omega
    · intro hlout
      rw [Nat.sub_eq_zero_of_le hlout]
      exact fun _ h => absurd h List.not_mem_nil

/-- A shard holds at least one query head. -/
theorem qHeads_pos (s : GenShards t) : 0 < s.qHeads := by
  rcases Nat.eq_zero_or_pos s.qHeads with h | h
  · have hpos := t.numQHeads_pos
    rw [s.numQHeads_eq, h, Nat.zero_mul] at hpos
    exact absurd hpos (lt_irrefl 0)
  · exact h

/-- The attention work of the shards is the work of all heads exactly when no device is
without heads of its own. -/
theorem headShards_eq_iff (s : GenShards t) :
    s.qHeads * t.fcTp = t.numQHeads ↔ t.fcTp ≤ t.numKvHeads := by
  rw [s.numQHeads_eq, Nat.mul_right_inj (qHeads_pos s).ne', t.attnTp_eq, ← t.fcTp_eq]
  exact eq_comm.trans min_eq_left_iff

/-- **Tensor parallelism conserves the work of the decoder exactly up to the number of KV heads**:
the FLOPs of the FC, matrix and softmax layers of the decoder layers, summed over the devices, are
those of the graph that the same description has on one device if and only if there are
at least as many KV heads as devices, or there is no attention work at all. The vision graph is
not in the sum: it is not split, and each device runs all of it. -/
theorem workFlops_eq_iff {mi : ModelInfos} {tp : ℕ} (ht : new mi tp = .ok t) {sys : System}
    {routing : Option (List RoutingEntry)} (hrouting : sys.routing t = .ok routing)
    {graph : Graph}
    (hbuild : t.build batch lin lout sys.isHetero routing sys.imageSize = .ok graph) :
    ∃ t₁ graph₁, new mi 1 = .ok t₁ ∧ sys.routing t₁ = .ok routing ∧
      t₁.build batch lin lout sys.isHetero routing sys.imageSize = .ok graph₁ ∧
      (graph.workFlops tp = graph₁.workFlops 1 ↔
        tp ≤ t.numKvHeads ∨ t.ndec = 0 ∨ batch = 0 ∨ lin = 0 ∧ lout ≤ 1) := by
  obtain ⟨devices, hassigns, hlength⟩ := System.exists_assigns_of_routing hrouting
  obtain ⟨graph₁, hbuild₁⟩ := exists_build_one hassigns.names_nodup hbuild
  obtain ⟨htp, hnew⟩ := new_withTensorParallel ht
  refine ⟨t.withTensorParallel 1, graph₁, hnew 1, hrouting, hbuild₁, ?_⟩
  let entries := (sys.entriesOf t routing).filter fun e => decide (0 < e.count)
  have hgroups : List.Forall₂ (t.BuiltFrom batch lin lout) entries graph.groups :=
    ((build_eq_ok hassigns.names_nodup).mp hbuild).2
  have hgroups₁ : List.Forall₂ ((t.withTensorParallel 1).BuiltFrom batch lin lout) entries
      graph₁.groups :=
    ((build_eq_ok (t := t.withTensorParallel 1) hassigns.names_nodup).mp hbuild₁).2
  have hndec : (assignment entries).length = t.ndec := by
    rw [assignment_filter, hassigns.assignment_eq, hlength]
  have hwork₁ : graph₁.workFlops 1 =
      (t.layerFcWork batch lin lout + t.layerHeadWork batch lin lout * t.numQHeads) * t.ndec := by
    have hone := workFlops_of_builtFrom (Shards.one t) hgroups₁
    rw [hndec] at hone
    have hheads : (Shards.one t).qHeads * (t.withTensorParallel 1).fcTp = t.numQHeads :=
      Nat.mul_one _
    rw [hheads] at hone
    exact hone
  rcases hentries : entries with _ | ⟨e, es⟩
  · -- no layer at all
    rw [hentries] at hgroups hndec
    have hzero : t.ndec = 0 := hndec.symm
    have hwork : graph.workFlops tp = 0 := by
      rw [Graph.workFlops, Graph.flopsOf, List.forall₂_nil_left_iff.mp hgroups]
      rfl
    rw [hwork, hwork₁, hzero, Nat.mul_zero]
    simp
  · rw [hentries] at hgroups
    obtain ⟨g, -, hg, -, -⟩ := List.forall₂_cons_left_iff.mp hgroups
    obtain ⟨-, s, -⟩ := buildBlocks_eq_ok.mp hg.blocks
    rw [← hentries] at hgroups
    have hwork := workFlops_of_builtFrom s hgroups
    rw [hndec, htp] at hwork
    have hheads := headShards_eq_iff s.toGenShards
    rw [htp] at hheads
    rw [hwork, hwork₁, ← hheads, ← layerHeadWork_eq_zero, mul_eq_mul_right_iff,
      Nat.add_left_cancel_iff, mul_eq_mul_left_iff]
    tauto

/-- Eight GPUs share the work of `LLAMA-7B`, with its 32 KV heads. -/
theorem workFlops_eq_llama7B : ∃ t graph t₁ graph₁,
    new (makeModelConfig .llama7B .W16A16) 8 = .ok t ∧
      t.build 1 16 2 false none none = .ok graph ∧
      new (makeModelConfig .llama7B .W16A16) 1 = .ok t₁ ∧
      t₁.build 1 16 2 false none none = .ok graph₁ ∧
      graph.workFlops 8 = graph₁.workFlops 1 := by
  obtain ⟨t, graph, ht, hbuild, hheads⟩ : ∃ t graph,
      new (makeModelConfig .llama7B .W16A16) 8 = .ok t ∧
        t.build 1 16 2 false none none = .ok graph ∧ t.numKvHeads = 32 := ⟨_, _, rfl, rfl, rfl⟩
  let sys : System :=
    { heteroName := .NONE
      gpu := (makeGpuConfig .A100a 8).device
      acc := .xpu (makeGpuConfig .A100a 8).device
      model := some t
      acc_pim := by simp }
  have hrouting : sys.routing t = .ok none := rfl
  obtain ⟨t₁, graph₁, ht₁, -, hbuild₁, hwork⟩ := workFlops_eq_iff ht hrouting hbuild
  exact ⟨t, graph, t₁, graph₁, ht, hbuild, ht₁, hbuild₁, hwork.mpr (.inl (by omega))⟩

/-- Sixteen GPUs do not: `Qwen3-4B` has 8 KV heads, so each of its heads is counted twice. -/
theorem workFlops_ne_qwen3 : ∃ t graph t₁ graph₁,
    new (makeModelConfig .qwen3_4B .W16A16) 16 = .ok t ∧
      t.build 1 16 2 false none none = .ok graph ∧
      new (makeModelConfig .qwen3_4B .W16A16) 1 = .ok t₁ ∧
      t₁.build 1 16 2 false none none = .ok graph₁ ∧
      graph.workFlops 16 ≠ graph₁.workFlops 1 :=
  ⟨_, _, _, _, rfl, rfl, rfl, rfl, by decide⟩

end Transformer

end AttAcc
