import AttAcc.Routing
import AttAcc.Vision

/-!
# Building the compute graph

`Transformer.build` of `src/model.py`: the vision graph, and one prefill block and a
list of decode blocks for every group of the routing. The two dictionaries of the
source have the same keys and are written together, so a group is one record here.

The first half turns the builders' checks into data: `Shards` holds the sharded sizes
together with the exact-division equations the assertions establish, and a block that
was built is the block read off from its shards (`buildSum_eq_ok`,
`buildGenStage_eq_ok`).
-/

namespace AttAcc

open Library

/-- The sizes of a decode block, split exactly. -/
structure GenShards (t : Transformer) where
  qHeads : ℕ
  kvHeads : ℕ
  qkvPerTp : ℕ
  qPerAttnTp : ℕ
  hdimPerTp : ℕ
  ffPerTp : ℕ
  fcTp_pos : 0 < t.fcTp
  attnTp_pos : 0 < t.attnTp
  numQHeads_eq : t.numQHeads = qHeads * t.attnTp
  numKvHeads_eq : t.numKvHeads = kvHeads * t.attnTp
  qkvProjOutTotal_eq : t.qkvProjOutTotal = qkvPerTp * t.fcTp
  qProjOut_eq : t.qProjOut = qPerAttnTp * t.attnTp
  hdim_eq : t.hdim = hdimPerTp * t.fcTp
  ffIntermediate_eq : t.ffIntermediate = ffPerTp * t.ffTp

/-- The sizes of a prefill block: `_build_sum` also splits the query and KV outputs over
the FC shards. -/
structure Shards (t : Transformer) extends GenShards t where
  qPerFcTp : ℕ
  kvPerFcTp : ℕ
  qProjOut_fc_eq : t.qProjOut = qPerFcTp * t.fcTp
  kvProjOut_eq : t.kvProjOut = kvPerFcTp * t.fcTp

/-- The shards of a model are determined by it. -/
theorem GenShards.eq {t : Transformer} (s s' : GenShards t) : s = s' := by
  have hfc := s.fcTp_pos
  have hff : 0 < t.ffTp := by rw [t.ffTp_eq, ← t.fcTp_eq]; exact hfc
  have hattn := s.attnTp_pos
  have hq := Nat.eq_of_mul_eq_mul_right hattn (s.numQHeads_eq.symm.trans s'.numQHeads_eq)
  have hkv := Nat.eq_of_mul_eq_mul_right hattn (s.numKvHeads_eq.symm.trans s'.numKvHeads_eq)
  have hqkv := Nat.eq_of_mul_eq_mul_right hfc
    (s.qkvProjOutTotal_eq.symm.trans s'.qkvProjOutTotal_eq)
  have hqattn := Nat.eq_of_mul_eq_mul_right hattn (s.qProjOut_eq.symm.trans s'.qProjOut_eq)
  have hhdim := Nat.eq_of_mul_eq_mul_right hfc (s.hdim_eq.symm.trans s'.hdim_eq)
  have hinter := Nat.eq_of_mul_eq_mul_right hff
    (s.ffIntermediate_eq.symm.trans s'.ffIntermediate_eq)
  cases s
  cases s'
  simp only [GenShards.mk.injEq]
  exact ⟨hq, hkv, hqkv, hqattn, hhdim, hinter⟩

namespace Transformer

variable {t : Transformer}

/-- How many FFN matrices of shape `hdim × ff_intermediate` a block holds. -/
def ffnMatrices (t : Transformer) : ℕ :=
  match t.ffnType with
  | .gated => 3
  | .standard => 2

/-- The layers after attention, for given shard sizes. -/
def finishArgs (t : Transformer) (stage : Stage) (tokens hdimPerTp ffPerTp : ℕ) :
    List LayerArgs :=
  t.projArgs stage tokens hdimPerTp ++ t.ffnArgs stage tokens ffPerTp ++ t.closeArgs stage tokens

/-- The decode block of the given shards. -/
def genBlock (s : GenShards t) (batch lin stage : ℕ) (attnOnHetero : Bool) :
    List LayerArgs :=
  t.genAttnArgs batch (lin + stage) attnOnHetero (s.qHeads * batch) (s.kvHeads * batch)
      s.qkvPerTp s.qPerAttnTp ++
    t.finishArgs .gen batch s.hdimPerTp s.ffPerTp

/-- The prefill block of the given shards. -/
def sumBlock (s : Shards t) (batch lin : ℕ) (attnOnHetero : Bool) (layerIdx : Option ℕ) :
    List LayerArgs :=
  t.sumAttnArgs batch lin attnOnHetero layerIdx (s.qHeads * batch) (s.kvHeads * batch)
      s.qkvPerTp s.qPerFcTp s.kvPerFcTp s.qPerAttnTp ++
    t.finishArgs .sum (batch * lin) s.hdimPerTp s.ffPerTp

/-! ### Every layer of a block has the model's data type -/

theorem dtype_sumAttnArgs {batch lin : ℕ} {attnOnHetero : Bool} {layerIdx : Option ℕ}
    {q kv qkv qf kvf qa : ℕ} :
    ∀ a ∈ t.sumAttnArgs batch lin attnOnHetero layerIdx q kv qkv qf kvf qa, a.dtype = t.dtype := by
  intro a ha
  rcases attnOnHetero with _ | _ <;> rcases layerIdx with _ | idx <;>
    simp only [sumAttnArgs, List.mem_append] at ha <;> grind

theorem dtype_genAttnArgs {batch kvLen : ℕ} {attnOnHetero : Bool} {q kv qkv qa : ℕ} :
    ∀ a ∈ t.genAttnArgs batch kvLen attnOnHetero q kv qkv qa, a.dtype = t.dtype := by
  intro a ha
  rcases attnOnHetero with _ | _ <;> simp only [genAttnArgs, List.mem_append] at ha <;> grind

theorem dtype_projArgs {stage : Stage} {tokens hdimPerTp : ℕ} :
    ∀ a ∈ t.projArgs stage tokens hdimPerTp, a.dtype = t.dtype := by
  simp [projArgs]

theorem dtype_ffnArgs {stage : Stage} {tokens ffPerTp : ℕ} :
    ∀ a ∈ t.ffnArgs stage tokens ffPerTp, a.dtype = t.dtype := by
  unfold ffnArgs
  cases t.ffnType <;> simp

theorem dtype_closeArgs {stage : Stage} {tokens : ℕ} :
    ∀ a ∈ t.closeArgs stage tokens, a.dtype = t.dtype := by
  simp [closeArgs]

/-- With the model's data type supported, the layers of a list that has it are built. -/
theorem supported_of_dtype (hsupp : t.dtype.Supported) {as : List LayerArgs}
    (has : ∀ a ∈ as, a.dtype = t.dtype) : ∀ a ∈ as, a.dtype.Supported := by
  intro a ha
  rw [has a ha]
  exact hsupp

theorem dtype_finishArgs {stage : Stage} {tokens hdimPerTp ffPerTp : ℕ} :
    ∀ a ∈ t.finishArgs stage tokens hdimPerTp ffPerTp, a.dtype = t.dtype := by
  intro a ha
  rcases List.mem_append.mp ha with ha | ha
  · rcases List.mem_append.mp ha with ha | ha
    · exact dtype_projArgs a ha
    · exact dtype_ffnArgs a ha
  · exact dtype_closeArgs a ha

theorem dtype_genBlock {s : GenShards t} {batch lin stage : ℕ} {attnOnHetero : Bool} :
    ∀ a ∈ genBlock s batch lin stage attnOnHetero, a.dtype = t.dtype := by
  intro a ha
  rcases List.mem_append.mp ha with ha | ha
  · exact dtype_genAttnArgs a ha
  · exact dtype_finishArgs a ha

theorem dtype_sumBlock {s : Shards t} {batch lin : ℕ} {attnOnHetero : Bool}
    {layerIdx : Option ℕ} :
    ∀ a ∈ sumBlock s batch lin attnOnHetero layerIdx, a.dtype = t.dtype := by
  intro a ha
  rcases List.mem_append.mp ha with ha | ha
  · exact dtype_sumAttnArgs a ha
  · exact dtype_finishArgs a ha

/-! ### Sums over a block

A quantity that is zero on transfers, activations and normalisations is summed over a
block by its three attention operators and its weight matrices. -/

section Sums

variable {w : LayerArgs → ℕ} (hx2g : ∀ a : LayerArgs, a.type = .X2G → w a = 0)
  (hact : ∀ a : LayerArgs, a.type = .ACT → w a = 0)
  (hg2g : ∀ a : LayerArgs, a.type = .G2G → w a = 0)
  (hnorm : ∀ a : LayerArgs, a.type = .NORM → w a = 0)

include hx2g hact in
theorem sum_sumAttnArgs (batch lin : ℕ) (attnOnHetero : Bool) (layerIdx : Option ℕ)
    (q kv qkv qf kvf qa : ℕ) :
    ((t.sumAttnArgs batch lin attnOnHetero layerIdx q kv qkv qf kvf qa).map w).sum =
      w ⟨.sum, .qkv, .FC, true, t.dtype, batch * lin, qkv, t.hdim, 1, 1⟩ +
        (w ⟨.sum, .score, .MATMUL, false, t.dtype, lin, lin, t.dhead, q, kv⟩ +
        (w ⟨.sum, .softmax, .SOFTMAX, false, t.dtype, lin, lin, 1, q, kv⟩ +
        w ⟨.sum, .context, .MATMUL, false, t.dtype, lin, t.dhead, lin, q, kv⟩)) := by
  have hdeep : ∀ idx : ℕ, ((if (idx : ℤ) ∈ t.deepstackLayers then
      [(⟨.sum, .deepstackAdd, .ACT, false, t.dtype, batch * lin, t.hdim, 1, 1, 1⟩ : LayerArgs)]
      else []).map w).sum = 0 := by
    intro idx
    split_ifs
    · simp [hact]
    · rfl
  rcases attnOnHetero with _ | _ <;> rcases layerIdx with _ | idx <;>
    simp [sumAttnArgs, hx2g, hdeep]

include hx2g in
theorem sum_genAttnArgs (batch kvLen : ℕ) (attnOnHetero : Bool) (q kv qkv qa : ℕ) :
    ((t.genAttnArgs batch kvLen attnOnHetero q kv qkv qa).map w).sum =
      w ⟨.gen, .qkv, .FC, true, t.dtype, batch, qkv, t.hdim, 1, 1⟩ +
        (w ⟨.gen, .score, .MATMUL, false, t.dtype, 1, kvLen, t.dhead, q, kv⟩ +
        (w ⟨.gen, .softmax, .SOFTMAX, false, t.dtype, 1, kvLen, 1, q, kv⟩ +
        w ⟨.gen, .context, .MATMUL, false, t.dtype, 1, t.dhead, kvLen, q, kv⟩)) := by
  rcases attnOnHetero with _ | _ <;> simp [genAttnArgs, hx2g]

include hact hg2g hnorm in
theorem sum_finishArgs (stage : Stage) (tokens hdimPerTp ffPerTp : ℕ) :
    ((t.finishArgs stage tokens hdimPerTp ffPerTp).map w).sum =
      w ⟨stage, .proj, .FC, true, t.dtype, tokens, t.hdim, hdimPerTp, 1, 1⟩ +
        match t.ffnType with
        | .gated =>
          w ⟨stage, .ff1, .FC, true, t.dtype, tokens, ffPerTp, t.hdim, 1, 1⟩ +
            (w ⟨stage, .ff2, .FC, true, t.dtype, tokens, ffPerTp, t.hdim, 1, 1⟩ +
            w ⟨stage, .ff3, .FC, true, t.dtype, tokens, t.hdim, ffPerTp, 1, 1⟩)
        | .standard =>
          w ⟨stage, .ff1, .FC, true, t.dtype, tokens, ffPerTp, t.hdim, 1, 1⟩ +
            w ⟨stage, .ff2, .FC, true, t.dtype, tokens, t.hdim, ffPerTp, 1, 1⟩ := by
  rcases h : t.ffnType with _ | _ <;>
    simp [finishArgs, projArgs, ffnArgs, closeArgs, h, hact, hg2g, hnorm]

end Sums

/-! ### The builders, inverted -/

theorem headsPerAttnShard_eq_ok {batch q kv : ℕ} :
    t.headsPerAttnShard batch = .ok (q, kv) ↔
      0 < t.attnTp ∧ ∃ qHeads kvHeads, t.numQHeads = qHeads * t.attnTp ∧
        t.numKvHeads = kvHeads * t.attnTp ∧ q = qHeads * batch ∧ kv = kvHeads * batch := by
  unfold headsPerAttnShard
  simp only [bind_ok_iff, split_eq_ok, pure, Except.pure, Except.ok.injEq, Prod.mk.injEq]
  refine ⟨?_, ?_⟩
  · rintro ⟨qHeads, ⟨hpos, hq⟩, kvHeads, ⟨-, hkv⟩, rfl, rfl⟩
    exact ⟨hpos, qHeads, kvHeads, hq, hkv, rfl, rfl⟩
  · rintro ⟨hpos, qHeads, kvHeads, hq, hkv, rfl, rfl⟩
    exact ⟨qHeads, ⟨hpos, hq⟩, kvHeads, ⟨hpos, hkv⟩, rfl, rfl⟩

/-- The layers after attention are built exactly when the data type is supported and the
hidden and intermediate widths split. -/
theorem finishBlock_eq_ok {stage : Stage} {tokens : ℕ} {ls : List Layer} :
    t.finishBlock stage tokens = .ok ls ↔
      t.dtype.Supported ∧ 0 < t.fcTp ∧ ∃ hdimPerTp ffPerTp, t.hdim = hdimPerTp * t.fcTp ∧
        t.ffIntermediate = ffPerTp * t.ffTp ∧
        ls.map Layer.toLayerArgs = t.finishArgs stage tokens hdimPerTp ffPerTp := by
  unfold finishBlock appendFfn
  simp only [bind_ok_iff, split_eq_ok, Layer.mapM_new_eq_ok]
  refine ⟨?_, ?_⟩
  · rintro ⟨hdimPerTp, ⟨hfc, hhdim⟩, proj, ⟨hsupp, hproj⟩, ffn, ⟨ffPerTp, ⟨-, hff⟩, -, hffn⟩,
      close, ⟨-, hclose⟩, hls⟩
    obtain rfl := Except.ok.inj hls
    refine ⟨?_, hfc, hdimPerTp, ffPerTp, hhdim, hff, ?_⟩
    · exact hsupp ⟨stage, .proj, .FC, true, t.dtype, tokens, t.hdim, hdimPerTp, 1, 1⟩
        (by simp [projArgs])
    · rw [finishArgs, List.map_append, List.map_append, hproj, hffn, hclose]
  · rintro ⟨hsupp, hfc, hdimPerTp, ffPerTp, hhdim, hff, h⟩
    obtain ⟨front, close, rfl, hfront, hclose⟩ := List.map_eq_append_iff.mp h
    obtain ⟨proj, ffn, rfl, hproj, hffn⟩ := List.map_eq_append_iff.mp hfront
    have hfftp : 0 < t.ffTp := by rwa [t.ffTp_eq, ← t.fcTp_eq]
    exact ⟨hdimPerTp, ⟨hfc, hhdim⟩, proj, ⟨supported_of_dtype hsupp dtype_projArgs, hproj⟩,
      ffn, ⟨ffPerTp, ⟨hfftp, hff⟩, supported_of_dtype hsupp dtype_ffnArgs, hffn⟩,
      close, ⟨supported_of_dtype hsupp dtype_closeArgs, hclose⟩, rfl⟩

/-- A prefill block that was built is the block of its shards, with a supported data
type; and every such block is built. -/
theorem buildSum_eq_ok {batch lin : ℕ} {attnOnHetero : Bool} {layerIdx : Option ℕ}
    {ls : List Layer} :
    t.buildSum batch lin attnOnHetero layerIdx = .ok ls ↔
      t.dtype.Supported ∧ ∃ s : Shards t,
        ls.map Layer.toLayerArgs = sumBlock s batch lin attnOnHetero layerIdx := by
  unfold buildSum
  simp only [bind_ok_iff, split_eq_ok, Layer.mapM_new_eq_ok, finishBlock_eq_ok, Prod.exists,
    headsPerAttnShard_eq_ok]
  refine ⟨?_, ?_⟩
  · rintro ⟨_, _, ⟨hattn, qHeads, kvHeads, hq, hkv, rfl, rfl⟩, qkvPerTp, ⟨hfc, hqkv⟩, qPerFcTp,
      ⟨-, hqfc⟩, kvPerFcTp, ⟨-, hkvfc⟩, qPerAttnTp, ⟨-, hqattn⟩, attn, ⟨-, hattnArgs⟩, finish,
      ⟨hsupp, -, hdimPerTp, ffPerTp, hhdim, hff, hfinish⟩, hls⟩
    obtain rfl := Except.ok.inj hls
    refine ⟨hsupp, ⟨⟨qHeads, kvHeads, qkvPerTp, qPerAttnTp, hdimPerTp, ffPerTp, hfc, hattn, hq,
      hkv, hqkv, hqattn, hhdim, hff⟩, qPerFcTp, kvPerFcTp, hqfc, hkvfc⟩, ?_⟩
    rw [List.map_append, hattnArgs, hfinish]
    rfl
  · rintro ⟨hsupp, s, h⟩
    obtain ⟨attn, finish, rfl, hattn, hfinish⟩ := List.map_eq_append_iff.mp h
    exact ⟨_, _, ⟨s.attnTp_pos, s.qHeads, s.kvHeads, s.numQHeads_eq, s.numKvHeads_eq, rfl, rfl⟩,
      s.qkvPerTp, ⟨s.fcTp_pos, s.qkvProjOutTotal_eq⟩, s.qPerFcTp, ⟨s.fcTp_pos, s.qProjOut_fc_eq⟩,
      s.kvPerFcTp, ⟨s.fcTp_pos, s.kvProjOut_eq⟩, s.qPerAttnTp, ⟨s.attnTp_pos, s.qProjOut_eq⟩,
      attn, ⟨supported_of_dtype hsupp dtype_sumAttnArgs, hattn⟩,
      finish, ⟨hsupp, s.fcTp_pos, s.hdimPerTp, s.ffPerTp, s.hdim_eq, s.ffIntermediate_eq,
        hfinish⟩, rfl⟩

/-- A decode block that was built is the block of its shards, with a supported data
type; and every such block is built. -/
theorem buildGenStage_eq_ok {batch lin stage : ℕ} {attnOnHetero : Bool} {ls : List Layer} :
    t.buildGenStage batch lin stage attnOnHetero = .ok ls ↔
      t.dtype.Supported ∧ ∃ s : GenShards t,
        ls.map Layer.toLayerArgs = genBlock s batch lin stage attnOnHetero := by
  unfold buildGenStage
  simp only [bind_ok_iff, split_eq_ok, Layer.mapM_new_eq_ok, finishBlock_eq_ok, Prod.exists,
    headsPerAttnShard_eq_ok]
  refine ⟨?_, ?_⟩
  · rintro ⟨_, _, ⟨hattn, qHeads, kvHeads, hq, hkv, rfl, rfl⟩, qkvPerTp, ⟨hfc, hqkv⟩, qPerAttnTp,
      ⟨-, hqattn⟩, attn, ⟨-, hattnArgs⟩, finish,
      ⟨hsupp, -, hdimPerTp, ffPerTp, hhdim, hff, hfinish⟩, hls⟩
    obtain rfl := Except.ok.inj hls
    refine ⟨hsupp, ⟨qHeads, kvHeads, qkvPerTp, qPerAttnTp, hdimPerTp, ffPerTp, hfc, hattn, hq, hkv,
      hqkv, hqattn, hhdim, hff⟩, ?_⟩
    rw [List.map_append, hattnArgs, hfinish]
    rfl
  · rintro ⟨hsupp, s, h⟩
    obtain ⟨attn, finish, rfl, hattn, hfinish⟩ := List.map_eq_append_iff.mp h
    exact ⟨_, _, ⟨s.attnTp_pos, s.qHeads, s.kvHeads, s.numQHeads_eq, s.numKvHeads_eq, rfl, rfl⟩,
      s.qkvPerTp, ⟨s.fcTp_pos, s.qkvProjOutTotal_eq⟩, s.qPerAttnTp,
      ⟨s.attnTp_pos, s.qProjOut_eq⟩, attn, ⟨supported_of_dtype hsupp dtype_genAttnArgs, hattn⟩,
      finish, ⟨hsupp, s.fcTp_pos, s.hdimPerTp, s.ffPerTp, s.hdim_eq, s.ffIntermediate_eq,
        hfinish⟩, rfl⟩

end Transformer

/-! ## The graph -/

/-- One group of the built graph: an entry of `sum_decoder_groups` and the entry of
`gen_decoder_groups` under the same key. Entries that stand for no layer are skipped, so
a group's count is positive. -/
structure Group where
  name : GroupName
  sumDecoder : List Layer
  genDecoder : List (List Layer)
  count : ℕ
  device : RoutingDevice
  indices : Option (List ℕ)
  count_pos : 0 < count

/-- The graph `build` leaves on the model. -/
structure Graph where
  visionDecoder : List Layer
  groups : List Group

/-- Dictionary assignment: a key that is present is overwritten in place. -/
def setGroup (groups : List Group) (g : Group) : List Group :=
  if groups.any fun h => h.name = g.name then
    groups.map fun h => if h.name = g.name then g else h
  else groups ++ [g]

theorem mem_setGroup {groups : List Group} {g h : Group} (hmem : h ∈ setGroup groups g) :
    h = g ∨ h ∈ groups := by
  unfold setGroup at hmem
  split_ifs at hmem with hany
  · obtain ⟨h', hh', rfl⟩ := List.mem_map.mp hmem
    split_ifs
    · exact .inl rfl
    · exact .inr hh'
  · rcases List.mem_append.mp hmem with hold | hnew
    · exact .inr hold
    · exact .inl (List.mem_singleton.mp hnew)

/-- A key that is not present is appended. -/
theorem setGroup_of_fresh {groups : List Group} {g : Group}
    (hfresh : g.name ∉ groups.map Group.name) : setGroup groups g = groups ++ [g] := by
  unfold setGroup
  rw [if_neg]
  intro hany
  obtain ⟨h, hh, hname⟩ := List.any_eq_true.mp hany
  exact hfresh (List.mem_map.mpr ⟨h, hh, of_decide_eq_true hname⟩)

namespace Transformer

variable (t : Transformer) (batch lin lout : ℕ)

/-- The prefill block and the decode blocks of one routing entry. -/
def buildBlocks (device : RoutingDevice) (layerIdx : Option ℕ) :
    Except PyError (List Layer × List (List Layer)) := do
  let onHetero := decide (device ≠ .gpu)
  let sumDecoder ← t.buildSum batch lin onHetero layerIdx
  let genDecoder ← (List.range' 1 (lout - 1)).mapM fun stage =>
    t.buildGenStage batch lin stage onHetero
  return (sumDecoder, genDecoder)

/-- The body of the loop over the routing. -/
def addEntry (groups : List Group) (e : RoutingEntry) : Except PyError (List Group) :=
  if h : 0 < e.count then do
    let layerIdx := e.indices.bind List.head?
    let (sumDecoder, genDecoder) ← t.buildBlocks batch lin lout e.device layerIdx
    return setGroup groups ⟨e.groupName, sumDecoder, genDecoder, e.count, e.device, e.indices, h⟩
  else return groups

/-- The routing `build` falls back to. A DeepStack model keeps its layer indices. -/
def defaultRouting (attnOnHetero : Bool) : List RoutingEntry :=
  let device := if attnOnHetero then RoutingDevice.pim else .gpu
  if t.hasDeepstack then
    (List.range t.ndec).map fun idx => ⟨.l idx, device, 1, some [idx]⟩
  else [⟨.all, device, t.ndec, none⟩]

/-- The fallback puts every layer on one device. -/
theorem assignment_defaultRouting (attnOnHetero : Bool) :
    assignment (t.defaultRouting attnOnHetero) =
      List.replicate t.ndec (if attnOnHetero then RoutingDevice.pim else .gpu) := by
  unfold defaultRouting
  generalize (if attnOnHetero then RoutingDevice.pim else .gpu) = device
  cases t.hasDeepstack with
  | true =>
    rw [if_pos rfl, assignment, List.flatMap_map]
    refine List.eq_replicate_iff.mpr ⟨by simp, ?_⟩
    intro d hd
    obtain ⟨idx, -, hd⟩ := List.mem_flatMap.mp hd
    exact List.eq_of_mem_replicate hd
  | false => exact List.append_nil _

/-- The groups of the fallback have distinct names. -/
theorem names_nodup_defaultRouting (attnOnHetero : Bool) :
    ((t.defaultRouting attnOnHetero).map RoutingEntry.groupName).Nodup := by
  unfold defaultRouting
  cases t.hasDeepstack with
  | true =>
    rw [if_pos rfl, List.map_map]
    refine List.nodup_range.map ?_
    intro i j hij
    exact GroupName.l.inj hij
  | false => exact List.nodup_singleton _

/-- `build`. -/
def build (attnOnHetero : Bool) (routing : Option (List RoutingEntry))
    (imageSize : Option ImageSize) : Except PyError Graph := do
  let vision ← t.buildVision batch imageSize
  let groups ← (routing.getD (t.defaultRouting attnOnHetero)).foldlM
    (t.addEntry batch lin lout) []
  return ⟨vision, groups⟩

variable {t batch lin lout}

/-- The blocks of an entry are built exactly when the data type is supported and every size
splits, and then they are the blocks of the shards. -/
theorem buildBlocks_eq_ok {device : RoutingDevice} {layerIdx : Option ℕ}
    {sumDecoder : List Layer} {genDecoder : List (List Layer)} :
    t.buildBlocks batch lin lout device layerIdx = .ok (sumDecoder, genDecoder) ↔
      t.dtype.Supported ∧ ∃ s : Shards t,
        sumDecoder.map Layer.toLayerArgs =
          sumBlock s batch lin (decide (device ≠ .gpu)) layerIdx ∧
        List.Forall₂ (fun stage (block : List Layer) => block.map Layer.toLayerArgs =
          genBlock s.toGenShards batch lin stage (decide (device ≠ .gpu)))
          (List.range' 1 (lout - 1)) genDecoder := by
  refine ⟨?_, ?_⟩
  · intro h
    obtain ⟨sum, hsum, h⟩ := bind_ok_iff.mp h
    obtain ⟨gen, hgen, h⟩ := bind_ok_iff.mp h
    obtain ⟨rfl, rfl⟩ := Prod.mk.inj (Except.ok.inj h)
    obtain ⟨hsupp, s, hargs⟩ := buildSum_eq_ok.mp hsum
    refine ⟨hsupp, s, hargs, (mapM_ok_iff.mp hgen).imp ?_⟩
    intro stage block hblock
    obtain ⟨-, s', hblock⟩ := buildGenStage_eq_ok.mp hblock
    rw [s.toGenShards.eq s']
    exact hblock
  · rintro ⟨hsupp, s, hargs, hgen⟩
    refine bind_ok_iff.mpr ⟨sumDecoder, buildSum_eq_ok.mpr ⟨hsupp, s, hargs⟩, ?_⟩
    refine bind_ok_iff.mpr ⟨genDecoder, mapM_ok_iff.mpr (hgen.imp ?_), rfl⟩
    intro stage block hblock
    exact buildGenStage_eq_ok.mpr ⟨hsupp, s.toGenShards, hblock⟩

/-- With a supported data type, every size that splits gives blocks. -/
theorem exists_buildBlocks (hsupp : t.dtype.Supported) (s : Shards t) (device : RoutingDevice)
    (layerIdx : Option ℕ) :
    ∃ blocks, t.buildBlocks batch lin lout device layerIdx = .ok blocks := by
  have hsum : ∀ a ∈ sumBlock s batch lin (decide (device ≠ .gpu)) layerIdx,
      a.dtype.Supported := supported_of_dtype hsupp dtype_sumBlock
  have hgen : ∀ stage, ∀ a ∈ genBlock s.toGenShards batch lin stage (decide (device ≠ .gpu)),
      a.dtype.Supported := fun _ => supported_of_dtype hsupp dtype_genBlock
  obtain ⟨sumDecoder, hsum⟩ := Layer.exists_map_toLayerArgs hsum
  obtain ⟨genDecoder, hgen⟩ := exists_forall₂_iff.mpr
    fun stage (_ : stage ∈ List.range' 1 (lout - 1)) => Layer.exists_map_toLayerArgs (hgen stage)
  exact ⟨(sumDecoder, genDecoder), buildBlocks_eq_ok.mpr ⟨hsupp, s, hsum, hgen⟩⟩

/-- The group an entry is built into. -/
structure BuiltFrom (t : Transformer) (batch lin lout : ℕ) (e : RoutingEntry) (g : Group) :
    Prop where
  name : g.name = e.groupName
  count : g.count = e.count
  device : g.device = e.device
  indices : g.indices = e.indices
  blocks : t.buildBlocks batch lin lout e.device (e.indices.bind List.head?) =
    .ok (g.sumDecoder, g.genDecoder)

theorem addEntry_eq_ok {groups groups' : List Group} {e : RoutingEntry} (hcount : 0 < e.count)
    (hfresh : e.groupName ∉ groups.map Group.name) :
    t.addEntry batch lin lout groups e = .ok groups' ↔
      ∃ g, BuiltFrom t batch lin lout e g ∧ groups' = groups ++ [g] := by
  unfold addEntry
  rw [dif_pos hcount]
  refine ⟨?_, ?_⟩
  · intro h
    obtain ⟨⟨sumDecoder, genDecoder⟩, hblocks, h⟩ := bind_ok_iff.mp h
    obtain rfl := Except.ok.inj h
    exact ⟨_, ⟨rfl, rfl, rfl, rfl, hblocks⟩, setGroup_of_fresh hfresh⟩
  · rintro ⟨⟨name, sumDecoder, genDecoder, count, device, indices, _⟩,
      ⟨rfl, rfl, rfl, rfl, hblocks⟩, rfl⟩
    refine bind_ok_iff.mpr ⟨(sumDecoder, genDecoder), hblocks, ?_⟩
    exact congrArg Except.ok (setGroup_of_fresh hfresh)

/-- Entries with distinct names are built into one group each, in order, except that
those that stand for no layer are skipped. -/
theorem foldlM_addEntry_eq_ok {entries : List RoutingEntry} {groups groups' : List Group}
    (hnames : (groups.map Group.name ++ entries.map RoutingEntry.groupName).Nodup) :
    entries.foldlM (t.addEntry batch lin lout) groups = .ok groups' ↔
      ∃ built, List.Forall₂ (BuiltFrom t batch lin lout)
        (entries.filter fun e => decide (0 < e.count)) built ∧ groups' = groups ++ built := by
  induction entries generalizing groups with
  | nil =>
    refine ⟨?_, ?_⟩
    · intro h
      obtain rfl := Except.ok.inj h
      exact ⟨[], .nil, (List.append_nil _).symm⟩
    · rintro ⟨built, hbuilt, rfl⟩
      obtain rfl := List.forall₂_nil_left_iff.mp hbuilt
      rw [List.append_nil]
      rfl
  | cons e es ih =>
    rw [List.foldlM_cons, bind_ok_iff]
    -- an entry for no layer is skipped, any other has a name that no group has yet
    rcases Nat.eq_zero_or_pos e.count with hcount | hcount
    · have hskip : t.addEntry batch lin lout groups e = .ok groups := by
        unfold addEntry
        rw [dif_neg (by omega)]
        rfl
      have hnames' : (groups.map Group.name ++ es.map RoutingEntry.groupName).Nodup :=
        hnames.sublist ((List.sublist_cons_self _ _).append_left _)
      rw [List.filter_cons_of_neg (by simp [hcount]), ← ih hnames']
      refine ⟨?_, ?_⟩
      · rintro ⟨groups₁, h₁, h⟩
        rw [hskip] at h₁
        obtain rfl := Except.ok.inj h₁
        exact h
      · intro h
        exact ⟨groups, hskip, h⟩
    · rw [List.filter_cons_of_pos (by simp [hcount])]
      have hfresh : e.groupName ∉ groups.map Group.name := by
        intro hmem
        exact (List.nodup_append.mp hnames).2.2 _ hmem _ (List.mem_cons_self) rfl
      have hnames' : ∀ {g : Group}, g.name = e.groupName →
          ((groups ++ [g]).map Group.name ++ es.map RoutingEntry.groupName).Nodup := by
        intro g hg
        rw [List.map_append, List.append_assoc, List.map_singleton, hg]
        exact hnames
      refine ⟨?_, ?_⟩
      · rintro ⟨groups₁, h₁, h⟩
        obtain ⟨g, hg, rfl⟩ := (addEntry_eq_ok hcount hfresh).mp h₁
        obtain ⟨built, hbuilt, rfl⟩ := (ih (hnames' hg.name)).mp h
        exact ⟨g :: built, .cons hg hbuilt, by simp⟩
      · rintro ⟨built, hbuilt, rfl⟩
        obtain ⟨g, rest, hg, hrest, rfl⟩ := List.forall₂_cons_left_iff.mp hbuilt
        refine ⟨groups ++ [g], (addEntry_eq_ok hcount hfresh).mpr ⟨g, hg, rfl⟩, ?_⟩
        exact (ih (hnames' hg.name)).mpr ⟨rest, hrest, by simp⟩

/-- A routing with distinct names is built into its entries' groups. -/
theorem build_eq_ok {attnOnHetero : Bool} {routing : Option (List RoutingEntry)}
    {imageSize : Option ImageSize} {graph : Graph}
    (hnames : ((routing.getD (t.defaultRouting attnOnHetero)).map
      RoutingEntry.groupName).Nodup) :
    t.build batch lin lout attnOnHetero routing imageSize = .ok graph ↔
      t.buildVision batch imageSize = .ok graph.visionDecoder ∧
        List.Forall₂ (BuiltFrom t batch lin lout)
          ((routing.getD (t.defaultRouting attnOnHetero)).filter fun e => decide (0 < e.count))
          graph.groups := by
  have hfold : ∀ groups', (routing.getD (t.defaultRouting attnOnHetero)).foldlM
      (t.addEntry batch lin lout) [] = .ok groups' ↔ ∃ built, _ ∧ groups' = [] ++ built :=
    fun _ => foldlM_addEntry_eq_ok hnames
  refine ⟨?_, ?_⟩
  · intro h
    obtain ⟨vision, hvision, h⟩ := bind_ok_iff.mp h
    obtain ⟨groups, hgroups, h⟩ := bind_ok_iff.mp h
    obtain rfl := Except.ok.inj h
    obtain ⟨built, hbuilt, rfl⟩ := (hfold groups).mp hgroups
    exact ⟨hvision, hbuilt⟩
  · rintro ⟨hvision, hbuilt⟩
    have hgroups := (hfold graph.groups).mpr ⟨graph.groups, hbuilt, rfl⟩
    exact bind_ok_iff.mpr ⟨_, hvision, bind_ok_iff.mpr ⟨_, hgroups, rfl⟩⟩

/-- Every group of a built graph holds the blocks built for its device. -/
theorem buildBlocks_of_mem_build {attnOnHetero : Bool} {routing : Option (List RoutingEntry)}
    {imageSize : Option ImageSize} {graph : Graph}
    (hbuild : t.build batch lin lout attnOnHetero routing imageSize = .ok graph) :
    ∀ g ∈ graph.groups, ∃ layerIdx,
      t.buildBlocks batch lin lout g.device layerIdx = .ok (g.sumDecoder, g.genDecoder) := by
  obtain ⟨vision, -, hbuild⟩ := bind_ok_iff.mp hbuild
  obtain ⟨groups, hgroups, hgraph⟩ := bind_ok_iff.mp hbuild
  obtain rfl := Except.ok.inj hgraph
  refine foldlM_ok_induction (P := fun gs : List Group => ∀ g ∈ gs, ∃ layerIdx,
    t.buildBlocks batch lin lout g.device layerIdx = .ok (g.sumDecoder, g.genDecoder))
    ?_ ?_ hgroups
  · intro gs e gs' hgs hstep g hg
    unfold addEntry at hstep
    split_ifs at hstep with hcount
    · obtain ⟨⟨sumDecoder, genDecoder⟩, hblocks, hstep⟩ := bind_ok_iff.mp hstep
      obtain rfl := Except.ok.inj hstep
      rcases mem_setGroup hg with rfl | hg
      · exact ⟨_, hblocks⟩
      · exact hgs g hg
    · obtain rfl := Except.ok.inj hstep
      exact hgs g hg
  · intro g hg
    exact absurd hg List.not_mem_nil

end Transformer

end AttAcc
