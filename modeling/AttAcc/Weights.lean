import AttAcc.Graph
import AttAcc.Capacity
import AttAcc.Config
import Mathlib.Tactic.Ring
import Mathlib.Tactic.Linarith
import Mathlib.Tactic.FieldSimp

/-!
# The weights of the graph and of the capacity model

The weight shapes are written twice: as the FC layers of a decoder block, and as the
closed formula of `_compute_mem_components`. The two agree up to one matrix. The graph
gives the output projection the input width `hdim`, the formula gives it `q_proj_out`,
the width attention really produces; so the totals agree exactly when these are equal
(`block_weights_eq_iff`).
-/

namespace AttAcc

open Library

/-- The weight bytes of a layer: `n * k * dbyte` for FC layers. -/
def LayerArgs.fcBytes (a : LayerArgs) : ℕ :=
  if a.type = .FC then a.n * a.k * a.dbyte else 0

/-- The weight bytes of the FC layers of a block. -/
def fcWeightBytes (block : List Layer) : ℕ :=
  (block.map fun l => l.fcBytes).sum

theorem fcWeightBytes_eq (block : List Layer) :
    fcWeightBytes block = ((block.map Layer.toLayerArgs).map LayerArgs.fcBytes).sum := by
  rw [List.map_map]
  rfl

theorem LayerArgs.fcBytes_of_ne {type : LayerType} (h : type ≠ .FC) :
    ∀ a : LayerArgs, a.type = type → a.fcBytes = 0 := by
  rintro a rfl
  exact if_neg h

/-- On the data types layers accept, the graph's and the capacity model's weight widths
agree. -/
theorem DataType.Supported.wByte_eq {d : DataType} (h : d.Supported) : d.wByte = d.dbyte := by
  rcases h with rfl | rfl <;> rfl

namespace Transformer

variable {t : Transformer} {batch lin lout : ℕ}

theorem sum_fcBytes_finishArgs (stage : Stage) (tokens hdimPerTp ffPerTp : ℕ) :
    ((t.finishArgs stage tokens hdimPerTp ffPerTp).map LayerArgs.fcBytes).sum =
      (t.hdim * hdimPerTp + t.ffnMatrices * (t.hdim * ffPerTp)) * t.dtype.dbyte := by
  rw [sum_finishArgs (LayerArgs.fcBytes_of_ne (by decide)) (LayerArgs.fcBytes_of_ne (by decide))
    (LayerArgs.fcBytes_of_ne (by decide))]
  unfold ffnMatrices
  cases t.ffnType <;> simp only [LayerArgs.fcBytes, LayerArgs.dbyte, if_true] <;> ring

/-- The weight bytes of a prefill block, summed over its shards. -/
theorem fcWeightBytes_sumBlock (s : Shards t) (attnOnHetero : Bool) (layerIdx : Option ℕ) :
    ((sumBlock s batch lin attnOnHetero layerIdx).map LayerArgs.fcBytes).sum * t.fcTp =
      (t.hdim * t.qkvProjOutTotal + t.hdim * t.hdim +
        t.ffnMatrices * (t.hdim * t.ffIntermediate)) * t.dtype.dbyte := by
  rw [sumBlock, List.map_append, List.sum_append, sum_fcBytes_finishArgs,
    sum_sumAttnArgs (LayerArgs.fcBytes_of_ne (by decide)) (LayerArgs.fcBytes_of_ne (by decide))]
  have hhdim : t.hdim * s.hdimPerTp * t.fcTp = t.hdim * t.hdim := by
    rw [mul_assoc, ← s.hdim_eq]
  have hff : s.ffPerTp * t.fcTp = t.ffIntermediate := by
    rw [t.fcTp_eq, ← t.ffTp_eq, ← s.ffIntermediate_eq]
  simp only [LayerArgs.fcBytes, LayerArgs.dbyte, if_true, reduceCtorEq, if_false]
  rw [s.qkvProjOutTotal_eq, ← hff, ← hhdim]
  ring

/-- The weight bytes of a decode block, summed over its shards. -/
theorem fcWeightBytes_genBlock (s : GenShards t) (stage : ℕ) (attnOnHetero : Bool) :
    ((genBlock s batch lin stage attnOnHetero).map LayerArgs.fcBytes).sum * t.fcTp =
      (t.hdim * t.qkvProjOutTotal + t.hdim * t.hdim +
        t.ffnMatrices * (t.hdim * t.ffIntermediate)) * t.dtype.dbyte := by
  rw [genBlock, List.map_append, List.sum_append, sum_fcBytes_finishArgs,
    sum_genAttnArgs (LayerArgs.fcBytes_of_ne (by decide))]
  have hhdim : t.hdim * s.hdimPerTp * t.fcTp = t.hdim * t.hdim := by
    rw [mul_assoc, ← s.hdim_eq]
  have hff : s.ffPerTp * t.fcTp = t.ffIntermediate := by
    rw [t.fcTp_eq, ← t.ffTp_eq, ← s.ffIntermediate_eq]
  simp only [LayerArgs.fcBytes, LayerArgs.dbyte, if_true, reduceCtorEq, if_false]
  rw [s.qkvProjOutTotal_eq, ← hff, ← hhdim]
  ring

/-- What the graph says a block weighs, over all FC shards: the output projection counts
`hdim * hdim`. -/
theorem fcWeightBytes_block {device : RoutingDevice} {layerIdx : Option ℕ}
    {sumDecoder : List Layer} {genDecoder : List (List Layer)}
    (h : t.buildBlocks batch lin lout device layerIdx = .ok (sumDecoder, genDecoder)) :
    ∀ block ∈ sumDecoder :: genDecoder, t.dtype.Supported ∧ 0 < t.fcTp ∧
      fcWeightBytes block * t.fcTp =
        (t.hdim * t.qkvProjOutTotal + t.hdim * t.hdim +
          t.ffnMatrices * (t.hdim * t.ffIntermediate)) * t.dtype.dbyte := by
  obtain ⟨hsupp, s, hsum, hgen⟩ := buildBlocks_eq_ok.mp h
  intro block hblock
  refine ⟨hsupp, s.fcTp_pos, ?_⟩
  rcases List.mem_cons.mp hblock with rfl | hblock
  · rw [fcWeightBytes_eq, hsum, fcWeightBytes_sumBlock]
  · obtain ⟨stage, -, hstage⟩ := exists_of_forall₂_right hgen hblock
    rw [fcWeightBytes_eq, hstage, fcWeightBytes_genBlock]

/-- What the capacity formula says all decoder layers weigh, over all FC shards: the
output projection counts `q_proj_out * hdim`. -/
theorem weightBytes_eq (t : Transformer) :
    t.weightBytes = t.ndec * ((t.hdim * t.qkvProjOutTotal + t.qProjOut * t.hdim +
      t.ffnMatrices * (t.hdim * t.ffIntermediate)) * t.dtype.wByte) := by
  unfold weightBytes ffnMatrices
  cases t.ffnType <;> simp only <;> ring

/-- The weights of one block against the capacity model: they agree exactly when the
output projection is square, or there is nothing to project. -/
theorem weights_eq_iff_of_buildBlocks {device : RoutingDevice} {layerIdx : Option ℕ}
    {sumDecoder : List Layer} {genDecoder : List (List Layer)}
    (hblocks : t.buildBlocks batch lin lout device layerIdx = .ok (sumDecoder, genDecoder))
    {block : List Layer} (hblock : block ∈ sumDecoder :: genDecoder)
    (batchSize lin' lout' : ℕ) :
    ((t.ndec * fcWeightBytes block : ℕ) : ℚ) =
        (t.computeMemComponents batchSize lin' lout').weightMemory ↔
      t.ndec = 0 ∨ t.hdim = 0 ∨ t.qProjOut = t.hdim := by
  obtain ⟨hsupp, htp, hbytes⟩ := fcWeightBytes_block hblocks block hblock
  have hdbyte : 0 < t.dtype.dbyte := by rcases hsupp with h | h <;> rw [h] <;> decide
  have hmemory : ((t.ndec * fcWeightBytes block : ℕ) : ℚ) =
      (t.computeMemComponents batchSize lin' lout').weightMemory ↔
      t.ndec * fcWeightBytes block * t.fcTp = t.weightBytes := by
    have hne : (t.fcTp : ℚ) ≠ 0 := Nat.cast_ne_zero.mpr htp.ne'
    rw [computeMemComponents, eq_div_iff hne]
    exact_mod_cast Iff.rfl
  rw [hmemory, mul_assoc, hbytes, weightBytes_eq, hsupp.wByte_eq]
  -- both sides differ in the output projection only
  refine ⟨?_, ?_⟩
  · intro h
    rcases Nat.eq_zero_or_pos t.ndec with hndec | hndec
    · exact .inl hndec
    · have h := Nat.eq_of_mul_eq_mul_right hdbyte (Nat.eq_of_mul_eq_mul_left hndec h)
      have hproj : t.hdim * t.hdim = t.hdim * t.qProjOut := by
        rw [mul_comm t.hdim t.qProjOut]
        omega
      rcases Nat.eq_zero_or_pos t.hdim with hhdim | hhdim
      · exact .inr (.inl hhdim)
      · exact .inr (.inr (Nat.eq_of_mul_eq_mul_left hhdim hproj).symm)
  · rintro (h | h | h)
    · rw [h, Nat.zero_mul, Nat.zero_mul]
    · simp only [h, Nat.mul_zero, Nat.zero_mul]
    · rw [h]

/-- **The compute graph and the capacity model see the same weights exactly when the
output projection is square**: for every block of every graph that was built, `ndec`
times its FC weight bytes is the capacity model's `weight_memory` if and only if the
model has no decoder layer, no hidden width, or `q_proj_out = hdim`. -/
theorem block_weights_eq_iff {attnOnHetero : Bool} {routing : Option (List RoutingEntry)}
    {imageSize : Option ImageSize} {graph : Graph}
    (hbuild : t.build batch lin lout attnOnHetero routing imageSize = .ok graph)
    {g : Group} (hg : g ∈ graph.groups) {block : List Layer}
    (hblock : block ∈ g.sumDecoder :: g.genDecoder) (batchSize lin' lout' : ℕ) :
    ((t.ndec * fcWeightBytes block : ℕ) : ℚ) =
        (t.computeMemComponents batchSize lin' lout').weightMemory ↔
      t.ndec = 0 ∨ t.hdim = 0 ∨ t.qProjOut = t.hdim := by
  obtain ⟨layerIdx, hblocks⟩ := buildBlocks_of_mem_build hbuild g hg
  exact weights_eq_iff_of_buildBlocks hblocks hblock batchSize lin' lout'

/-- The two agree for `LLAMA-7B`, whose 32 heads of size 128 fill its hidden width. -/
theorem block_weights_eq_llama7B : ∃ t graph g block,
    Transformer.new (makeModelConfig .llama7B .W16A16) 1 = .ok t ∧
      t.build 1 16 2 false none none = .ok graph ∧ g ∈ graph.groups ∧
      block ∈ g.sumDecoder :: g.genDecoder ∧
      ((t.ndec * fcWeightBytes block : ℕ) : ℚ) = (t.computeMemComponents 1 16 2).weightMemory := by
  obtain ⟨t, graph, g, ht, hbuild, hg, hproj⟩ : ∃ t graph g,
      Transformer.new (makeModelConfig .llama7B .W16A16) 1 = .ok t ∧
        t.build 1 16 2 false none none = .ok graph ∧ g ∈ graph.groups ∧ t.qProjOut = t.hdim :=
    ⟨_, _, _, rfl, rfl, List.mem_singleton.mpr rfl, rfl⟩
  exact ⟨t, graph, g, g.sumDecoder, ht, hbuild, hg, List.mem_cons_self,
    (block_weights_eq_iff hbuild hg List.mem_cons_self 1 16 2).mpr (.inr (.inr hproj))⟩

/-- They differ for `Qwen3-4B`, whose 32 heads of size 128 are wider than its hidden
width of 2560. -/
theorem block_weights_ne_qwen3 : ∃ t graph g,
    Transformer.new (makeModelConfig .qwen3_4B .W16A16) 1 = .ok t ∧
      t.build 1 16 2 false none none = .ok graph ∧ g ∈ graph.groups ∧
      ∀ block ∈ g.sumDecoder :: g.genDecoder,
        ((t.ndec * fcWeightBytes block : ℕ) : ℚ) ≠
          (t.computeMemComponents 1 16 2).weightMemory := by
  obtain ⟨t, graph, g, ht, hbuild, hg, hndec, hhdim, hproj⟩ : ∃ t graph g,
      Transformer.new (makeModelConfig .qwen3_4B .W16A16) 1 = .ok t ∧
        t.build 1 16 2 false none none = .ok graph ∧ g ∈ graph.groups ∧
        t.ndec = 36 ∧ t.hdim = 2560 ∧ t.qProjOut = 4096 :=
    ⟨_, _, _, rfl, rfl, List.mem_singleton.mpr rfl, rfl, rfl, rfl⟩
  refine ⟨t, graph, g, ht, hbuild, hg, ?_⟩
  intro block hblock heq
  obtain ⟨layerIdx, hblocks⟩ := buildBlocks_of_mem_build hbuild g hg
  rcases (weights_eq_iff_of_buildBlocks hblocks hblock 1 16 2).mp heq with h | h | h <;> omega

end Transformer

end AttAcc
