import AttAcc.Batches
import AttAcc.Library.Buckets

/-!
# The reported breakdown

A row reports a total and its breakdown three times over: the prefill times, the decode
times, and the decode energies, these once by level and once by layer type. The buckets are
filled by tests on the type and on the name of a layer, and from then on they are only
added up and scaled, so the breakdown of a row is exact when every layer splits the buckets
(`splits_gPerf_all` and what follows it). That takes what the builders promise about names,
`LayerArgs.wellNamed`, and what the devices promise about transfers, `ExactTransfers`: they
cost communication energy only, and an all-reduce takes no negative time.
-/

namespace AttAcc

open Library

/-! ### Exact breakdowns -/

/-- The decode times add up. -/
structure DecodeExact (g : GPerfKey → ℚ) : Prop where
  all : g .all = g .fc + g .matmul + g .comm + g .etc + g .softmax
  fc : g .fc = g .ff + g .qkv + g .prj
  comm : g .comm = g .g2g + g .x2g
  etc : g .etc = g .act + g .norm

/-- The prefill times add up, with an overhead that no bucket holds. -/
structure PrefillExact (s : SPerfKey → ℚ) (floor : ℚ) : Prop where
  all : s .all = s .fc + s .matmul + s .comm + s .softmax + s .act + s .norm + floor
  x2g_le : s .x2g ≤ s .comm

/-- The decode energies add up, by level and by layer type. -/
structure EnergyExact (e : EnergyColumn → ℚ) : Prop where
  levels : e .all = e .offmem + e .l2 + e .l1 + e .reg + e .alu + e .comm
  types : e .all = e .fcMem + e .fcComp + e .attnMem + e .attnComp + e .etcMem + e .etcComp +
    e .comm

theorem DecodeExact.zero : DecodeExact 0 := ⟨by simp, by simp, by simp, by simp⟩

theorem DecodeExact.add {g g' : GPerfKey → ℚ} (h : DecodeExact g) (h' : DecodeExact g') :
    DecodeExact (g + g') := by
  refine ⟨?_, ?_, ?_, ?_⟩ <;> simp only [Pi.add_apply]
  · linear_combination h.all + h'.all
  · linear_combination h.fc + h'.fc
  · linear_combination h.comm + h'.comm
  · linear_combination h.etc + h'.etc

theorem DecodeExact.mul {g : GPerfKey → ℚ} (h : DecodeExact g) (a : ℚ) :
    DecodeExact fun key => g key * a := by
  refine ⟨?_, ?_, ?_, ?_⟩
  · linear_combination a * h.all
  · linear_combination a * h.fc
  · linear_combination a * h.comm
  · linear_combination a * h.etc

theorem PrefillExact.zero : PrefillExact 0 0 := ⟨by simp, le_refl _⟩

theorem PrefillExact.add {s s' : SPerfKey → ℚ} {floor floor' : ℚ} (h : PrefillExact s floor)
    (h' : PrefillExact s' floor') : PrefillExact (s + s') (floor + floor') := by
  refine ⟨?_, add_le_add h.x2g_le h'.x2g_le⟩
  simp only [Pi.add_apply]
  linear_combination h.all + h'.all

theorem PrefillExact.mul {s : SPerfKey → ℚ} {floor : ℚ} (h : PrefillExact s floor) {a : ℚ}
    (ha : 0 ≤ a) : PrefillExact (fun key => s key * a) (floor * a) := by
  refine ⟨?_, mul_le_mul_of_nonneg_right h.x2g_le ha⟩
  linear_combination a * h.all

theorem EnergyExact.zero : EnergyExact 0 := ⟨by simp, by simp⟩

theorem EnergyExact.add {e e' : EnergyColumn → ℚ} (h : EnergyExact e) (h' : EnergyExact e') :
    EnergyExact (e + e') := by
  refine ⟨?_, ?_⟩ <;> simp only [Pi.add_apply]
  · linear_combination h.levels + h'.levels
  · linear_combination h.types + h'.types

theorem EnergyExact.mul {e : EnergyColumn → ℚ} (h : EnergyExact e) (a : ℚ) :
    EnergyExact fun column => e column * a := by
  refine ⟨?_, ?_⟩
  · linear_combination a * h.levels
  · linear_combination a * h.types

/-- **The breakdown of totals is exact**, up to the overhead of their prefill. -/
structure Totals.Exact (r : Totals) (floor : ℚ) : Prop where
  decode : DecodeExact r.gPerf
  prefill : PrefillExact r.sPerf floor
  energy : EnergyExact r.energy

/-- **The breakdown of a report is exact**, up to the overhead of its prefill. -/
structure Report.Exact (r : Report) (floor : ℚ) : Prop where
  decode : DecodeExact r.gPerf
  prefill : PrefillExact r.sPerf floor
  energy : EnergyExact r.energy

namespace Totals

theorem Exact.zero : Exact 0 0 := ⟨.zero, .zero, .zero⟩

theorem Exact.add {r r' : Totals} {floor floor' : ℚ} (h : r.Exact floor) (h' : r'.Exact floor') :
    (r + r').Exact (floor + floor') :=
  ⟨h.decode.add h'.decode, h.prefill.add h'.prefill, h.energy.add h'.energy⟩

theorem Exact.nsmul {r : Totals} (h : r.Exact 0) (n : ℕ) : (n • r).Exact 0 := by
  have hprefill := h.prefill.mul (Nat.cast_nonneg n)
  rw [zero_mul] at hprefill
  rw [← scale_eq_nsmul]
  exact ⟨h.decode.mul n, hprefill, h.energy.mul n⟩

theorem Exact.sum {rs : List Totals} (h : ∀ r ∈ rs, r.Exact 0) : rs.sum.Exact 0 := by
  induction rs with
  | nil => exact .zero
  | cons r rs ih =>
    obtain ⟨hr, hrs⟩ := List.forall_mem_cons.mp h
    have hsum := hr.add (ih hrs)
    rw [add_zero] at hsum
    rw [List.sum_cons]
    exact hsum

/-- Reporting changes the units. -/
theorem Exact.report {r : Totals} {floor : ℚ} (h : r.Exact floor) :
    (Report.ofTotals r).Exact (floor * 1000) := by
  refine ⟨h.decode.mul 1000, h.prefill.mul (by norm_num), ?_⟩
  simp only [Report.ofTotals, div_eq_mul_inv]
  exact h.energy.mul 1000⁻¹

end Totals

theorem Report.Exact.add {r r' : Report} {floor floor' : ℚ} (h : r.Exact floor)
    (h' : r'.Exact floor') : (r + r').Exact (floor + floor') :=
  ⟨h.decode.add h'.decode, h.prefill.add h'.prefill, h.energy.add h'.energy⟩

/-! ### The classification of a layer -/

/-- A layer has the name its type calls for: the tests on names place it. -/
def LayerArgs.wellNamed (a : LayerArgs) : Bool :=
  match a.type with
  | .FC => a.name.hasFf || a.name.hasQkv || a.name.hasProj
  | .G2G => a.name.hasG2g
  | .X2G => a.name.hasX2g
  | _ => true

/-- The buckets a layer of the decode graph can add to. -/
def gPerfPlaces : List (List GPerfKey) :=
  [[.all, .fc, .ff], [.all, .fc, .qkv], [.all, .fc, .prj], [.all, .matmul], [.all, .comm, .x2g],
   [.all, .comm, .g2g], [.all, .etc, .act], [.all, .etc, .norm], [.all, .softmax]]

/-- The tests on types and names place every layer that is well named. -/
theorem gPerfKeys_mem_places {l : Layer} (h : l.wellNamed = true) : gPerfKeys l ∈ gPerfPlaces := by
  unfold LayerArgs.wellNamed at h
  unfold gPerfKeys
  cases htype : l.type with
  | FC =>
    rw [htype] at h
    dsimp only at h ⊢
    split_ifs with hff hqkv hproj
    · decide
    · decide
    · decide
    · simp [hff, hqkv, hproj] at h
  | MATMUL => simp [gPerfPlaces]
  | ACT => simp [gPerfPlaces]
  | SOFTMAX => simp [gPerfPlaces]
  | NORM => simp [gPerfPlaces]
  | G2G =>
    rw [htype] at h
    dsimp only at h ⊢
    split_ifs
    · decide
    · decide
  | X2G =>
    rw [htype] at h
    dsimp only at h ⊢
    rw [if_pos h]
    decide

/-- The buckets a layer of the prefill graph can add to. -/
def sPerfPlaces : List (List SPerfKey) :=
  [[.all, .fc], [.all, .matmul], [.all, .comm], [.all, .comm, .x2g], [.all, .softmax], [.all, .act],
   [.all, .norm]]

theorem sPerfKeys_mem_places (l : Layer) : sPerfKeys l ∈ sPerfPlaces := by
  unfold sPerfKeys
  cases l.type <;> decide

/-- The prefill times of layers add up, if an all-reduce takes no negative time. -/
theorem prefillExact_collectSPerf {ls : List SimLayer}
    (hcomm : ∀ l ∈ ls, l.layer.type = .G2G → 0 ≤ l.execTime) :
    PrefillExact (collectSPerf ls) 0 := by
  have hcollect : collectSPerf ls =
      collect (fun l : SimLayer => sPerfKeys l.layer) SimLayer.execTime ls := rfl
  have hplaces : ∀ keys ∈ sPerfPlaces,
      Splits (fun keys => keys) [.fc, .matmul, .comm, .softmax, .act, .norm] .all keys := by
    decide
  rw [hcollect]
  have hsplits : ∀ l ∈ ls, Splits (fun l : SimLayer => sPerfKeys l.layer)
      [.fc, .matmul, .comm, .softmax, .act, .norm] .all l := by
    intro l _
    exact hplaces _ (sPerfKeys_mem_places l.layer)
  refine ⟨?_, ?_⟩
  · rw [collect_eq_sum hsplits]
    simp only [List.map_cons, List.map_nil, List.sum_cons, List.sum_nil]
    ring
  · refine collect_le ?_ ?_
    · intro l _ hx2g
      have hcomm : ∀ keys ∈ sPerfPlaces, .x2g ∈ keys → .comm ∈ keys := by decide
      exact hcomm _ (sPerfKeys_mem_places l.layer) hx2g
    · intro l hl hmem hnot
      apply hcomm l hl
      -- what is left of the transfers without the X2G ones
      unfold sPerfKeys at hmem hnot
      cases htype : l.layer.type <;> rw [htype] at hmem hnot <;> simp at hmem hnot ⊢

/-- The decode times of well-named layers add up. -/
theorem decodeExact_collectGPerf {blocks : List (List SimLayer)}
    (hnamed : ∀ l ∈ blocks.flatten, l.layer.wellNamed = true) :
    DecodeExact (collectGPerf blocks) := by
  have hcollect : collectGPerf blocks =
      collect (fun l : SimLayer => gPerfKeys l.layer) SimLayer.execTime blocks.flatten := rfl
  have hsum : ∀ parts key, (∀ keys ∈ gPerfPlaces, Splits (fun keys => keys) parts key keys) →
      collectGPerf blocks key = (parts.map (collectGPerf blocks)).sum := by
    intro parts key hplaces
    rw [hcollect]
    exact collect_eq_sum fun l hl => hplaces _ (gPerfKeys_mem_places (hnamed l hl))
  refine ⟨?_, ?_, ?_, ?_⟩
  · rw [hsum [.fc, .matmul, .comm, .etc, .softmax] .all (by decide)]
    simp only [List.map_cons, List.map_nil, List.sum_cons, List.sum_nil]
    ring
  · rw [hsum [.ff, .qkv, .prj] .fc (by decide)]
    simp only [List.map_cons, List.map_nil, List.sum_cons, List.sum_nil]
    ring
  · rw [hsum [.g2g, .x2g] .comm (by decide)]
    simp only [List.map_cons, List.map_nil, List.sum_cons, List.sum_nil, add_zero]
  · rw [hsum [.act, .norm] .etc (by decide)]
    simp only [List.map_cons, List.map_nil, List.sum_cons, List.sum_nil, add_zero]

/-! ### The energies of a decode graph -/

theorem EnergyExact.initial : EnergyExact GenEnergies.zero.column := by
  refine ⟨?_, ?_⟩ <;> simp [GenEnergies.column, GenEnergies.zero, LayerType.values]

/-- The entries of the energy vector add up level by level. -/
theorem levels_accumulate {acc : GenEnergies} (h : EnergyExact acc.column) (l : SimLayer) :
    (acc.accumulate l).column .all =
      (acc.accumulate l).column .offmem + (acc.accumulate l).column .l2 +
        (acc.accumulate l).column .l1 + (acc.accumulate l).column .reg +
        (acc.accumulate l).column .alu + (acc.accumulate l).column .comm := by
  have hlevels := h.levels
  have hcomm : (acc.accumulate l).column .comm = acc.column .comm + l.energy .comm := by
    simp only [GenEnergies.column, GenEnergies.accumulate, LayerType.values, List.map_cons,
      List.map_nil, List.sum_cons, List.sum_nil, EnergyComponent.of]
    cases l.layer.type <;> simp <;> ring
  rw [hcomm]
  simp only [GenEnergies.column, GenEnergies.accumulate, Pi.add_apply, Energy.total] at hlevels ⊢
  linear_combination hlevels

/-- They add up by layer type where a transfer costs communication energy only: its other
energies would be in no column. -/
theorem types_accumulate {acc : GenEnergies} (h : EnergyExact acc.column) {l : SimLayer}
    (hl : l.layer.type = .X2G ∨ l.layer.type = .G2G → ∃ e, l.energy = XpuConfig.commEnergy e) :
    (acc.accumulate l).column .all =
      (acc.accumulate l).column .fcMem + (acc.accumulate l).column .fcComp +
        (acc.accumulate l).column .attnMem + (acc.accumulate l).column .attnComp +
        (acc.accumulate l).column .etcMem + (acc.accumulate l).column .etcComp +
        (acc.accumulate l).column .comm := by
  have htypes := h.types
  simp only [GenEnergies.column, GenEnergies.accumulate, LayerType.values, List.map_cons,
    List.map_nil, List.sum_cons, List.sum_nil, EnergyComponent.of] at htypes ⊢
  cases htype : l.layer.type with
  | X2G =>
    obtain ⟨e, he⟩ := hl (.inl htype)
    simp [he, XpuConfig.commEnergy]
    linear_combination htypes
  | G2G =>
    obtain ⟨e, he⟩ := hl (.inr htype)
    simp [he, XpuConfig.commEnergy]
    linear_combination htypes
  | _ =>
    simp [Energy.total, Energy.comp]
    linear_combination htypes

theorem EnergyExact.accumulate {acc : GenEnergies} (h : EnergyExact acc.column) {l : SimLayer}
    (hl : l.layer.type = .X2G ∨ l.layer.type = .G2G → ∃ e, l.energy = XpuConfig.commEnergy e) :
    EnergyExact (acc.accumulate l).column :=
  ⟨levels_accumulate h l, types_accumulate h hl⟩

theorem EnergyExact.foldl {acc : GenEnergies} (h : EnergyExact acc.column) {ls : List SimLayer}
    (hls : ∀ l ∈ ls, l.layer.type = .X2G ∨ l.layer.type = .G2G →
      ∃ e, l.energy = XpuConfig.commEnergy e) :
    EnergyExact (ls.foldl GenEnergies.accumulate acc).column := by
  induction ls generalizing acc with
  | nil => exact h
  | cons l ls ih =>
    obtain ⟨hl, hls⟩ := List.forall_mem_cons.mp hls
    exact ih (h.accumulate hl) hls

/-! ### The passes over a group -/

/-- What the breakdown needs of the devices: a transfer costs communication energy only, and
an all-reduce takes no negative time. -/
structure ExactTransfers (sys : Platform) : Prop where
  energy : ∀ {device : RoutingDevice} {l : Layer} {o : Outcome}, sys.timeOn device l = .ok o →
    l.type = .X2G ∨ l.type = .G2G → ∃ e, o.energy = XpuConfig.commEnergy e
  nonneg : ∀ {device : RoutingDevice} {l : Layer} {o : Outcome}, sys.timeOn device l = .ok o →
    l.type = .G2G → 0 ≤ o.execTime

/-- Configured devices are such devices: an all-reduce is always timed on the GPUs. -/
theorem ExactTransfers.ofConfigs {sys : Platform} {gpu : XpuConfig} {acc : AccConfig}
    (hgpu : sys.gpu = gpu.device) (hacc : sys.acc = acc.device)
    (hbw : 0 ≤ gpu.maxInterfaceBandwidth) : ExactTransfers sys := by
  refine ⟨?_, ?_⟩
  · intro device l o h hl
    unfold Platform.timeOn at h
    split_ifs at h with hdevice
    · rw [hacc] at h
      exact AccConfig.energy_of_transfer h hl
    · rw [hgpu] at h
      exact XpuConfig.energy_of_transfer h hl
  · intro device l o h hl
    have hdevice : ¬(device ≠ .gpu ∧ (l.type = .MATMUL ∨ l.type = .SOFTMAX ∨ l.type = .X2G)) := by
      simp [hl]
    rw [Platform.timeOn, if_neg hdevice, hgpu] at h
    exact XpuConfig.execTime_nonneg_of_allReduce hbw h hl

namespace Platform

variable {sys : Platform} {t : Transformer} {args : PassArgs} {bs : ℕ} {device : RoutingDevice}

/-- The loop over the decode blocks keeps the energies exact. -/
theorem energyExact_simulateGenBlocks (p : ExactTransfers sys) {acc acc' : GenEnergies}
    {blocks out : List (List SimLayer)} (hacc : EnergyExact acc.column)
    (h : sys.simulateGenBlocks t args bs device acc blocks = .ok (out, acc')) :
    EnergyExact acc'.column := by
  induction blocks generalizing acc out with
  | nil =>
    obtain ⟨-, rfl⟩ := Prod.mk.inj (Except.ok.inj h)
    exact hacc
  | cons block blocks ih =>
    obtain ⟨⟨block', acc₁⟩, hblock, h⟩ := bind_ok_iff.mp h
    obtain ⟨⟨blocks', acc₂⟩, hblocks, h⟩ := bind_ok_iff.mp h
    obtain ⟨-, rfl⟩ := Prod.mk.inj (Except.ok.inj h)
    obtain ⟨timed, htimed, hblock⟩ := bind_ok_iff.mp hblock
    obtain ⟨adjusted, -, hblock⟩ := bind_ok_iff.mp hblock
    obtain ⟨-, rfl⟩ := Prod.mk.inj (Except.ok.inj hblock)
    refine ih (hacc.foldl ?_) hblocks
    intro l' hl' htype
    obtain ⟨l, -, hl⟩ := exists_of_mem_mapM htimed l' hl'
    obtain ⟨o, ho, hl⟩ := bind_ok_iff.mp hl
    obtain rfl := Except.ok.inj hl
    exact p.energy ho htype

/-- A group whose layers are well named, whatever their attributes. -/
structure WellNamed (g : SimGroup) : Prop where
  sumDecoder : ∀ l ∈ g.sumDecoder.map SimLayer.layer, l.wellNamed = true
  genDecoder : ∀ block ∈ g.genDecoder.map (List.map SimLayer.layer), ∀ l ∈ block,
    l.wellNamed = true

/-- The efficiency of the attention pipeline does not apply to an all-reduce. -/
theorem isAttention_of_allReduce {l : Layer} (hnamed : l.wellNamed = true) (hl : l.type = .G2G) :
    l.name.isAttention = false ∧ l.name ≠ .score := by
  unfold LayerArgs.wellNamed at hnamed
  rw [hl] at hnamed
  cases hname : l.name <;> rw [hname] at hnamed <;> revert hnamed <;> decide

/-- The times of the all-reduces in the prefill loop. The score of a PIM group is timed in
another way, and is no all-reduce if the layers are well named. -/
theorem nonneg_simulateSumLayers (p : ExactTransfers sys) {time wrtIoBusy : ℚ}
    {ls out : List SimLayer}
    (hnamed : device = .pim → ∀ l ∈ ls.map SimLayer.layer, l.wellNamed = true)
    (h : sys.simulateSumLayers device time wrtIoBusy ls = .ok out) :
    ∀ l ∈ out, l.layer.type = .G2G → 0 ≤ l.execTime := by
  induction ls generalizing time wrtIoBusy out with
  | nil =>
    obtain rfl := Except.ok.inj h
    intro l hl
    exact absurd hl List.not_mem_nil
  | cons l ls ih =>
    obtain ⟨o, ho, h⟩ := bind_ok_iff.mp h
    obtain ⟨rest, hrest, h⟩ := bind_ok_iff.mp h
    obtain rfl := Except.ok.inj h
    refine List.forall_mem_cons.mpr ⟨?_, ?_⟩
    · intro hl
      have hl : l.layer.type = .G2G := hl
      have hscore : ¬(device = .pim ∧ l.layer.name = .score) := by
        rintro ⟨hpim, hscore⟩
        have hnamed := hnamed hpim l.layer List.mem_cons_self
        exact (isAttention_of_allReduce hnamed hl).2 hscore
      rw [timeSum, if_neg hscore] at ho
      have hx2g : l.layer.type ≠ .X2G := by simp [hl]
      show 0 ≤ if l.layer.type = .X2G then _ else o.execTime
      rw [if_neg hx2g]
      exact p.nonneg ho hl
    · refine ih ?_ hrest
      intro hpim l' hl'
      exact hnamed hpim l' (List.mem_cons_of_mem _ hl')

/-- The efficiency of the attention pipeline applies to the attention layers of a PIM group. -/
theorem exists_of_mem_applyEffLat {numHbm batchSize : ℕ} {block out : List SimLayer}
    (h : applyEffLat numHbm batchSize device block = .ok out) :
    ∀ l' ∈ out, ∃ l ∈ block, l'.layer = l.layer ∧
      ((device = .pim → l.layer.name.isAttention = false) → l' = l) := by
  intro l' hl'
  unfold applyEffLat at h
  split_ifs at h with hdevice
  · obtain rfl := Except.ok.inj h
    exact ⟨l', hl', rfl, fun _ => rfl⟩
  · have hpim : device = .pim := not_not.mp hdevice
    rcases hfind : block.find? (fun l => decide (l.layer.name = .score)) with _ | scoreLayer
    · rw [hfind] at h
      obtain rfl := Except.ok.inj h
      exact ⟨l', hl', rfl, fun _ => rfl⟩
    · rw [hfind] at h
      obtain ⟨effLat, -, h⟩ := bind_ok_iff.mp h
      obtain ⟨l, hl, hstep⟩ := exists_of_mem_mapM h l' hl'
      refine ⟨l, hl, ?_⟩
      split_ifs at hstep with hname
      · obtain ⟨execTime, -, hstep⟩ := bind_ok_iff.mp hstep
        obtain rfl := Except.ok.inj hstep
        refine ⟨rfl, fun hattention => ?_⟩
        rw [hattention hpim] at hname
        cases hname
      · obtain rfl := Except.ok.inj hstep
        exact ⟨rfl, fun _ => rfl⟩

/-- The prefill times of a group add up. -/
theorem prefillExact_simulateSumGroup (p : ExactTransfers sys) {ls out : List SimLayer} {flops : ℕ}
    (hnamed : device = .pim → ∀ l ∈ ls.map SimLayer.layer, l.wellNamed = true)
    (h : sys.simulateSumGroup args device ls = .ok (out, flops)) :
    PrefillExact (collectSPerf out) 0 := by
  obtain ⟨timed, htimed, h⟩ := bind_ok_iff.mp h
  obtain ⟨adjusted, hadjusted, h⟩ := bind_ok_iff.mp h
  obtain ⟨rfl, -⟩ := Prod.mk.inj (Except.ok.inj h)
  have hnonneg := nonneg_simulateSumLayers p hnamed htimed
  have hlayers := map_layer_simulateSumLayers htimed
  apply prefillExact_collectSPerf
  intro l' hl' htype
  obtain ⟨l, hl, hlayer, heq⟩ := exists_of_mem_applyEffLat hadjusted l' hl'
  rw [hlayer] at htype
  have hname : device = .pim → l.layer.name.isAttention = false := by
    intro hpim
    have hmem : l.layer ∈ ls.map SimLayer.layer := hlayers ▸ List.mem_map_of_mem hl
    exact (isAttention_of_allReduce (hnamed hpim l.layer hmem) htype).1
  rw [heq hname]
  exact hnonneg l hl htype

/-- **What a group reports for one layer is broken down exactly.** -/
theorem exact_groupTotals (p : ExactTransfers sys) {g : SimGroup} (hg : WellNamed g)
    {totals : Totals} (h : sys.groupTotals t args bs g = .ok totals) : totals.Exact 0 := by
  obtain ⟨g', h⟩ := groupTotals_eq_ok.mp h
  obtain ⟨⟨sDecoder, sFlops⟩, hsum, h⟩ := bind_ok_iff.mp h
  obtain ⟨⟨gDecoder, gFlops, energies⟩, hgen, h⟩ := bind_ok_iff.mp h
  obtain ⟨-, rfl⟩ := Prod.mk.inj (Except.ok.inj h)
  obtain ⟨⟨gDecoder', energies'⟩, hblocks, hgen⟩ := bind_ok_iff.mp hgen
  obtain ⟨hdecoder, hgen⟩ := Prod.mk.inj (Except.ok.inj hgen)
  obtain ⟨-, henergies⟩ := Prod.mk.inj hgen
  subst hdecoder henergies
  refine ⟨?_, prefillExact_simulateSumGroup p (fun _ => hg.sumDecoder) hsum, ?_⟩
  · have hdecode : DecodeExact (collectGPerf gDecoder') := by
      apply decodeExact_collectGPerf
      intro l hl
      obtain ⟨block, hblock, hl⟩ := List.mem_flatten.mp hl
      have hmem := List.mem_map_of_mem (f := List.map SimLayer.layer) hblock
      rw [map_layer_simulateGenBlocks hblocks] at hmem
      exact hg.genDecoder _ hmem l.layer (List.mem_map_of_mem hl)
    simp only [div_eq_mul_inv]
    exact hdecode.mul _
  · have henergy := energyExact_simulateGenBlocks p .initial hblocks
    show EnergyExact (collectEnergies energies' args.genSteps)
    unfold collectEnergies
    simp only [div_eq_mul_inv]
    exact henergy.mul _

/-- The vision pass reports prefill times only, and the overhead where there is a vision
graph. -/
theorem exact_visionTotals (p : ExactTransfers sys) {vision : List SimLayer} {totals : Totals}
    (h : sys.visionTotals t args vision = .ok totals) :
    totals.Exact (if vision.isEmpty then 0 else vlmFloor t) := by
  obtain ⟨vision', h⟩ := visionTotals_eq_ok.mp h
  unfold simulateVision at h
  split_ifs at h ⊢ with hempty
  · obtain ⟨-, rfl⟩ := Prod.mk.inj (Except.ok.inj h)
    exact .zero
  · obtain ⟨⟨out, flops⟩, hout, h⟩ := bind_ok_iff.mp h
    obtain ⟨-, rfl⟩ := Prod.mk.inj (Except.ok.inj h)
    have hnamed : RoutingDevice.gpu = .pim →
        ∀ l ∈ vision.map SimLayer.layer, l.wellNamed = true := nofun
    have hprefill := prefillExact_simulateSumGroup p hnamed hout
    refine ⟨.zero, ?_, .zero⟩
    refine ⟨?_, ?_⟩
    · have hall := hprefill.all
      simp only [if_pos, reduceCtorEq, if_false]
      linear_combination hall
    · simpa using hprefill.x2g_le

/-- **What an iteration reports is broken down exactly.** -/
theorem exact_batchTotals (p : ExactTransfers sys) {graph : SimGraph}
    (hgraph : ∀ g ∈ graph.groups, WellNamed g) {totals : Totals}
    (h : sys.batchTotals t args bs graph = .ok totals) :
    totals.Exact (if graph.visionDecoder.isEmpty then 0 else vlmFloor t) := by
  obtain ⟨vision, hvision, hgroups, rfl⟩ := batchTotals_eq_ok.mp h
  have hsum : (graph.groups.map fun g =>
      g.count • valueOf (sys.groupTotals t args bs g)).sum.Exact 0 := by
    apply Totals.Exact.sum
    intro r hr
    obtain ⟨g, hg, rfl⟩ := List.mem_map.mp hr
    obtain ⟨r, hr⟩ := hgroups g hg
    rw [hr, valueOf_ok]
    exact (exact_groupTotals p (hgraph g hg) hr).nsmul g.count
  have hexact := (exact_visionTotals p hvision).add hsum
  rw [add_zero] at hexact
  exact hexact

end Platform

/-! ### The built graph -/

namespace Transformer

variable {t : Transformer}

theorem wellNamed_finishArgs {stage : Stage} {tokens hdimPerTp ffPerTp : ℕ} :
    ∀ a ∈ t.finishArgs stage tokens hdimPerTp ffPerTp, a.wellNamed = true := by
  unfold finishArgs projArgs ffnArgs closeArgs
  cases t.ffnType with
  | gated => simp [LayerArgs.wellNamed, LayerName.hasFf, LayerName.hasProj, LayerName.hasG2g]
  | standard => simp [LayerArgs.wellNamed, LayerName.hasFf, LayerName.hasProj, LayerName.hasG2g]

theorem wellNamed_genAttnArgs {batch kvLen : ℕ} {attnOnHetero : Bool} {q kv qkv qa : ℕ} :
    ∀ a ∈ t.genAttnArgs batch kvLen attnOnHetero q kv qkv qa, a.wellNamed = true := by
  unfold genAttnArgs
  cases attnOnHetero with
  | true => simp [LayerArgs.wellNamed, LayerName.hasQkv, LayerName.hasX2g]
  | false => simp [LayerArgs.wellNamed, LayerName.hasQkv]

theorem wellNamed_sumAttnArgs {batch lin : ℕ} {attnOnHetero : Bool} {layerIdx : Option ℕ}
    {q kv qkv qf kvf qa : ℕ} :
    ∀ a ∈ t.sumAttnArgs batch lin attnOnHetero layerIdx q kv qkv qf kvf qa,
      a.wellNamed = true := by
  unfold sumAttnArgs
  simp only [List.forall_mem_append]
  refine ⟨⟨⟨⟨?_, ?_⟩, ?_⟩, ?_⟩, ?_⟩
  · simp [LayerArgs.wellNamed, LayerName.hasQkv]
  · cases attnOnHetero with
    | true => simp [LayerArgs.wellNamed, LayerName.hasX2g]
    | false => simp
  · simp [LayerArgs.wellNamed]
  · cases layerIdx with
    | none => simp
    | some idx =>
      dsimp only
      split_ifs
      · simp [LayerArgs.wellNamed]
      · simp
  · cases attnOnHetero with
    | true => simp [LayerArgs.wellNamed, LayerName.hasX2g]
    | false => simp

theorem wellNamed_genBlock {s : GenShards t} {batch lin stage : ℕ} {attnOnHetero : Bool} :
    ∀ a ∈ genBlock s batch lin stage attnOnHetero, a.wellNamed = true := by
  intro a ha
  rcases List.mem_append.mp ha with ha | ha
  · exact wellNamed_genAttnArgs a ha
  · exact wellNamed_finishArgs a ha

theorem wellNamed_sumBlock {s : Shards t} {batch lin : ℕ} {attnOnHetero : Bool}
    {layerIdx : Option ℕ} :
    ∀ a ∈ sumBlock s batch lin attnOnHetero layerIdx, a.wellNamed = true := by
  intro a ha
  rcases List.mem_append.mp ha with ha | ha
  · exact wellNamed_sumAttnArgs a ha
  · exact wellNamed_finishArgs a ha

/-- The layers of a list of well-named arguments, as simulation finds them. -/
theorem wellNamed_of_map_eq {ls : List Layer} {as : List LayerArgs}
    (has : ∀ a ∈ as, a.wellNamed = true) (h : ls.map Layer.toLayerArgs = as) :
    ∀ l ∈ (ls.map SimLayer.fresh).map SimLayer.layer, l.wellNamed = true := by
  intro l hl
  rw [List.map_map] at hl
  obtain ⟨l', hl', rfl⟩ := List.mem_map.mp hl
  exact has l'.toLayerArgs (h ▸ List.mem_map_of_mem hl')

/-- **Every layer of the groups that `build` leaves is well named.** -/
theorem wellNamed_of_mem_build {batch lin lout : ℕ} {attnOnHetero : Bool}
    {routing : Option (List RoutingEntry)} {imageSize : Option ImageSize} {graph : Graph}
    (hbuild : t.build batch lin lout attnOnHetero routing imageSize = .ok graph) :
    ∀ g ∈ (SimGraph.fresh graph).groups, Platform.WellNamed g := by
  intro fresh hfresh
  obtain ⟨g, hg, rfl⟩ := List.mem_map.mp hfresh
  obtain ⟨layerIdx, hblocks⟩ := buildBlocks_of_mem_build hbuild g hg
  obtain ⟨-, s, hsum, hgen⟩ := buildBlocks_eq_ok.mp hblocks
  refine ⟨wellNamed_of_map_eq wellNamed_sumBlock hsum, ?_⟩
  intro layers hlayers
  obtain ⟨timed, htimed, rfl⟩ := List.mem_map.mp hlayers
  obtain ⟨block, hblock, rfl⟩ := List.mem_map.mp htimed
  obtain ⟨stage, -, hargs⟩ := exists_of_forall₂_right hgen hblock
  exact wellNamed_of_map_eq wellNamed_genBlock hargs

end Transformer

/-- The floor overhead of one prefill, in ms: that of the model, where there is a vision
graph. -/
def Graph.floorMs (graph : Graph) (t : Transformer) : ℚ :=
  if graph.visionDecoder.isEmpty then 0 else max 0 t.vlmFloorOverheadMs

theorem Graph.floorMs_eq (graph : Graph) (t : Transformer) :
    (if (SimGraph.fresh graph).visionDecoder.isEmpty then 0 else Platform.vlmFloor t) * 1000 =
      graph.floorMs t := by
  have hempty : (SimGraph.fresh graph).visionDecoder.isEmpty = graph.visionDecoder.isEmpty :=
    List.isEmpty_map
  rw [hempty, Graph.floorMs, Platform.vlmFloor]
  split_ifs with hvision hfloor
  · exact zero_mul 1000
  · rw [max_eq_right hfloor.le]
    ring
  · rw [max_eq_left (not_lt.mp hfloor)]
    exact zero_mul 1000

namespace System

variable {sys : System} {t : Transformer} {args : SimArgs}

/-- **The breakdown of every row is exact**: for every model, routing and setting, on every
configured system. Every iteration over the batches adds the floor overhead of its
prefill. -/
theorem simulate_breakdown {gpu : XpuConfig} {acc : AccConfig} (hgpu : sys.gpu = gpu.device)
    (hacc : sys.acc = acc.device) (hbw : 0 ≤ gpu.maxInterfaceBandwidth)
    (hmodel : sys.model = some t) {row : Row} (hrow : sys.simulate args = .ok row) :
    ∃ groups graph, sys.routing t = .ok groups ∧
      t.build args.batchSize args.lin args.lout sys.isHetero groups sys.imageSize = .ok graph ∧
      row.report.Exact ((Platform.targetBs args).length * graph.floorMs t) := by
  obtain ⟨groups, graph, totals, hrouting, hbuild, htotals, -, hreport⟩ :=
    exists_totals_of_simulate hmodel hrow
  have p := ExactTransfers.ofConfigs hgpu hacc hbw
  have hgraph := Transformer.wellNamed_of_mem_build hbuild
  have hfirst := (Platform.exact_batchTotals p hgraph htotals).report
  rw [Graph.floorMs_eq] at hfirst
  refine ⟨groups, graph, hrouting, hbuild, ?_⟩
  unfold Platform.targetBs
  split_ifs at hreport ⊢ with hrest
  · obtain ⟨totals', htotals', hreport⟩ := hreport
    have hsecond := (Platform.exact_batchTotals p hgraph htotals').report
    rw [Graph.floorMs_eq] at hsecond
    have hboth := hfirst.add hsecond
    rw [← two_mul] at hboth
    rw [hreport]
    exact hboth
  · rw [hreport]
    simpa using hfirst

/-- `Qwen2.5-VL-7B`, with its sizes split over eight devices, and with a ViT of some size. -/
theorem exists_qwen25VL_shards : ∃ (t : Transformer) (vision : List Layer),
    Transformer.new (makeModelConfig .qwen25VL7B .W16A16) 8 = .ok t ∧ t.HasSizes ∧ t.ndec = 28 ∧
      t.dhead = 128 ∧ t.hasDeepstack = false ∧ t.dtype.Supported ∧ t.vlmFloorOverheadMs = 22 ∧
      t.buildVision 2 none = .ok vision ∧ vision ≠ [] ∧ (∀ l ∈ vision, l.toLayerArgs.Proper) ∧
      Nonempty (Shards t) := by
  obtain ⟨t, ht, hsizes, hndec, hdhead, hdeep, hsupp, hfloor, hvision, hshards⟩ : ∃ t,
      Transformer.new (makeModelConfig .qwen25VL7B .W16A16) 8 = .ok t ∧ t.HasSizes ∧
        t.ndec = 28 ∧ t.dhead = 128 ∧ t.hasDeepstack = false ∧ t.dtype.Supported ∧
        t.vlmFloorOverheadMs = 22 ∧
        ((t.buildVision 2 none).map fun vision => decide (vision ≠ [] ∧
          ∀ l ∈ vision, l.type = .X2G ∨ 0 < l.m ∧ 0 < l.n ∧ 0 < l.numOp)) = .ok true ∧
        Nonempty (Shards t) :=
    ⟨_, rfl, ⟨by decide, by decide, by decide, by decide⟩, rfl, rfl, rfl, .inl rfl, rfl,
      by decide +kernel,
      ⟨⟨⟨7, 1, 576, 896, 448, 2368, by decide, by decide, rfl, rfl, rfl, rfl, rfl, rfl⟩, 448, 64,
        rfl, rfl⟩⟩⟩
  rcases hlayers : t.buildVision 2 none with e | vision
  · rw [hlayers] at hvision
    cases hvision
  · rw [hlayers] at hvision
    obtain ⟨hne, hsides⟩ := of_decide_eq_true (Except.ok.inj hvision)
    exact ⟨t, vision, ht, hsizes, hndec, hdhead, hdeep, hsupp, hfloor, hlayers, hne,
      fun l hl => LayerArgs.proper_of_sides (hsides l hl), hshards⟩

/-- The breakdown of a run of `Qwen2.5-VL-7B` on a DGX with AttAcc: five requests take two
iterations, each with the floor overhead of its images. -/
theorem simulate_breakdown_qwen25VL : ∃ (t : Transformer) (row : Row),
    Transformer.new (makeModelConfig .qwen25VL7B .W16A16) 8 = .ok t ∧
      (dgxAttacc t oneCycle).simulate fiveRequests = .ok row ∧ row.report.Exact 44 := by
  obtain ⟨t, vision, ht, hsizes, hndec, hdhead, hdeep, hsupp, hfloor, hvision, hne, hproper, ⟨s⟩⟩ :=
    exists_qwen25VL_shards
  obtain ⟨row, hrow⟩ : ∃ row, (dgxAttacc t oneCycle).simulate fiveRequests = .ok row :=
    exists_simulate_dgxAttacc hsizes hdhead hdeep (by omega) hsupp s hvision hproper (by decide)
      (by decide) (by decide)
  have hbw := makeGpuConfig_maxInterfaceBandwidth_pos .H100 8
  have hacc : (dgxAttacc t oneCycle).acc =
      (AccConfig.pim (makePimConfig .BA .NVLINK4 8 5 false) oneCycle).device := rfl
  obtain ⟨groups, graph, -, hbuild, hexact⟩ := simulate_breakdown rfl hacc hbw.le rfl hrow
  have hgraph : graph.visionDecoder = vision := by
    obtain ⟨vision', hvision', hgroups⟩ := bind_ok_iff.mp hbuild
    obtain ⟨groups', _, hgraph⟩ := bind_ok_iff.mp hgroups
    obtain rfl := Except.ok.inj (hvision.symm.trans hvision')
    obtain rfl := Except.ok.inj hgraph
    rfl
  have hms : ((2 : ℕ) : ℚ) * graph.floorMs t = 44 := by
    rw [Graph.floorMs, hgraph, hfloor, if_neg (by simpa using hne)]
    norm_num
  exact ⟨t, row, ht, hrow, hms ▸ hexact⟩

end System

end AttAcc
