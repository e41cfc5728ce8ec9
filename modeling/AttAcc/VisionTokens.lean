import AttAcc.Config
import AttAcc.AnyRes

/-!
# Token counts of the vision stages

`compute_visual_tokens`, `compute_vit_tokens` and `compute_vit_num_images` count patches on
their own, one for the projector and two for the ViT. The projector's count is at least one
image token, the ViT's may be zero; so the stages agree exactly on images that have enough
patches (`tokensAgree_iff`).
-/

namespace AttAcc

open Library

namespace Transformer

variable {t : Transformer} {batch : ℕ} {imageSize : Option ImageSize}

/-- The newline tokens among the visual tokens: one for each row of the chosen grid. -/
def newlineTokens (t : Transformer) (imageSize : Option ImageSize) : Except PyError ℕ := do
  if t.usesGrid && t.useImageNewlineParameter then
    let (_, gridH) ← t.chosenResolution imageSize
    intDiv gridH t.patchSize
  else return 0

/-- How many ViT tokens go into a visual token: AnyRes models do not merge. -/
def mergeFactor (t : Transformer) : ℕ :=
  if t.isAnyres then 1 else t.spatialMergeSize * t.spatialMergeSize

/-- The token counts of the two stages agree. -/
structure TokensAgree (t : Transformer) (batch : ℕ) (imageSize : Option ImageSize) : Prop where
  /-- the projector takes no more tokens than the ViT gives -/
  emitted : ∀ visual newlines numImages, t.computeVisualTokens imageSize = .ok visual →
    t.newlineTokens imageSize = .ok newlines → t.computeVitNumImages imageSize = .ok numImages →
      (visual - newlines) * t.mergeFactor ≤ t.computeVitTokens imageSize * numImages
  /-- there is a projector where there is a ViT, and only there -/
  stages : ∀ graph, t.buildVision batch imageSize = .ok graph →
    ((∃ l ∈ graph, l.stage = .projector) ↔ ∃ l ∈ graph, l.stage = .vit)

/-- There are patches enough: for one visual token, for one crop of an AnyRes image, or for
the visual tokens of an image of the default size. -/
def EnoughPatches (t : Transformer) (imageSize : Option ImageSize) : Prop :=
  t.numVisTokensPerImage = 0 ∨
    if t.usesGrid then
      ∀ grid, t.chosenResolution imageSize = .ok grid →
        t.patchSize ≤ t.imageSizeDefault ∨ grid.2 < t.patchSize ∨
          grid.1 < t.patchSize ∧ t.useImageNewlineParameter = false
    else match imageSize with
      | some s => t.mergeFactor ≤ (s.normalize.1 / t.patchSize) * (s.normalize.2 / t.patchSize)
      | none => 1 < t.spatialMergeSize ∨
          t.numVisTokensPerImage ≤ (t.imageSizeDefault / t.patchSize) ^ 2

theorem intDiv_of_pos (a : ℕ) {b : ℕ} (hb : 0 < b) : intDiv a b = .ok (a / b) :=
  if_neg hb.ne'

/-! ## The counts -/

section Counts

variable (hvis : t.numVisTokensPerImage ≠ 0) (hpatch : 0 < t.patchSize)
include hvis hpatch

/-- On a grid, the visual tokens are its patches, its newlines and the base image. -/
theorem computeVisualTokens_of_grid (hgrid : t.usesGrid = true) {visual : ℕ} :
    t.computeVisualTokens imageSize = .ok visual ↔
      ∃ grid, t.chosenResolution imageSize = .ok grid ∧
        visual = (grid.1 / t.patchSize) * (grid.2 / t.patchSize) +
          (if t.useImageNewlineParameter then grid.2 / t.patchSize else 0) +
            (t.imageSizeDefault / t.patchSize) ^ 2 := by
  unfold computeVisualTokens
  rw [if_neg hvis, if_pos hgrid, bind_ok_iff]
  simp only [intDiv_of_pos _ hpatch, bind, Except.bind, pure, Except.pure, Except.ok.injEq,
    eq_comm]

/-- The crops of an AnyRes image: the base image, and what covers the grid. -/
theorem computeVitNumImages_of_grid (hgrid : t.usesGrid = true) {numImages : ℕ} :
    t.computeVitNumImages imageSize = .ok numImages ↔
      ∃ grid, t.chosenResolution imageSize = .ok grid ∧
        numImages = 1 + ((grid.1 / t.patchSize) * (grid.2 / t.patchSize)) ⌈/⌉
          max 1 ((t.imageSizeDefault / t.patchSize) ^ 2) := by
  rw [computeVitNumImages, if_neg hvis, if_pos hgrid, bind_ok_iff]
  simp only [intDiv_of_pos _ hpatch, bind, Except.bind, pure, Except.pure, Except.ok.injEq,
    eq_comm]

theorem computeVitTokens_of_grid (hgrid : t.usesGrid = true) :
    t.computeVitTokens imageSize = (t.imageSizeDefault / t.patchSize) ^ 2 := by
  unfold computeVitTokens
  rw [if_neg (not_or.mpr ⟨hvis, hpatch.ne'⟩), if_pos hgrid]

/-- Off the grid, an image of a given size has its merged patches, but at least one. -/
theorem computeVisualTokens_of_size (hmerge : 0 < t.spatialMergeSize)
    (hgrid : t.usesGrid = false) (s : ImageSize) :
    t.computeVisualTokens (some s) = .ok (max 1
      ((s.normalize.1 / t.patchSize) * (s.normalize.2 / t.patchSize) /
        (t.spatialMergeSize * t.spatialMergeSize))) := by
  rw [computeVisualTokens, if_neg hvis, if_neg (by simp [hgrid])]
  simp only [if_pos hpatch, intDiv_of_pos _ (Nat.mul_pos hmerge hmerge)]
  rfl

theorem computeVitTokens_of_size (hgrid : t.usesGrid = false) (s : ImageSize) :
    t.computeVitTokens (some s) =
      (s.normalize.1 / t.patchSize) * (s.normalize.2 / t.patchSize) := by
  rw [computeVitTokens, if_neg (not_or.mpr ⟨hvis, hpatch.ne'⟩), if_neg (by simp [hgrid])]

/-- Without a size the patches are those the visual tokens are merged from, or, where nothing
is merged, those of the default image. -/
theorem computeVitTokens_of_none (hgrid : t.usesGrid = false) :
    t.computeVitTokens none =
      if 1 < t.spatialMergeSize then
        t.numVisTokensPerImage * (t.spatialMergeSize * t.spatialMergeSize)
      else (t.imageSizeDefault / t.patchSize) ^ 2 := by
  rw [computeVitTokens, if_neg (not_or.mpr ⟨hvis, hpatch.ne'⟩), if_neg (by simp [hgrid]), pow_two]

omit hpatch

theorem computeVisualTokens_of_none (hgrid : t.usesGrid = false) :
    t.computeVisualTokens none = .ok t.numVisTokensPerImage := by
  rw [computeVisualTokens, if_neg hvis, if_neg (by simp [hgrid])]
  rfl

theorem computeVitNumImages_of_not_grid (hgrid : t.usesGrid = false) :
    t.computeVitNumImages imageSize = .ok 1 := by
  rw [computeVitNumImages, if_neg hvis, if_neg (by simp [hgrid])]
  rfl

end Counts

theorem newlineTokens_of_not_grid (hgrid : t.usesGrid = false) :
    t.newlineTokens imageSize = .ok 0 := by
  rw [newlineTokens, if_neg (by simp [hgrid])]
  rfl

theorem newlineTokens_of_grid (hpatch : 0 < t.patchSize) (hgrid : t.usesGrid = true)
    {grid : ℕ × ℕ}
    (hselect : t.chosenResolution imageSize = .ok grid) :
    t.newlineTokens imageSize =
      .ok (if t.useImageNewlineParameter then grid.2 / t.patchSize else 0) := by
  rw [newlineTokens, hgrid, Bool.true_and]
  split_ifs
  · rw [hselect]
    exact intDiv_of_pos _ hpatch
  · rfl

/-! ## The stages of the graph -/

theorem mapM_new_eq_nil_iff {as : List LayerArgs} {ls : List Layer}
    (h : as.mapM Layer.new = .ok ls) : ls = [] ↔ as = [] := by
  rw [← (Layer.mapM_new_eq_ok.mp h).2, List.map_eq_nil_iff]

/-- Layers keep the stage they are constructed with. -/
theorem stage_of_mapM_new {as : List LayerArgs} {ls : List Layer} {stage : Stage}
    (hstage : ∀ a ∈ as, a.stage = stage) (h : as.mapM Layer.new = .ok ls) :
    ∀ l ∈ ls, l.stage = stage := by
  obtain ⟨-, rfl⟩ := Layer.mapM_new_eq_ok.mp h
  exact fun l hl => hstage _ (List.mem_map_of_mem hl)

theorem buildVit_stage {ls : List Layer} (h : t.buildVit batch imageSize = .ok ls) :
    (∀ l ∈ ls, l.stage = .vit) ∧
      (ls = [] ↔ t.computeVitTokens imageSize = 0 ∨ t.vitLayers = 0) := by
  rw [buildVit] at h
  by_cases hzero : t.computeVitTokens imageSize = 0 ∨ t.vitLayers = 0
  · rw [if_pos hzero] at h
    obtain rfl := Except.ok.inj h
    exact ⟨fun l hl => absurd hl List.not_mem_nil, iff_of_true rfl hzero⟩
  · rw [if_neg hzero] at h
    obtain ⟨numImages, -, h⟩ := bind_ok_iff.mp h
    obtain ⟨vitDhead, -, h⟩ := bind_ok_iff.mp h
    refine ⟨stage_of_mapM_new ?_ h, iff_of_false ?_ hzero⟩
    · intro a ha
      simp only [vitArgs, List.mem_cons, List.not_mem_nil, or_false] at ha
      rcases ha with rfl | rfl | rfl | rfl | rfl | rfl | rfl | rfl | rfl | rfl <;> rfl
    · rw [mapM_new_eq_nil_iff h]
      exact List.cons_ne_nil _ _

/-- Whatever its type, a projector has three layers, and at most a broadcast. -/
theorem exists_projectorArgs {visual : ℕ} (hvisual : t.computeVisualTokens imageSize = .ok visual)
    (hzero : visual ≠ 0) (hprojector : t.projectorType ≠ none) :
    ∃ args : List LayerArgs, args ≠ [] ∧
      (∀ a ∈ args, a.stage = .projector ∧ a.dtype = t.dtype) ∧
      t.buildProjector batch imageSize = args.mapM Layer.new := by
  have hargs : ∀ (fc1 act fc2 : LayerName) (inDim : ℕ), ∃ args : List LayerArgs, args ≠ [] ∧
      (∀ a ∈ args, a.stage = .projector ∧ a.dtype = t.dtype) ∧
      (t.projectorArgs fc1 act fc2 batch visual inDim ++ if 1 < t.fcTp then
        [(⟨.projector, .vitBroadcast, .G2G, false, t.dtype, batch * visual, t.hdim, 1, 1, 1⟩ :
          LayerArgs)] else []).mapM Layer.new = args.mapM Layer.new := by
    intro fc1 act fc2 inDim
    refine ⟨t.projectorArgs fc1 act fc2 batch visual inDim ++ _, List.cons_ne_nil _ _,
      List.forall_mem_append.mpr ⟨?_, ?_⟩, rfl⟩
    · intro a ha
      simp only [projectorArgs, List.mem_cons, List.not_mem_nil, or_false] at ha
      rcases ha with rfl | rfl | rfl <;> exact ⟨rfl, rfl⟩
    · intro a ha
      split_ifs at ha
      · rw [List.mem_singleton.mp ha]
        exact ⟨rfl, rfl⟩
      · cases ha
  obtain ⟨projectorType, hsome⟩ := Option.ne_none_iff_exists'.mp hprojector
  rw [buildProjector, hvisual]
  simp only [hsome, bind, Except.bind]
  rw [if_neg hzero]
  cases projectorType with
  | mlp => exact hargs _ _ _ _
  | mlpWithMerger => exact hargs _ _ _ _
  | pixelShuffleMlp => exact hargs _ _ _ _

/-- A projector without tokens, or without a type, is none. -/
theorem buildProjector_eq_nil {visual : ℕ} (hvisual : t.computeVisualTokens imageSize = .ok visual)
    (hnone : visual = 0 ∨ t.projectorType = none) : t.buildProjector batch imageSize = .ok [] := by
  rw [buildProjector, hvisual]
  rcases hprojector : t.projectorType with _ | projectorType
  · rfl
  · exact if_pos (hnone.resolve_right (by simp [hprojector]))

theorem buildProjector_stage {ls : List Layer} {visual : ℕ}
    (hvisual : t.computeVisualTokens imageSize = .ok visual)
    (h : t.buildProjector batch imageSize = .ok ls) :
    (∀ l ∈ ls, l.stage = .projector) ∧
      (ls = [] ↔ visual = 0 ∨ t.projectorType = none) := by
  by_cases hnone : visual = 0 ∨ t.projectorType = none
  · rw [buildProjector_eq_nil hvisual hnone] at h
    obtain rfl := Except.ok.inj h
    exact ⟨fun l hl => absurd hl List.not_mem_nil, iff_of_true rfl hnone⟩
  · obtain ⟨hzero, hprojector⟩ := not_or.mp hnone
    obtain ⟨args, hne, hargs, hbuild⟩ := exists_projectorArgs hvisual hzero hprojector
    have h := hbuild.symm.trans h
    refine ⟨stage_of_mapM_new (fun a ha => (hargs a ha).1) h, iff_of_false ?_ hnone⟩
    rw [mapM_new_eq_nil_iff h]
    exact hne

/-- Which stages a vision graph has is decided by the two counts. -/
theorem stages_of_buildVision {graph : List Layer} {visual : ℕ}
    (hvisual : t.computeVisualTokens imageSize = .ok visual)
    (h : t.buildVision batch imageSize = .ok graph) :
    ((∃ l ∈ graph, l.stage = .vit) ↔ t.computeVitTokens imageSize ≠ 0 ∧ t.vitLayers ≠ 0) ∧
      ((∃ l ∈ graph, l.stage = .projector) ↔ visual ≠ 0 ∧ t.projectorType ≠ none) := by
  obtain ⟨vit, hvit, h⟩ := bind_ok_iff.mp h
  obtain ⟨projector, hprojector, h⟩ := bind_ok_iff.mp h
  obtain rfl := Except.ok.inj h
  obtain ⟨hvitStage, hvitNil⟩ := buildVit_stage hvit
  obtain ⟨hprojStage, hprojNil⟩ := buildProjector_stage hvisual hprojector
  refine ⟨?_, ?_⟩
  · rw [← not_or, ← hvitNil]
    refine ⟨?_, ?_⟩
    · rintro ⟨l, hl, hstage⟩ rfl
      have hother := hprojStage l hl
      rw [hstage] at hother
      cases hother
    · intro hne
      obtain ⟨l, hl⟩ := List.exists_mem_of_ne_nil _ hne
      exact ⟨l, List.mem_append_left _ hl, hvitStage l hl⟩
  · rw [← not_or, ← hprojNil]
    refine ⟨?_, ?_⟩
    · rintro ⟨l, hl, hstage⟩ rfl
      rw [List.append_nil] at hl
      have hother := hvitStage l hl
      rw [hstage] at hother
      cases hother
    · intro hne
      obtain ⟨l, hl⟩ := List.exists_mem_of_ne_nil _ hne
      exact ⟨l, List.mem_append_right _ hl, hprojStage l hl⟩

/-- A projector can be built for every count. -/
theorem exists_buildProjector (hdtype : t.dtype.Supported) {visual : ℕ}
    (hvisual : t.computeVisualTokens imageSize = .ok visual) :
    ∃ ls, t.buildProjector batch imageSize = .ok ls := by
  by_cases hnone : visual = 0 ∨ t.projectorType = none
  · exact ⟨[], buildProjector_eq_nil hvisual hnone⟩
  · obtain ⟨hzero, hprojector⟩ := not_or.mp hnone
    obtain ⟨args, -, hargs, hbuild⟩ := exists_projectorArgs hvisual hzero hprojector
    rw [hbuild]
    refine exists_mapM_ok ?_
    intro a ha
    have hsupported : a.dtype.Supported := (hargs a ha).2 ▸ hdtype
    exact ⟨⟨a, hsupported⟩, Layer.new_eq_ok.mpr ⟨hsupported, rfl⟩⟩

/-! ## When the counts agree -/

section Agree

variable (hvit : 0 < t.vitLayers) (hprojector : t.projectorType ≠ none)
include hvit hprojector

/-- Where the visual tokens are known, the graph has both stages or neither exactly when both
counts are positive or neither is. -/
theorem stages_iff {visual : ℕ} (hvisual : t.computeVisualTokens imageSize = .ok visual)
    {graph : List Layer} (h : t.buildVision batch imageSize = .ok graph) :
    ((∃ l ∈ graph, l.stage = .projector) ↔ ∃ l ∈ graph, l.stage = .vit) ↔
      (visual ≠ 0 ↔ t.computeVitTokens imageSize ≠ 0) := by
  obtain ⟨hvits, hprojectors⟩ := stages_of_buildVision hvisual h
  rw [hvits, hprojectors, and_iff_left hprojector, and_iff_left hvit.ne']

/-- The counts of a computation that returns them are compared. -/
theorem tokensAgree_of_counts {visual newlines numImages : ℕ}
    (hvisual : t.computeVisualTokens imageSize = .ok visual)
    (hnewlines : t.newlineTokens imageSize = .ok newlines)
    (hnumImages : t.computeVitNumImages imageSize = .ok numImages)
    (hle : (visual - newlines) * t.mergeFactor ≤ t.computeVitTokens imageSize * numImages)
    (hstages : visual ≠ 0 ↔ t.computeVitTokens imageSize ≠ 0) : t.TokensAgree batch imageSize where
  emitted visual' newlines' numImages' hvisual' hnewlines' hnumImages' := by
    obtain rfl := Except.ok.inj (hvisual.symm.trans hvisual')
    obtain rfl := Except.ok.inj (hnewlines.symm.trans hnewlines')
    obtain rfl := Except.ok.inj (hnumImages.symm.trans hnumImages')
    exact hle
  stages _ hgraph := (stages_iff hvit hprojector hvisual hgraph).mpr hstages

/-- No visual tokens: neither stage is there. -/
theorem tokensAgree_of_noTokens (hvis : t.numVisTokensPerImage = 0) :
    t.TokensAgree batch imageSize := by
  have hvisual : t.computeVisualTokens imageSize = .ok 0 := by
    unfold computeVisualTokens
    exact if_pos hvis
  have htokens : t.computeVitTokens imageSize = 0 := by
    unfold computeVitTokens
    exact if_pos (.inl hvis)
  refine ⟨?_, ?_⟩
  · intro visual newlines numImages hvisual' _ _
    obtain rfl := Except.ok.inj (hvisual.symm.trans hvisual')
    rw [Nat.zero_sub, Nat.zero_mul]
    exact Nat.zero_le _
  · intro graph hgraph
    rw [stages_iff hvit hprojector hvisual hgraph, htokens]

variable (hvis : t.numVisTokensPerImage ≠ 0) (hpatch : 0 < t.patchSize)
include hvis hpatch

/-- An image of a given size: what is merged are its patches. -/
theorem tokensAgree_of_size_iff (hmerge : 0 < t.spatialMergeSize) (hgrid : t.usesGrid = false)
    (s : ImageSize) :
    t.TokensAgree batch (some s) ↔
      t.mergeFactor ≤ (s.normalize.1 / t.patchSize) * (s.normalize.2 / t.patchSize) := by
  have hvisual := computeVisualTokens_of_size hvis hpatch hmerge hgrid s
  have hnewlines : t.newlineTokens (some s) = .ok 0 := newlineTokens_of_not_grid hgrid
  have hnumImages : t.computeVitNumImages (some s) = .ok 1 :=
    computeVitNumImages_of_not_grid hvis hgrid
  have htokens := computeVitTokens_of_size hvis hpatch hgrid s
  have hfactor : 0 < t.mergeFactor := by
    rw [mergeFactor]
    split_ifs
    · exact Nat.one_pos
    · exact Nat.mul_pos hmerge hmerge
  generalize (s.normalize.1 / t.patchSize) * (s.normalize.2 / t.patchSize) = patches at *
  refine ⟨?_, ?_⟩
  · intro h
    have hle := h.emitted _ _ _ hvisual hnewlines hnumImages
    rw [Nat.sub_zero, htokens, Nat.mul_one] at hle
    calc t.mergeFactor = 1 * t.mergeFactor := (Nat.one_mul _).symm
      _ ≤ _ := Nat.mul_le_mul_right _ (le_max_left _ _)
      _ ≤ patches := hle
  · intro henough
    have hpos : 0 < patches := lt_of_lt_of_le hfactor henough
    refine tokensAgree_of_counts hvit hprojector hvisual hnewlines hnumImages ?_ ?_
    · rw [Nat.sub_zero, htokens, Nat.mul_one]
      rcases le_total 1 (patches / (t.spatialMergeSize * t.spatialMergeSize)) with hone | hone
      · rw [max_eq_right hone]
        refine le_trans (Nat.mul_le_mul_left _ ?_) (Nat.div_mul_le_self _ _)
        rw [mergeFactor]
        split_ifs
        · exact Nat.mul_pos hmerge hmerge
        · exact le_rfl
      · rw [max_eq_left hone, Nat.one_mul]
        exact henough
    · rw [htokens]
      exact iff_of_true (Nat.one_le_iff_ne_zero.mp (le_max_left _ _)) hpos.ne'

/-- Without a size, the configured number of visual tokens is compared with the patches of
the default image, unless they are merged. -/
theorem tokensAgree_of_none_iff (hmerge : 0 < t.spatialMergeSize) (hgrid : t.usesGrid = false) :
    t.TokensAgree batch none ↔ 1 < t.spatialMergeSize ∨
      t.numVisTokensPerImage ≤ (t.imageSizeDefault / t.patchSize) ^ 2 := by
  have hvisual := computeVisualTokens_of_none hvis hgrid
  have hnewlines : t.newlineTokens none = .ok 0 := newlineTokens_of_not_grid hgrid
  have hnumImages : t.computeVitNumImages none = .ok 1 :=
    computeVitNumImages_of_not_grid hvis hgrid
  have htokens := computeVitTokens_of_none hvis hpatch hgrid
  have hsquare : 0 < t.spatialMergeSize * t.spatialMergeSize := Nat.mul_pos hmerge hmerge
  have hfactor : t.mergeFactor ≤ t.spatialMergeSize * t.spatialMergeSize := by
    rw [mergeFactor]
    split_ifs
    · exact hsquare
    · exact le_rfl
  by_cases hmany : 1 < t.spatialMergeSize
  · rw [if_pos hmany] at htokens
    refine iff_of_true ?_ (.inl hmany)
    refine tokensAgree_of_counts hvit hprojector hvisual hnewlines hnumImages ?_ ?_
    · rw [Nat.sub_zero, htokens, Nat.mul_one]
      exact Nat.mul_le_mul_left _ hfactor
    · rw [htokens]
      exact iff_of_true hvis (Nat.mul_ne_zero hvis hsquare.ne')
  · rw [if_neg hmany] at htokens
    have hone : t.mergeFactor = 1 := by
      have hmergeOne : t.spatialMergeSize = 1 := by omega
      rw [mergeFactor, hmergeOne, Nat.mul_one, ite_self]
    rw [or_iff_right hmany]
    refine ⟨?_, ?_⟩
    · intro h
      have hle := h.emitted _ _ _ hvisual hnewlines hnumImages
      rw [Nat.sub_zero, hone, htokens, Nat.mul_one, Nat.mul_one] at hle
      exact hle
    · intro hle
      refine tokensAgree_of_counts hvit hprojector hvisual hnewlines hnumImages ?_ ?_
      · rw [Nat.sub_zero, hone, htokens, Nat.mul_one, Nat.mul_one]
        exact hle
      · rw [htokens]
        exact iff_of_true hvis (by omega)

/-- On a grid, the base image has a patch, or nothing is taken from the grid. -/
theorem tokensAgree_of_grid_iff (hdtype : t.dtype.Supported) (hgrid : t.usesGrid = true) :
    t.TokensAgree batch imageSize ↔
      ∀ grid, t.chosenResolution imageSize = .ok grid →
        t.patchSize ≤ t.imageSizeDefault ∨ grid.2 < t.patchSize ∨
          grid.1 < t.patchSize ∧ t.useImageNewlineParameter = false := by
  have htokens : t.computeVitTokens imageSize = (t.imageSizeDefault / t.patchSize) ^ 2 :=
    computeVitTokens_of_grid hvis hpatch hgrid
  have hone : t.mergeFactor = 1 := by
    rw [usesGrid, Bool.and_eq_true] at hgrid
    rw [mergeFactor, if_pos hgrid.1]
  rcases hselect : t.chosenResolution imageSize with
    e | grid
  · -- no resolution is chosen, so nothing is counted and nothing is built
    have hnone : ∀ visual, t.computeVisualTokens imageSize ≠ .ok visual := by
      intro visual hvisual
      obtain ⟨grid, hgrid', -⟩ := (computeVisualTokens_of_grid hvis hpatch hgrid).mp hvisual
      rw [hselect] at hgrid'
      cases hgrid'
    refine iff_of_true ⟨fun visual _ _ hvisual => absurd hvisual (hnone visual), ?_⟩ nofun
    intro graph hgraph
    obtain ⟨_, -, hgraph⟩ := bind_ok_iff.mp hgraph
    obtain ⟨_, hbuild, -⟩ := bind_ok_iff.mp hgraph
    obtain ⟨visual, hvisual, -⟩ := bind_ok_iff.mp hbuild
    exact absurd hvisual (hnone visual)
  · have hvisual := (computeVisualTokens_of_grid hvis hpatch hgrid).mpr ⟨grid, hselect, rfl⟩
    have hnewlines := newlineTokens_of_grid hpatch hgrid hselect
    have hnumImages := (computeVitNumImages_of_grid hvis hpatch hgrid).mpr ⟨grid, hselect, rfl⟩
    refine ⟨?_, ?_⟩
    · intro h grid' hgrid'
      obtain rfl := Except.ok.inj hgrid'
      by_contra hnot
      rw [not_or, not_or, not_le, not_lt] at hnot
      obtain ⟨hbase, hrows, hcolumns⟩ := hnot
      rw [Nat.div_eq_of_lt hbase, zero_pow two_ne_zero, Nat.add_zero] at hvisual
      rw [Nat.div_eq_of_lt hbase, zero_pow two_ne_zero] at htokens
      have hrows : 0 < grid.2 / t.patchSize := Nat.div_pos hrows hpatch
      have hle := h.emitted _ _ _ hvisual hnewlines hnumImages
      rw [Nat.add_sub_cancel, hone, htokens, Nat.mul_one, Nat.zero_mul, Nat.le_zero,
        Nat.mul_eq_zero, or_iff_left hrows.ne', Nat.div_eq_zero_iff_lt hpatch] at hle
      -- no patch is left of the grid, only the newlines are
      have hnewline : t.useImageNewlineParameter = true := by
        by_contra hnot
        exact hcolumns ⟨hle, Bool.not_eq_true _ ▸ hnot⟩
      rw [Nat.div_eq_of_lt hle, Nat.zero_mul, Nat.zero_add, if_pos hnewline] at hvisual
      have hbuild : t.buildVit batch imageSize = .ok [] := by
        rw [buildVit]
        exact if_pos (.inl htokens)
      obtain ⟨ls, hls⟩ : ∃ ls, t.buildProjector batch imageSize = .ok ls :=
        exists_buildProjector hdtype hvisual
      have hgraph : t.buildVision batch imageSize = .ok ls :=
        bind_ok_iff.mpr ⟨[], hbuild, bind_ok_iff.mpr ⟨ls, hls, rfl⟩⟩
      exact ((stages_iff hvit hprojector hvisual hgraph).mp (h.stages ls hgraph)).mp hrows.ne'
        htokens
    · intro henough
      refine tokensAgree_of_counts hvit hprojector hvisual hnewlines hnumImages ?_ ?_
      · rw [Nat.add_right_comm, Nat.add_sub_cancel, hone, htokens, Nat.mul_one]
        rcases henough grid rfl with hbase | hrows | ⟨hcolumns, -⟩
        · have hpos : 0 < (t.imageSizeDefault / t.patchSize) ^ 2 :=
            pow_pos (Nat.div_pos hbase hpatch) 2
          rw [max_eq_right hpos, Nat.mul_add, Nat.mul_one, Nat.add_comm]
          exact Nat.add_le_add_left ((ceilDiv_le_iff_le_mul hpos).mp le_rfl) _
        · rw [Nat.div_eq_of_lt hrows, Nat.mul_zero, Nat.zero_add]
          exact Nat.le_mul_of_pos_right _ (by omega)
        · rw [Nat.div_eq_of_lt hcolumns, Nat.zero_mul, Nat.zero_add]
          exact Nat.le_mul_of_pos_right _ (by omega)
      · rw [htokens]
        rcases henough grid rfl with hbase | hrows | ⟨hcolumns, hnewline⟩
        · have hpos : 0 < (t.imageSizeDefault / t.patchSize) ^ 2 :=
            pow_pos (Nat.div_pos hbase hpatch) 2
          exact iff_of_true (by omega) hpos.ne'
        · rw [Nat.div_eq_of_lt hrows, Nat.mul_zero, ite_self, Nat.add_zero, Nat.zero_add]
        · rw [Nat.div_eq_of_lt hcolumns, Nat.zero_mul, hnewline, if_neg Bool.false_ne_true,
            Nat.add_zero, Nat.zero_add]

end Agree

/-- **The token counts agree exactly on images with enough patches.** -/
theorem tokensAgree_iff (hpatch : 0 < t.patchSize) (hmerge : 0 < t.spatialMergeSize)
    (hvit : 0 < t.vitLayers) (hprojector : t.projectorType ≠ none)
    (hdtype : t.dtype.Supported) : t.TokensAgree batch imageSize ↔ t.EnoughPatches imageSize := by
  unfold EnoughPatches
  by_cases hvis : t.numVisTokensPerImage = 0
  · exact iff_of_true (tokensAgree_of_noTokens hvit hprojector hvis) (.inl hvis)
  · rw [or_iff_right hvis]
    cases hgrid : t.usesGrid with
    | true => exact tokensAgree_of_grid_iff hvit hprojector hvis hpatch hdtype hgrid
    | false =>
      rcases imageSize with _ | s
      · exact tokensAgree_of_none_iff hvit hprojector hvis hpatch hmerge hgrid
      · exact tokensAgree_of_size_iff hvit hprojector hvis hpatch hmerge hgrid s

/-- Qwen3-VL on its default image. -/
theorem tokensAgree_qwen3VL : ∃ t,
    new (makeModelConfig .qwen3VL4B .W16A16) 1 = .ok t ∧ 0 < t.patchSize ∧
      0 < t.spatialMergeSize ∧ 0 < t.vitLayers ∧ t.projectorType ≠ none ∧ t.dtype.Supported ∧
        (t.TokensAgree 1 none ↔ t.EnoughPatches none) := by
  obtain ⟨t, ht, hpatch, hmerge, hvit, hprojector, hdtype⟩ : ∃ t,
      new (makeModelConfig .qwen3VL4B .W16A16) 1 = .ok t ∧ t.patchSize = 16 ∧
        t.spatialMergeSize = 2 ∧ t.vitLayers = 24 ∧
          t.projectorType = some .mlpWithMerger ∧ t.dtype = .W16A16 :=
    ⟨_, rfl, rfl, rfl, rfl, rfl, rfl⟩
  have hpatch : 0 < t.patchSize := by omega
  have hmerge : 0 < t.spatialMergeSize := by omega
  have hvit : 0 < t.vitLayers := by omega
  have hprojector : t.projectorType ≠ none := by simp [hprojector]
  have hdtype : t.dtype.Supported := .inl hdtype
  exact ⟨t, ht, hpatch, hmerge, hvit, hprojector, hdtype,
    tokensAgree_iff hpatch hmerge hvit hprojector hdtype⟩

/-- A thumbnail of one patch: one visual token from a quarter of what it is merged from. -/
theorem not_tokensAgree_qwen3VL : ∃ t,
    new (makeModelConfig .qwen3VL4B .W16A16) 1 = .ok t ∧ 0 < t.patchSize ∧
      0 < t.spatialMergeSize ∧ 0 < t.vitLayers ∧ t.projectorType ≠ none ∧
        ¬t.TokensAgree 1 (some (.square 20)) := by
  obtain ⟨t, ht, hpatch, hmerge, hvit, hprojector, hvisual, hnewlines, hnumImages, htokens,
      hfactor⟩ : ∃ t,
      new (makeModelConfig .qwen3VL4B .W16A16) 1 = .ok t ∧ t.patchSize = 16 ∧
        t.spatialMergeSize = 2 ∧ t.vitLayers = 24 ∧ t.projectorType = some .mlpWithMerger ∧
          t.computeVisualTokens (some (.square 20)) = .ok 1 ∧
            t.newlineTokens (some (.square 20)) = .ok 0 ∧
              t.computeVitNumImages (some (.square 20)) = .ok 1 ∧
                t.computeVitTokens (some (.square 20)) = 1 ∧ t.mergeFactor = 4 :=
    ⟨_, rfl, rfl, rfl, rfl, rfl, rfl, rfl, rfl, rfl, rfl⟩
  refine ⟨t, ht, by omega, by omega, by omega, by simp [hprojector], ?_⟩
  intro h
  have hle := h.emitted 1 0 1 hvisual hnewlines hnumImages
  omega

end Transformer

end AttAcc
