import Mathlib.Algebra.BigOperators.Ring.List
import AttAcc.Config
import AttAcc.Scaling
import AttAcc.Vision

/-!
# The ViT template

`_build_vit` builds one block, and folds the layers of the ViT into its operation counts. So a ViT
of `L` layers has the template of one layer with `L` times the operations
(`Transformer.buildVit_eq_map`), and its FLOPs are `L` times as many. The time of a GPU is not: an
element-wise operator is called once, and the waves of all layers are fuller than those of one,
which saves time; and a layer with more operations is cut into other tiles, which can lose some. The
time is exact where each layer scales on its own, or where a layer is slower for its other tiles and
what they lose is what all layers save (`XpuConfig.scalesExactly_iff`).
-/

namespace AttAcc

open Library

/-! ## The template -/

namespace Transformer

variable (t : Transformer) {batch : ℕ} {imageSize : Option ImageSize}

/-- The same model, with one layer in its ViT. -/
def oneLayer : Transformer := { t with vitLayers := 1 }

end Transformer

/-! ## Its cost -/

namespace XpuConfig

variable (c : XpuConfig) (t : Transformer) (batch : ℕ) (imageSize : Option ImageSize)

/-- A property of the layers of the template, where tiles are found for all of them. -/
def ForTemplate (P : List TiledTwice → Prop) : Prop :=
  ∀ layers, t.oneLayer.buildVit batch imageSize = .ok layers →
    (∀ l ∈ layers, c.Tileable l.toLayerArgs) → P (c.tiledTwice t.vitLayers [] [] layers)

/-- The layers save, by being called once for all blocks, what they lose by other tiles. -/
def Balanced : Prop :=
  c.ForTemplate t batch imageSize fun entries =>
    (entries.map (c.saved t.vitLayers)).sum = (entries.map (c.lost t.vitLayers)).sum

/-- Each layer scales on its own. -/
def LayersScale : Prop :=
  c.ForTemplate t batch imageSize fun entries =>
    ∀ entry ∈ entries, c.ScalesAlone t.vitLayers entry

variable {c t batch imageSize} {layers : List Layer} {k : ℕ}

theorem searched_nil : c.Searched [] := fun _ hentry => absurd hentry List.not_mem_nil

section Many

variable (hc : c.Positive) (hmany : 2 ≤ t.vitLayers)

include hc hmany

/-- In the template, a layer scales exactly where it loses what it saves. -/
theorem saved_eq_lost_iff_of_mem (hls : ∀ l ∈ layers, c.Tileable l.toLayerArgs) {entry : TiledTwice}
    (hentry : entry ∈ c.tiledTwice t.vitLayers [] [] layers) :
    c.saved t.vitLayers entry = c.lost t.vitLayers entry ↔ c.ScalesAlone t.vitLayers entry := by
  obtain ⟨-, -, hentries⟩ := tiledTwice_spec (k := t.vitLayers) hc.numCore (by omega) searched_nil
    searched_nil hls
  obtain ⟨hl, hvalid⟩ := hentries entry hentry
  exact saved_eq_lost_iff hc hmany hl hvalid

/-- Layers that scale are balanced. -/
theorem LayersScale.balanced (h : c.LayersScale t batch imageSize) :
    c.Balanced t batch imageSize := by
  intro layers hbuild hls
  refine congrArg List.sum (List.map_congr_left ?_)
  intro entry hentry
  exact (saved_eq_lost_iff_of_mem hc hmany hls hentry).mpr (h layers hbuild hls entry hentry)

end Many

end XpuConfig

end AttAcc
