import AttAcc.Library.List
import AttAcc.Types
import Mathlib.Data.Finset.Card
import Mathlib.Data.Int.Interval

/-!
# Routing decoder layers to the accelerator

`Routing` of `src/model.py`. A routing is turned into *groups*: a group is a number
of decoder layers that share one built graph and one device. In `list` mode every
layer is a group of its own and keeps its index; the other modes forget which layers
a group stands for and keep their count only.

`assignment` reads a list of groups back as one device per decoder layer, in the
order the groups list them.
-/

namespace AttAcc

open Library

/-- The device strings of a routing entry. -/
inductive RoutingDevice where
  | gpu
  | pim
  | cpu
  deriving DecidableEq, Repr

/-- The routing modes; any other string is kept and rejected by `to_groups`. -/
inductive RoutingMode where
  | conservative
  | optimistic
  | list
  | other (text : String)
  deriving DecidableEq, Repr

/-- The group names: `'all'`, `'acc'`, `'gpu'` and `'l{idx}'`. -/
inductive GroupName where
  | all
  | acc
  | gpu
  | l (idx : ℕ)
  deriving DecidableEq, Repr

/-- One entry of a routing: `(group_name, device, count, indices)`. -/
structure RoutingEntry where
  groupName : GroupName
  device : RoutingDevice
  count : ℕ
  indices : Option (List ℕ)
  deriving DecidableEq, Repr

/-- One device per decoder layer, in the order the groups list the layers. -/
def assignment (entries : List RoutingEntry) : List RoutingDevice :=
  entries.flatMap fun e => List.replicate e.count e.device

@[simp] theorem assignment_nil : assignment [] = [] := rfl

@[simp] theorem assignment_cons (e : RoutingEntry) (es : List RoutingEntry) :
    assignment (e :: es) = List.replicate e.count e.device ++ assignment es := rfl

/-- Entries that stand for no layer assign nothing. -/
theorem assignment_filter (es : List RoutingEntry) :
    assignment (es.filter fun e => decide (0 < e.count)) = assignment es := by
  induction es with
  | nil => rfl
  | cons e es ih =>
    rcases Nat.eq_zero_or_pos e.count with hcount | hcount
    · rw [List.filter_cons_of_neg (by simp [hcount]), ih, assignment_cons, hcount]
      rfl
    · rw [List.filter_cons_of_pos (by simp [hcount]), assignment_cons, assignment_cons, ih]

/-- `Routing.DEFAULT_LAYER_LIST`. -/
def defaultLayerList : List ℤ :=
  [0, 8, 12, 13, 14, 15, 16, 17, 18, 19, 20, 21, 22, 23, 24, 25, 26, 27, 28, 29, 31, 33]

/-- A `Routing` object. The constructor never leaves the layer list empty, and never
leaves a DeepStack model in a mode other than `list`. -/
structure Routing where
  mode : RoutingMode
  layerList : List ℤ
  accDevice : RoutingDevice
  hasDeepstack : Bool
  layerList_ne_nil : layerList ≠ []
  deepstack_mode : hasDeepstack = true → mode = .list

namespace Routing

/-- `layer_list or self.DEFAULT_LAYER_LIST`: an absent or empty list is replaced. -/
def orDefault : Option (List ℤ) → List ℤ
  | some (i :: is) => i :: is
  | _ => defaultLayerList

theorem orDefault_ne_nil (layerList : Option (List ℤ)) : orDefault layerList ≠ [] := by
  rcases layerList with _ | _ | ⟨i, is⟩
  · simp [orDefault, defaultLayerList]
  · simp [orDefault, defaultLayerList]
  · simp [orDefault]

/-- `Routing.__init__`. A DeepStack model is forced into `list` mode. -/
def new (hasDeepstack : Bool) (mode : RoutingMode) (layerList : Option (List ℤ))
    (accDevice : RoutingDevice) : Routing where
  mode := if hasDeepstack then .list else mode
  layerList := orDefault layerList
  accDevice := accDevice
  hasDeepstack := hasDeepstack
  layerList_ne_nil := orDefault_ne_nil layerList
  deepstack_mode h := if_pos h

/-- `layer_set`: the listed indices that name a decoder layer. -/
def layerSet (r : Routing) (ndec : ℕ) : Finset ℤ :=
  (r.layerList.filter fun idx : ℤ => decide (0 ≤ idx ∧ idx < (ndec : ℤ))).toFinset

theorem mem_layerSet {r : Routing} {ndec : ℕ} {idx : ℤ} :
    idx ∈ r.layerSet ndec ↔ idx ∈ r.layerList ∧ 0 ≤ idx ∧ idx < ndec := by
  simp [layerSet]

/-- The device of layer `idx` in `list` mode. -/
def layerDevice (r : Routing) (ndec idx : ℕ) : RoutingDevice :=
  if (idx : ℤ) ∈ r.layerSet ndec then r.accDevice else .gpu

/-- `to_groups`. -/
def toGroups (r : Routing) (ndec : ℕ) : Except PyError (List RoutingEntry) :=
  match r.mode with
  | .conservative => .ok [⟨.all, r.accDevice, ndec, none⟩]
  | .optimistic =>
    let accCount := (r.layerSet ndec).card
    .ok ((if 0 < accCount then [⟨.acc, r.accDevice, accCount, none⟩] else []) ++
      if 0 < ndec - accCount then [⟨.gpu, .gpu, ndec - accCount, none⟩] else [])
  | .list =>
    .ok ((List.range ndec).map fun idx => ⟨.l idx, r.layerDevice ndec idx, 1, some [idx]⟩)
  | .other text => .error (.assertion s!"Invalid routing mode: {text}")

/-- The accelerated layers are among the `ndec` decoder layers. -/
theorem card_layerSet_le (r : Routing) (ndec : ℕ) : (r.layerSet ndec).card ≤ ndec := by
  have hsub : r.layerSet ndec ⊆ Finset.Ico (0 : ℤ) ndec := by
    intro idx hidx
    obtain ⟨-, hlo, hhi⟩ := mem_layerSet.mp hidx
    exact Finset.mem_Ico.mpr ⟨hlo, hhi⟩
  calc (r.layerSet ndec).card ≤ (Finset.Ico (0 : ℤ) ndec).card := Finset.card_le_card hsub
    _ = ndec := by simp

/-- A set of decoder layers, counted over the decoder layers in order. -/
theorem countP_mem_of_subset {layers : Finset ℤ} {ndec : ℕ}
    (h : ∀ idx ∈ layers, 0 ≤ idx ∧ idx < ndec) :
    (List.range ndec).countP (fun idx : ℕ => decide ((idx : ℤ) ∈ layers)) = layers.card := by
  have himage : ((Finset.range ndec).filter fun idx : ℕ => (idx : ℤ) ∈ layers).image
      (fun idx : ℕ => (idx : ℤ)) = layers := by
    ext idx
    simp only [Finset.mem_image, Finset.mem_filter, Finset.mem_range]
    refine ⟨?_, ?_⟩
    · rintro ⟨i, ⟨-, hi⟩, rfl⟩
      exact hi
    · intro hidx
      obtain ⟨hlo, hhi⟩ := h idx hidx
      have hcast : ((idx.toNat : ℕ) : ℤ) = idx := Int.toNat_of_nonneg hlo
      exact ⟨idx.toNat, ⟨by omega, by rwa [hcast]⟩, hcast⟩
  calc (List.range ndec).countP (fun idx : ℕ => decide ((idx : ℤ) ∈ layers))
      = ((Finset.range ndec).filter fun idx : ℕ => (idx : ℤ) ∈ layers).card :=
        List.countP_eq_length_filter
    _ = _ := (Finset.card_image_of_injective _ Nat.cast_injective).symm
    _ = layers.card := by rw [himage]

/-- The accelerated layers, counted over the decoder layers in order. -/
theorem countP_mem_layerSet (r : Routing) (ndec : ℕ) :
    (List.range ndec).countP (fun idx : ℕ => decide ((idx : ℤ) ∈ r.layerSet ndec)) =
      (r.layerSet ndec).card :=
  countP_mem_of_subset fun _ hidx => (mem_layerSet.mp hidx).2

/-- In `list` mode the groups assign each layer its own device. -/
theorem assignment_list (r : Routing) (ndec : ℕ) :
    assignment ((List.range ndec).map fun idx =>
      (⟨.l idx, r.layerDevice ndec idx, 1, some [idx]⟩ : RoutingEntry)) =
      (List.range ndec).map (r.layerDevice ndec) := by
  rw [assignment, List.flatMap_map]
  exact (List.map_eq_flatMap).symm

/-- What a list of groups must satisfy to stand for a given assignment: its names are
distinct, so that no group overwrites another. -/
structure Assigns (groups : List RoutingEntry) (devices : List RoutingDevice) : Prop where
  names_nodup : (groups.map RoutingEntry.groupName).Nodup
  assignment_eq : assignment groups = devices

theorem assigns_all (device : RoutingDevice) (ndec : ℕ) :
    Assigns [⟨.all, device, ndec, none⟩] (List.replicate ndec device) :=
  ⟨List.nodup_singleton _, List.append_nil _⟩

theorem toGroups_conservative {r : Routing} (hmode : r.mode = .conservative) (ndec : ℕ) :
    ∃ groups, r.toGroups ndec = .ok groups ∧
      Assigns groups (List.replicate ndec r.accDevice) := by
  refine ⟨_, ?_, assigns_all r.accDevice ndec⟩
  rw [toGroups, hmode]

theorem toGroups_list {r : Routing} (hmode : r.mode = .list) (ndec : ℕ) :
    ∃ groups, r.toGroups ndec = .ok groups ∧
      Assigns groups ((List.range ndec).map (r.layerDevice ndec)) := by
  refine ⟨_, by rw [toGroups, hmode], ?_, r.assignment_list ndec⟩
  rw [List.map_map]
  refine List.nodup_range.map ?_
  intro i j hij
  exact GroupName.l.inj hij

theorem toGroups_optimistic {r : Routing} (hmode : r.mode = .optimistic) (ndec : ℕ) :
    ∃ groups, r.toGroups ndec = .ok groups ∧
      Assigns groups (List.replicate (r.layerSet ndec).card r.accDevice ++
        List.replicate (ndec - (r.layerSet ndec).card) .gpu) := by
  refine ⟨_, by rw [toGroups, hmode], ?_, ?_⟩
  · split_ifs <;> simp
  · have hacc : assignment (if 0 < (r.layerSet ndec).card then
        [⟨.acc, r.accDevice, (r.layerSet ndec).card, none⟩] else []) =
        List.replicate (r.layerSet ndec).card r.accDevice := by
      rcases Nat.eq_zero_or_pos (r.layerSet ndec).card with hcard | hcard
      · rw [hcard]
        rfl
      · rw [if_pos hcard, assignment_cons, assignment_nil, List.append_nil]
    have hgpu : assignment (if 0 < ndec - (r.layerSet ndec).card then
        [⟨.gpu, .gpu, ndec - (r.layerSet ndec).card, none⟩] else []) =
        List.replicate (ndec - (r.layerSet ndec).card) .gpu := by
      rcases Nat.eq_zero_or_pos (ndec - (r.layerSet ndec).card) with hrest | hrest
      · rw [hrest]
        rfl
      · rw [if_pos hrest, assignment_cons, assignment_nil, List.append_nil]
    rw [assignment, List.flatMap_append]
    exact congrArg₂ (· ++ ·) hacc hgpu

/-- The groups of any mode assign a device to every layer. -/
theorem exists_assigns_of_toGroups {r : Routing} {ndec : ℕ} {groups : List RoutingEntry}
    (h : r.toGroups ndec = .ok groups) :
    ∃ devices, Assigns groups devices ∧ devices.length = ndec := by
  have hmode : ∀ {devices : List RoutingDevice},
      (∃ groups', r.toGroups ndec = .ok groups' ∧ Assigns groups' devices) →
        devices.length = ndec → ∃ devices, Assigns groups devices ∧ devices.length = ndec := by
    rintro devices ⟨groups', hgroups', hassigns⟩ hlength
    obtain rfl := Except.ok.inj (h.symm.trans hgroups')
    exact ⟨devices, hassigns, hlength⟩
  rcases hr : r.mode with _ | _ | _ | text
  · exact hmode (toGroups_conservative hr ndec) List.length_replicate
  · refine hmode (toGroups_optimistic hr ndec) ?_
    rw [List.length_append, List.length_replicate, List.length_replicate]
    exact Nat.add_sub_cancel' (r.card_layerSet_le ndec)
  · exact hmode (toGroups_list hr ndec) (by rw [List.length_map, List.length_range])
  · rw [toGroups, hr] at h
    cases h

/-- The layers of `list` mode, the accelerated ones first. -/
theorem map_layerDevice_perm (r : Routing) (ndec : ℕ) :
    ((List.range ndec).map (r.layerDevice ndec)).Perm
      (List.replicate (r.layerSet ndec).card r.accDevice ++
        List.replicate (ndec - (r.layerSet ndec).card) .gpu) := by
  have h := map_ite_perm (fun idx : ℕ => decide ((idx : ℤ) ∈ r.layerSet ndec)) r.accDevice
    RoutingDevice.gpu (List.range ndec)
  rw [countP_mem_layerSet, List.length_range] at h
  simp only [decide_eq_true_eq] at h
  exact h

/-- A list of all layers routes each of them to the accelerator. -/
theorem map_layerDevice_of_forall_mem {r : Routing} {ndec : ℕ}
    (h : ∀ idx : ℕ, idx < ndec → (idx : ℤ) ∈ r.layerList) :
    (List.range ndec).map (r.layerDevice ndec) = List.replicate ndec r.accDevice := by
  refine List.eq_replicate_iff.mpr ⟨by simp, ?_⟩
  intro device hdevice
  obtain ⟨idx, hidx, rfl⟩ := List.mem_map.mp hdevice
  have hlt : idx < ndec := List.mem_range.mp hidx
  have hmem : (idx : ℤ) ∈ r.layerSet ndec :=
    mem_layerSet.mpr ⟨h idx hlt, Int.natCast_nonneg idx, by exact_mod_cast hlt⟩
  rw [layerDevice, if_pos hmem]

end Routing

end AttAcc
