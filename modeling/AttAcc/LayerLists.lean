import AttAcc.Routing

/-!
# Explicit layer lists

What `to_groups` makes of a layer list that is given. The list may repeat itself and name
layers that do not exist; the groups are a partition of the decoder layers all the same, with
exactly the listed ones on the accelerator. An empty list is the exception: the constructor
takes it for an absent one and puts `DEFAULT_LAYER_LIST` in its place (`honours_iff`).
-/

namespace AttAcc

open Library

/-- The layers of the groups on one device, counted. -/
theorem sum_count_device (device : RoutingDevice) (groups : List RoutingEntry) :
    ((groups.filter fun e => decide (e.device = device)).map RoutingEntry.count).sum =
      (assignment groups).count device := by
  induction groups with
  | nil => rfl
  | cons e groups ih =>
    rw [assignment_cons, List.count_append, List.count_replicate, ← ih]
    by_cases hdevice : e.device = device
    · rw [List.filter_cons_of_pos (by simp [hdevice]), List.map_cons, List.sum_cons,
        if_pos (by simp [hdevice])]
    · rw [List.filter_cons_of_neg (by simp [hdevice]), if_neg (by simp [hdevice]), Nat.zero_add]

/-- The layers of all groups, counted. -/
theorem sum_count (groups : List RoutingEntry) :
    (groups.map RoutingEntry.count).sum = (assignment groups).length := by
  induction groups with
  | nil => rfl
  | cons e groups ih =>
    rw [assignment_cons, List.length_append, List.length_replicate, List.map_cons, List.sum_cons,
      ih]

namespace Routing

/-- The listed indices that name one of `ndec` decoder layers. -/
def listed (layerList : List ℤ) (ndec : ℕ) : Finset ℤ :=
  layerList.toFinset.filter fun idx => 0 ≤ idx ∧ idx < ndec

/-- Groups that partition `ndec` decoder layers and put as many of them on the accelerator as
a list names. -/
structure Honours (groups : List RoutingEntry) (accDevice : RoutingDevice)
    (layerList : List ℤ) (ndec : ℕ) : Prop where
  count_pos : ∀ e ∈ groups, 0 < e.count
  sum_count : (groups.map RoutingEntry.count).sum = ndec
  accelerated : ((groups.filter fun e => decide (e.device = accDevice)).map
    RoutingEntry.count).sum = (listed layerList ndec).card

/-- Groups of one layer each, in order, with the listed layers on the accelerator. -/
def HonoursEach (groups : List RoutingEntry) (accDevice : RoutingDevice)
    (layerList : List ℤ) (ndec : ℕ) : Prop :=
  groups.map (fun e => (e.indices, e.count, e.device)) =
    (List.range ndec).map fun idx : ℕ =>
      (some [idx], 1, if (idx : ℤ) ∈ layerList then accDevice else .gpu)

/-- **The groups of an explicit list honour it.** -/
def HonoursList (hasDeepstack : Bool) (mode : RoutingMode) (layerList : List ℤ)
    (accDevice : RoutingDevice) (ndec : ℕ) : Prop :=
  ∃ groups, (new hasDeepstack mode (some layerList) accDevice).toGroups ndec = .ok groups ∧
    Honours groups accDevice layerList ndec ∧
      ((new hasDeepstack mode (some layerList) accDevice).mode = .list →
        HonoursEach groups accDevice layerList ndec)

variable {r : Routing} {ndec : ℕ}

/-- Every group of the two modes stands for a layer. -/
theorem count_pos_of_toGroups (hmode : r.mode = .list ∨ r.mode = .optimistic)
    {groups : List RoutingEntry} (h : r.toGroups ndec = .ok groups) :
    ∀ e ∈ groups, 0 < e.count := by
  rw [toGroups] at h
  rcases hmode with hmode | hmode
  · rw [hmode] at h
    obtain rfl := Except.ok.inj h
    intro e he
    obtain ⟨idx, -, rfl⟩ := List.mem_map.mp he
    exact Nat.one_pos
  · rw [hmode] at h
    obtain rfl := Except.ok.inj h
    intro e he
    rcases List.mem_append.mp he with he | he
    · split_ifs at he with hcount
      · rw [List.mem_singleton.mp he]
        exact hcount
      · cases he
    · split_ifs at he with hcount
      · rw [List.mem_singleton.mp he]
        exact hcount
      · cases he

/-- On the accelerator are the layers of `layer_set`, in both modes. -/
theorem count_assignment (hacc : r.accDevice ≠ .gpu)
    (hmode : r.mode = .list ∨ r.mode = .optimistic) {groups : List RoutingEntry}
    (h : r.toGroups ndec = .ok groups) :
    (assignment groups).length = ndec ∧
      (assignment groups).count r.accDevice = (r.layerSet ndec).card := by
  have hle := r.card_layerSet_le ndec
  have hperm : (assignment groups).Perm (List.replicate (r.layerSet ndec).card r.accDevice ++
      List.replicate (ndec - (r.layerSet ndec).card) .gpu) := by
    rcases hmode with hmode | hmode
    · obtain ⟨groups', hgroups', hassigns⟩ := toGroups_list hmode ndec
      obtain rfl := Except.ok.inj (h.symm.trans hgroups')
      rw [hassigns.assignment_eq]
      exact map_layerDevice_perm r ndec
    · obtain ⟨groups', hgroups', hassigns⟩ := toGroups_optimistic hmode ndec
      obtain rfl := Except.ok.inj (h.symm.trans hgroups')
      rw [hassigns.assignment_eq]
  refine ⟨?_, ?_⟩
  · rw [hperm.length_eq, List.length_append, List.length_replicate, List.length_replicate]
    exact Nat.add_sub_cancel' hle
  · rw [hperm.count_eq, List.count_append, List.count_replicate_self, List.count_replicate,
      if_neg (by simp [hacc.symm]), Nat.add_zero]

/-- The two modes have groups. -/
theorem exists_toGroups (hmode : r.mode = .list ∨ r.mode = .optimistic) (ndec : ℕ) :
    ∃ groups, r.toGroups ndec = .ok groups := by
  rw [toGroups]
  rcases hmode with hmode | hmode
  · exact ⟨_, by rw [hmode]⟩
  · exact ⟨_, by rw [hmode]⟩

/-- `layer_set` of a list that is kept. -/
theorem layerSet_eq_listed {layerList : List ℤ} (h : r.layerList = layerList) :
    r.layerSet ndec = listed layerList ndec := by
  ext idx
  rw [mem_layerSet, h, listed, Finset.mem_filter, List.mem_toFinset]

/-- A kept list routes the layers it names, one by one. -/
theorem honoursEach_of_toGroups {layerList : List ℤ} (hlist : r.layerList = layerList)
    (hmode : r.mode = .list) {groups : List RoutingEntry} (h : r.toGroups ndec = .ok groups) :
    HonoursEach groups r.accDevice layerList ndec := by
  rw [toGroups, hmode] at h
  obtain rfl := Except.ok.inj h
  rw [HonoursEach, List.map_map]
  refine List.map_congr_left ?_
  intro idx hidx
  have hlt : idx < ndec := List.mem_range.mp hidx
  have hmem : (idx : ℤ) ∈ r.layerSet ndec ↔ (idx : ℤ) ∈ layerList := by
    rw [mem_layerSet, hlist]
    exact and_iff_left ⟨Int.natCast_nonneg idx, Int.ofNat_lt.mpr hlt⟩
  rw [Function.comp_apply, layerDevice]
  by_cases hidx : (idx : ℤ) ∈ layerList
  · rw [if_pos hidx, if_pos (hmem.mpr hidx)]
  · rw [if_neg hidx, if_neg fun h => hidx (hmem.mp h)]

/-- The default list always names a layer, if there is one. -/
theorem layerSet_default_pos (h : r.layerList = defaultLayerList) (hndec : 0 < ndec) :
    0 < (r.layerSet ndec).card := by
  refine Finset.card_pos.mpr ⟨0, mem_layerSet.mpr ⟨?_, le_rfl, Int.ofNat_lt.mpr hndec⟩⟩
  rw [h]
  decide

/-- **An explicit list is honoured**, unless it is empty: then only a model without decoder
layers has nothing to put on the accelerator. -/
theorem honours_iff {accDevice : RoutingDevice} (hacc : accDevice ≠ .gpu) {mode : RoutingMode}
    (hmode : mode = .list ∨ mode = .optimistic) (hasDeepstack : Bool) (layerList : List ℤ)
    (ndec : ℕ) :
    HonoursList hasDeepstack mode layerList accDevice ndec ↔ layerList ≠ [] ∨ ndec = 0 := by
  have hmode' : (new hasDeepstack mode (some layerList) accDevice).mode = .list ∨
      (new hasDeepstack mode (some layerList) accDevice).mode = .optimistic := by
    cases hasDeepstack with
    | true => exact .inl rfl
    | false => exact hmode
  obtain ⟨groups, hgroups⟩ := exists_toGroups hmode' ndec
  obtain ⟨hlength, hcount⟩ := count_assignment hacc hmode' hgroups
  refine ⟨?_, ?_⟩
  · rintro ⟨groups', hgroups', hhonours, -⟩
    obtain rfl := Except.ok.inj (hgroups.symm.trans hgroups')
    rcases layerList with _ | ⟨i, is⟩
    · refine .inr ?_
      by_contra hndec
      have hpos := layerSet_default_pos (r := new hasDeepstack mode (some []) accDevice) rfl
        (Nat.pos_of_ne_zero hndec)
      have haccelerated := hhonours.accelerated
      have hnone : (listed [] ndec).card = 0 := rfl
      rw [sum_count_device, hnone] at haccelerated
      exact hpos.ne' (hcount.symm.trans haccelerated)
    · exact .inl (List.cons_ne_nil i is)
  · intro h
    -- without layers there is nothing to list, by the given list or by the default one
    have hset : ((new hasDeepstack mode (some layerList) accDevice).layerSet ndec).card =
        (listed layerList ndec).card := by
      rcases layerList with _ | ⟨i, is⟩
      · obtain rfl := h.resolve_left (fun hne => hne rfl)
        exact Nat.le_zero.mp (card_layerSet_le _ 0)
      · rw [layerSet_eq_listed rfl]
        rfl
    refine ⟨groups, hgroups, ⟨count_pos_of_toGroups hmode' hgroups, ?_, ?_⟩, ?_⟩
    · rw [AttAcc.sum_count, hlength]
    · rw [sum_count_device, ← hset]
      exact hcount
    · intro hlist
      rcases layerList with _ | ⟨i, is⟩
      · obtain rfl := h.resolve_left (fun hne => hne rfl)
        rw [toGroups, hlist] at hgroups
        obtain rfl := Except.ok.inj hgroups
        rfl
      · exact honoursEach_of_toGroups rfl hlist hgroups

/-- A list with a duplicate, a negative entry and one out of range, for a DeepStack model. -/
theorem honours_duplicates :
    (RoutingDevice.pim ≠ .gpu ∧ (RoutingMode.list = .list ∨ RoutingMode.list = .optimistic)) ∧
      (HonoursList true .list [3, -1, 3, 40] .pim 36 ↔ [3, -1, 3, 40] ≠ [] ∨ 36 = 0) :=
  ⟨⟨by decide, .inl rfl⟩, honours_iff (by decide) (.inl rfl) true [3, -1, 3, 40] 36⟩

/-- An empty list for a model of 36 layers puts 22 of them on the accelerator. -/
theorem not_honours_nil : ¬HonoursList true .list [] .pim 36 := by
  rintro ⟨groups, hgroups, hhonours, -⟩
  obtain rfl := Except.ok.inj hgroups
  exact absurd hhonours.accelerated (by decide)

end Routing

end AttAcc
