import AttAcc.Trace.Traffic

/-!
# The prefetch windows of a pair

While the loops of one head compute, they bring in vectors of the other: the first loop
writes the input vector of head 1, the second moves the score vector of head 0, the third
that of head 1. A round takes a window of `int(total / rounds)` commands, so the windows
make up a list exactly when the number of rounds divides its length
(`prefetchComplete_iff`). What is left over is emitted nowhere.
-/

namespace AttAcc.Trace

open Library

/-- The commands with a mnemonic. -/
def withMnemonic (m : Mnemonic) (cmds : List Command) : List Command :=
  cmds.filter fun c => c.mnemonic = m

/-- The loops of a pair are emitted, and the vectors in them are the whole lists, in order. -/
structure PrefetchComplete (g : Generator) (a : Args) (head0 head1 : Iteration Command) : Prop where
  score0 : ∃ out, g.score0 a Generator.barrier head0 head1 = .ok out ∧
    withMnemonic .WR_GB out = head1.scoreWrgb
  score1 : ∃ out, g.score1 a Generator.barrier head0 head1 = .ok out ∧
    withMnemonic .MV_GB out = head0.contextMvgb
  context0 : ∃ out, g.context0 a Generator.barrier head0 head1 = .ok out ∧
    withMnemonic .MV_GB out = head1.contextMvgb

/-! ## Windows -/

section Windows

variable {α : Type*} (it : Iteration α)

/-- Windows of `total / rounds` elements make up a list of `total` exactly when they are as
many as divide it. -/
theorem le_rounds_mul_iff {total rounds : ℕ} :
    total ≤ rounds * (total / rounds) ↔ rounds ∣ total := by
  refine ⟨?_, ?_⟩
  · intro hle
    exact ⟨total / rounds, le_antisymm hle (Nat.mul_div_le total rounds)⟩
  · intro hdvd
    exact (Nat.mul_div_cancel' hdvd).ge

/-- The windows of the input vector. -/
theorem flatMap_wrgbRound_eq_iff {cmds length : ℕ}
    (hlength : it.scoreWrgb.length = cmds * it.validChannel) :
    (List.range (length + 1)).flatMap (it.wrgbRound cmds length) = it.scoreWrgb ↔
      length ∣ cmds * it.validChannel := by
  -- the loop has a round more than windows: the last one only drains the pipeline
  have hrounds : (List.range (length + 1)).flatMap (it.wrgbRound cmds length) =
      (List.range length).flatMap fun j =>
        (it.scoreWrgb.drop (j * (cmds * it.validChannel / length))).take
          (cmds * it.validChannel / length) := by
    rw [List.range_succ, List.flatMap_append, List.flatMap_singleton, Iteration.wrgbRound,
      if_pos rfl, List.append_nil]
    refine List.flatMap_congr fun j hj => ?_
    rw [Iteration.wrgbRound, if_neg (List.mem_range.mp hj).ne, window]
  rw [hrounds, flatMap_window_eq_iff, hlength, le_rounds_mul_iff]

/-- The windows of the score vector, which are half as many. -/
theorem flatMap_mvgbRound_eq_iff {cmds length : ℕ}
    (hlength : it.contextMvgb.length = cmds * it.validChannel) :
    (List.range (length + 1)).flatMap (it.mvgbRound cmds length) = it.contextMvgb ↔
      length ⌈/⌉ 2 ∣ cmds * it.validChannel := by
  -- the rounds of the first half move nothing, the others take the windows from the first on
  have hhalf : length = length / 2 + length ⌈/⌉ 2 := by
    rw [Nat.ceilDiv_eq_add_pred_div]
    omega
  have hfirst : (List.range (length / 2)).flatMap (it.mvgbRound cmds length) = [] := by
    refine List.flatMap_eq_nil_iff.mpr ?_
    intro j hj
    rw [Iteration.mvgbRound, if_pos (.inr (List.mem_range.mp hj))]
  have hsecond : ((List.range (length ⌈/⌉ 2)).map (length / 2 + ·)).flatMap
      (it.mvgbRound cmds length) = (List.range (length ⌈/⌉ 2)).flatMap fun j =>
        (it.contextMvgb.drop (j * (cmds * it.validChannel / (length ⌈/⌉ 2)))).take
          (cmds * it.validChannel / (length ⌈/⌉ 2)) := by
    rw [List.flatMap_map]
    refine List.flatMap_congr fun j hj => ?_
    have hlt := List.mem_range.mp hj
    have hin : ¬(length / 2 + j = length ∨ length / 2 + j < length / 2) := by omega
    rw [Iteration.mvgbRound, if_neg hin, Nat.add_sub_cancel_left, window]
  have hrange : List.range length =
      List.range (length / 2) ++ (List.range (length ⌈/⌉ 2)).map (length / 2 + ·) := by
    rw [← List.range_add, ← hhalf]
  have hrounds : (List.range (length + 1)).flatMap (it.mvgbRound cmds length) =
      (List.range (length ⌈/⌉ 2)).flatMap fun j =>
        (it.contextMvgb.drop (j * (cmds * it.validChannel / (length ⌈/⌉ 2)))).take
          (cmds * it.validChannel / (length ⌈/⌉ 2)) := by
    rw [List.range_succ, List.flatMap_append, List.flatMap_singleton, hrange,
      List.flatMap_append, hfirst, hsecond, Iteration.mvgbRound, if_pos (.inl rfl),
      List.nil_append, List.append_nil]
  rw [hrounds, flatMap_window_eq_iff, hlength, le_rounds_mul_iff]

end Windows

/-! ## What is on the bus of a loop -/

section Bus

variable {m : Mnemonic} {rows : ℕ → Except PyError (List Command)} {groups : List (List Command)}
  {bus : ℕ → List Command} {out : List Command} {length : ℕ}

theorem withMnemonic_append (cmds cmds' : List Command) :
    withMnemonic m (cmds ++ cmds') = withMnemonic m cmds ++ withMnemonic m cmds' :=
  List.filter_append ..

theorem withMnemonic_eq_nil {cmds : List Command} (h : ∀ c ∈ cmds, c.mnemonic ≠ m) :
    withMnemonic m cmds = [] := by
  refine List.filter_eq_nil_iff.mpr ?_
  intro c hc
  rw [decide_eq_true_eq]
  exact h c hc

theorem withMnemonic_eq_self {cmds : List Command} (h : ∀ c ∈ cmds, c.mnemonic = m) :
    withMnemonic m cmds = cmds := by
  refine List.filter_eq_self.mpr ?_
  intro c hc
  exact decide_eq_true (h c hc)

/-- A mnemonic that is neither a MAC, a move nor a barrier selects from what is on the bus. -/
theorem withMnemonic_pipeline
    (hrows : ∀ j row, rows j = .ok row → ∀ c ∈ row, c.mnemonic ≠ m)
    (hgroups : ∀ group ∈ groups, ∀ c ∈ group, c.mnemonic ≠ m) (hm : m ≠ .BARRIER)
    (h : pipeline rows groups bus Generator.barrier length = .ok out) :
    withMnemonic m out = (List.range (length + 1)).flatMap fun j => withMnemonic m (bus j) := by
  obtain ⟨macs, hmacs, rfl⟩ := pipeline_eq_ok h
  -- MACs, moves of scores and barriers fill the rounds, but are of other kinds
  have hmoves : ∀ j, withMnemonic m (moves groups j) = [] := by
    intro j
    exact withMnemonic_eq_nil (forall_mem_moves hgroups j)
  have hbarrier : withMnemonic m Generator.barrier = [] := by
    refine withMnemonic_eq_nil ?_
    intro c hc
    obtain ⟨lch, -, rfl⟩ := List.mem_map.mp hc
    exact hm.symm
  have hbody : withMnemonic m ((List.range length).flatMap fun j =>
      macs j ++ moves groups j ++ bus j ++ Generator.barrier) =
      (List.range length).flatMap fun j => withMnemonic m (bus j) := by
    rw [withMnemonic, List.filter_flatMap]
    refine List.flatMap_congr fun j hj => ?_
    have hmac : withMnemonic m (macs j) = [] :=
      withMnemonic_eq_nil (hrows j (macs j) (hmacs j (List.mem_range.mp hj)))
    change withMnemonic m _ = _
    rw [withMnemonic_append, withMnemonic_append, withMnemonic_append, hmac, hmoves, hbarrier,
      List.nil_append, List.nil_append, List.append_nil]
  rw [withMnemonic_append, hbody, withMnemonic_append, hmoves, List.nil_append, List.range_succ,
    List.flatMap_append, List.flatMap_singleton]

end Bus

/-! ## The loops of a pair -/

section Commands

variable {g : Generator} {a : Args} {keyAddr valAddr validChannel : ℕ} {m : Mnemonic}

/-- The commands that write the input vector of a head. -/
theorem length_scoreWrgb (g : Generator) (a : Args) (keyAddr valAddr validChannel : ℕ) :
    (g.commands a keyAddr valAddr validChannel).scoreWrgb.length =
      g.wrgbCmds a * (g.commands a keyAddr valAddr validChannel).validChannel := by
  simp [Generator.commands, Generator.cpvec, Generator.wrgbCmds, List.length_flatMap, mul_assoc]

/-- The commands that move the score vector of a head. -/
theorem length_contextMvgb (g : Generator) (a : Args) (keyAddr valAddr validChannel : ℕ) :
    (g.commands a keyAddr valAddr validChannel).contextMvgb.length =
      g.mvgbCmds a * (g.commands a keyAddr valAddr validChannel).validChannel := by
  simp [Generator.commands, Generator.cpvec, Generator.mvgbCmds, List.length_flatMap, mul_assoc]

theorem mnemonic_macRows {addrOffset count n : ℕ} {row : List Command}
    (hrow : row ∈ (List.range n).map (g.macRow addrOffset count validChannel)) :
    ∀ c ∈ row, c.mnemonic = g.mac := by
  obtain ⟨nIdx, -, rfl⟩ := List.mem_map.mp hrow
  intro c hc
  obtain ⟨kIdx, -, lch, -, rfl⟩ := g.mem_macRow.mp hc
  rfl

/-- A score loop adds MACs, moves and barriers to what is on its bus. -/
theorem withMnemonic_scoreLoop (hmac : g.mac ≠ m) (hmvsb : m ≠ .MV_SB) (hbarrier : m ≠ .BARRIER)
    {bus : ℕ → List Command} {out : List Command}
    (h : pipeline (g.commands a keyAddr valAddr validChannel).scoreRound
      (g.commands a keyAddr valAddr validChannel).scoreMvsb bus Generator.barrier
      (g.scoreLength a) = .ok out) :
    withMnemonic m out =
      (List.range (g.scoreLength a + 1)).flatMap fun j => withMnemonic m (bus j) := by
  refine withMnemonic_pipeline ?_ ?_ hbarrier h
  · intro j row hrow c hc
    obtain rfl := Except.ok.inj hrow
    obtain ⟨row, hrow, hc⟩ := List.mem_flatten.mp hc
    rw [mnemonic_macRows (mem_of_mem_window hrow) c hc]
    exact hmac
  · intro group hgroup c hc
    obtain ⟨_, -, rfl⟩ := List.mem_map.mp hgroup
    rw [mnemonic_mvsb c hc]
    exact hmvsb.symm

/-- And so does a context loop. -/
theorem withMnemonic_contextLoop (hmac : g.mac ≠ m) (hmvsb : m ≠ .MV_SB)
    (hbarrier : m ≠ .BARRIER) {bus : ℕ → List Command} {out : List Command}
    (h : pipeline (g.commands a keyAddr valAddr validChannel).contextRound
      (g.commands a keyAddr valAddr validChannel).contextMvsb bus Generator.barrier
      (g.contextLength a) = .ok out) :
    withMnemonic m out =
      (List.range (g.contextLength a + 1)).flatMap fun j => withMnemonic m (bus j) := by
  refine withMnemonic_pipeline ?_ ?_ hbarrier h
  · intro j row hrow c hc
    rw [mnemonic_macRows (List.mem_of_getElem? (index_eq_ok.mp hrow)) c hc]
    exact hmac
  · intro group hgroup c hc
    obtain ⟨_, -, rfl⟩ := List.mem_map.mp hgroup
    rw [mnemonic_mvsb c hc]
    exact hmvsb.symm

/-- The writes among the writes of a round are all of it. -/
theorem withMnemonic_wrgbRound (cmds length j : ℕ) :
    withMnemonic .WR_GB ((g.commands a keyAddr valAddr validChannel).wrgbRound cmds length j) =
      (g.commands a keyAddr valAddr validChannel).wrgbRound cmds length j := by
  refine withMnemonic_eq_self ?_
  intro c hc
  rw [Iteration.wrgbRound] at hc
  split_ifs at hc
  · exact absurd hc List.not_mem_nil
  · exact mnemonic_cpvec c (mem_of_mem_window hc)

/-- The moves among the softmax and the moves of a round are the moves. -/
theorem withMnemonic_softmaxRound (cmds length j : ℕ) :
    withMnemonic .MV_GB ((g.commands a keyAddr valAddr validChannel).sfmRound j ++
      (g.commands a keyAddr valAddr validChannel).mvgbRound cmds length j) =
      (g.commands a keyAddr valAddr validChannel).mvgbRound cmds length j := by
  have hsfm :
      withMnemonic .MV_GB ((g.commands a keyAddr valAddr validChannel).sfmRound j) = [] := by
    refine withMnemonic_eq_nil ?_
    intro c hc
    rw [Iteration.sfmRound] at hc
    split_ifs at hc
    · obtain ⟨lch, -, rfl⟩ := List.mem_map.mp hc
      simp
    · exact absurd hc List.not_mem_nil
  have hmvgb : withMnemonic .MV_GB
      ((g.commands a keyAddr valAddr validChannel).mvgbRound cmds length j) =
      (g.commands a keyAddr valAddr validChannel).mvgbRound cmds length j := by
    refine withMnemonic_eq_self ?_
    intro c hc
    rw [Iteration.mvgbRound] at hc
    split_ifs at hc
    · exact absurd hc List.not_mem_nil
    · exact mnemonic_cpvec c (mem_of_mem_window hc)
  rw [withMnemonic_append, hsfm, hmvgb, List.nil_append]

end Commands

section Pair

variable {g : Generator} {a : Args} {head0 head1 : Iteration Command}

/-- What is asked of an output that exists is asked of that output. -/
theorem exists_ok_and_iff {β : Type*} {x : Except PyError β} {P : β → Prop} {out : β}
    (h : x = .ok out) : (∃ out, x = .ok out ∧ P out) ↔ P out := by
  subst h
  refine ⟨?_, fun hout => ⟨out, rfl, hout⟩⟩
  rintro ⟨out', hout', h⟩
  obtain rfl := Except.ok.inj hout'
  exact h

variable {keyAddr₀ valAddr₀ validChannel₀ keyAddr₁ valAddr₁ validChannel₁ : ℕ}
  (hhead0 : head0 = g.commands a keyAddr₀ valAddr₀ validChannel₀)
  (hhead1 : head1 = g.commands a keyAddr₁ valAddr₁ validChannel₁)
include hhead0 hhead1

/-- The first loop writes the input vector of head 1. -/
theorem score0_complete_iff (hmac : g.mac ≠ .WR_GB) :
    (∃ out, g.score0 a Generator.barrier head0 head1 = .ok out ∧
      withMnemonic .WR_GB out = head1.scoreWrgb) ↔
      g.scoreLength a ∣ g.wrgbCmds a * validChannel₁ := by
  subst hhead0 hhead1
  obtain ⟨out, hout⟩ : ∃ out, g.score0 a Generator.barrier
      (g.commands a keyAddr₀ valAddr₀ validChannel₀)
      (g.commands a keyAddr₁ valAddr₁ validChannel₁) = .ok out :=
    exists_pipeline (fun _ _ => ⟨_, rfl⟩) (length_scoreMvsb g a _ _ _).ge
  have hwrites := withMnemonic_scoreLoop hmac nofun nofun hout
  simp only [withMnemonic_wrgbRound] at hwrites
  rw [exists_ok_and_iff hout, hwrites]
  exact flatMap_wrgbRound_eq_iff _ (length_scoreWrgb g a keyAddr₁ valAddr₁ validChannel₁)

/-- The second loop moves the score vector of head 0. -/
theorem score1_complete_iff (hmac : g.mac ≠ .MV_GB) :
    (∃ out, g.score1 a Generator.barrier head0 head1 = .ok out ∧
      withMnemonic .MV_GB out = head0.contextMvgb) ↔
      g.scoreLength a ⌈/⌉ 2 ∣ g.mvgbCmds a * validChannel₀ := by
  subst hhead0 hhead1
  obtain ⟨out, hout⟩ : ∃ out, g.score1 a Generator.barrier
      (g.commands a keyAddr₀ valAddr₀ validChannel₀)
      (g.commands a keyAddr₁ valAddr₁ validChannel₁) = .ok out :=
    exists_pipeline (fun _ _ => ⟨_, rfl⟩) (length_scoreMvsb g a _ _ _).ge
  have hmoves := withMnemonic_scoreLoop hmac nofun nofun hout
  simp only [withMnemonic_softmaxRound] at hmoves
  rw [exists_ok_and_iff hout, hmoves]
  exact flatMap_mvgbRound_eq_iff _ (length_contextMvgb g a keyAddr₀ valAddr₀ validChannel₀)

/-- The third loop moves the score vector of head 1. -/
theorem context0_complete_iff (hmac : g.mac ≠ .MV_GB) :
    (∃ out, g.context0 a Generator.barrier head0 head1 = .ok out ∧
      withMnemonic .MV_GB out = head1.contextMvgb) ↔
      g.contextLength a ⌈/⌉ 2 ∣ g.mvgbCmds a * validChannel₁ := by
  subst hhead0 hhead1
  have hfits := fits_commands g a keyAddr₀ valAddr₀ validChannel₀
  obtain ⟨out, hout⟩ : ∃ out, g.context0 a Generator.barrier
      (g.commands a keyAddr₀ valAddr₀ validChannel₀)
      (g.commands a keyAddr₁ valAddr₁ validChannel₁) = .ok out :=
    exists_pipeline (fun j hj => ⟨_, contextRound_eq hfits j hj⟩) hfits.contextMvsb.ge
  have hmoves := withMnemonic_contextLoop hmac nofun nofun hout
  simp only [withMnemonic_softmaxRound] at hmoves
  rw [exists_ok_and_iff hout, hmoves]
  exact flatMap_mvgbRound_eq_iff _ (length_contextMvgb g a keyAddr₁ valAddr₁ validChannel₁)

end Pair

theorem mac_generator_ne (pimType : PIMType) {m : Mnemonic} (hm : Command.isMac ⟨m, 0⟩ = false) :
    (generator pimType).mac ≠ m := by
  rintro rfl
  rw [isMac_generator] at hm
  cases hm

/-- **The windows are complete exactly when the rounds divide the vectors**: those of a score
loop the writes of head 1, the second half of them the moves of head 0, and the second half
of those of a context loop the moves of head 1. -/
theorem prefetchComplete_iff (pimType : PIMType) (a : Args)
    (keyAddr₀ valAddr₀ validChannel₀ keyAddr₁ valAddr₁ validChannel₁ : ℕ) :
    PrefetchComplete (generator pimType) a
        ((generator pimType).commands a keyAddr₀ valAddr₀ validChannel₀)
        ((generator pimType).commands a keyAddr₁ valAddr₁ validChannel₁) ↔
      (generator pimType).scoreLength a ∣ (generator pimType).wrgbCmds a * validChannel₁ ∧
      (generator pimType).scoreLength a ⌈/⌉ 2 ∣ (generator pimType).mvgbCmds a * validChannel₀ ∧
      (generator pimType).contextLength a ⌈/⌉ 2 ∣
        (generator pimType).mvgbCmds a * validChannel₁ := by
  rw [← score0_complete_iff rfl rfl (mac_generator_ne pimType rfl),
    ← score1_complete_iff rfl rfl (mac_generator_ne pimType rfl),
    ← context0_complete_iff rfl rfl (mac_generator_ne pimType rfl)]
  refine ⟨?_, ?_⟩
  · rintro ⟨hscore0, hscore1, hcontext0⟩
    exact ⟨hscore0, hscore1, hcontext0⟩
  · rintro ⟨hscore0, hscore1, hcontext0⟩
    exact ⟨hscore0, hscore1, hcontext0⟩

/-- Two iterations of 16 heads, with a length that takes three rounds. -/
def threeRounds : Args where
  dhead := 128
  maxL := 2048
  nMac := 16
  L := 768
  nHeadPerHbm := 32

/-- Three rounds write 126 of 128 columns. -/
theorem not_prefetchComplete_threeRounds : ¬PrefetchComplete (generator .BA) threeRounds
    ((generator .BA).iteration threeRounds 0) ((generator .BA).iteration threeRounds 1) := by
  intro h
  have hdvd := (score0_complete_iff rfl rfl (mac_generator_ne .BA rfl)).mp h.score0
  exact absurd hdvd (by decide)

end AttAcc.Trace
