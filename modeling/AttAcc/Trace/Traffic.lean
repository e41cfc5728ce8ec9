import AttAcc.Ramulator
import AttAcc.Trace.Coverage

/-!
# Cell traffic

The wrapper runs a generator for a query, counts the MACs of the trace, and converts them to
bytes that are read from the cells: 32 for each bank that a MAC reads. A head reads its keys
and values once, so these should be `2 * L * dhead * dbyte` bytes, whatever the mode.

They are, but for two things: `run` counts a `BUFFER` access for one pseudo channel where
`output` counts it for both, and in a pair the context of head 0 is emitted in place of that
of head 1, which shows if head 1 serves fewer channels (`meetsTraffic_iff`).
-/

namespace AttAcc.Trace

open Library

/-! ## From a key to a trace, and back to bytes -/

/-- The trace generator of a mode. -/
def generator : PIMType → Generator
  | .BA => bank
  | .BG => bg
  | .BUFFER => buffer

/-- The arguments that `run_ramulator` gives it, with its `n_mac`. -/
def simArgs (key : SimKey) : Args where
  dhead := key.dhead
  maxL := key.maxL
  nMac := HbmGs.col / key.dbyte
  L := key.l
  nHeadPerHbm := key.nhead

/-- The lines that count as a MAC. -/
def Command.isMac (c : Command) : Bool :=
  match c.mnemonic with
  | .MAC_AB | .MAC_SB | .MAC_PB => true
  | _ => false

/-- The MACs of a trace, but for those in front of the first barrier. -/
def macCount (trace : List Command) : ℕ :=
  (trace.dropWhile fun c => decide (c.mnemonic ≠ .BARRIER)).countP Command.isMac

/-- `mem_acc` of the wrapper, with the factor for `BUFFER`. -/
def memAcc (bufferScale : ℕ) (pimType : PIMType) (mac : ℕ) : ℕ :=
  mac * 32 * match pimType with
    | .BA => 2 * 2 * 4 * 4
    | .BG => 2 * 2 * 4
    | .BUFFER => bufferScale

/-- `mem_acc` in `run` and in `output`. -/
def runMemAcc : PIMType → ℕ → ℕ := memAcc 1

def outputMemAcc : PIMType → ℕ → ℕ := memAcc 2

/-- This is what the wrapper reports, for all HBMs and groups. -/
theorem memAcc_freshResult (r : RamulatorConfig) (q : Query) (c : Counters) :
    (r.freshResult q c).2.memAcc =
      (runMemAcc q.pimType c.mac : ℕ) * ((r.numHbm : ℚ) * r.numOpsGroup q) := rfl

theorem memAcc_cachedResult (r : RamulatorConfig) (q : Query) (c : Counters) :
    (r.cachedResult q c).2.memAcc =
      (outputMemAcc q.pimType c.mac : ℕ) * ((r.numHbm : ℚ) * r.numOpsGroup q) := rfl

/-- The keys and values of all heads of an HBM, in bytes. -/
def footprint (key : SimKey) : ℕ := 2 * key.l * key.dhead * key.dbyte * key.nhead

/-- Both paths report the footprint. -/
def ExactTraffic (key : SimKey) (trace : List Command) : Prop :=
  runMemAcc key.pimType (macCount trace) = footprint key ∧
    outputMemAcc key.pimType (macCount trace) = footprint key

/-- A fresh generator writes a trace, and both paths report the footprint for it. -/
def MeetsTraffic (key : SimKey) : Prop :=
  ∃ cmds trace, (generator key.pimType).runAttention (simArgs key) [] = .ok (cmds, trace) ∧
    ExactTraffic key trace

/-- `L` and `dhead` are multiples of the granularity of the mode. -/
structure Granular (key : SimKey) : Prop where
  dbyte : key.dbyte = 1 ∨ key.dbyte = 2
  l : (generator key.pimType).units ∣ key.l
  dhead : (generator key.pimType).lanes * (HbmGs.col / key.dbyte) ∣ key.dhead

/-! ## Counting MACs -/

section Count

variable {g : Generator} {a : Args} {it head0 head1 : Iteration Command} {out : List Command}

/-- No MACs are in a list. -/
def NoMac (l : List Command) : Prop := ∀ c ∈ l, c.isMac = false

theorem NoMac.countP {l : List Command} (h : NoMac l) : l.countP Command.isMac = 0 := by
  refine List.countP_eq_zero.mpr ?_
  intro c hc
  rw [h c hc]
  decide

/-- A loop emits its MACs, and no others if none are in its moves and on its bus. -/
theorem countP_pipeline {rows : ℕ → Except PyError (List Command)} {rowsOut : ℕ → List Command}
    {groups : List (List Command)} {bus : ℕ → List Command} {length : ℕ}
    (hrows : ∀ j < length, rows j = .ok (rowsOut j)) (hgroups : ∀ group ∈ groups, NoMac group)
    (hbus : ∀ j, NoMac (bus j))
    (h : pipeline rows groups bus Generator.barrier length = .ok out) :
    out.countP Command.isMac = ((List.range length).flatMap rowsOut).countP Command.isMac := by
  have hmoves : NoMac (groups.take length).flatten := by
    intro c hc
    obtain ⟨group, hgroup, hc⟩ := List.mem_flatten.mp hc
    exact hgroups group (List.mem_of_mem_take hgroup) c hc
  have hbusAll : NoMac ((List.range (length + 1)).flatMap bus) := by
    intro c hc
    obtain ⟨j, -, hc⟩ := List.mem_flatMap.mp hc
    exact hbus j c hc
  have hbarriers : NoMac ((List.range length).flatMap fun _ => Generator.barrier) := by
    intro c hc
    obtain ⟨_, -, hc⟩ := List.mem_flatMap.mp hc
    obtain ⟨lch, -, rfl⟩ := List.mem_map.mp hc
    rfl
  rw [(pipeline_perm hrows h).countP_eq, List.countP_append, List.countP_append,
    List.countP_append, hmoves.countP, hbusAll.countP, hbarriers.countP]
  omega

theorem noMac_barrier : NoMac Generator.barrier := by
  intro c hc
  obtain ⟨lch, -, rfl⟩ := List.mem_map.mp hc
  rfl

theorem noMac_of_mnemonic {l : List Command} {m : Mnemonic}
    (hm : Command.isMac ⟨m, 0⟩ = false) (h : ∀ c ∈ l, c.mnemonic = m) : NoMac l := by
  intro c hc
  rw [Command.isMac, h c hc]
  exact hm

theorem mnemonic_cpvec {m : Mnemonic} {bases : List ℕ} {cols addrOffset validChannel : ℕ} :
    ∀ c ∈ Generator.cpvec m bases cols addrOffset validChannel, c.mnemonic = m := by
  intro c hc
  obtain ⟨base, -, hc⟩ := List.mem_flatMap.mp hc
  obtain ⟨colIdx, -, hc⟩ := List.mem_flatMap.mp hc
  obtain ⟨lch, -, rfl⟩ := List.mem_map.mp hc
  rfl

theorem mnemonic_mvsb {bases : List ℕ} {addrOffset validChannel : ℕ} :
    ∀ c ∈ Generator.mvsb bases addrOffset validChannel, c.mnemonic = .MV_SB := by
  intro c hc
  obtain ⟨base, -, hc⟩ := List.mem_flatMap.mp hc
  obtain ⟨lch, -, rfl⟩ := List.mem_map.mp hc
  rfl

/-- The lists of an iteration without MACs. -/
structure MacFree (it : Iteration Command) : Prop where
  scoreWrgb : NoMac it.scoreWrgb
  scoreMvsb : ∀ group ∈ it.scoreMvsb, NoMac group
  sfm : NoMac it.sfm
  contextMvgb : NoMac it.contextMvgb
  contextMvsb : ∀ group ∈ it.contextMvsb, NoMac group

theorem macFree_iteration (g : Generator) (a : Args) (itr : ℕ) : MacFree (g.iteration a itr) := by
  refine ⟨noMac_of_mnemonic rfl mnemonic_cpvec, ?_, ?_, noMac_of_mnemonic rfl mnemonic_cpvec, ?_⟩
  · intro group hgroup
    obtain ⟨_, -, rfl⟩ := List.mem_map.mp hgroup
    exact noMac_of_mnemonic rfl mnemonic_mvsb
  · intro c hc
    obtain ⟨lch, -, rfl⟩ := List.mem_map.mp hc
    rfl
  · intro group hgroup
    obtain ⟨_, -, rfl⟩ := List.mem_map.mp hgroup
    exact noMac_of_mnemonic rfl mnemonic_mvsb

/-- The MACs of an operand with `n` rows of `count` columns. -/
theorem countP_macRows (hg : ∀ addr, Command.isMac ⟨g.mac, addr⟩ = true)
    (addrOffset count validChannel n : ℕ) :
    ((List.range n).map (g.macRow addrOffset count validChannel)).flatten.countP Command.isMac =
      n * (count * validChannel) := by
  have hrow : ∀ nIdx, (g.macRow addrOffset count validChannel nIdx).countP Command.isMac =
      count * validChannel := by
    intro nIdx
    have hlength : (g.macRow addrOffset count validChannel nIdx).length = count * validChannel := by
      simp [Generator.macRow, List.length_flatMap]
    rw [← hlength]
    refine List.countP_eq_length.mpr ?_
    intro c hc
    obtain ⟨kIdx, -, lch, -, rfl⟩ := g.mem_macRow.mp hc
    exact hg _
  rw [List.countP_flatten, List.map_map]
  simp [Function.comp_def, hrow]

/-- A score loop counts the scores of its head. -/
theorem countP_score (hg : ∀ addr, Command.isMac ⟨g.mac, addr⟩ = true) {k : ℕ}
    {bus : ℕ → List Command} (hbus : ∀ j, NoMac (bus j))
    (h : pipeline (g.iteration a k).scoreRound (g.iteration a k).scoreMvsb bus Generator.barrier
      (g.scoreLength a) = .ok out) :
    out.countP Command.isMac = g.seqRows a * g.headCols a * a.validChannel k := by
  have hrounds : ∀ j < g.scoreLength a, (g.iteration a k).scoreRound j =
      .ok (window (g.iteration a k).scoreMac (j * 16) 16).flatten := fun _ _ => rfl
  rw [countP_pipeline hrounds (macFree_iteration g a k).scoreMvsb hbus h,
    flatMap_scoreRound (fits_iteration g a k), Nat.mul_assoc]
  exact countP_macRows hg _ _ _ _

/-- A context loop counts the context of its head. -/
theorem countP_context (hg : ∀ addr, Command.isMac ⟨g.mac, addr⟩ = true) {k : ℕ}
    {bus : ℕ → List Command} (hbus : ∀ j, NoMac (bus j))
    (h : pipeline (g.iteration a k).contextRound (g.iteration a k).contextMvsb bus
      Generator.barrier (g.contextLength a) = .ok out) :
    out.countP Command.isMac = g.seqRows a * g.headCols a * a.validChannel k := by
  have hfits := fits_iteration g a k
  rw [countP_pipeline (contextRound_eq hfits) (macFree_iteration g a k).contextMvsb hbus h,
    flatMap_getD, List.take_of_length_le hfits.contextMac.le, Nat.mul_comm (g.seqRows a),
    Nat.mul_assoc]
  exact countP_macRows hg _ _ _ _

theorem MacFree.wrgbRound (h : MacFree it) (n length j : ℕ) : NoMac (it.wrgbRound n length j) := by
  intro c hc
  rw [Iteration.wrgbRound] at hc
  split_ifs at hc
  · exact absurd hc List.not_mem_nil
  · exact h.scoreWrgb c (mem_of_mem_window hc)

theorem MacFree.softmaxRound (h : MacFree it) (n length j : ℕ) :
    NoMac (it.sfmRound j ++ it.mvgbRound n length j) := by
  intro c hc
  rw [Iteration.sfmRound, Iteration.mvgbRound] at hc
  rcases List.mem_append.mp hc with hc | hc
  · split_ifs at hc
    · exact h.sfm c hc
    · exact absurd hc List.not_mem_nil
  · split_ifs at hc
    · exact absurd hc List.not_mem_nil
    · exact h.contextMvgb c (mem_of_mem_window hc)

theorem noMac_nil (j : ℕ) : NoMac ((fun _ => []) j : List Command) :=
  fun _ hc => absurd hc List.not_mem_nil

/-- No barriers are in front of the first one. -/
theorem ne_barrier_of_front {k : ℕ} (hg : ∀ addr, Command.isMac ⟨g.mac, addr⟩ = true) {n : ℕ}
    {dummies : List Command} (h : (g.iteration a k).dummyMacs n = .ok dummies) :
    ∀ c ∈ (g.iteration a k).scoreWrgb ++ dummies, c.mnemonic ≠ .BARRIER := by
  intro c hc
  rcases List.mem_append.mp hc with hc | hc
  · rw [mnemonic_cpvec c hc]
    decide
  · rw [Iteration.dummyMacs] at h
    split_ifs at h
    · obtain ⟨j, -, hj⟩ := exists_of_mem_mapM h c hc
      obtain ⟨row, hrow, hc⟩ := bind_ok_iff.mp hj
      have hrow := List.mem_of_getElem? (index_eq_ok.mp hrow)
      have hc := List.mem_of_getElem? (index_eq_ok.mp hc)
      obtain ⟨nIdx, -, rfl⟩ := List.mem_map.mp hrow
      obtain ⟨kIdx, -, lch, -, rfl⟩ := g.mem_macRow.mp hc
      intro hbarrier
      have hmac := hg 0
      rw [Command.isMac, show g.mac = .BARRIER from hbarrier] at hmac
      cases hmac
    · obtain rfl := Except.ok.inj h
      exact absurd hc List.not_mem_nil

/-- What a pair counts: the scores of both heads, and twice the context of head 0. -/
theorem countP_emitPair (hg : ∀ addr, Command.isMac ⟨g.mac, addr⟩ = true) {i : ℕ}
    (hi : i + 1 < a.numItr)
    (h : g.emitPair a Generator.barrier ((List.range a.numItr).map (g.iteration a)) i = .ok out) :
    ∃ front dummies body, out = front ++ dummies ++ (Generator.barrier ++ body) ∧ NoMac front ∧
      (∀ c ∈ front ++ dummies, c.mnemonic ≠ .BARRIER) ∧ (i ≠ 0 → dummies = []) ∧
      body.countP Command.isMac = g.seqRows a * g.headCols a *
        (3 * a.validChannel i + a.validChannel (i + 1)) := by
  obtain ⟨head0, hhead0, h⟩ := bind_ok_iff.mp h
  obtain ⟨head1, hhead1, h⟩ := bind_ok_iff.mp h
  obtain ⟨dummies, hdummies, h⟩ := bind_ok_iff.mp h
  obtain ⟨score0, hscore0, h⟩ := bind_ok_iff.mp h
  obtain ⟨score1, hscore1, h⟩ := bind_ok_iff.mp h
  obtain ⟨context0, hcontext0, h⟩ := bind_ok_iff.mp h
  obtain ⟨context1, hcontext1, h⟩ := bind_ok_iff.mp h
  obtain rfl := Except.ok.inj h
  obtain rfl := Except.ok.inj ((index_iterations (by omega)).symm.trans hhead0)
  obtain rfl := Except.ok.inj ((index_iterations hi).symm.trans hhead1)
  have hfree0 := macFree_iteration g a i
  have hfree1 := macFree_iteration g a (i + 1)
  refine ⟨(g.iteration a i).scoreWrgb, dummies, score0 ++ (score1 ++ (context0 ++ context1)),
    by simp, hfree0.scoreWrgb, ne_barrier_of_front hg hdummies, ?_, ?_⟩
  · intro hi
    rw [Iteration.dummyMacs, if_neg hi] at hdummies
    exact (Except.ok.inj hdummies).symm
  · rw [List.countP_append, List.countP_append, List.countP_append,
      countP_score hg (hfree1.wrgbRound _ _) hscore0,
      countP_score hg (hfree0.softmaxRound _ _) hscore1,
      countP_context hg (hfree1.softmaxRound _ _) hcontext0, countP_context hg noMac_nil hcontext1]
    ring

/-- What a last iteration counts. -/
theorem countP_emitLast (hg : ∀ addr, Command.isMac ⟨g.mac, addr⟩ = true) {i : ℕ}
    (hi : i < a.numItr)
    (h : g.emitLast a Generator.barrier ((List.range a.numItr).map (g.iteration a)) i = .ok out) :
    ∃ front body, out = front ++ (Generator.barrier ++ body) ∧ NoMac front ∧
      (∀ c ∈ front, c.mnemonic ≠ .BARRIER) ∧
      body.countP Command.isMac = g.seqRows a * g.headCols a * (2 * a.validChannel i) := by
  obtain ⟨head, hhead, h⟩ := bind_ok_iff.mp h
  obtain ⟨score, hscore, h⟩ := bind_ok_iff.mp h
  obtain ⟨context, hcontext, h⟩ := bind_ok_iff.mp h
  obtain rfl := Except.ok.inj h
  obtain rfl := Except.ok.inj ((index_iterations hi).symm.trans hhead)
  have hfree := macFree_iteration g a i
  refine ⟨(g.iteration a i).scoreWrgb, score ++ ((g.iteration a i).sfm ++
    ((g.iteration a i).contextMvgb ++ (Generator.barrier ++ context))), by simp, hfree.scoreWrgb,
    ?_, ?_⟩
  · intro c hc
    rw [mnemonic_cpvec c hc]
    decide
  · have hbarrier : NoMac Generator.barrier := by
      intro c hc
      obtain ⟨lch, -, rfl⟩ := List.mem_map.mp hc
      rfl
    rw [List.countP_append, List.countP_append, List.countP_append, List.countP_append,
      countP_score hg noMac_nil hscore, hfree.sfm.countP, hfree.contextMvgb.countP,
      noMac_barrier.countP, countP_context hg noMac_nil hcontext]
    ring

/-- Counting starts at the first barrier. -/
theorem macCount_append {front rest : List Command} (h : ∀ c ∈ front, c.mnemonic ≠ .BARRIER) :
    macCount (front ++ (Generator.barrier ++ rest)) = rest.countP Command.isMac := by
  have hall : ∀ c ∈ front, decide (c.mnemonic ≠ .BARRIER) = true :=
    fun c hc => decide_eq_true (h c hc)
  have hbarrier : Generator.barrier = ⟨.BARRIER, 0⟩ :: Generator.barrier.tail := rfl
  have hdrop : (front ++ (Generator.barrier ++ rest)).dropWhile
      (fun c => decide (c.mnemonic ≠ .BARRIER)) = Generator.barrier ++ rest := by
    rw [List.dropWhile_append_of_pos hall, hbarrier, List.cons_append]
    exact List.dropWhile_cons_of_neg (by simp)
  rw [macCount, hdrop, List.countP_append, noMac_barrier.countP, Nat.zero_add]

/-- How many MACs a pair has for each row and column. -/
def pairChannels (a : Args) (p : ℕ) : ℕ :=
  3 * a.validChannel (2 * p) + a.validChannel (2 * p + 1)

/-- The same for the tail. -/
def tailChannels (a : Args) : ℕ :=
  if a.numItr % 2 ≠ 0 then 2 * a.validChannel (a.numItr - 1) else 0

/-- Pairs but for the first. -/
theorem countP_pairs (hg : ∀ addr, Command.isMac ⟨g.mac, addr⟩ = true) {ps : List ℕ}
    (hps : ∀ p ∈ ps, p ≠ 0 ∧ 2 * p + 1 < a.numItr) {pairs : List (List Command)}
    (h : List.Forall₂ (fun p out => g.emitPair a Generator.barrier
      ((List.range a.numItr).map (g.iteration a)) (2 * p) = .ok out) ps pairs) :
    pairs.flatten.countP Command.isMac =
      g.seqRows a * g.headCols a * (ps.map (pairChannels a)).sum := by
  induction h with
  | nil => rfl
  | @cons p out ps pairs hpair _ ih =>
    obtain ⟨⟨hp, hlt⟩, hps⟩ := List.forall_mem_cons.mp hps
    obtain ⟨front, dummies, body, rfl, hfront, hnot, hnone, hbody⟩ := countP_emitPair hg hlt hpair
    rw [hnone (by omega), List.append_nil, List.flatten_cons, List.countP_append,
      List.countP_append, List.countP_append, hfront.countP, noMac_barrier.countP, hbody, ih hps,
      List.map_cons, List.sum_cons, pairChannels]
    ring

/-- The tail, by itself or behind pairs. -/
theorem countP_tail (hg : ∀ addr, Command.isMac ⟨g.mac, addr⟩ = true) {tail : List Command}
    (h : g.emitTail a Generator.barrier ((List.range a.numItr).map (g.iteration a)) = .ok tail) :
    tail.countP Command.isMac = g.seqRows a * g.headCols a * tailChannels a ∧
      macCount tail = g.seqRows a * g.headCols a * tailChannels a := by
  rw [Generator.emitTail] at h
  rw [tailChannels]
  split_ifs at h ⊢ with hodd
  · obtain ⟨front, body, rfl, hfront, hnot, hbody⟩ := countP_emitLast hg (by omega) h
    refine ⟨?_, ?_⟩
    · rw [List.countP_append, List.countP_append, hfront.countP, noMac_barrier.countP, hbody,
        Nat.zero_add, Nat.zero_add]
    · rw [macCount_append hnot, hbody]
  · obtain rfl := Except.ok.inj h
    exact ⟨rfl, rfl⟩

/-- What a whole trace counts. -/
theorem macCount_emit (hg : ∀ addr, Command.isMac ⟨g.mac, addr⟩ = true) {trace : List Command}
    (h : g.emit a Generator.barrier ((List.range a.numItr).map (g.iteration a)) = .ok trace) :
    macCount trace = g.seqRows a * g.headCols a *
      (((List.range (a.numItr / 2)).map (pairChannels a)).sum + tailChannels a) := by
  obtain ⟨pairs, hpairs, h⟩ := bind_ok_iff.mp h
  obtain ⟨tail, htail, h⟩ := bind_ok_iff.mp h
  obtain rfl := Except.ok.inj h
  obtain ⟨htailCount, htailMac⟩ := countP_tail hg htail
  have hpairs := mapM_ok_iff.mp hpairs
  generalize hm : a.numItr / 2 = m at hpairs ⊢
  cases m with
  | zero =>
    obtain rfl := List.forall₂_nil_left_iff.mp hpairs
    rw [List.flatten_nil, List.nil_append, htailMac]
    simp
  | succ m =>
    rw [List.range_succ_eq_map] at hpairs ⊢
    obtain ⟨out, rest, hout, hrest, rfl⟩ := List.forall₂_cons_left_iff.mp hpairs
    obtain ⟨front, dummies, body, rfl, -, hnot, -, hbody⟩ := countP_emitPair hg (by omega) hout
    -- only the first pair has dummies, and what is in front of its barrier is not counted
    have hrestCount := countP_pairs hg ?_ hrest
    · have hsplit : ((front ++ dummies ++ (Generator.barrier ++ body)) :: rest).flatten ++ tail =
          (front ++ dummies) ++ (Generator.barrier ++ (body ++ (rest.flatten ++ tail))) := by
        simp
      rw [hsplit, macCount_append hnot, List.countP_append, List.countP_append, hbody, hrestCount,
        htailCount, List.map_cons, List.sum_cons, pairChannels]
      ring
    · intro p hp
      obtain ⟨k, hk, rfl⟩ := List.mem_map.mp hp
      have hlt := List.mem_range.mp hk
      refine ⟨Nat.succ_ne_zero k, ?_⟩
      omega

end Count

/-! ## Channels -/

section Channels

variable {a : Args}

/-- How many more channels the context of head 0 has than that of the last head. -/
def surplus (a : Args) : ℕ :=
  if 0 < a.numItr ∧ a.numItr % 2 = 0 then 16 - a.validChannel (a.numItr - 1) else 0

theorem sum_pairChannels {m : ℕ} (h : 2 * m < a.numItr) :
    ((List.range m).map (pairChannels a)).sum = 64 * m := by
  induction m with
  | zero => rfl
  | succ m ih =>
    rw [List.range_succ, List.map_append, List.sum_append, ih (by omega), List.map_singleton,
      List.sum_singleton, pairChannels, Args.validChannel_of_succ_lt (by omega),
      Args.validChannel_of_succ_lt (by omega), nChannel]
    omega

/-- The channels of all pairs and the tail: two for every head, and the surplus. -/
theorem channels_eq : ((List.range (a.numItr / 2)).map (pairChannels a)).sum + tailChannels a =
    2 * a.nHeadPerHbm + surplus a := by
  rw [tailChannels, surplus]
  rcases Nat.eq_zero_or_pos a.numItr with hzero | hpos
  · have hheads : a.nHeadPerHbm = 0 := by
      have hnone : a.nHeadPerHbm ≤ 0 * 16 := Args.numItr_le_iff.mp hzero.le
      omega
    simp [hzero, hheads]
  · obtain ⟨hheads, hle⟩ := Args.validChannel_last (show a.numItr = a.numItr - 1 + 1 by omega)
    rw [nChannel] at hle
    by_cases heven : a.numItr % 2 = 0
    · obtain ⟨m, hm⟩ : ∃ m, a.numItr = 2 * (m + 1) := ⟨a.numItr / 2 - 1, by omega⟩
      have hhalf : a.numItr / 2 = m + 1 := by omega
      have hlast : a.numItr - 1 = 2 * m + 1 := by omega
      have hfull : a.validChannel (2 * m) = 16 := Args.validChannel_of_succ_lt (by omega)
      rw [if_neg (by omega), if_pos ⟨hpos, heven⟩, hhalf, List.range_succ, List.map_append,
        List.sum_append, sum_pairChannels (by omega), List.map_singleton, List.sum_singleton,
        pairChannels, hfull, ← hlast]
      omega
    · rw [if_pos heven, if_neg (by omega), sum_pairChannels (by omega)]
      omega

theorem surplus_eq_zero_iff : surplus a = 0 ↔ a.numItr % 2 = 1 ∨ a.nHeadPerHbm % 16 = 0 := by
  rw [surplus]
  split_ifs with heven
  · have hpos := a.validChannel_pos (a.numItr - 1)
    obtain ⟨hheads, hle⟩ := Args.validChannel_last (show a.numItr = a.numItr - 1 + 1 by omega)
    rw [nChannel] at hle
    omega
  · refine iff_of_true rfl ?_
    rcases Nat.eq_zero_or_pos a.numItr with hzero | hpos
    · have hnone : a.nHeadPerHbm ≤ 0 * 16 := Args.numItr_le_iff.mp hzero.le
      exact .inr (by omega)
    · exact .inl (by omega)

end Channels

/-! ## The wrapper -/

theorem isMac_generator (pimType : PIMType) (addr : ℕ) :
    Command.isMac ⟨(generator pimType).mac, addr⟩ = true := by
  cases pimType with
  | BA => rfl
  | BG => rfl
  | BUFFER => rfl

/-- What a trace counts, in tiles: for every head twice the rows and columns of its operand. -/
theorem macCount_eq {pimType : PIMType} {a : Args} {cmds : List (Iteration Command)}
    {trace : List Command} (h : (generator pimType).runAttention a [] = .ok (cmds, trace)) :
    macCount trace = (generator pimType).seqRows a * (generator pimType).headCols a *
      (2 * a.nHeadPerHbm + surplus a) := by
  obtain ⟨rfl, hemit, -⟩ := exists_tagged h
  rw [macCount_emit (isMac_generator pimType) hemit, channels_eq]

/-- The two paths in `BUFFER` mode, where a unit reads for both pseudo channels. -/
theorem exact_buffer_iff {w n s : ℕ} :
    (w * (2 * n + s) * 32 * 1 = 128 * w * n ∧ w * (2 * n + s) * 32 * 2 = 128 * w * n) ↔
      w = 0 ∨ n = 0 ∧ s = 0 := by
  refine ⟨?_, ?_⟩
  · rintro ⟨hrun, houtput⟩
    have hzero : w * (2 * n + s) = 0 := by omega
    rcases Nat.mul_eq_zero.mp hzero with hw | hns
    · exact .inl hw
    · exact .inr (by omega)
  · rintro (rfl | ⟨rfl, rfl⟩)
    · simp
    · simp

/-- The two paths where they agree. -/
theorem exact_banks_iff {w n s m : ℕ} (hm : 0 < m) :
    w * (2 * n + s) * 32 * m = 64 * m * w * n ↔ w = 0 ∨ s = 0 := by
  have hsplit : w * (2 * n + s) * 32 * m = 64 * m * w * n + 32 * m * (w * s) := by ring
  rw [hsplit, Nat.add_eq_left]
  simp only [Nat.mul_eq_zero]
  omega

/-- The cells that a MAC reads in a tile. -/
theorem units_mul_lanes (pimType : PIMType) :
    (generator pimType).units * (generator pimType).lanes =
      match pimType with
      | .BA => 64
      | .BG => 16
      | .BUFFER => 2 := by
  cases pimType with
  | BA => rfl
  | BG => rfl
  | BUFFER => rfl

/-- The two paths in any mode, for `w` tiles of `n` heads with `s` too many. -/
theorem exact_iff (pimType : PIMType) {w n s : ℕ} (hidle : n = 0 → s = 0) :
    (runMemAcc pimType (w * (2 * n + s)) =
        64 * ((generator pimType).units * (generator pimType).lanes) * w * n ∧
      outputMemAcc pimType (w * (2 * n + s)) =
        64 * ((generator pimType).units * (generator pimType).lanes) * w * n) ↔
      w = 0 ∨ n = 0 ∨ pimType ≠ .BUFFER ∧ s = 0 := by
  rw [units_mul_lanes]
  simp only [runMemAcc, outputMemAcc, memAcc]
  cases pimType with
  | BA =>
    rw [and_self]
    refine (exact_banks_iff (m := 64) (by decide)).trans ?_
    simp only [ne_eq, reduceCtorEq, not_false_eq_true, true_and]
    tauto
  | BG =>
    rw [and_self]
    refine (exact_banks_iff (m := 16) (by decide)).trans ?_
    simp only [ne_eq, reduceCtorEq, not_false_eq_true, true_and]
    tauto
  | BUFFER =>
    refine exact_buffer_iff.trans ?_
    simp only [ne_eq, not_true_eq_false, false_and, or_false]
    tauto

/-- A column holds `n_mac` elements. -/
theorem Granular.nMac {key : SimKey} (h : Granular key) :
    HbmGs.col / key.dbyte * key.dbyte = 32 := by
  rcases h.dbyte with hdbyte | hdbyte
  · rw [hdbyte]
    decide
  · rw [hdbyte]
    decide

theorem Granular.nMac_pos {key : SimKey} (h : Granular key) : 0 < HbmGs.col / key.dbyte := by
  refine Nat.pos_of_ne_zero ?_
  intro hzero
  have hword := h.nMac
  rw [hzero] at hword
  omega

/-- The tiles of a head: its rows of tokens, its columns of elements. -/
theorem Granular.tiles {key : SimKey} (h : Granular key) :
    key.l = (generator key.pimType).units * (generator key.pimType).seqRows (simArgs key) ∧
      key.dhead = (generator key.pimType).lanes * (HbmGs.col / key.dbyte) *
        (generator key.pimType).headCols (simArgs key) := by
  obtain ⟨rows, hrows⟩ := h.l
  obtain ⟨cols, hcols⟩ := h.dhead
  have hunits := (generator key.pimType).units_pos
  have hlanes := (generator key.pimType).lanes_pos
  have hseq : (generator key.pimType).seqRows (simArgs key) = rows := by
    rw [Generator.seqRows, simArgs, hrows]
    exact smul_ceilDiv hunits rows
  have hhead : (generator key.pimType).headCols (simArgs key) = cols := by
    rw [Generator.headCols, simArgs, hcols]
    exact smul_ceilDiv (Nat.mul_pos hlanes h.nMac_pos) cols
  rw [hseq, hhead]
  exact ⟨hrows, hcols⟩

/-- The keys and values, tile by tile. -/
theorem Granular.footprint_eq {key : SimKey} (h : Granular key) :
    footprint key = 64 * ((generator key.pimType).units * (generator key.pimType).lanes) *
      ((generator key.pimType).seqRows (simArgs key) *
        (generator key.pimType).headCols (simArgs key)) * key.nhead := by
  obtain ⟨hl, hdhead⟩ := h.tiles
  have hword := h.nMac
  generalize (generator key.pimType).seqRows (simArgs key) = rows at hl ⊢
  generalize (generator key.pimType).headCols (simArgs key) = cols at hdhead ⊢
  calc footprint key = 2 * ((generator key.pimType).units * rows) *
        ((generator key.pimType).lanes * (HbmGs.col / key.dbyte) * cols) * key.dbyte *
        key.nhead := by rw [footprint, ← hl, ← hdhead]
    _ = 2 * (HbmGs.col / key.dbyte * key.dbyte) * ((generator key.pimType).units *
        (generator key.pimType).lanes) * (rows * cols) * key.nhead := by ring
    _ = _ := by rw [hword]

/-- A trace that is written reports the footprint if and only if there are no MACs, or the mode
is not `BUFFER`, and no head is paired with the full channels of another while its own are
not. -/
theorem exactTraffic_iff {key : SimKey} (hkey : Granular key) {cmds : List (Iteration Command)}
    {trace : List Command}
    (h : (generator key.pimType).runAttention (simArgs key) [] = .ok (cmds, trace)) :
    ExactTraffic key trace ↔ key.l = 0 ∨ key.dhead = 0 ∨ key.nhead = 0 ∨
      key.pimType ≠ .BUFFER ∧ ((key.nhead ⌈/⌉ 16) % 2 = 1 ∨ key.nhead % 16 = 0) := by
  have hcount := macCount_eq h
  have hsurplus := surplus_eq_zero_iff (a := simArgs key)
  obtain ⟨hl, hdhead⟩ := hkey.tiles
  have hunits := (generator key.pimType).units_pos
  have hlanes := (generator key.pimType).lanes_pos
  have hmac := hkey.nMac_pos
  have hfootprint := hkey.footprint_eq
  generalize (generator key.pimType).seqRows (simArgs key) = rows at hcount hl hfootprint
  generalize (generator key.pimType).headCols (simArgs key) = cols at hcount hdhead hfootprint
  -- the rows and columns are the length and the head size, in units of the device
  have hnone : rows * cols = 0 ↔ key.l = 0 ∨ key.dhead = 0 := by
    rw [hl, hdhead]
    simp only [Nat.mul_eq_zero, hunits.ne', hlanes.ne', hmac.ne', false_or, or_self]
  have hheads : (simArgs key).nHeadPerHbm = key.nhead := rfl
  have hnumItr : (simArgs key).numItr = key.nhead ⌈/⌉ 16 := rfl
  rw [hheads, hnumItr] at hsurplus
  rw [hheads] at hcount
  rw [ExactTraffic, hfootprint, hcount, ← hsurplus]
  have hidle : key.nhead = 0 → surplus (simArgs key) = 0 := by
    intro hzero
    rw [hsurplus, hzero]
    exact .inr rfl
  rw [exact_iff key.pimType hidle, hnone, or_assoc]

/-- **When the cell traffic is the footprint**: for every mode, head count, head size and
length that are multiples of its granularity, a fresh generator writes a trace whose MACs both
paths of the wrapper convert to the bytes of the keys and values, if and only if no dummies are
missing, and there are no MACs, or the mode is not `BUFFER`, and no head with few channels is
paired. -/
theorem meetsTraffic_iff (key : SimKey) (hkey : Granular key) :
    MeetsTraffic key ↔ (key.nhead ≤ 16 ∨ key.l ≠ 0 ∧ key.dhead ≠ 0) ∧
      (key.l = 0 ∨ key.dhead = 0 ∨ key.nhead = 0 ∨
        key.pimType ≠ .BUFFER ∧ ((key.nhead ⌈/⌉ 16) % 2 = 1 ∨ key.nhead % 16 = 0)) := by
  obtain ⟨hl, hdhead⟩ := hkey.tiles
  have hmac := hkey.nMac_pos
  have hitr : (simArgs key).numItr ≤ 1 ↔ key.nhead ≤ 16 := by
    rw [← Nat.not_lt, ← lt_numItr_iff, Nat.not_lt]
    rfl
  have hseq : 0 < (generator key.pimType).seqRows (simArgs key) ↔ key.l ≠ 0 := by
    rw [hl, Nat.mul_ne_zero_iff, and_iff_right (generator key.pimType).units_pos.ne',
      Nat.pos_iff_ne_zero]
  have hhead : 0 < (generator key.pimType).headCols (simArgs key) ↔ key.dhead ≠ 0 := by
    rw [hdhead, Nat.mul_ne_zero_iff, and_iff_right
      (Nat.mul_pos (generator key.pimType).lanes_pos hmac).ne', Nat.pos_iff_ne_zero]
  have hruns := exists_run_iff (g := generator key.pimType) (a := simArgs key) hmac
  rw [hitr, hseq, hhead] at hruns
  rw [← hruns]
  refine ⟨?_, ?_⟩
  · rintro ⟨cmds, trace, hrun, hexact⟩
    exact ⟨⟨cmds, trace, hrun⟩, (exactTraffic_iff hkey hrun).mp hexact⟩
  · rintro ⟨⟨cmds, trace, hrun⟩, h⟩
    exact ⟨cmds, trace, hrun, (exactTraffic_iff hkey hrun).mpr h⟩

/-- One tile of keys for each head, in 16 bits. -/
def tileKey (pimType : PIMType) (nhead : ℕ) : SimKey where
  l := (generator pimType).units
  maxL := 2048
  nhead := nhead
  dhead := (generator pimType).lanes * 16
  dbyte := 2
  pimType := pimType
  powerConstraint := true

theorem granular_tileKey (pimType : PIMType) (nhead : ℕ) : Granular (tileKey pimType nhead) := by
  have hword : HbmGs.col / 2 = 16 := by decide
  refine ⟨.inr rfl, dvd_refl _, ?_⟩
  rw [tileKey, hword]

/-- A single head in bank mode. -/
theorem meetsTraffic_one : MeetsTraffic (tileKey .BA 1) :=
  (meetsTraffic_iff (tileKey .BA 1) (granular_tileKey .BA 1)).mpr
    ⟨.inl (by decide), .inr (.inr (.inr ⟨nofun, .inl rfl⟩))⟩

/-- A single head in `BUFFER` mode: `run` reports half of it. And 17 heads in bank mode: the
context of 16 channels is counted in place of the last one. -/
theorem not_meetsTraffic : ¬MeetsTraffic (tileKey .BUFFER 1) ∧ ¬MeetsTraffic (tileKey .BA 17) := by
  have hcount : ∀ {key : SimKey} (n : ℕ),
      ((generator key.pimType).runAttention (simArgs key) []).toOption.map
        (fun r => macCount r.2) = some n →
      runMemAcc key.pimType n ≠ footprint key → ¬MeetsTraffic key := by
    rintro key n hmac hne ⟨cmds, trace, hrun, hexact, -⟩
    rw [hrun] at hmac
    have hn : macCount trace = n := Option.some.inj hmac
    rw [hn] at hexact
    exact hne hexact
  exact ⟨hcount 2 (by decide +kernel) (by decide), hcount 49 (by decide +kernel) (by decide)⟩

end AttAcc.Trace
