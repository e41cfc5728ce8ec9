import AttAcc.Trace.Emit
import Mathlib.Algebra.Order.Group.Multiset
import Mathlib.Tactic.Abel

/-!
# What a trace emits

A trace should hold every score MAC, score move, softmax, context MAC and context move of
every iteration once, beside the dummy MACs in front of the first barrier. To tell commands
apart that look alike, each is tagged with where `Attention` put it: its list, iteration,
row and position. Emission does not look at commands, so it emits the tagged ones as it
does the bare ones.

An iteration on its own is emitted completely. In a pair the fourth loop indexes head 0
again, so the context of head 1 is lost: the trace is complete exactly when there is no
pair (`emittedOnce_iff`).
-/

namespace AttAcc.Trace

open Library

variable {α : Type*}

/-! ## Tags -/

/-- The lists of the module, and the barriers. -/
inductive Phase where
  | scoreWrgb
  | scoreMac
  | scoreMvsb
  | sfm
  | contextMvgb
  | contextMac
  | contextMvsb
  | barrier
  deriving DecidableEq, Repr

/-- Where a command comes from. -/
structure Tag where
  phase : Phase
  itr : ℕ
  row : ℕ
  pos : ℕ
  deriving DecidableEq, Repr

/-- A list of commands, tagged. -/
def tagRow (phase : Phase) (itr row : ℕ) (cmds : List α) : List (Tag × α) :=
  cmds.mapIdx fun pos cmd => (⟨phase, itr, row, pos⟩, cmd)

/-- A list of rows, tagged. -/
def tagRows (phase : Phase) (itr : ℕ) (rows : List (List α)) : List (List (Tag × α)) :=
  rows.mapIdx fun row cmds => tagRow phase itr row cmds

theorem mem_tagRow {phase : Phase} {itr row : ℕ} {cmds : List α} {c : Tag × α}
    (h : c ∈ tagRow phase itr row cmds) : c.1.phase = phase ∧ c.1.itr = itr ∧ c.1.row = row := by
  obtain ⟨pos, hpos, rfl⟩ := List.mem_mapIdx.mp h
  exact ⟨rfl, rfl, rfl⟩

theorem mem_tagRows {phase : Phase} {itr : ℕ} {rows : List (List α)} {cmds : List (Tag × α)}
    (h : cmds ∈ tagRows phase itr rows) : ∀ c ∈ cmds, c.1.phase = phase ∧ c.1.itr = itr := by
  obtain ⟨row, hrow, rfl⟩ := List.mem_mapIdx.mp h
  intro c hc
  obtain ⟨hphase, hitr, -⟩ := mem_tagRow hc
  exact ⟨hphase, hitr⟩

theorem mem_flatten_tagRows {phase : Phase} {itr : ℕ} {rows : List (List α)} {c : Tag × α}
    (h : c ∈ (tagRows phase itr rows).flatten) : c.1.phase = phase ∧ c.1.itr = itr := by
  obtain ⟨cmds, hcmds, hc⟩ := List.mem_flatten.mp h
  exact mem_tagRows hcmds c hc

theorem nodup_tagRow (phase : Phase) (itr row : ℕ) (cmds : List α) :
    (tagRow phase itr row cmds).Nodup :=
  nodup_mapIdx (fun c => c.1.pos) (fun _ _ => rfl) cmds

theorem nodup_flatten_tagRows (phase : Phase) (itr : ℕ) (rows : List (List α)) :
    (tagRows phase itr rows).flatten.Nodup :=
  nodup_flatten_mapIdx (fun c => c.1.row) (fun _ _ _ hc => (mem_tagRow hc).2.2)
    (fun _ _ => nodup_tagRow _ _ _ _) rows

theorem map_snd_tagRow (phase : Phase) (itr row : ℕ) (cmds : List α) :
    (tagRow phase itr row cmds).map Prod.snd = cmds := by
  refine List.ext_getElem (by simp [tagRow]) ?_
  intro i hi hi'
  simp [tagRow]

theorem map_snd_tagRows (phase : Phase) (itr : ℕ) (rows : List (List α)) :
    (tagRows phase itr rows).map (List.map Prod.snd) = rows := by
  refine List.ext_getElem (by simp [tagRows]) ?_
  intro i hi hi'
  simp [tagRows, map_snd_tagRow]

namespace Iteration

/-- The commands of an iteration, tagged. -/
def tag (itr : ℕ) (it : Iteration α) : Iteration (Tag × α) where
  scoreWrgb := tagRow .scoreWrgb itr 0 it.scoreWrgb
  scoreMac := tagRows .scoreMac itr it.scoreMac
  scoreMvsb := tagRows .scoreMvsb itr it.scoreMvsb
  sfm := tagRow .sfm itr 0 it.sfm
  contextMvgb := tagRow .contextMvgb itr 0 it.contextMvgb
  contextMac := tagRows .contextMac itr it.contextMac
  contextMvsb := tagRows .contextMvsb itr it.contextMvsb
  validChannel := it.validChannel

theorem map_snd_tag (itr : ℕ) (it : Iteration α) : (it.tag itr).map Prod.snd = it := by
  rw [tag, map, map_snd_tagRow, map_snd_tagRow, map_snd_tagRow, map_snd_tagRows, map_snd_tagRows,
    map_snd_tagRows, map_snd_tagRows]

/-- The commands that do the work of an iteration: its MACs, the moves of their results, and
its softmax. -/
def work (it : Iteration α) : List α :=
  it.scoreMac.flatten ++ it.scoreMvsb.flatten ++ it.sfm ++ it.contextMac.flatten ++
    it.contextMvsb.flatten

end Iteration

/-- The phases of these commands. -/
def Phase.isWork : Phase → Bool
  | .scoreMac | .scoreMvsb | .sfm | .contextMac | .contextMvsb => true
  | .scoreWrgb | .contextMvgb | .barrier => false

/-- Every iteration of the lists, tagged. -/
def tagAll (cmds : List (Iteration α)) : List (Iteration (Tag × α)) :=
  cmds.mapIdx Iteration.tag

theorem map_snd_tagAll (cmds : List (Iteration α)) :
    (tagAll cmds).map (Iteration.map Prod.snd) = cmds := by
  refine List.ext_getElem (by simp [tagAll]) ?_
  intro i hi hi'
  simp [tagAll, Iteration.map_snd_tag]

/-- The barriers, tagged. -/
def tagBarrier (barrier : List α) : List (Tag × α) := tagRow .barrier 0 0 barrier

/-- A trace from its first barrier on. -/
def afterWarmUp (trace : List (Tag × α)) : List (Tag × α) :=
  trace.dropWhile fun c => decide (c.1.phase ≠ .barrier)

/-- After the warm-up, every working command of every iteration occurs once. -/
def EmittedOnce [DecidableEq α] (cmds : List (Iteration α)) (trace : List (Tag × α)) : Prop :=
  ∀ it ∈ tagAll cmds, ∀ c ∈ it.work, (afterWarmUp trace).count c = 1

/-! ## What a pipelined loop emits -/

section Pipeline

variable {rows : ℕ → Except PyError (List α)} {groups : List (List α)} {bus : ℕ → List α}
  {barrier out : List α} {length : ℕ}

/-- What a round of a loop is made of, if it is emitted. -/
theorem pipelineStep_eq_ok {j : ℕ} {round : List α}
    (h : pipelineStep rows groups bus barrier length j = .ok round) :
    ∃ mac, macRound rows length j = .ok mac ∧
      round = mac ++ (if j = 0 then [] else groups.getD (j - 1) []) ++ bus j ++
        (if j = length then [] else barrier) := by
  obtain ⟨mac, hmac, h⟩ := bind_ok_iff.mp h
  obtain ⟨mvsb, hmvsb, h⟩ := bind_ok_iff.mp h
  obtain rfl := Except.ok.inj h
  have hdrain : mvsb = if j = 0 then [] else groups.getD (j - 1) [] := by
    rw [mvsbRound] at hmvsb
    split_ifs at hmvsb ⊢ with hfirst
    · exact (Except.ok.inj hmvsb).symm
    · rw [List.getD_eq_getElem?_getD, index_eq_ok.mp hmvsb]
      rfl
  exact ⟨mac, hmac, by rw [hdrain]⟩

/-- The moves of round `j`. -/
def moves (groups : List (List α)) (j : ℕ) : List α := if j = 0 then [] else groups.getD (j - 1) []

theorem forall_mem_moves {P : α → Prop} (hgroups : ∀ group ∈ groups, ∀ c ∈ group, P c) (j : ℕ) :
    ∀ c ∈ moves groups j, P c := by
  intro c hc
  rw [moves] at hc
  split_ifs at hc
  · exact absurd hc List.not_mem_nil
  · rw [List.getD_eq_getElem?_getD] at hc
    rcases hgroup : groups[j - 1]? with _ | group
    · rw [hgroup] at hc
      exact absurd hc List.not_mem_nil
    · rw [hgroup] at hc
      exact hgroups group (List.mem_of_getElem? hgroup) c hc

/-- **What a loop emits**: in every round but the last MACs, moves, what is on the bus and a
barrier, and in the last round moves and what is on the bus. -/
theorem pipeline_eq_ok (h : pipeline rows groups bus barrier length = .ok out) :
    ∃ macs : ℕ → List α, (∀ j < length, rows j = .ok (macs j)) ∧
      out = ((List.range length).flatMap fun j => macs j ++ moves groups j ++ bus j ++ barrier) ++
        (moves groups length ++ bus length) := by
  obtain ⟨rounds, hrounds, h⟩ := bind_ok_iff.mp h
  obtain rfl := Except.ok.inj h
  let macs : ℕ → List α := fun j => (rows j).toOption.getD []
  let round : ℕ → List α := fun j => (if j = length then [] else macs j) ++ moves groups j ++
    bus j ++ (if j = length then [] else barrier)
  -- all rounds but the last have MACs, and only those have to be there
  have hmac : ∀ j mac, macRound rows length j = .ok mac →
      mac = (if j = length then [] else macs j) ∧ (j ≠ length → rows j = .ok mac) := by
    intro j mac hmac
    rw [macRound] at hmac
    split_ifs at hmac ⊢ with hlast
    · exact ⟨(Except.ok.inj hmac).symm, fun hne => absurd hlast hne⟩
    · refine ⟨?_, fun _ => hmac⟩
      simp only [macs]
      rw [hmac]
      rfl
  refine ⟨macs, ?_, ?_⟩
  · intro j hj
    obtain ⟨r, hr⟩ := exists_forall₂_iff.mp ⟨rounds, mapM_ok_iff.mp hrounds⟩ j
      (List.mem_range.mpr (by omega))
    obtain ⟨mac, hmacRound, -⟩ := pipelineStep_eq_ok hr
    obtain ⟨hmacs, hrow⟩ := hmac j mac hmacRound
    rw [if_neg hj.ne] at hmacs
    rw [hrow hj.ne, hmacs]
  · have hround : rounds = (List.range (length + 1)).map round := by
      refine eq_map_of_mapM ?_ hrounds
      intro j _ r hr
      obtain ⟨mac, hmacRound, rfl⟩ := pipelineStep_eq_ok hr
      rw [(hmac j mac hmacRound).1]
      rfl
    have hbody : (List.range length).flatMap round = (List.range length).flatMap
        fun j => macs j ++ moves groups j ++ bus j ++ barrier := by
      refine List.flatMap_congr fun j hj => ?_
      simp only [round, if_neg (List.mem_range.mp hj).ne]
    rw [hround, ← List.flatMap_def, List.range_succ, List.flatMap_append, List.flatMap_singleton,
      hbody]
    simp [round]

/-- A loop is emitted if all its rows are there, and a group of moves for each. -/
theorem exists_pipeline (hrows : ∀ j < length, ∃ mac, rows j = .ok mac)
    (hgroups : length ≤ groups.length) :
    ∃ out, pipeline rows groups bus barrier length = .ok out := by
  have hround : ∀ j ∈ List.range (length + 1), ∃ round,
      pipelineStep rows groups bus barrier length j = .ok round := by
    intro j hj
    have hle := Nat.lt_succ_iff.mp (List.mem_range.mp hj)
    have hmac : ∃ mac, macRound rows length j = .ok mac := by
      rw [macRound]
      split_ifs with hlast
      · exact ⟨[], rfl⟩
      · exact hrows j (Nat.lt_of_le_of_ne hle hlast)
    have hmvsb : ∃ mvsb, mvsbRound groups j = .ok mvsb := by
      rw [mvsbRound]
      split_ifs with hfirst
      · exact ⟨[], rfl⟩
      · exact ⟨groups[j - 1], index_eq_ok.mpr (List.getElem?_eq_getElem (by omega))⟩
    obtain ⟨mac, hmac⟩ := hmac
    obtain ⟨mvsb, hmvsb⟩ := hmvsb
    exact ⟨_, bind_ok_iff.mpr ⟨mac, hmac, bind_ok_iff.mpr ⟨mvsb, hmvsb, rfl⟩⟩⟩
  obtain ⟨rounds, hrounds⟩ := exists_mapM_ok hround
  exact ⟨_, bind_ok_iff.mpr ⟨rounds, hrounds, rfl⟩⟩

/-- **What a loop emits**, up to order: all its MACs, the first `length` groups of moves,
what is on the bus, and a barrier in every round but the last. -/
theorem pipeline_perm {rowsOut : ℕ → List α} (hrows : ∀ j < length, rows j = .ok (rowsOut j))
    (h : pipeline rows groups bus barrier length = .ok out) :
    out.Perm ((List.range length).flatMap rowsOut ++ (groups.take length).flatten ++
      (List.range (length + 1)).flatMap bus ++ (List.range length).flatMap fun _ => barrier) := by
  obtain ⟨macs, hmacs, rfl⟩ := pipeline_eq_ok h
  have hmac : (List.range length).flatMap macs = (List.range length).flatMap rowsOut := by
    refine List.flatMap_congr fun j hj => ?_
    have hlt := List.mem_range.mp hj
    exact Except.ok.inj ((hmacs j hlt).symm.trans (hrows j hlt))
  have hmoves : (List.range length).flatMap (moves groups) ++ moves groups length =
      (groups.take length).flatten := by
    rw [← List.flatMap_singleton (moves groups) length, ← List.flatMap_append, ← List.range_succ,
      List.range_succ_eq_map, List.flatMap_cons, List.flatMap_map, ← flatMap_getD]
    rfl
  have hbus : (List.range length).flatMap bus ++ bus length =
      (List.range (length + 1)).flatMap bus := by
    rw [List.range_succ, List.flatMap_append, List.flatMap_singleton]
  have hrounds : ((List.range length).flatMap macs ++ (List.range length).flatMap (moves groups) ++
      (List.range length).flatMap bus ++ (List.range length).flatMap fun _ => barrier).Perm
      ((List.range length).flatMap fun j => macs j ++ moves groups j ++ bus j ++ barrier) :=
    (((List.flatMap_append_perm _ macs (moves groups)).append_right _).trans
      (List.flatMap_append_perm _ _ bus)).append_right _ |>.trans
        (List.flatMap_append_perm _ _ fun _ => barrier)
  refine (hrounds.symm.append_right _).trans ?_
  rw [← hmac, ← hmoves, ← hbus, ← Multiset.coe_eq_coe]
  simp only [← Multiset.coe_add]
  abel

/-- Everything a loop emits satisfies what its MACs, moves, bus and barriers satisfy. -/
theorem forall_mem_pipeline {P : α → Prop}
    (hrows : ∀ j row, rows j = .ok row → ∀ c ∈ row, P c)
    (hgroups : ∀ group ∈ groups, ∀ c ∈ group, P c) (hbus : ∀ j, ∀ c ∈ bus j, P c)
    (hbarrier : ∀ c ∈ barrier, P c) (h : pipeline rows groups bus barrier length = .ok out) :
    ∀ c ∈ out, P c := by
  obtain ⟨rounds, hrounds, h⟩ := bind_ok_iff.mp h
  obtain rfl := Except.ok.inj h
  intro c hc
  obtain ⟨round, hround, hc⟩ := List.mem_flatten.mp hc
  obtain ⟨j, -, hstep⟩ := exists_of_mem_mapM hrounds round hround
  obtain ⟨mac, hmac, rfl⟩ := pipelineStep_eq_ok hstep
  rw [List.mem_append, List.mem_append, List.mem_append] at hc
  rcases hc with ((hc | hc) | hc) | hc
  · rw [macRound] at hmac
    split_ifs at hmac
    · obtain rfl := Except.ok.inj hmac
      exact absurd hc List.not_mem_nil
    · exact hrows j mac hmac c hc
  · exact forall_mem_moves hgroups j c hc
  · exact hbus j c hc
  · split_ifs at hc
    · exact absurd hc List.not_mem_nil
    · exact hbarrier c hc

end Pipeline

/-! ## An iteration on its own -/

/-- What the lengths of the loops presume about the lists of an iteration. -/
structure Fits (g : Generator) (a : Args) (it : Iteration α) : Prop where
  scoreMac : it.scoreMac.length ≤ g.scoreLength a * 16
  scoreMvsb : it.scoreMvsb.length ≤ g.scoreLength a
  contextMac : it.contextMac.length = g.contextLength a
  contextMvsb : it.contextMvsb.length = g.contextLength a

section Last

variable {g : Generator} {a : Args} {barrier out : List α} {cmds : List (Iteration α)}
  {head : Iteration α} {i : ℕ}

theorem Fits.tag (h : Fits g a head) (itr : ℕ) : Fits g a (head.tag itr) := by
  refine ⟨?_, ?_, ?_, ?_⟩
  · exact le_of_eq_of_le List.length_mapIdx h.scoreMac
  · exact le_of_eq_of_le List.length_mapIdx h.scoreMvsb
  · exact List.length_mapIdx.trans h.contextMac
  · exact List.length_mapIdx.trans h.contextMvsb

/-- The rounds of a score loop make up all score MACs. -/
theorem flatMap_scoreRound (hfits : Fits g a head) : ((List.range (g.scoreLength a)).flatMap
    fun j => (window head.scoreMac (j * 16) 16).flatten) = head.scoreMac.flatten := by
  have hrows := flatMap_window_of_length_le hfits.scoreMac
  refine Eq.trans ?_ (congrArg List.flatten hrows)
  rw [List.flatMap_def, List.flatMap_def, List.flatten_flatten, List.map_map]
  rfl

/-- The rounds of a context loop are the context rows. -/
theorem contextRound_eq (hfits : Fits g a head) :
    ∀ j < g.contextLength a, head.contextRound j = .ok (head.contextMac.getD j []) := by
  intro j hj
  rw [← hfits.contextMac] at hj
  rw [Iteration.contextRound, index_eq_ok, List.getD_eq_getElem?_getD,
    List.getElem?_eq_getElem hj]
  rfl

/-- The score loop emits all score MACs and their moves. -/
theorem score_perm (hfits : Fits g a head) {score : List α}
    (h : pipeline head.scoreRound head.scoreMvsb (fun _ => []) barrier (g.scoreLength a) =
      .ok score) :
    score.Perm (head.scoreMac.flatten ++ head.scoreMvsb.flatten ++
      (List.range (g.scoreLength a)).flatMap fun _ => barrier) := by
  have hperm := pipeline_perm (fun j _ => rfl) h
  rw [flatMap_scoreRound hfits, List.take_of_length_le hfits.scoreMvsb, flatMap_nil,
    List.append_nil] at hperm
  exact hperm

/-- The context loop emits all context MACs and their moves. -/
theorem context_perm (hfits : Fits g a head) {context : List α}
    (h : pipeline head.contextRound head.contextMvsb (fun _ => []) barrier (g.contextLength a) =
      .ok context) :
    context.Perm (head.contextMac.flatten ++ head.contextMvsb.flatten ++
      (List.range (g.contextLength a)).flatMap fun _ => barrier) := by
  have hperm := pipeline_perm (contextRound_eq hfits) h
  rw [flatMap_getD, List.take_of_length_le hfits.contextMac.le,
    List.take_of_length_le hfits.contextMvsb.le, flatMap_nil, List.append_nil] at hperm
  exact hperm

/-- **An iteration on its own is emitted completely**: behind its input vector and a
barrier come its working commands, its score vector and barriers. -/
theorem emitLast_perm (hhead : cmds[i]? = some head) (hfits : Fits g a head)
    (h : g.emitLast a barrier cmds i = .ok out) :
    ∃ body extra, out = head.scoreWrgb ++ (barrier ++ body) ∧ body.Perm (head.work ++ extra) ∧
      ∀ c ∈ extra, c ∈ head.contextMvgb ∨ c ∈ barrier := by
  obtain ⟨head', hhead', h⟩ := bind_ok_iff.mp h
  obtain rfl := Option.some.inj (hhead.symm.trans (index_eq_ok.mp hhead'))
  obtain ⟨score, hscore, h⟩ := bind_ok_iff.mp h
  obtain ⟨context, hcontext, h⟩ := bind_ok_iff.mp h
  obtain rfl := Except.ok.inj h
  have hbarriers : ∀ n, ∀ c ∈ (List.range n).flatMap fun _ => barrier, c ∈ barrier := by
    intro n c hc
    obtain ⟨_, _, hc⟩ := List.mem_flatMap.mp hc
    exact hc
  refine ⟨score ++ head.sfm ++ head.contextMvgb ++ barrier ++ context,
    ((List.range (g.scoreLength a)).flatMap fun _ => barrier) ++ head.contextMvgb ++ barrier ++
      (List.range (g.contextLength a)).flatMap fun _ => barrier, by simp, ?_, ?_⟩
  · have hperm := (((((score_perm hfits hscore).append_right head.sfm).append_right
      head.contextMvgb).append_right barrier).append (context_perm hfits hcontext))
    refine hperm.trans ?_
    rw [Iteration.work, ← Multiset.coe_eq_coe]
    simp only [← Multiset.coe_add]
    abel
  · intro c hc
    rw [List.mem_append, List.mem_append, List.mem_append] at hc
    rcases hc with ((hc | hc) | hc) | hc
    · exact .inr (hbarriers _ c hc)
    · exact .inl hc
    · exact .inr hc
    · exact .inr (hbarriers _ c hc)

end Last

/-- Every sixteenth row is followed by a group of moves. -/
theorem countP_sixteenth (n : ℕ) :
    (List.range n).countP (fun nIdx => decide (nIdx % 16 = 15)) = n / 16 := by
  induction n with
  | zero => rfl
  | succ n ih =>
    rw [List.range_succ, List.countP_append, ih, List.countP_singleton]
    split_ifs with hlast
    · have hmod := of_decide_eq_true hlast
      omega
    · have hmod : ¬ n % 16 = 15 := fun h => hlast (decide_eq_true h)
      omega

/-- Rows are drained in groups of sixteen, the last group as it is. -/
theorem length_drainRows (g : Generator) (a : Args) :
    (g.drainRows a).length = g.seqRows a ⌈/⌉ 16 := by
  rw [Generator.drainRows, ← List.countP_eq_length_filter]
  rcases g.seqRows a with _ | n
  · rfl
  · have hbefore : (List.range n).countP
        (fun nIdx => decide (nIdx % 16 = 15 ∨ nIdx + 1 = n + 1)) = n / 16 := by
      rw [← countP_sixteenth n]
      refine List.countP_congr fun nIdx hmem => ?_
      have hlt := List.mem_range.mp hmem
      simp only [decide_eq_true_eq]
      omega
    rw [List.range_succ, List.countP_append, hbefore, List.countP_singleton,
      if_pos (decide_eq_true (.inr rfl)), Nat.ceilDiv_eq_add_pred_div]
    omega

/-- A round of a score loop takes sixteen rows. -/
theorem scoreLength_eq (g : Generator) (a : Args) : g.scoreLength a = g.seqRows a ⌈/⌉ 16 := by
  refine eq_of_forall_ge_iff fun k => ?_
  rw [Generator.scoreLength, Generator.seqRows, ceilDiv_le_iff_le_mul (by decide : 0 < 16),
    ceilDiv_le_iff_le_mul g.units_pos,
    ceilDiv_le_iff_le_mul (Nat.mul_pos g.units_pos (by decide)), mul_assoc]

/-- There is a group of moves for each round of a score loop. -/
theorem length_scoreMvsb (g : Generator) (a : Args) (keyAddr valAddr validChannel : ℕ) :
    (g.commands a keyAddr valAddr validChannel).scoreMvsb.length = g.scoreLength a := by
  have hgroups : (g.commands a keyAddr valAddr validChannel).scoreMvsb.length =
      (g.drainRows a).length := by
    simp [Generator.commands]
  rw [hgroups, length_drainRows, scoreLength_eq]

/-- The commands that `Attention` generates are as many as the loops presume. -/
theorem fits_commands (g : Generator) (a : Args) (keyAddr valAddr validChannel : ℕ) :
    Fits g a (g.commands a keyAddr valAddr validChannel) := by
  refine ⟨?_, (length_scoreMvsb g a keyAddr valAddr validChannel).le, ?_, ?_⟩
  · have hrows : (g.commands a keyAddr valAddr validChannel).scoreMac.length = g.seqRows a := by
      simp [Generator.commands]
    rw [hrows, scoreLength_eq, mul_comm]
    exact (ceilDiv_le_iff_le_mul (by decide : 0 < 16)).mp le_rfl
  · simp [Generator.commands, Generator.contextLength]
  · simp [Generator.commands, Generator.contextLength]

theorem fits_iteration (g : Generator) (a : Args) (itr : ℕ) : Fits g a (g.iteration a itr) :=
  fits_commands g a (a.keyAddr itr) (a.valAddr itr) (a.validChannel itr)

/-! ## The whole trace -/

section Trace

variable {g : Generator} {a : Args}

/-- Distinct commands of some phases. -/
def Phased (phases : List Phase) (cmds : List (Tag × α)) : Prop :=
  cmds.Nodup ∧ ∀ c ∈ cmds, c.1.phase ∈ phases

/-- Commands of one more phase are different from those before. -/
theorem Phased.append {phases : List Phase} {phase : Phase} {cmds cmds' : List (Tag × α)}
    (h : Phased phases cmds) (hnew : phase ∉ phases) (hnodup : cmds'.Nodup)
    (hphase : ∀ c ∈ cmds', c.1.phase = phase) : Phased (phase :: phases) (cmds ++ cmds') := by
  refine ⟨h.1.append hnodup ?_, ?_⟩
  · intro c hc hc'
    have hold := h.2 c hc
    rw [hphase c hc'] at hold
    exact hnew hold
  · intro c hc
    rcases List.mem_append.mp hc with hc | hc
    · exact List.mem_cons_of_mem _ (h.2 c hc)
    · rw [hphase c hc]
      exact List.mem_cons_self

/-- The working commands of an iteration are distinct, and of the working phases. -/
theorem phased_work (itr : ℕ) (it : Iteration α) :
    Phased [.contextMvsb, .contextMac, .sfm, .scoreMvsb, .scoreMac] (it.tag itr).work := by
  have hscoreMac : Phased [.scoreMac] (it.tag itr).scoreMac.flatten := by
    refine ⟨nodup_flatten_tagRows _ _ _, fun c hc => ?_⟩
    rw [(mem_flatten_tagRows hc).1]
    exact List.mem_singleton.mpr rfl
  have hscoreMvsb : Phased [.scoreMvsb, .scoreMac]
      ((it.tag itr).scoreMac.flatten ++ (it.tag itr).scoreMvsb.flatten) :=
    hscoreMac.append (by decide) (nodup_flatten_tagRows _ _ _) fun c hc =>
      (mem_flatten_tagRows hc).1
  have hsfm : Phased [.sfm, .scoreMvsb, .scoreMac] ((it.tag itr).scoreMac.flatten ++
      (it.tag itr).scoreMvsb.flatten ++ (it.tag itr).sfm) :=
    hscoreMvsb.append (by decide) (nodup_tagRow _ _ _ _) fun c hc => (mem_tagRow hc).1
  have hcontextMac : Phased [.contextMac, .sfm, .scoreMvsb, .scoreMac]
      ((it.tag itr).scoreMac.flatten ++ (it.tag itr).scoreMvsb.flatten ++ (it.tag itr).sfm ++
        (it.tag itr).contextMac.flatten) :=
    hsfm.append (by decide) (nodup_flatten_tagRows _ _ _) fun c hc => (mem_flatten_tagRows hc).1
  exact hcontextMac.append (by decide) (nodup_flatten_tagRows _ _ _) fun c hc =>
    (mem_flatten_tagRows hc).1

/-- An iteration on its own is emitted once. -/
theorem emittedOnce_of_emitLast [DecidableEq α] {barrier : List α} (hbarrier : barrier ≠ [])
    {it : Iteration α} (hfits : Fits g a it) {out : List (Tag × α)}
    (h : g.emitLast a (tagBarrier barrier) (tagAll [it]) 0 = .ok out) : EmittedOnce [it] out := by
  obtain ⟨body, extra, rfl, hbody, hextra⟩ := emitLast_perm rfl (hfits.tag 0) h
  intro it' hit c hc
  obtain rfl : it' = it.tag 0 := List.mem_singleton.mp hit
  obtain ⟨hnodup, hphases⟩ := phased_work 0 it
  -- the warm-up is the input vector
  have hwarm : afterWarmUp ((it.tag 0).scoreWrgb ++ (tagBarrier barrier ++ body)) =
      tagBarrier barrier ++ body := by
    rw [afterWarmUp, List.dropWhile_append_of_pos]
    · rcases barrier with _ | ⟨cmd, cmds⟩
      · exact absurd rfl hbarrier
      · rw [tagBarrier, tagRow, List.mapIdx_cons, List.cons_append]
        exact List.dropWhile_cons_of_neg (by simp)
    · intro c hc
      rw [(mem_tagRow hc).1]
      rfl
  have hwork := hphases c hc
  have hnotBarrier : c ∉ tagBarrier barrier := by
    intro hmem
    rw [(mem_tagRow hmem).1] at hwork
    exact absurd hwork (by decide)
  have hnotExtra : c ∉ extra := by
    intro hmem
    rcases hextra c hmem with hmem | hmem
    · rw [(mem_tagRow hmem).1] at hwork
      exact absurd hwork (by decide)
    · exact hnotBarrier hmem
  rw [hwarm, List.count_append, List.count_eq_zero_of_not_mem hnotBarrier, Nat.zero_add]
  exact count_eq_one_of_perm hbody hnodup hc hnotExtra

/-! ### Pairs -/

/-- All commands of an iteration satisfy `P`. -/
structure Iteration.Forall (P : α → Prop) (it : Iteration α) : Prop where
  scoreWrgb : ∀ c ∈ it.scoreWrgb, P c
  scoreMac : ∀ row ∈ it.scoreMac, ∀ c ∈ row, P c
  scoreMvsb : ∀ group ∈ it.scoreMvsb, ∀ c ∈ group, P c
  sfm : ∀ c ∈ it.sfm, P c
  contextMvgb : ∀ c ∈ it.contextMvgb, P c
  contextMac : ∀ row ∈ it.contextMac, ∀ c ∈ row, P c
  contextMvsb : ∀ group ∈ it.contextMvsb, ∀ c ∈ group, P c

/-- An iteration without its context rows and moves: what a pair reads of head 1. -/
def Iteration.withoutContext (it : Iteration α) : Iteration α :=
  { it with contextMac := [], contextMvsb := [] }

section Forall

variable {P : α → Prop} {it head0 head1 : Iteration α} {barrier out : List α}

theorem mem_of_mem_window {β : Type*} {xs : List β} {start stride : ℕ} {x : β}
    (h : x ∈ window xs start stride) : x ∈ xs :=
  List.mem_of_mem_drop (List.mem_of_mem_take h)

theorem Iteration.Forall.scoreRound (h : it.Forall P) :
    ∀ j row, it.scoreRound j = .ok row → ∀ c ∈ row, P c := by
  intro j row hrow c hc
  obtain rfl := Except.ok.inj hrow
  obtain ⟨row, hrow, hc⟩ := List.mem_flatten.mp hc
  exact h.scoreMac row (mem_of_mem_window hrow) c hc

theorem Iteration.Forall.contextRound (h : it.Forall P) :
    ∀ j row, it.contextRound j = .ok row → ∀ c ∈ row, P c :=
  fun _ row hrow => h.contextMac row (List.mem_of_getElem? (index_eq_ok.mp hrow))

theorem Iteration.Forall.sfmRound (h : it.Forall P) : ∀ j, ∀ c ∈ it.sfmRound j, P c := by
  intro j c hc
  rw [Iteration.sfmRound] at hc
  split_ifs at hc
  · exact h.sfm c hc
  · exact absurd hc List.not_mem_nil

theorem Iteration.Forall.wrgbRound (h : it.Forall P) (cmds length : ℕ) :
    ∀ j, ∀ c ∈ it.wrgbRound cmds length j, P c := by
  intro j c hc
  rw [Iteration.wrgbRound] at hc
  split_ifs at hc
  · exact absurd hc List.not_mem_nil
  · exact h.scoreWrgb c (mem_of_mem_window hc)

theorem Iteration.Forall.mvgbRound (h : it.Forall P) (cmds length : ℕ) :
    ∀ j, ∀ c ∈ it.mvgbRound cmds length j, P c := by
  intro j c hc
  rw [Iteration.mvgbRound] at hc
  split_ifs at hc
  · exact absurd hc List.not_mem_nil
  · exact h.contextMvgb c (mem_of_mem_window hc)

theorem Iteration.Forall.dummyMacs (h : it.Forall P) {i : ℕ} (hout : it.dummyMacs i = .ok out) :
    ∀ c ∈ out, P c := by
  intro c hc
  rw [Iteration.dummyMacs] at hout
  split_ifs at hout
  · obtain ⟨j, -, hj⟩ := exists_of_mem_mapM hout c hc
    obtain ⟨row, hrow, hc⟩ := bind_ok_iff.mp hj
    exact h.scoreMac row (List.mem_of_getElem? (index_eq_ok.mp hrow)) c
      (List.mem_of_getElem? (index_eq_ok.mp hc))
  · obtain rfl := Except.ok.inj hout
    exact absurd hc List.not_mem_nil

theorem forall_mem_append_bus {bus bus' : ℕ → List α} (h : ∀ j, ∀ c ∈ bus j, P c)
    (h' : ∀ j, ∀ c ∈ bus' j, P c) : ∀ j, ∀ c ∈ bus j ++ bus' j, P c := by
  intro j c hc
  rcases List.mem_append.mp hc with hc | hc
  · exact h j c hc
  · exact h' j c hc

/-- **What a pair emits** comes from head 0, or from head 1 without its context. -/
theorem forall_mem_emitPair {cmds : List (Iteration α)} {i : ℕ} (hhead0 : cmds[i]? = some head0)
    (hhead1 : cmds[i + 1]? = some head1) (h0 : head0.Forall P)
    (h1 : head1.withoutContext.Forall P) (hbarrier : ∀ c ∈ barrier, P c)
    (h : g.emitPair a barrier cmds i = .ok out) : ∀ c ∈ out, P c := by
  obtain ⟨head0', hhead0', h⟩ := bind_ok_iff.mp h
  obtain rfl := Option.some.inj (hhead0.symm.trans (index_eq_ok.mp hhead0'))
  obtain ⟨head1', hhead1', h⟩ := bind_ok_iff.mp h
  obtain rfl := Option.some.inj (hhead1.symm.trans (index_eq_ok.mp hhead1'))
  obtain ⟨dummies, hdummies, h⟩ := bind_ok_iff.mp h
  obtain ⟨score0, hscore0, h⟩ := bind_ok_iff.mp h
  obtain ⟨score1, hscore1, h⟩ := bind_ok_iff.mp h
  obtain ⟨context0, hcontext0, h⟩ := bind_ok_iff.mp h
  obtain ⟨context1, hcontext1, h⟩ := bind_ok_iff.mp h
  obtain rfl := Except.ok.inj h
  have hdummies := h0.dummyMacs hdummies
  have hscore0 := forall_mem_pipeline h0.scoreRound h0.scoreMvsb (h1.wrgbRound _ _) hbarrier hscore0
  have hscore1 := forall_mem_pipeline h1.scoreRound h1.scoreMvsb
    (forall_mem_append_bus h0.sfmRound (h0.mvgbRound _ _)) hbarrier hscore1
  have hcontext0 := forall_mem_pipeline h0.contextRound h0.contextMvsb
    (forall_mem_append_bus h1.sfmRound (h1.mvgbRound _ _)) hbarrier hcontext0
  have hcontext1 := forall_mem_pipeline h0.contextRound h0.contextMvsb
    (fun _ _ hc => absurd hc List.not_mem_nil) hbarrier hcontext1
  intro c hc
  simp only [List.mem_append] at hc
  rcases hc with (((((hc | hc) | hc) | hc) | hc) | hc) | hc
  · exact h0.scoreWrgb c hc
  · exact hdummies c hc
  · exact hbarrier c hc
  · exact hscore0 c hc
  · exact hscore1 c hc
  · exact hcontext0 c hc
  · exact hcontext1 c hc

/-- What an iteration on its own emits comes from it. -/
theorem forall_mem_emitLast {cmds : List (Iteration α)} {i : ℕ} (hhead : cmds[i]? = some it)
    (hit : it.Forall P) (hbarrier : ∀ c ∈ barrier, P c)
    (h : g.emitLast a barrier cmds i = .ok out) : ∀ c ∈ out, P c := by
  obtain ⟨head', hhead', h⟩ := bind_ok_iff.mp h
  obtain rfl := Option.some.inj (hhead.symm.trans (index_eq_ok.mp hhead'))
  obtain ⟨score, hscore, h⟩ := bind_ok_iff.mp h
  obtain ⟨context, hcontext, h⟩ := bind_ok_iff.mp h
  obtain rfl := Except.ok.inj h
  have hscore := forall_mem_pipeline hit.scoreRound hit.scoreMvsb
    (fun _ _ hc => absurd hc List.not_mem_nil) hbarrier hscore
  have hcontext := forall_mem_pipeline hit.contextRound hit.contextMvsb
    (fun _ _ hc => absurd hc List.not_mem_nil) hbarrier hcontext
  intro c hc
  simp only [List.mem_append] at hc
  rcases hc with (((((hc | hc) | hc) | hc) | hc) | hc) | hc
  · exact hit.scoreWrgb c hc
  · exact hbarrier c hc
  · exact hscore c hc
  · exact hit.sfm c hc
  · exact hit.contextMvgb c hc
  · exact hbarrier c hc
  · exact hcontext c hc

end Forall

/-- A context MAC of an even iteration, or another command. -/
def EvenContext (c : Tag × α) : Prop := c.1.phase = .contextMac → c.1.itr % 2 = 0

theorem evenContext_of_phase {c : Tag × α} {phase : Phase} (h : c.1.phase = phase)
    (hphase : phase ≠ .contextMac) : EvenContext c :=
  fun hc => absurd (h.symm.trans hc) hphase

/-- Without its context an iteration has no context MACs. -/
theorem evenContext_withoutContext (itr : ℕ) (it : Iteration α) :
    (it.tag itr).withoutContext.Forall EvenContext where
  scoreWrgb _ hc := evenContext_of_phase (mem_tagRow hc).1 (by decide)
  scoreMac _ hrow c hc := evenContext_of_phase (mem_tagRows hrow c hc).1 (by decide)
  scoreMvsb _ hrow c hc := evenContext_of_phase (mem_tagRows hrow c hc).1 (by decide)
  sfm _ hc := evenContext_of_phase (mem_tagRow hc).1 (by decide)
  contextMvgb _ hc := evenContext_of_phase (mem_tagRow hc).1 (by decide)
  contextMac _ hrow := absurd hrow List.not_mem_nil
  contextMvsb _ hrow := absurd hrow List.not_mem_nil

/-- The context MACs of an even iteration are even. -/
theorem evenContext_tag {itr : ℕ} (heven : itr % 2 = 0) (it : Iteration α) :
    (it.tag itr).Forall EvenContext where
  scoreWrgb := (evenContext_withoutContext itr it).scoreWrgb
  scoreMac := (evenContext_withoutContext itr it).scoreMac
  scoreMvsb := (evenContext_withoutContext itr it).scoreMvsb
  sfm := (evenContext_withoutContext itr it).sfm
  contextMvgb := (evenContext_withoutContext itr it).contextMvgb
  contextMac _ hrow c hc := by
    intro _
    rw [(mem_tagRows hrow c hc).2]
    exact heven
  contextMvsb _ hrow c hc := evenContext_of_phase (mem_tagRows hrow c hc).1 (by decide)

theorem index_tagAll {cmds : List (Iteration α)} {i : ℕ} {head : Iteration (Tag × α)}
    (h : index (tagAll cmds) i = .ok head) : (tagAll cmds)[i]? = some head ∧
      ∃ it : Iteration α, cmds[i]? = some it ∧ head = it.tag i := by
  have hget := index_eq_ok.mp h
  refine ⟨hget, ?_⟩
  rw [tagAll, List.getElem?_mapIdx] at hget
  obtain ⟨it, hit, rfl⟩ := Option.map_eq_some_iff.mp hget
  exact ⟨it, hit, rfl⟩

/-- **The context of the second head of a pair is lost**: every context MAC of a trace
belongs to an even iteration. -/
theorem evenContext_of_mem_emit {barrier : List α} {cmds : List (Iteration α)}
    {out : List (Tag × α)} (h : g.emit a (tagBarrier barrier) (tagAll cmds) = .ok out) :
    ∀ c ∈ out, EvenContext c := by
  have hbarrier : ∀ c ∈ tagBarrier barrier, EvenContext c :=
    fun c hc => evenContext_of_phase (mem_tagRow hc).1 (by decide)
  obtain ⟨pairs, hpairs, h⟩ := bind_ok_iff.mp h
  obtain ⟨tail, htail, h⟩ := bind_ok_iff.mp h
  obtain rfl := Except.ok.inj h
  intro c hc
  rcases List.mem_append.mp hc with hc | hc
  · obtain ⟨pair, hpair, hc⟩ := List.mem_flatten.mp hc
    obtain ⟨p, -, hp⟩ := exists_of_mem_mapM hpairs pair hpair
    obtain ⟨head0, hhead0, hp'⟩ := bind_ok_iff.mp hp
    obtain ⟨head1, hhead1, -⟩ := bind_ok_iff.mp hp'
    obtain ⟨hget0, it0, -, rfl⟩ := index_tagAll hhead0
    obtain ⟨hget1, it1, -, rfl⟩ := index_tagAll hhead1
    have heven : 2 * p % 2 = 0 := by omega
    exact forall_mem_emitPair hget0 hget1 (evenContext_tag heven it0)
      (evenContext_withoutContext _ it1) hbarrier hp c hc
  · rw [Generator.emitTail] at htail
    split_ifs at htail with hodd
    · obtain ⟨head, hhead, -⟩ := bind_ok_iff.mp htail
      obtain ⟨hget, it, -, rfl⟩ := index_tagAll hhead
      have heven : (a.numItr - 1) % 2 = 0 := by omega
      exact forall_mem_emitLast hget (evenContext_tag heven it) hbarrier htail c hc
    · obtain rfl := Except.ok.inj htail
      exact absurd hc List.not_mem_nil

end Trace

section Run

variable {g : Generator} {a : Args}

/-- What the loops presume of the lists of an iteration that they index: a group of moves for
every round of a score loop, a row and a group for every round of a context loop. -/
structure Covers (g : Generator) (a : Args) (it : Iteration α) : Prop where
  scoreMvsb : g.scoreLength a ≤ it.scoreMvsb.length
  contextMac : g.contextLength a ≤ it.contextMac.length
  contextMvsb : g.contextLength a ≤ it.contextMvsb.length

/-- What the dummy MACs presume: a first row with a MAC for every channel. -/
def Warm (it : Iteration α) : Prop :=
  ∃ row, it.scoreMac[0]? = some row ∧ it.validChannel ≤ row.length

section Exists

variable {it head0 head1 : Iteration α} {cmds : List (Iteration α)} {barrier : List α}

/-- The loops of an iteration are emitted. -/
theorem exists_scoreLoop (hit : Covers g a it) (bus : ℕ → List α) (barrier : List α) :
    ∃ out, pipeline it.scoreRound it.scoreMvsb bus barrier (g.scoreLength a) = .ok out :=
  exists_pipeline (fun _ _ => ⟨_, rfl⟩) hit.scoreMvsb

theorem exists_contextLoop (hit : Covers g a it) (bus : ℕ → List α) (barrier : List α) :
    ∃ out, pipeline it.contextRound it.contextMvsb bus barrier (g.contextLength a) = .ok out := by
  refine exists_pipeline ?_ hit.contextMvsb
  intro j hj
  exact ⟨_, index_eq_ok.mpr (List.getElem?_eq_getElem (lt_of_lt_of_le hj hit.contextMac))⟩

/-- A row of MACs serves every channel. -/
theorem exists_dummyMacs {i : ℕ} (hwarm : i = 0 → Warm it) :
    ∃ dummies, it.dummyMacs i = .ok dummies := by
  rw [Iteration.dummyMacs]
  split_ifs with hi
  · obtain ⟨row, hrow, hlength⟩ := hwarm hi
    refine exists_mapM_ok ?_
    intro j hj
    have hlt : j < row.length := lt_of_lt_of_le (List.mem_range.mp hj) hlength
    exact ⟨_, bind_ok_iff.mpr ⟨row, index_eq_ok.mpr hrow,
      index_eq_ok.mpr (List.getElem?_eq_getElem hlt)⟩⟩
  · exact ⟨[], rfl⟩

theorem exists_emitPair {i : ℕ} (hhead0 : cmds[i]? = some head0)
    (hhead1 : cmds[i + 1]? = some head1) (h0 : Covers g a head0) (h1 : Covers g a head1)
    (hwarm : i = 0 → Warm head0) : ∃ out, g.emitPair a barrier cmds i = .ok out := by
  obtain ⟨dummies, hdummies⟩ := exists_dummyMacs hwarm
  obtain ⟨score0, hscore0⟩ := exists_scoreLoop h0 _ barrier
  obtain ⟨score1, hscore1⟩ := exists_scoreLoop h1 _ barrier
  obtain ⟨context0, hcontext0⟩ := exists_contextLoop h0 _ barrier
  obtain ⟨context1, hcontext1⟩ := exists_contextLoop h0 _ barrier
  exact ⟨_, bind_ok_iff.mpr ⟨_, index_eq_ok.mpr hhead0, bind_ok_iff.mpr
    ⟨_, index_eq_ok.mpr hhead1, bind_ok_iff.mpr ⟨dummies, hdummies, bind_ok_iff.mpr
      ⟨score0, hscore0, bind_ok_iff.mpr ⟨score1, hscore1, bind_ok_iff.mpr
        ⟨context0, hcontext0, bind_ok_iff.mpr ⟨context1, hcontext1, rfl⟩⟩⟩⟩⟩⟩⟩⟩

theorem exists_emitLast {i : ℕ} (hhead : cmds[i]? = some it) (hit : Covers g a it) :
    ∃ out, g.emitLast a barrier cmds i = .ok out := by
  obtain ⟨score, hscore⟩ := exists_scoreLoop hit (fun _ => []) barrier
  obtain ⟨context, hcontext⟩ := exists_contextLoop hit (fun _ => []) barrier
  exact ⟨_, bind_ok_iff.mpr ⟨_, index_eq_ok.mpr hhead, bind_ok_iff.mpr ⟨score, hscore,
    bind_ok_iff.mpr ⟨context, hcontext, rfl⟩⟩⟩⟩

/-- **What is enough for a trace to be written**: lists at every index that the loops do not
outrun, and MACs to warm up with if there is a pair. -/
theorem exists_emit (hlength : a.numItr ≤ cmds.length)
    (hcovers : ∀ i < a.numItr, ∀ it, cmds[i]? = some it → Covers g a it)
    (hwarm : 1 < a.numItr → ∀ it, cmds[0]? = some it → Warm it) :
    ∃ trace, g.emit a barrier cmds = .ok trace := by
  have hget : ∀ i < a.numItr, ∃ it, cmds[i]? = some it :=
    fun i hi => ⟨_, List.getElem?_eq_getElem (lt_of_lt_of_le hi hlength)⟩
  have hpairs : ∀ p ∈ List.range (a.numItr / 2),
      ∃ pair, g.emitPair a barrier cmds (2 * p) = .ok pair := by
    intro p hp
    have hlt := List.mem_range.mp hp
    obtain ⟨head0, hhead0⟩ := hget (2 * p) (by omega)
    obtain ⟨head1, hhead1⟩ := hget (2 * p + 1) (by omega)
    refine exists_emitPair hhead0 hhead1 (hcovers _ (by omega) _ hhead0)
      (hcovers _ (by omega) _ hhead1) ?_
    intro hzero
    rw [hzero] at hhead0
    exact hwarm (by omega) head0 hhead0
  obtain ⟨pairs, hpairs⟩ := exists_mapM_ok hpairs
  obtain ⟨tail, htail⟩ : ∃ tail, g.emitTail a barrier cmds = .ok tail := by
    rw [Generator.emitTail]
    split_ifs with hodd
    · obtain ⟨head, hhead⟩ := hget (a.numItr - 1) (by omega)
      exact exists_emitLast hhead (hcovers _ (by omega) _ hhead)
    · exact ⟨[], rfl⟩
  exact ⟨_, bind_ok_iff.mpr ⟨pairs, hpairs, bind_ok_iff.mpr ⟨tail, htail, rfl⟩⟩⟩

/-- A trace with a pair begins with one. -/
theorem exists_firstPair (hpair : 1 < a.numItr) {trace : List α}
    (h : g.emit a barrier cmds = .ok trace) :
    ∃ pair, g.emitPair a barrier cmds 0 = .ok pair := by
  obtain ⟨pairs, hpairs, -⟩ := bind_ok_iff.mp h
  exact exists_forall₂_iff.mp ⟨pairs, mapM_ok_iff.mp hpairs⟩ 0 (List.mem_range.mpr (by omega))

/-- The dummy MACs of a pair presume that there is a MAC at all. -/
theorem exists_firstMac {trace : List α} (h : g.emitPair a barrier cmds 0 = .ok trace) :
    ∃ it, cmds[0]? = some it ∧ (0 < it.validChannel →
      ∃ row, it.scoreMac[0]? = some row ∧ ∃ c, row[0]? = some c) := by
  obtain ⟨head0, hhead0, h⟩ := bind_ok_iff.mp h
  obtain ⟨head1, -, h⟩ := bind_ok_iff.mp h
  obtain ⟨dummies, hdummies, -⟩ := bind_ok_iff.mp h
  refine ⟨head0, index_eq_ok.mp hhead0, ?_⟩
  intro hchannel
  rw [Iteration.dummyMacs, if_pos rfl, Iteration.firstMacs] at hdummies
  obtain ⟨c, hc⟩ := exists_forall₂_iff.mp ⟨dummies, mapM_ok_iff.mp hdummies⟩ 0
    (List.mem_range.mpr hchannel)
  obtain ⟨row, hrow, hc⟩ := bind_ok_iff.mp hc
  exact ⟨row, index_eq_ok.mp hrow, c, index_eq_ok.mp hc⟩

end Exists

/-- In a fresh process that means that there are rows, and that they have columns. -/
theorem pos_of_emitPair {barrier trace : List Command}
    (h : g.emitPair a barrier ((List.range a.numItr).map (g.iteration a)) 0 = .ok trace) :
    0 < g.seqRows a ∧ 0 < g.headCols a := by
  obtain ⟨head0, hget, hfirst⟩ := exists_firstMac h
  rw [List.getElem?_map] at hget
  obtain ⟨i, hi, rfl⟩ := Option.map_eq_some_iff.mp hget
  obtain ⟨row, hrow, c, hc⟩ := hfirst (a.validChannel_pos i)
  obtain ⟨nIdx, hnIdx, rfl⟩ := List.mem_map.mp (List.mem_of_getElem? hrow)
  obtain ⟨kIdx, hkIdx, -⟩ := g.mem_macRow.mp (List.mem_of_getElem? hc)
  exact ⟨Nat.zero_lt_of_lt (List.mem_range.mp hnIdx), Nat.zero_lt_of_lt hkIdx⟩

theorem index_iterations {itr : ℕ} (hitr : itr < a.numItr) :
    index ((List.range a.numItr).map (g.iteration a)) itr = .ok (g.iteration a itr) := by
  rw [index_eq_ok, List.getElem?_map, List.getElem?_range hitr]
  rfl

theorem covers_iteration (itr : ℕ) : Covers g a (g.iteration a itr) where
  scoreMvsb := (length_scoreMvsb g a _ _ _).ge
  contextMac := (fits_iteration g a itr).contextMac.ge
  contextMvsb := (fits_iteration g a itr).contextMvsb.ge

/-- With rows and columns there are MACs to warm up with. -/
theorem warm_iteration (hrows : 0 < g.seqRows a) (hcols : 0 < g.headCols a) (itr : ℕ) :
    Warm (g.iteration a itr) := by
  refine ⟨g.macRow (a.keyAddr itr) (g.headCols a) (a.validChannel itr) 0, ?_, ?_⟩
  · rw [Generator.iteration, Generator.commands, List.getElem?_map, List.getElem?_range hrows]
    rfl
  · have hlength : (g.macRow (a.keyAddr itr) (g.headCols a) (a.validChannel itr) 0).length =
        g.headCols a * a.validChannel itr := by
      simp [Generator.macRow, List.length_flatMap]
    rw [hlength]
    exact Nat.le_mul_of_pos_left _ hcols

/-- There are rows when there are tokens. -/
theorem seqRows_pos_iff : 0 < g.seqRows a ↔ 0 < a.L := by
  have hle : g.seqRows a ≤ 0 ↔ a.L ≤ g.units * 0 := ceilDiv_le_iff_le_mul g.units_pos
  rw [Nat.mul_zero] at hle
  omega

/-- There are columns when a head is not empty. -/
theorem headCols_pos_iff (hmac : 0 < a.nMac) : 0 < g.headCols a ↔ 0 < a.dhead := by
  have hle : g.headCols a ≤ 0 ↔ a.dhead ≤ g.lanes * a.nMac * 0 :=
    ceilDiv_le_iff_le_mul (Nat.mul_pos g.lanes_pos hmac)
  rw [Nat.mul_zero] at hle
  omega

/-- **When a trace is written**: unless the heads make a pair, and there are no MACs to warm
up with. -/
theorem exists_run_iff (hmac : 0 < a.nMac) :
    (∃ cmds trace, g.runAttention a [] = .ok (cmds, trace)) ↔
      a.numItr ≤ 1 ∨ 0 < g.seqRows a ∧ 0 < g.headCols a := by
  have hgenerate := Generator.generate_of_pos (g := g) hmac
  refine ⟨?_, ?_⟩
  · rintro ⟨cmds, trace, h⟩
    obtain ⟨_, hcmds, h⟩ := bind_ok_iff.mp h
    obtain rfl := Except.ok.inj (hgenerate.symm.trans hcmds)
    obtain ⟨_, hemit, -⟩ := bind_ok_iff.mp h
    rcases Nat.lt_or_ge 1 a.numItr with hpair | hle
    · obtain ⟨pair, hpair0⟩ := exists_firstPair hpair hemit
      exact .inr (pos_of_emitPair hpair0)
    · exact .inl hle
  · intro h
    have hiteration : ∀ {i : ℕ} {it : Iteration Command},
        ((List.range a.numItr).map (g.iteration a))[i]? = some it →
          ∃ itr, it = g.iteration a itr := by
      intro i it hit
      obtain ⟨itr, -, rfl⟩ := List.mem_map.mp (List.mem_of_getElem? hit)
      exact ⟨itr, rfl⟩
    obtain ⟨trace, htrace⟩ : ∃ trace, g.emit a Generator.barrier
        ((List.range a.numItr).map (g.iteration a)) = .ok trace := by
      refine exists_emit (by simp) ?_ ?_
      · intro i _ it hit
        obtain ⟨itr, rfl⟩ := hiteration hit
        exact covers_iteration itr
      · intro hpair it hit
        obtain ⟨hrows, hcols⟩ := h.resolve_left (Nat.not_le.mpr hpair)
        obtain ⟨itr, rfl⟩ := hiteration hit
        exact warm_iteration hrows hcols itr
    exact ⟨_, trace, bind_ok_iff.mpr ⟨_, hgenerate, bind_ok_iff.mpr ⟨_, htrace, rfl⟩⟩⟩

/-- An iteration with rows and columns has a context MAC. -/
theorem exists_mem_contextMac (hrows : 0 < g.seqRows a) (hcols : 0 < g.headCols a) (itr : ℕ) :
    ∃ c, c ∈ ((g.iteration a itr).tag itr).contextMac.flatten := by
  refine List.exists_mem_of_ne_nil _ ?_
  intro hnil
  have hmap := congrArg (List.map Prod.snd) hnil
  have htag : (((g.iteration a itr).tag itr).contextMac.flatten).map Prod.snd =
      (g.iteration a itr).contextMac.flatten := by
    rw [List.map_flatten]
    exact congrArg List.flatten (map_snd_tagRows _ _ _)
  rw [htag, List.map_nil, List.flatten_eq_nil_iff] at hmap
  have hrow : g.macRow (a.valAddr itr) (g.seqRows a) (a.validChannel itr) 0 = [] :=
    hmap _ (List.mem_map.mpr ⟨0, List.mem_range.mpr hcols, rfl⟩)
  have hmem : _ ∈ g.macRow (a.valAddr itr) (g.seqRows a) (a.validChannel itr) 0 :=
    g.mem_macRow.mpr ⟨0, hrows, 0, a.validChannel_pos itr, rfl⟩
  rw [hrow] at hmem
  exact absurd hmem List.not_mem_nil

/-- More heads than channels make a pair. -/
theorem lt_numItr_iff : nChannel < a.nHeadPerHbm ↔ 1 < a.numItr := by
  have hle : a.numItr ≤ 1 ↔ a.nHeadPerHbm ≤ nChannel * 1 :=
    ceilDiv_le_iff_le_mul (by decide)
  rw [Nat.mul_one] at hle
  omega

/-- One iteration is emitted on its own. -/
theorem emit_of_numItr_eq_one {barrier : List α} {cmds : List (Iteration α)}
    (h : a.numItr = 1) : g.emit a barrier cmds = g.emitLast a barrier cmds 0 := by
  rw [Generator.emit, Generator.emitTail, h]
  show (do
    let tail ← g.emitLast a barrier cmds 0
    pure ([] ++ tail)) = _
  rcases g.emitLast a barrier cmds 0 with e | tail
  · rfl
  · rfl

/-- A trace that is written is the trace of tagged commands, without the tags. -/
theorem exists_tagged {cmds : List (Iteration Command)} {trace : List Command}
    (h : g.runAttention a [] = .ok (cmds, trace)) :
    cmds = (List.range a.numItr).map (g.iteration a) ∧ g.emit a Generator.barrier cmds = .ok trace ∧
      ∃ tagged, g.emit a (tagBarrier Generator.barrier) (tagAll cmds) = .ok tagged ∧
        tagged.map Prod.snd = trace := by
  obtain ⟨cmds', hgenerate, h⟩ := bind_ok_iff.mp h
  obtain ⟨trace', hemit, h⟩ := bind_ok_iff.mp h
  obtain ⟨rfl, rfl⟩ := Prod.mk.inj (Except.ok.inj h)
  refine ⟨(Generator.generate_eq_ok hgenerate).1, hemit, ?_⟩
  have htagged : (g.emit a (tagBarrier Generator.barrier) (tagAll cmds')).map
      (List.map Prod.snd) = .ok trace' := by
    rw [← Generator.emit_map, map_snd_tagAll, tagBarrier, map_snd_tagRow]
    exact hemit
  rcases hout : g.emit a (tagBarrier Generator.barrier) (tagAll cmds') with e | tagged
  · rw [hout] at htagged
    cases htagged
  · rw [hout] at htagged
    exact ⟨tagged, rfl, Except.ok.inj htagged⟩

/-- Without a pair every working command is emitted once. -/
theorem emittedOnce_of_le (hheads : a.nHeadPerHbm ≤ nChannel)
    {tagged : List (Tag × Command)}
    (hout : g.emit a (tagBarrier Generator.barrier)
      (tagAll ((List.range a.numItr).map (g.iteration a))) = .ok tagged) :
    EmittedOnce ((List.range a.numItr).map (g.iteration a)) tagged := by
  have hle : a.numItr ≤ 1 := by
    by_contra hpair
    exact absurd hheads (Nat.not_le.mpr (lt_numItr_iff.mpr (Nat.lt_of_not_le hpair)))
  rcases Nat.le_one_iff_eq_zero_or_eq_one.mp hle with hzero | hone
  · intro it hit
    rw [hzero] at hit
    exact absurd hit List.not_mem_nil
  · rw [emit_of_numItr_eq_one hone, hone] at hout
    rw [hone]
    exact emittedOnce_of_emitLast (by decide) (fits_iteration g a 0) hout

/-- A pair loses the context of its second head. -/
theorem not_emittedOnce_of_lt (hheads : nChannel < a.nHeadPerHbm) {trace : List Command}
    (hemit : g.emit a Generator.barrier ((List.range a.numItr).map (g.iteration a)) = .ok trace)
    {tagged : List (Tag × Command)}
    (hout : g.emit a (tagBarrier Generator.barrier)
      (tagAll ((List.range a.numItr).map (g.iteration a))) = .ok tagged) :
    ¬EmittedOnce ((List.range a.numItr).map (g.iteration a)) tagged := by
  intro honce
  have hpair := lt_numItr_iff.mp hheads
  obtain ⟨pair, hpair0⟩ := exists_firstPair hpair hemit
  obtain ⟨hrows, hcols⟩ := pos_of_emitPair hpair0
  let it1 := (g.iteration a 1).tag 1
  have hit1 : it1 ∈ tagAll ((List.range a.numItr).map (g.iteration a)) := by
    refine List.mem_of_getElem? (i := 1) ?_
    rw [tagAll, List.getElem?_mapIdx, List.getElem?_map, List.getElem?_range hpair]
    rfl
  obtain ⟨c, hc⟩ := exists_mem_contextMac hrows hcols 1
  have hwork : c ∈ it1.work := List.mem_append_left _ (List.mem_append_right _ hc)
  have hcount : (afterWarmUp tagged).count c = 1 := honce it1 hit1 c hwork
  have hwarm : c ∈ afterWarmUp tagged := List.count_pos_iff.mp (hcount ▸ Nat.one_pos)
  have hmem : c ∈ tagged := (List.dropWhile_sublist _).subset hwarm
  obtain ⟨hphase, hitr⟩ := mem_flatten_tagRows hc
  have heven := evenContext_of_mem_emit hout c hmem hphase
  rw [hitr] at heven
  exact absurd heven (by decide)

/-- **A trace is complete exactly when no two iterations are paired**: for every generator
and all arguments for which it writes a trace, the trace holds every working command of
every iteration once, after the warm-up, if and only if an HBM has at most 16 heads. -/
theorem emittedOnce_iff (g : Generator) (a : Args) {cmds : List (Iteration Command)}
    {trace : List Command} (h : g.runAttention a [] = .ok (cmds, trace)) :
    ∃ tagged, g.emit a (tagBarrier Generator.barrier) (tagAll cmds) = .ok tagged ∧
      tagged.map Prod.snd = trace ∧
      (EmittedOnce cmds tagged ↔ a.nHeadPerHbm ≤ nChannel) := by
  obtain ⟨rfl, hemit, tagged, hout, htrace⟩ := exists_tagged h
  refine ⟨tagged, hout, htrace, ?_, fun hheads => emittedOnce_of_le hheads hout⟩
  intro honce
  by_contra hheads
  exact not_emittedOnce_of_lt (Nat.lt_of_not_le hheads) hemit hout honce

/-- The arguments of a short sequence: heads of size 128 in 16 bits, 16 tokens. -/
def shortArgs (nHeadPerHbm : ℕ) : Args := ⟨128, 2048, 16, 16, nHeadPerHbm⟩

theorem exists_run_short (nHeadPerHbm : ℕ)
    (h : (bank.runAttention (shortArgs nHeadPerHbm) []).toOption.isSome = true) :
    ∃ cmds trace, bank.runAttention (shortArgs nHeadPerHbm) [] = .ok (cmds, trace) := by
  rcases hrun : bank.runAttention (shortArgs nHeadPerHbm) [] with e | ⟨cmds, trace⟩
  · rw [hrun] at h
    cases h
  · exact ⟨cmds, trace, rfl⟩

/-- The trace of a single head is complete. -/
theorem emittedOnce_one : ∃ cmds trace tagged,
    bank.runAttention (shortArgs 1) [] = .ok (cmds, trace) ∧ tagged.map Prod.snd = trace ∧
      EmittedOnce cmds tagged := by
  obtain ⟨cmds, trace, hrun⟩ := exists_run_short 1 (by decide +kernel)
  obtain ⟨tagged, -, htrace, honce⟩ := emittedOnce_iff bank (shortArgs 1) hrun
  exact ⟨cmds, trace, tagged, hrun, htrace, honce.mpr (by decide)⟩

/-- The trace of 17 heads is not: it lacks the context MACs of the last one. -/
theorem not_emittedOnce_seventeen : ∃ cmds trace tagged,
    bank.runAttention (shortArgs 17) [] = .ok (cmds, trace) ∧
      bank.emit (shortArgs 17) (tagBarrier Generator.barrier) (tagAll cmds) = .ok tagged ∧
      tagged.map Prod.snd = trace ∧ ¬EmittedOnce cmds tagged := by
  obtain ⟨cmds, trace, hrun⟩ := exists_run_short 17 (by decide +kernel)
  obtain ⟨rfl, hemit, tagged, hout, htrace⟩ := exists_tagged hrun
  exact ⟨_, trace, tagged, hrun, hout, htrace, not_emittedOnce_of_lt (by decide) hemit hout⟩

end Run

end AttAcc.Trace
