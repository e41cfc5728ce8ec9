import AttAcc.Library.Memo
import AttAcc.Trace.Coverage
import Mathlib.Algebra.Order.BigOperators.Group.List

/-!
# Calls in one process

The command lists belong to the module, and `cmd_list_reset` assigns to local names: a call of
`run_attention` appends to what the calls before it have left. A process is therefore stateless
in rare runs only, those whose later calls write no trace at all (`stateless_iff`).

What an index holds besides its own commands shows in the number of softmax commands: a trace
holds those of every iteration (`countSfm_emit`), so it has more of them than in a fresh process.
-/

namespace AttAcc.Trace

open Library

/-- The globals of a process: `dhead`, `max_L` and `n_mac`. -/
structure Process where
  dhead : ℕ
  maxL : ℕ
  nMac : ℕ
  deriving DecidableEq, Repr

/-- A call of `run_attention`: `n_head_per_hbm` and `L`. -/
structure Call where
  nHeadPerHbm : ℕ
  L : ℕ
  deriving DecidableEq, Repr

/-- The arguments of a call. -/
def Process.args (p : Process) (c : Call) : Args := ⟨p.dhead, p.maxL, p.nMac, c.L, c.nHeadPerHbm⟩

namespace Generator

variable (g : Generator) (p : Process)

/-- A call on the lists of the module: the trace that it writes, unless it raises, and the lists
that it leaves. Where the first `Attention` raises, it has opened an index. -/
def call (cmds : List (Iteration Command)) (c : Call) :
    Option (List Command) × List (Iteration Command) :=
  match g.generate (p.args c) cmds with
  | .error _ => (none, cmdListReset cmds ++ [Iteration.new ((p.args c).validChannel 0)])
  | .ok cmds => ((g.emit (p.args c) barrier cmds).toOption, cmds)

/-- The trace of a call in a fresh process. -/
def fresh (c : Call) : Option (List Command) := (g.call p [] c).1

/-- Each call of a process writes the trace that it writes in a fresh one. -/
def Stateless (calls : List Call) : Prop := answers (g.call p) [] calls = calls.map (g.fresh p)

/-- The calls that serve a head. -/
def served (calls : List Call) : List Call := calls.filter fun c => 0 < c.nHeadPerHbm

/-- Calls that do not tell whether others came before them: of those that serve a head, all but
the first write no trace in any case. -/
def Unobservable (calls : List Call) : Prop :=
  match served calls with
  | [] => True
  | first :: later => ∀ c ∈ later,
      nChannel < c.nHeadPerHbm ∧ (p.dhead = 0 ∨ c.L = 0 ∧ first.L = 0)

/-- What `generate` makes of the lists of the module: a new index for each iteration, and the
commands of iteration `itr` at index `itr`. -/
def extend (a : Args) (cmds : List (Iteration Command)) : List (Iteration Command) :=
  (cmds ++ (List.range a.numItr).map fun itr => Iteration.new (a.validChannel itr)).mapIdx
    fun i (it : Iteration Command) => if i < a.numItr then it.append (g.iteration a i) else it

variable {g p}

/-- A call writes the trace of `run_attention`. -/
theorem call_fst (cmds : List (Iteration Command)) (c : Call) :
    (g.call p cmds c).1 = (g.runAttention (p.args c) cmds).toOption.map Prod.snd := by
  rw [call, runAttention]
  rcases g.generate (p.args c) cmds with e | cmds'
  · rfl
  · show (g.emit (p.args c) barrier cmds').toOption = _
    rcases hemit : g.emit (p.args c) barrier cmds' with e | trace
    · simp [bind, Except.bind, hemit, Except.toOption]
    · simp [bind, Except.bind, hemit, Except.toOption, pure, Except.pure]

/-! ## The lists that a call leaves -/

section Extend

variable {a : Args} {cmds : List (Iteration Command)}

/-- `Attention` at index `n` opens an index at the end, and writes at index `n`. -/
theorem attention_extend (keyAddr valAddr validChannel n : ℕ) (news : List (Iteration Command))
    (F : ℕ → Iteration Command → Iteration Command) (hmac : 0 < a.nMac)
    (hF : ∀ i, n ≤ i → F i = id) (hlength : n ≤ news.length) :
    g.attention a keyAddr valAddr n validChannel (news.mapIdx F) =
      .ok ((news ++ [Iteration.new validChannel]).mapIdx fun i (it : Iteration Command) =>
        if i = n then it.append (g.commands a keyAddr valAddr validChannel) else F i it) := by
  have hopen : news.mapIdx F ++ [Iteration.new validChannel] =
      (news ++ [Iteration.new validChannel]).mapIdx F := by
    rw [List.mapIdx_concat, hF _ hlength, id]
  rw [attention, if_neg hmac.ne', hopen]
  refine congrArg Except.ok (List.ext_getElem? fun i => ?_)
  rw [List.getElem?_modify, List.getElem?_mapIdx, List.getElem?_mapIdx]
  rcases (news ++ [Iteration.new validChannel])[i]? with _ | it
  · rfl
  · rcases eq_or_ne n i with rfl | hne
    · simp [hF n le_rfl]
    · simp [hne, hne.symm]

/-- **The commands of a call come after those that are there.** -/
theorem generate_eq (hmac : 0 < a.nMac) : g.generate a cmds = .ok (g.extend a cmds) := by
  rw [generate, cmdListReset, extend]
  generalize a.numItr = n
  induction n with
  | zero =>
    refine congrArg Except.ok (List.ext_getElem? fun i => ?_)
    simp
  | succ n ih =>
    have hstep := attention_extend (g := g) (a := a) (a.keyAddr n) (a.valAddr n)
      (a.validChannel n) n
      (cmds ++ (List.range n).map fun itr => Iteration.new (a.validChannel itr))
      (fun i (it : Iteration Command) => if i < n then it.append (g.iteration a i) else it) hmac
      (fun i hi => funext fun it => if_neg (Nat.not_lt.mpr hi)) (by simp)
    rw [List.range_succ, List.foldlM_append, ih]
    refine bind_ok_iff.mpr ⟨_, rfl, bind_ok_iff.mpr ⟨_, hstep, ?_⟩⟩
    refine congrArg Except.ok ?_
    rw [List.map_append, ← List.append_assoc]
    refine congrArg₂ List.mapIdx (funext₂ fun i it => ?_) rfl
    rcases Nat.lt_trichotomy i n with hlt | rfl | hgt
    · rw [if_neg hlt.ne, if_pos hlt, if_pos (Nat.lt_succ_of_lt hlt)]
    · rw [if_pos rfl, if_pos (Nat.lt_succ_self i)]
      rfl
    · rw [if_neg hgt.ne', if_neg hgt.not_gt, if_neg (by omega)]

theorem call_eq (hmac : 0 < p.nMac) (cmds : List (Iteration Command)) (c : Call) :
    g.call p cmds c = ((g.emit (p.args c) barrier (g.extend (p.args c) cmds)).toOption,
      g.extend (p.args c) cmds) := by
  have hgenerate : g.generate (p.args c) cmds = .ok (g.extend (p.args c) cmds) := generate_eq hmac
  rw [call, hgenerate]

theorem length_extend : (g.extend a cmds).length = cmds.length + a.numItr := by
  simp [extend]

/-- What an index holds after a call. -/
theorem getElem?_extend {i : ℕ} {it : Iteration Command} (h : (g.extend a cmds)[i]? = some it) :
    ∃ old, (cmds[i]? = some old ∨ cmds.length ≤ i ∧
        old = Iteration.new (a.validChannel (i - cmds.length))) ∧
      it = if i < a.numItr then old.append (g.iteration a i) else old := by
  rw [extend, List.getElem?_mapIdx] at h
  obtain ⟨old, hold, rfl⟩ := Option.map_eq_some_iff.mp h
  refine ⟨old, ?_, rfl⟩
  rw [List.getElem?_append] at hold
  split_ifs at hold with hlt
  · exact .inl hold
  · rw [List.getElem?_map] at hold
    obtain ⟨itr, hitr, rfl⟩ := Option.map_eq_some_iff.mp hold
    obtain ⟨hrange, rfl⟩ := List.getElem?_eq_some_iff.mp hitr
    rw [List.getElem_range]
    exact .inr ⟨Nat.not_lt.mp hlt, rfl⟩

/-- What holds of every index is kept, if it holds of a new index and of what is appended. -/
theorem forall_mem_extend {P : Iteration Command → Prop} (hcmds : ∀ it ∈ cmds, P it)
    (hnew : ∀ itr, P (Iteration.new (a.validChannel itr)))
    (happend : ∀ it itr, P it → P (it.append (g.iteration a itr))) :
    ∀ it ∈ g.extend a cmds, P it := by
  intro it hit
  obtain ⟨i, hi⟩ := List.mem_iff_getElem?.mp hit
  obtain ⟨old, hold, rfl⟩ := getElem?_extend hi
  have hP : P old := by
    rcases hold with hold | ⟨-, rfl⟩
    · exact hcmds old (List.mem_of_getElem? hold)
    · exact hnew _
  split_ifs
  · exact happend old i hP
  · exact hP

end Extend

/-! ## The softmax commands of a trace -/

end Generator

/-- Everything of an iteration but its softmax. -/
def Iteration.withoutSfm {α : Type*} (it : Iteration α) : Iteration α := { it with sfm := [] }

section Count

variable {α : Type*} {isSfm : α → Bool} {g : Generator} {a : Args} {barrier out : List α}
  {cmds : List (Iteration α)}

theorem countP_eq_zero {cs : List α} (h : ∀ c ∈ cs, ¬isSfm c = true) : cs.countP isSfm = 0 :=
  List.countP_eq_zero.mpr h

/-- A loop whose MACs, moves and barriers are no softmax holds the softmax on its bus. -/
theorem countSfm_pipeline {rows : ℕ → Except PyError (List α)} {groups : List (List α)}
    {bus : ℕ → List α} {length : ℕ}
    (hrows : ∀ j row, rows j = .ok row → ∀ c ∈ row, ¬isSfm c = true)
    (hgroups : ∀ group ∈ groups, ∀ c ∈ group, ¬isSfm c = true)
    (hbarrier : ∀ c ∈ barrier, ¬isSfm c = true)
    (h : pipeline rows groups bus barrier length = .ok out) :
    out.countP isSfm = ((List.range (length + 1)).map fun j => (bus j).countP isSfm).sum := by
  obtain ⟨macs, hmacs, rfl⟩ := pipeline_eq_ok h
  have hmoves : ∀ j, (moves groups j).countP isSfm = 0 :=
    fun j => countP_eq_zero (forall_mem_moves hgroups j)
  have hround : (List.range length).map (List.countP isSfm ∘ fun j =>
      macs j ++ moves groups j ++ bus j ++ barrier) =
      (List.range length).map fun j => (bus j).countP isSfm := by
    refine List.map_congr_left fun j hj => ?_
    have hmac : (macs j).countP isSfm = 0 :=
      countP_eq_zero (hrows j _ (hmacs j (List.mem_range.mp hj)))
    simp [List.countP_append, hmac, hmoves, countP_eq_zero hbarrier]
  rw [List.countP_append, List.countP_flatMap, hround, List.range_succ, List.map_append,
    List.sum_append, List.countP_append, hmoves]
  simp

/-- A softmax at the start of a loop is there once. -/
theorem sum_sfmRound {it : Iteration α} {bus : ℕ → List α} (length : ℕ)
    (hbus : ∀ j, ∀ c ∈ bus j, ¬isSfm c = true) :
    ((List.range (length + 1)).map fun j => (it.sfmRound j ++ bus j).countP isSfm).sum =
      it.sfm.countP isSfm := by
  have hround : ∀ j, (it.sfmRound j ++ bus j).countP isSfm =
      if j = 0 then it.sfm.countP isSfm else 0 := by
    intro j
    rw [List.countP_append, countP_eq_zero (hbus j), Iteration.sfmRound]
    split_ifs
    · rfl
    · rfl
  simp only [hround]
  rw [List.range_succ_eq_map, List.map_cons, List.map_map]
  simp [Function.comp_def]

theorem sum_countP_eq_zero {bus : ℕ → List α} (length : ℕ)
    (hbus : ∀ j, ∀ c ∈ bus j, ¬isSfm c = true) :
    ((List.range (length + 1)).map fun j => (bus j).countP isSfm).sum = 0 := by
  simp [countP_eq_zero (hbus _)]

/-- How many softmax commands index `i` holds. -/
def sfmAt (isSfm : α → Bool) (cmds : List (Iteration α)) (i : ℕ) : ℕ :=
  cmds[i]?.elim 0 fun it => it.sfm.countP isSfm

/-- A pair emits the softmax of both heads. -/
theorem countSfm_emitPair {i : ℕ}
    (hcmds : ∀ it ∈ cmds, it.withoutSfm.Forall fun c => ¬isSfm c = true)
    (hbarrier : ∀ c ∈ barrier, ¬isSfm c = true) (h : g.emitPair a barrier cmds i = .ok out) :
    out.countP isSfm = sfmAt isSfm cmds i + sfmAt isSfm cmds (i + 1) := by
  obtain ⟨head0, hhead0, h⟩ := bind_ok_iff.mp h
  obtain ⟨head1, hhead1, h⟩ := bind_ok_iff.mp h
  obtain ⟨dummies, hdummies, h⟩ := bind_ok_iff.mp h
  obtain ⟨score0, hscore0, h⟩ := bind_ok_iff.mp h
  obtain ⟨score1, hscore1, h⟩ := bind_ok_iff.mp h
  obtain ⟨context0, hcontext0, h⟩ := bind_ok_iff.mp h
  obtain ⟨context1, hcontext1, h⟩ := bind_ok_iff.mp h
  obtain rfl := Except.ok.inj h
  have hget0 := index_eq_ok.mp hhead0
  have hget1 := index_eq_ok.mp hhead1
  have h0 := hcmds head0 (List.mem_of_getElem? hget0)
  have h1 := hcmds head1 (List.mem_of_getElem? hget1)
  have hscore0 : score0.countP isSfm = 0 :=
    (countSfm_pipeline h0.scoreRound h0.scoreMvsb hbarrier hscore0).trans
      (sum_countP_eq_zero _ (h1.wrgbRound _ _))
  have hscore1 : score1.countP isSfm = head0.sfm.countP isSfm :=
    (countSfm_pipeline h1.scoreRound h1.scoreMvsb hbarrier hscore1).trans
      (sum_sfmRound _ (h0.mvgbRound _ _))
  have hcontext0 : context0.countP isSfm = head1.sfm.countP isSfm :=
    (countSfm_pipeline h0.contextRound h0.contextMvsb hbarrier hcontext0).trans
      (sum_sfmRound _ (h1.mvgbRound _ _))
  have hcontext1 : context1.countP isSfm = 0 :=
    (countSfm_pipeline h0.contextRound h0.contextMvsb hbarrier hcontext1).trans
      (sum_countP_eq_zero _ fun _ _ hc => absurd hc List.not_mem_nil)
  have hwrgb : head0.scoreWrgb.countP isSfm = 0 := countP_eq_zero h0.scoreWrgb
  have hdummies : dummies.countP isSfm = 0 := countP_eq_zero (h0.dummyMacs hdummies)
  rw [sfmAt, sfmAt, hget0, hget1]
  simp only [List.countP_append, hwrgb, hdummies, countP_eq_zero hbarrier, hscore0, hscore1,
    hcontext0, hcontext1]
  simp

/-- An iteration on its own emits its softmax. -/
theorem countSfm_emitLast {i : ℕ}
    (hcmds : ∀ it ∈ cmds, it.withoutSfm.Forall fun c => ¬isSfm c = true)
    (hbarrier : ∀ c ∈ barrier, ¬isSfm c = true) (h : g.emitLast a barrier cmds i = .ok out) :
    out.countP isSfm = sfmAt isSfm cmds i := by
  obtain ⟨head, hhead, h⟩ := bind_ok_iff.mp h
  obtain ⟨score, hscore, h⟩ := bind_ok_iff.mp h
  obtain ⟨context, hcontext, h⟩ := bind_ok_iff.mp h
  obtain rfl := Except.ok.inj h
  have hget := index_eq_ok.mp hhead
  have hit := hcmds head (List.mem_of_getElem? hget)
  have hscore : score.countP isSfm = 0 :=
    (countSfm_pipeline hit.scoreRound hit.scoreMvsb hbarrier hscore).trans
      (sum_countP_eq_zero _ fun _ _ hc => absurd hc List.not_mem_nil)
  have hcontext : context.countP isSfm = 0 :=
    (countSfm_pipeline hit.contextRound hit.contextMvsb hbarrier hcontext).trans
      (sum_countP_eq_zero _ fun _ _ hc => absurd hc List.not_mem_nil)
  have hwrgb : head.scoreWrgb.countP isSfm = 0 := countP_eq_zero hit.scoreWrgb
  have hmvgb : head.contextMvgb.countP isSfm = 0 := countP_eq_zero hit.contextMvgb
  rw [sfmAt, hget]
  simp only [List.countP_append, hwrgb, hmvgb, countP_eq_zero hbarrier, hscore, hcontext]
  simp

/-- **A trace holds the softmax commands of every iteration.** -/
theorem countSfm_emit (hcmds : ∀ it ∈ cmds, it.withoutSfm.Forall fun c => ¬isSfm c = true)
    (hbarrier : ∀ c ∈ barrier, ¬isSfm c = true) (h : g.emit a barrier cmds = .ok out) :
    out.countP isSfm = ((List.range a.numItr).map (sfmAt isSfm cmds)).sum := by
  obtain ⟨pairs, hpairs, h⟩ := bind_ok_iff.mp h
  obtain ⟨tail, htail, h⟩ := bind_ok_iff.mp h
  obtain rfl := Except.ok.inj h
  have hpairsCount : pairs.map (List.countP isSfm) = (List.range (a.numItr / 2)).map
      fun p => sfmAt isSfm cmds (2 * p) + sfmAt isSfm cmds (2 * p + 1) :=
    map_eq_map_of_forall₂ (mapM_ok_iff.mp hpairs) (countSfm_emitPair hcmds hbarrier)
  have htailCount : tail.countP isSfm =
      if a.numItr % 2 ≠ 0 then sfmAt isSfm cmds (a.numItr - 1) else 0 := by
    rw [Generator.emitTail] at htail
    split_ifs at htail ⊢
    · exact countSfm_emitLast hcmds hbarrier htail
    · obtain rfl := Except.ok.inj htail
      rfl
  rw [List.countP_append, List.countP_flatten, hpairsCount, htailCount]
  exact sum_range_pairs _ _

end Count

/-- The softmax of a trace. -/
def Command.isSfm (c : Command) : Bool := c.mnemonic = .SFM

/-- Lists that hold softmax commands in `cmd_sfm` only. -/
def SfmApart (cmds : List (Iteration Command)) : Prop :=
  ∀ it ∈ cmds, it.withoutSfm.Forall fun c => ¬c.isSfm = true

section Softmax

variable {g : Generator} {a : Args} {cmds : List (Iteration Command)}

theorem sfmApart_nil : SfmApart [] := fun _ hit => absurd hit List.not_mem_nil

theorem not_isSfm {mnemonic : Mnemonic} (h : mnemonic ≠ .SFM) (addr : ℕ) :
    ¬(⟨mnemonic, addr⟩ : Command).isSfm = true := by
  simpa [Command.isSfm] using h

theorem forall_mem_cpvec {mnemonic : Mnemonic} (h : mnemonic ≠ .SFM) (bases : List ℕ)
    (cols addrOffset validChannel : ℕ) :
    ∀ c ∈ Generator.cpvec mnemonic bases cols addrOffset validChannel, ¬c.isSfm = true := by
  intro c hc
  simp only [Generator.cpvec, List.mem_flatMap, List.mem_map] at hc
  obtain ⟨base, -, colIdx, -, lch, -, rfl⟩ := hc
  exact not_isSfm h _

theorem forall_mem_macRow (hmac : g.mac ≠ .SFM) (addrOffset count validChannel nIdx : ℕ) :
    ∀ c ∈ g.macRow addrOffset count validChannel nIdx, ¬c.isSfm = true := by
  intro c hc
  obtain ⟨kIdx, -, lch, -, rfl⟩ := g.mem_macRow.mp hc
  exact not_isSfm hmac _

theorem forall_mem_mvsb (bases : List ℕ) (addrOffset validChannel : ℕ) :
    ∀ c ∈ Generator.mvsb bases addrOffset validChannel, ¬c.isSfm = true := by
  intro c hc
  simp only [Generator.mvsb, List.mem_flatMap, List.mem_map] at hc
  obtain ⟨base, -, lch, -, rfl⟩ := hc
  exact not_isSfm (by decide) _

/-- `Attention` writes softmax commands to `cmd_sfm` only. -/
theorem withoutSfm_iteration (hmac : g.mac ≠ .SFM) (itr : ℕ) :
    (g.iteration a itr).withoutSfm.Forall fun c => ¬c.isSfm = true where
  scoreWrgb := forall_mem_cpvec (by decide) _ _ _ _
  scoreMac row hrow := by
    obtain ⟨nIdx, -, rfl⟩ := List.mem_map.mp hrow
    exact forall_mem_macRow hmac _ _ _ _
  scoreMvsb group hgroup := by
    obtain ⟨nIdx, -, rfl⟩ := List.mem_map.mp hgroup
    exact forall_mem_mvsb _ _ _
  sfm _ hc := absurd hc List.not_mem_nil
  contextMvgb := forall_mem_cpvec (by decide) _ _ _ _
  contextMac row hrow := by
    obtain ⟨nIdx, -, rfl⟩ := List.mem_map.mp hrow
    exact forall_mem_macRow hmac _ _ _ _
  contextMvsb group hgroup := by
    obtain ⟨nIdx, -, rfl⟩ := List.mem_map.mp hgroup
    exact forall_mem_mvsb _ _ _

theorem forall_append {P : Command → Prop} {it new : Iteration Command} (hit : it.Forall P)
    (hnew : new.Forall P) : (it.append new).Forall P where
  scoreWrgb := List.forall_mem_append.mpr ⟨hit.scoreWrgb, hnew.scoreWrgb⟩
  scoreMac := List.forall_mem_append.mpr ⟨hit.scoreMac, hnew.scoreMac⟩
  scoreMvsb := List.forall_mem_append.mpr ⟨hit.scoreMvsb, hnew.scoreMvsb⟩
  sfm := List.forall_mem_append.mpr ⟨hit.sfm, hnew.sfm⟩
  contextMvgb := List.forall_mem_append.mpr ⟨hit.contextMvgb, hnew.contextMvgb⟩
  contextMac := List.forall_mem_append.mpr ⟨hit.contextMac, hnew.contextMac⟩
  contextMvsb := List.forall_mem_append.mpr ⟨hit.contextMvsb, hnew.contextMvsb⟩

theorem forall_new {P : Command → Prop} (validChannel : ℕ) :
    (Iteration.new validChannel).Forall P where
  scoreWrgb _ hc := absurd hc List.not_mem_nil
  scoreMac _ hc := absurd hc List.not_mem_nil
  scoreMvsb _ hc := absurd hc List.not_mem_nil
  sfm _ hc := absurd hc List.not_mem_nil
  contextMvgb _ hc := absurd hc List.not_mem_nil
  contextMac _ hc := absurd hc List.not_mem_nil
  contextMvsb _ hc := absurd hc List.not_mem_nil

/-- **Softmax commands stay apart.** -/
theorem SfmApart.extend (hmac : g.mac ≠ .SFM) (hcmds : SfmApart cmds) :
    SfmApart (g.extend a cmds) :=
  Generator.forall_mem_extend hcmds (fun _ => forall_new _)
    fun _ itr hit => forall_append hit (withoutSfm_iteration hmac itr)

/-- `Attention` adds softmax commands to those that are there. -/
theorem sfmAt_extend {i : ℕ} (hi : i < a.numItr) : sfmAt Command.isSfm (g.extend a cmds) i =
    sfmAt Command.isSfm cmds i + a.validChannel i := by
  have hlt : i < (g.extend a cmds).length := by
    rw [Generator.length_extend]
    omega
  have hget := List.getElem?_eq_getElem hlt
  obtain ⟨old, hold, hit⟩ := Generator.getElem?_extend hget
  have hsfm : (g.iteration a i).sfm.countP Command.isSfm = a.validChannel i := by
    rw [List.countP_eq_length.mpr]
    · simp [Generator.iteration, Generator.commands]
    · intro c hc
      obtain ⟨lch, -, rfl⟩ := List.mem_map.mp hc
      rfl
  rw [if_pos hi] at hit
  rw [sfmAt, sfmAt, hget, hit]
  rcases hold with hold | ⟨hle, rfl⟩
  · rw [hold]
    simp [Iteration.append, hsfm]
  · rw [List.getElem?_eq_none hle]
    simp [Iteration.append, Iteration.new, hsfm]

/-- Lists that a call has written to. -/
structure Used (cmds : List (Iteration Command)) : Prop where
  sfmApart : SfmApart cmds
  sfm : 0 < sfmAt Command.isSfm cmds 0

/-- A call that serves a head writes to the lists. -/
theorem used_extend (hmac : g.mac ≠ .SFM) (hcmds : SfmApart cmds) (hserved : 0 < a.numItr) :
    Used (g.extend a cmds) := by
  refine ⟨hcmds.extend hmac, ?_⟩
  rw [sfmAt_extend hserved]
  exact Nat.add_pos_right _ (a.validChannel_pos 0)

/-- **On lists that are used a trace has more softmax commands than on empty ones.** -/
theorem emit_ne_of_used (hmac : g.mac ≠ .SFM) (hused : Used cmds) (hserved : 0 < a.numItr)
    {trace trace' : List Command} (h : g.emit a Generator.barrier (g.extend a cmds) = .ok trace)
    (h' : g.emit a Generator.barrier (g.extend a []) = .ok trace') : trace ≠ trace' := by
  rintro rfl
  have hbarrier : ∀ c ∈ Generator.barrier, ¬c.isSfm = true := by decide
  have hcount := countSfm_emit (hused.sfmApart.extend hmac) hbarrier h
  have hcount' := countSfm_emit (sfmApart_nil.extend hmac) hbarrier h'
  have hmore : ((List.range a.numItr).map (sfmAt Command.isSfm (g.extend a []))).sum <
      ((List.range a.numItr).map (sfmAt Command.isSfm (g.extend a cmds))).sum := by
    refine List.sum_lt_sum _ _ ?_ ⟨0, List.mem_range.mpr hserved, ?_⟩
    · intro i hi
      have hlt := List.mem_range.mp hi
      rw [sfmAt_extend hlt, sfmAt_extend hlt]
      exact Nat.add_le_add_right (Nat.zero_le _) _
    · rw [sfmAt_extend hserved, sfmAt_extend hserved]
      exact Nat.add_lt_add_right hused.sfm _
  rw [← hcount, ← hcount'] at hmore
  exact absurd hmore (lt_irrefl _)

end Softmax

/-! ## Calls that write no trace -/

section Cold

variable {g : Generator} {a : Args} {cmds : List (Iteration Command)}

/-- An index without a MAC. -/
def Cold (it : Iteration Command) : Prop := 0 < it.validChannel ∧ ∀ row ∈ it.scoreMac, row = []

/-- A call without tokens, or with empty heads, adds no MAC. -/
theorem cold_extend (hempty : g.seqRows a = 0 ∨ g.headCols a = 0) (hcold : ∀ it ∈ cmds, Cold it) :
    ∀ it ∈ g.extend a cmds, Cold it := by
  refine Generator.forall_mem_extend hcold ?_ ?_
  · exact fun itr => ⟨a.validChannel_pos itr, fun row hrow => absurd hrow List.not_mem_nil⟩
  · refine fun it itr hit => ⟨hit.1, List.forall_mem_append.mpr ⟨hit.2, ?_⟩⟩
    intro row hrow
    obtain ⟨nIdx, hnIdx, rfl⟩ := List.mem_map.mp hrow
    rcases hempty with hrows | hcols
    · rw [hrows] at hnIdx
      exact absurd hnIdx List.not_mem_nil
    · simp [Generator.macRow, hcols]

/-- **Without a MAC to warm up with a pair writes no trace.** -/
theorem emit_of_cold (hcold : ∀ it ∈ cmds, Cold it) (hpair : 1 < a.numItr) :
    (g.emit a Generator.barrier cmds).toOption = none := by
  rcases hemit : g.emit a Generator.barrier cmds with e | trace
  · rfl
  · obtain ⟨pair, hfirst⟩ := exists_firstPair hpair hemit
    obtain ⟨it, hget, hfirst⟩ := exists_firstMac hfirst
    obtain ⟨hchannel, hrows⟩ := hcold it (List.mem_of_getElem? hget)
    obtain ⟨row, hrow, c, hc⟩ := hfirst hchannel
    rw [hrows row (List.mem_of_getElem? hrow)] at hc
    cases hc

/-- The lists of a call after those of another are no shorter than its own. -/
theorem Covers.append {new : Iteration Command} (hnew : Covers g a new) (it : Iteration Command) :
    Covers g a (it.append new) where
  scoreMvsb := hnew.scoreMvsb.trans (by simp [Iteration.append])
  contextMac := hnew.contextMac.trans (by simp [Iteration.append])
  contextMvsb := hnew.contextMvsb.trans (by simp [Iteration.append])

/-- A first row of MACs stays the first. -/
theorem Warm.append {it : Iteration Command} (hit : Warm it) (new : Iteration Command) :
    Warm (it.append new) := by
  obtain ⟨row, hrow, hle⟩ := hit
  refine ⟨row, ?_, hle⟩
  rw [Iteration.append, List.getElem?_append_left (List.getElem?_eq_some_iff.mp hrow).1]
  exact hrow

/-- **A call warms up with what another has left.** -/
theorem exists_emit_of_warm (hwarm : ∃ it, cmds[0]? = some it ∧ Warm it) :
    ∃ trace, g.emit a Generator.barrier (g.extend a cmds) = .ok trace := by
  obtain ⟨it, hget, hwarm⟩ := hwarm
  refine exists_emit ?_ ?_ ?_
  · rw [Generator.length_extend]
    omega
  · intro i hi it' hit'
    obtain ⟨old, -, rfl⟩ := Generator.getElem?_extend hit'
    rw [if_pos hi]
    exact (covers_iteration i).append old
  · intro hpair it' hit'
    obtain ⟨old, hold, rfl⟩ := Generator.getElem?_extend hit'
    rw [if_pos (by omega)]
    rcases hold with hold | ⟨hle, -⟩
    · obtain rfl := Option.some.inj (hget.symm.trans hold)
      exact hwarm.append _
    · exact absurd (List.getElem?_eq_some_iff.mp hget).1 (Nat.not_lt.mpr hle)

end Cold

/-! ## Runs -/

namespace Generator

variable {g : Generator} {p : Process} {cmds : List (Iteration Command)} {c : Call}

theorem numItr_pos_iff {a : Args} : 0 < a.numItr ↔ 0 < a.nHeadPerHbm := by
  have hle : a.numItr ≤ 0 ↔ a.nHeadPerHbm ≤ nChannel * 0 := ceilDiv_le_iff_le_mul (by decide)
  rw [Nat.mul_zero] at hle
  omega

/-- A call that serves no head writes an empty trace, and leaves the lists alone. -/
theorem call_of_zero (h : c.nHeadPerHbm = 0) : g.call p cmds c = (some [], cmds) := by
  have hitr : (p.args c).numItr = 0 := by
    have hpos : 0 < (p.args c).numItr ↔ 0 < c.nHeadPerHbm := numItr_pos_iff
    omega
  have hgenerate : g.generate (p.args c) cmds = .ok cmds := by
    rw [generate, hitr]
    rfl
  have hemit : g.emit (p.args c) barrier cmds = .ok [] := by
    rw [emit, emitTail, hitr]
    rfl
  rw [call, hgenerate]
  exact congrArg (fun trace => (trace.toOption, cmds)) hemit

/-- A call that does serve one divides by `n_mac`. -/
theorem call_of_nMac_eq_zero (hmac : p.nMac = 0) (hserved : 0 < c.nHeadPerHbm) :
    (g.call p cmds c).1 = none := by
  have hitr : 0 < (p.args c).numItr := numItr_pos_iff.mpr hserved
  obtain ⟨n, hn⟩ := Nat.exists_eq_succ_of_ne_zero hitr.ne'
  have hgenerate : g.generate (p.args c) cmds = .error .zeroDivision := by
    rw [generate, hn, List.range_succ_eq_map, List.foldlM_cons, attention]
    rw [if_pos (show (p.args c).nMac = 0 from hmac)]
    rfl
  rw [call, hgenerate]

/-- When a call writes no trace in a fresh process. -/
theorem fresh_eq_none_iff (hmac : 0 < p.nMac) :
    g.fresh p c = none ↔ nChannel < c.nHeadPerHbm ∧ (p.dhead = 0 ∨ c.L = 0) := by
  have hrun : (∃ cmds trace, g.runAttention (p.args c) [] = .ok (cmds, trace)) ↔
      (p.args c).numItr ≤ 1 ∨ 0 < g.seqRows (p.args c) ∧ 0 < g.headCols (p.args c) :=
    exists_run_iff hmac
  have hpair : nChannel < c.nHeadPerHbm ↔ 1 < (p.args c).numItr := lt_numItr_iff (a := p.args c)
  have hrows : 0 < g.seqRows (p.args c) ↔ 0 < c.L := seqRows_pos_iff
  have hcols : 0 < g.headCols (p.args c) ↔ 0 < p.dhead := headCols_pos_iff hmac
  have hnone : g.fresh p c = none ↔
      ¬∃ cmds trace, g.runAttention (p.args c) [] = .ok (cmds, trace) := by
    rw [fresh, call_fst]
    rcases g.runAttention (p.args c) [] with e | ⟨cmds, trace⟩
    · simp [Except.toOption]
    · simp [Except.toOption]
  rw [hnone, hrun, hrows, hcols, hpair]
  omega

/-- **A call without MACs, on lists without MACs**, writes no trace and leaves none. -/
theorem call_of_cold (hmac : 0 < p.nMac) (hpair : nChannel < c.nHeadPerHbm)
    (hempty : p.dhead = 0 ∨ c.L = 0) (hcold : ∀ it ∈ cmds, Cold it) :
    (g.call p cmds c).1 = none ∧ ∀ it ∈ (g.call p cmds c).2, Cold it := by
  have hrows : 0 < g.seqRows (p.args c) ↔ 0 < c.L := seqRows_pos_iff
  have hcols : 0 < g.headCols (p.args c) ↔ 0 < p.dhead := headCols_pos_iff hmac
  have hnone : g.seqRows (p.args c) = 0 ∨ g.headCols (p.args c) = 0 := by omega
  have hcold := cold_extend hnone hcold
  rw [call_eq hmac]
  exact ⟨emit_of_cold hcold ((lt_numItr_iff (a := p.args c)).mp hpair), hcold⟩

/-- **A call on used lists is told from a fresh one by its trace**, if it writes one. -/
theorem fresh_eq_none_of_used (hsfm : g.mac ≠ .SFM) (hmac : 0 < p.nMac) (hused : Used cmds)
    (hserved : 0 < c.nHeadPerHbm) (hsame : (g.call p cmds c).1 = g.fresh p c) :
    g.fresh p c = none := by
  have hitr : 0 < (p.args c).numItr := numItr_pos_iff.mpr hserved
  rw [fresh, call_eq hmac] at hsame ⊢
  rw [call_eq hmac] at hsame
  rcases hfresh : g.emit (p.args c) barrier (g.extend (p.args c) []) with e | trace'
  · rfl
  · rcases hcall : g.emit (p.args c) barrier (g.extend (p.args c) cmds) with e | trace
    · rw [hfresh, hcall] at hsame
      cases hsame
    · rw [hfresh, hcall] at hsame
      exact absurd (Option.some.inj hsame) (emit_ne_of_used hsfm hused hitr hcall hfresh)

/-- The lists of a first call that has MACs are warm. -/
theorem exists_warm (hmac : 0 < p.nMac) (hserved : 0 < c.nHeadPerHbm) (hdhead : 0 < p.dhead)
    (hL : 0 < c.L) : ∃ it, (g.extend (p.args c) [])[0]? = some it ∧ Warm it := by
  have hpos : 0 < (p.args c).nMac := hmac
  have hextend : g.extend (p.args c) [] =
      (List.range (p.args c).numItr).map (g.iteration (p.args c)) :=
    Except.ok.inj ((generate_eq hpos).symm.trans (generate_of_pos hpos))
  have hitr : 0 < (p.args c).numItr := numItr_pos_iff.mpr hserved
  refine ⟨g.iteration (p.args c) 0, ?_, ?_⟩
  · rw [hextend, List.getElem?_map, List.getElem?_range hitr]
    rfl
  · exact warm_iteration (seqRows_pos_iff.mpr hL) ((headCols_pos_iff hpos).mpr hdhead) 0

/-- Calls that serve no head do not matter. -/
theorem stateless_iff_served (calls : List Call) : g.Stateless p calls ↔
    answers (g.call p) [] (served calls) = (served calls).map (g.fresh p) := by
  refine answers_eq_map_filter_iff fun cmds c hc => ?_
  have hzero : c.nHeadPerHbm = 0 := by simpa using hc
  rw [fresh, call_of_zero hzero, call_of_zero hzero]

/-- A process that cannot write a trace is stateless. -/
theorem stateless_of_nMac_eq_zero (hmac : p.nMac = 0) (calls : List Call) :
    g.Stateless p calls := by
  refine (stateless_iff_served calls).mpr (answers_eq_map (I := fun _ => True) ?_ trivial)
  intro cmds _ c hc
  have hserved : 0 < c.nHeadPerHbm := by simpa [served] using (List.mem_filter.mp hc).2
  rw [fresh, call_of_nMac_eq_zero hmac hserved, call_of_nMac_eq_zero hmac hserved]
  exact ⟨rfl, trivial⟩

/-- **Calls that write no trace in any case** do not tell that others came before them. -/
theorem stateless_of_unobservable (hmac : 0 < p.nMac) {calls : List Call}
    (h : Unobservable p calls) : g.Stateless p calls := by
  rw [stateless_iff_served]
  rw [Unobservable] at h
  rcases hcalls : served calls with _ | ⟨first, later⟩
  · rfl
  · rw [hcalls] at h
    rw [answers, List.map_cons]
    refine congrArg₂ List.cons rfl ?_
    rcases later with _ | ⟨second, later⟩
    · rfl
    · have hempty : p.dhead = 0 ∨ first.L = 0 :=
        (h second List.mem_cons_self).2.imp_right And.right
      have hrows : 0 < g.seqRows (p.args first) ↔ 0 < first.L := seqRows_pos_iff
      have hcols : 0 < g.headCols (p.args first) ↔ 0 < p.dhead := headCols_pos_iff hmac
      have hnone : g.seqRows (p.args first) = 0 ∨ g.headCols (p.args first) = 0 := by omega
      refine answers_eq_map (I := fun cmds => ∀ it ∈ cmds, Cold it) ?_ ?_
      · intro cmds hcold c hc
        obtain ⟨hpair, hc⟩ := h c hc
        obtain ⟨hcall, hcold⟩ := call_of_cold (g := g) hmac hpair (hc.imp_right And.left) hcold
        have hfresh : (g.call p [] c).1 = none := (call_of_cold hmac hpair (hc.imp_right And.left)
          fun it hit => absurd hit List.not_mem_nil).1
        exact ⟨hcall.trans hfresh.symm, hcold⟩
      · rw [call_eq hmac]
        exact cold_extend hnone fun it hit => absurd hit List.not_mem_nil

/-- **In a stateless run the later calls write no trace.** -/
theorem unobservable_of_stateless (hsfm : g.mac ≠ .SFM) (hmac : 0 < p.nMac) {calls : List Call}
    (h : g.Stateless p calls) : Unobservable p calls := by
  rw [stateless_iff_served] at h
  rw [Unobservable]
  rcases hcalls : served calls with _ | ⟨first, later⟩
  · trivial
  · have hserved : ∀ c ∈ first :: later, 0 < c.nHeadPerHbm := by
      intro c hc
      rw [← hcalls] at hc
      simpa [served] using (List.mem_filter.mp hc).2
    obtain ⟨hfirst, hlaterServed⟩ := List.forall_mem_cons.mp hserved
    rw [hcalls, answers, call_eq hmac, List.map_cons] at h
    have hlater := (List.cons.inj h).2
    have hused : ∀ cmds, Used cmds → ∀ c ∈ later, Used (g.call p cmds c).2 := by
      intro cmds hused c hc
      rw [call_eq hmac]
      exact used_extend hsfm hused.sfmApart (numItr_pos_iff.mpr (hlaterServed c hc))
    have hnone : ∀ c ∈ later, g.fresh p c = none := by
      intro c hc
      obtain ⟨cmds, hcmds, hsame⟩ := exists_of_answers_eq_map hused
        (used_extend hsfm sfmApart_nil (numItr_pos_iff.mpr hfirst)) hlater c hc
      exact fresh_eq_none_of_used hsfm hmac hcmds (hlaterServed c hc) hsame
    have hwithout : ∀ c ∈ later, p.dhead = 0 ∨ first.L = 0 := by
      intro c hc
      by_contra hmacs
      obtain ⟨second, rest, rfl⟩ := List.exists_cons_of_ne_nil (List.ne_nil_of_mem hc)
      -- the second call warms up with the MACs of the first, in a fresh process it cannot
      have hwarm := exists_warm (g := g) hmac hfirst (by omega) (by omega)
      obtain ⟨trace, htrace⟩ := exists_emit_of_warm (a := p.args second) hwarm
      rw [answers, call_eq hmac, List.map_cons, hnone second List.mem_cons_self, htrace] at hlater
      cases (List.cons.inj hlater).1
    intro c hc
    obtain ⟨hpair, hempty⟩ := (fresh_eq_none_iff hmac).mp (hnone c hc)
    refine ⟨hpair, ?_⟩
    have hfirstEmpty := hwithout c hc
    omega

/-- **Trace generation is stateless exactly when it cannot be observed**: for each of the three
generators, all globals and all lists of calls. -/
theorem stateless_iff (hg : g ∈ [bank, bg, buffer]) (p : Process) (calls : List Call) :
    g.Stateless p calls ↔ p.nMac = 0 ∨ Unobservable p calls := by
  have hsfm : g.mac ≠ .SFM := by
    simp only [List.mem_cons, List.not_mem_nil, or_false] at hg
    rcases hg with rfl | rfl | rfl
    · decide
    · decide
    · decide
  rcases Nat.eq_zero_or_pos p.nMac with hmac | hmac
  · exact ⟨fun _ => .inl hmac, fun _ => stateless_of_nMac_eq_zero hmac calls⟩
  · refine ⟨fun h => .inr (unobservable_of_stateless hsfm hmac h), ?_⟩
    rintro (hzero | h)
    · exact absurd hzero hmac.ne'
    · exact stateless_of_unobservable hmac h

/-- The globals of a process for short sequences. -/
def shortProcess : Process := ⟨128, 2048, 16⟩

/-- One call that serves a head is as good as in a fresh process. -/
theorem stateless_one : bank.Stateless shortProcess [⟨0, 16⟩, ⟨17, 16⟩] :=
  (stateless_iff (by simp) shortProcess _).mpr (.inr fun _ hc => absurd hc List.not_mem_nil)

/-- The second of two equal calls writes the commands of the first again. -/
theorem not_stateless_twice : ¬bank.Stateless shortProcess [⟨1, 16⟩, ⟨1, 16⟩] := by
  intro h
  have hlater : ∀ c ∈ [(⟨1, 16⟩ : Call)], nChannel < c.nHeadPerHbm ∧ _ :=
    unobservable_of_stateless (by decide) (by decide) h
  exact absurd (hlater ⟨1, 16⟩ List.mem_cons_self).1 (by decide)

end Generator

end AttAcc.Trace
