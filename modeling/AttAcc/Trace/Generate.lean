import AttAcc.Library.Except
import AttAcc.Library.List
import AttAcc.Types

/-!
# Generating the commands of an attention

The first half of the three trace generators (`gen_trace_attacc_bank.py`, `_bg.py` and
`_buffer.py`): `Attention` generates the commands of one iteration, which serves one head
on each of up to 16 channels, and `run_attention` calls it for all heads of an HBM.

The generators differ in where the MAC units sit, hence in how `L` and `dhead` are split
and in what the address of a column is. A `Generator` holds these differences.
-/

namespace AttAcc.Trace

open Library

/-! ## The memory space -/

def nChannel : ℕ := 16
def nPch : ℕ := 2
def nRank : ℕ := 2
def nBank : ℕ := 4
def nBg : ℕ := 4
def nRow : ℕ := 2 ^ 14
def nCol : ℕ := 2 ^ 5
/-- In bytes. -/
def prefetchSize : ℕ := 32

/-! `HBM_GS`: how many bytes apart neighbours of a level are. -/

namespace HbmGs

def col : ℕ := prefetchSize
def row : ℕ := nCol * col
def ba : ℕ := nRow * row
def bg : ℕ := nBank * ba
def rank : ℕ := nBg * bg
def pch : ℕ := nRank * rank
def ch : ℕ := nPch * pch

end HbmGs

/-! ## Commands -/

/-- The mnemonics of a trace line, `PIM_` left out. -/
inductive Mnemonic where
  | WR_GB
  | MAC_AB
  | MAC_SB
  | MAC_PB
  | MV_SB
  | MV_GB
  | SFM
  | BARRIER
  deriving DecidableEq, Repr

/-- A line of a trace. -/
structure Command where
  mnemonic : Mnemonic
  addr : ℕ
  deriving DecidableEq, Repr

/-- The commands that one call of `Attention` generates, and its `valid_channel`: what
the module-level lists `cmd_score_wrgb`, …, `cmd_context_mvsb` and `valid_channels` hold
at one index. A MAC list is a list of rows, a score or context MVSB list a list of groups. -/
structure Iteration (α : Type*) where
  scoreWrgb : List α := []
  scoreMac : List (List α) := []
  scoreMvsb : List (List α) := []
  sfm : List α := []
  contextMvgb : List α := []
  contextMac : List (List α) := []
  contextMvsb : List (List α) := []
  validChannel : ℕ

/-- A new index: `valid_channel`, and no commands yet. -/
def Iteration.new {α : Type*} (validChannel : ℕ) : Iteration α where
  validChannel := validChannel

/-- The commands of one call after those of an earlier one, at the same index. -/
def Iteration.append {α : Type*} (it new : Iteration α) : Iteration α where
  scoreWrgb := it.scoreWrgb ++ new.scoreWrgb
  scoreMac := it.scoreMac ++ new.scoreMac
  scoreMvsb := it.scoreMvsb ++ new.scoreMvsb
  sfm := it.sfm ++ new.sfm
  contextMvgb := it.contextMvgb ++ new.contextMvgb
  contextMac := it.contextMac ++ new.contextMac
  contextMvsb := it.contextMvsb ++ new.contextMvsb
  validChannel := it.validChannel

/-! ## The generators -/

/-- Where the MAC units sit: what the three generators do differently. -/
structure Generator where
  /-- The mnemonic of a MAC. -/
  mac : Mnemonic
  /-- Over how many parallel units `L` is split. -/
  units : ℕ
  /-- Over how many banks `dhead` is split. -/
  lanes : ℕ
  /-- The base addresses that vectors are copied to and results are moved from. -/
  scoreCpvecBases : List ℕ
  scoreMvsbBases : List ℕ
  contextCpvecBases : List ℕ
  contextMvsbBases : List ℕ
  /-- The address of a column of an operand, by its index. -/
  macOffset : ℕ → ℕ
  units_pos : 0 < units
  lanes_pos : 0 < lanes

/-- The base addresses of the bank groups, rank by rank. -/
def rankBgBases : List ℕ :=
  (List.range nRank).flatMap fun rank =>
    (List.range nBg).map fun bgIdx => rank * HbmGs.rank + bgIdx * HbmGs.bg

/-- The base addresses of the bank groups, bank group by bank group. -/
def bgRankBases : List ℕ :=
  (List.range nBg).flatMap fun bgIdx =>
    (List.range nRank).map fun rank => rank * HbmGs.rank + bgIdx * HbmGs.bg

/-- `gen_trace_attacc_bank.py`: every bank computes on the same column of its own. -/
def bank : Generator where
  mac := .MAC_AB
  units := nPch * nRank * nBg
  lanes := nBank
  scoreCpvecBases := (List.range nBank).map fun baIdx => baIdx * HbmGs.ba
  scoreMvsbBases := bgRankBases
  contextCpvecBases := rankBgBases
  contextMvsbBases := (List.range nBank).flatMap fun baIdx =>
    (List.range nRank).map fun rank => rank * HbmGs.rank + baIdx * HbmGs.ba
  macOffset idx := idx * HbmGs.col
  units_pos := by decide
  lanes_pos := by decide

/-- `gen_trace_attacc_bg.py`: a bank group computes on one of its banks at a time. -/
def bg : Generator where
  mac := .MAC_SB
  units := nPch * nRank * nBg
  lanes := 1
  scoreCpvecBases := [0]
  scoreMvsbBases := bgRankBases
  contextCpvecBases := rankBgBases
  contextMvsbBases := (List.range nRank).map fun rank => rank * HbmGs.rank
  macOffset idx :=
    let colIdx := idx % (HbmGs.row / HbmGs.col)
    let numCols := idx / (HbmGs.row / HbmGs.col)
    let bankIdx := numCols % nBank
    let rowIdx := numCols / nBank
    bankIdx * HbmGs.ba + rowIdx * HbmGs.row + colIdx * HbmGs.col
  units_pos := by decide
  lanes_pos := by decide

/-- `gen_trace_attacc_buffer.py`: the logic die computes on one bank at a time. -/
def buffer : Generator where
  mac := .MAC_PB
  units := nPch
  lanes := 1
  scoreCpvecBases := [0]
  scoreMvsbBases := [0]
  contextCpvecBases := [0]
  contextMvsbBases := [0]
  macOffset idx :=
    let bgIdx := idx % (nBg * nRank)
    let numBgIndices := idx / (nBg * nRank)
    let bankIdx := numBgIndices % nBank
    let numBankIndices := numBgIndices / nBank
    let colIdx := numBankIndices % (HbmGs.row / HbmGs.col)
    let rowIdx := numBankIndices / (HbmGs.row / HbmGs.col)
    bgIdx * HbmGs.bg + bankIdx * HbmGs.ba + rowIdx * HbmGs.row + colIdx * HbmGs.col
  units_pos := by decide
  lanes_pos := by decide

/-- The arguments of a generator: the globals `dhead`, `max_L` and `n_mac`, and `L` and
`n_head_per_hbm`. -/
structure Args where
  dhead : ℕ
  maxL : ℕ
  nMac : ℕ
  L : ℕ
  nHeadPerHbm : ℕ

namespace Generator

variable (g : Generator) (a : Args)

/-- How many rows of keys a unit holds, `ceil(L / units)`. -/
def seqRows : ℕ := a.L ⌈/⌉ g.units

/-- How many columns a head takes, `ceil(dhead / (lanes * n_mac))`. -/
def headCols : ℕ := a.dhead ⌈/⌉ (g.lanes * a.nMac)

/-- How many columns the score vector of a unit takes, `ceil(L / (units * n_mac))`. -/
def scoreCols : ℕ := a.L ⌈/⌉ (g.units * a.nMac)

/-- A vector copied to the GEMV buffers: `score_cpvec` and `context_cpvec`. -/
def cpvec (mnemonic : Mnemonic) (bases : List ℕ) (cols addrOffset validChannel : ℕ) :
    List Command :=
  bases.flatMap fun base => (List.range cols).flatMap fun colIdx =>
    (List.range validChannel).map fun lch =>
      ⟨mnemonic, addrOffset + lch * HbmGs.ch + base + colIdx⟩

/-- The MACs of row `nIdx` of an operand with `count` columns in a row. -/
def macRow (addrOffset count validChannel nIdx : ℕ) : List Command :=
  (List.range count).flatMap fun kIdx => (List.range validChannel).map fun lch =>
    ⟨g.mac, addrOffset + lch * HbmGs.ch + g.macOffset (kIdx + nIdx * count)⟩

theorem mem_macRow {addrOffset count validChannel nIdx : ℕ} {c : Command} :
    c ∈ g.macRow addrOffset count validChannel nIdx ↔ ∃ kIdx < count, ∃ lch < validChannel,
      ⟨g.mac, addrOffset + lch * HbmGs.ch + g.macOffset (kIdx + nIdx * count)⟩ = c := by
  simp [macRow]

/-- A group of moves to the softmax buffer. -/
def mvsb (bases : List ℕ) (addrOffset validChannel : ℕ) : List Command :=
  bases.flatMap fun base => (List.range validChannel).map fun lch =>
    ⟨.MV_SB, addrOffset + lch * HbmGs.ch + base⟩

/-- The rows of `score_mac` that are followed by a group of moves. -/
def drainRows : List ℕ :=
  (List.range (g.seqRows a)).filter fun nIdx => nIdx % 16 = 15 ∨ nIdx + 1 = g.seqRows a

/-- The commands of `Attention` for one iteration. -/
def commands (keyAddr valAddr validChannel : ℕ) : Iteration Command where
  scoreWrgb := cpvec .WR_GB g.scoreCpvecBases (g.headCols a) keyAddr validChannel
  scoreMac := (List.range (g.seqRows a)).map (g.macRow keyAddr (g.headCols a) validChannel)
  scoreMvsb := (g.drainRows a).map fun _ => mvsb g.scoreMvsbBases keyAddr validChannel
  sfm := (List.range validChannel).map fun lch => ⟨.SFM, lch * HbmGs.ch⟩
  contextMvgb := cpvec .MV_GB g.contextCpvecBases (g.scoreCols a) valAddr validChannel
  contextMac := (List.range (g.headCols a)).map (g.macRow valAddr (g.seqRows a) validChannel)
  contextMvsb := (List.range (g.headCols a)).map fun _ =>
    mvsb g.contextMvsbBases valAddr validChannel
  validChannel := validChannel

/-- `Attention`: it opens a new index at the end of every list, and appends its commands
at index `itr`. The first thing it computes divides by `n_mac`. -/
def attention (keyAddr valAddr itr validChannel : ℕ) (cmds : List (Iteration Command)) :
    Except PyError (List (Iteration Command)) :=
  if a.nMac = 0 then .error .zeroDivision
  else
    .ok ((cmds ++ [Iteration.new validChannel]).modify itr fun it =>
      it.append (g.commands a keyAddr valAddr validChannel))

end Generator

namespace Args

variable (a : Args)

/-- `partition_size`. -/
def partitionSize : ℕ := (a.maxL * a.dhead) ⌈/⌉ (nPch * nRank * nBg * nBank)

/-- `v_offset`. -/
def vOffset : ℕ := 2 ^ 23

/-- `num_itr`. -/
def numItr : ℕ := a.nHeadPerHbm ⌈/⌉ nChannel

/-- `key_addr`. -/
def keyAddr (itr : ℕ) : ℕ := itr * a.partitionSize

/-- `val_addr`. -/
def valAddr (itr : ℕ) : ℕ := a.keyAddr itr + vOffset

/-- `remainder`: zero where every channel has a head. -/
def remainder (itr : ℕ) : ℕ :=
  if a.nHeadPerHbm < (itr + 1) * nChannel then a.nHeadPerHbm % nChannel else 0

/-- The `valid_channel` of an iteration. -/
def validChannel (itr : ℕ) : ℕ :=
  if a.remainder itr = 0 then nChannel else a.remainder itr

/-- Every iteration serves a head. -/
theorem validChannel_pos (itr : ℕ) : 0 < a.validChannel itr := by
  rw [validChannel]
  split_ifs with hrest
  · decide
  · exact Nat.pos_of_ne_zero hrest

variable {a}

/-- The iterations are as many as it takes to serve all heads. -/
theorem numItr_le_iff {n : ℕ} : a.numItr ≤ n ↔ a.nHeadPerHbm ≤ n * 16 := by
  rw [mul_comm]
  exact ceilDiv_le_iff_le_mul (by decide : 0 < nChannel)

/-- All iterations but the last serve every channel. -/
theorem validChannel_of_succ_lt {itr : ℕ} (h : itr + 1 < a.numItr) :
    a.validChannel itr = nChannel := by
  have hheads : (itr + 1) * 16 < a.nHeadPerHbm := by
    by_contra hle
    exact absurd (numItr_le_iff.mpr (not_lt.mp hle)) (not_le.mpr h)
  have hrest : a.remainder itr = 0 := if_neg (not_lt.mpr hheads.le)
  rw [validChannel, if_pos hrest]

/-- The last iteration serves the heads that are left. -/
theorem validChannel_last {last : ℕ} (h : a.numItr = last + 1) :
    last * 16 + a.validChannel last = a.nHeadPerHbm ∧ a.validChannel last ≤ nChannel := by
  have hle : a.nHeadPerHbm ≤ (last + 1) * 16 := numItr_le_iff.mp h.le
  have hlt : last * 16 < a.nHeadPerHbm := by
    by_contra hle
    have hfewer := numItr_le_iff.mpr (not_lt.mp hle)
    omega
  rw [validChannel, remainder, nChannel]
  split_ifs
  · omega
  · omega
  · omega
  · omega

end Args

namespace Generator

variable (g : Generator) (a : Args)

/-- `cmd_list_reset`: the assignments bind local names, the lists of the module stay as
they are. -/
def cmdListReset (cmds : List (Iteration Command)) : List (Iteration Command) := cmds

/-- The commands of iteration `itr`. -/
def iteration (itr : ℕ) : Iteration Command :=
  g.commands a (a.keyAddr itr) (a.valAddr itr) (a.validChannel itr)

/-- The loop that generates the commands, on the lists of the module. -/
def generate (cmds : List (Iteration Command)) : Except PyError (List (Iteration Command)) :=
  (List.range a.numItr).foldlM
    (fun cmds itr => g.attention a (a.keyAddr itr) (a.valAddr itr) itr (a.validChannel itr) cmds)
    (cmdListReset cmds)

variable {g a}

/-- On lists that end before index `itr`, `Attention` adds its commands as a new index. -/
theorem attention_eq_ok {keyAddr valAddr itr validChannel : ℕ}
    {cmds cmds' : List (Iteration Command)} (hitr : cmds.length = itr) :
    g.attention a keyAddr valAddr itr validChannel cmds = .ok cmds' ↔
      0 < a.nMac ∧ cmds' = cmds ++ [g.commands a keyAddr valAddr validChannel] := by
  subst hitr
  rw [attention]
  rcases Nat.eq_zero_or_pos a.nMac with hmac | hmac
  · rw [if_pos hmac, hmac]
    simp
  · have hmodify : (cmds ++ [Iteration.new validChannel]).modify cmds.length
        (fun it => it.append (g.commands a keyAddr valAddr validChannel)) =
        cmds ++ [g.commands a keyAddr valAddr validChannel] := by
      rw [modify_concat]
      rfl
    rw [if_neg hmac.ne', hmodify, Except.ok.injEq, eq_comm]
    exact (and_iff_right hmac).symm

/-- **In a fresh process index `itr` holds the commands of iteration `itr`.** -/
theorem generate_eq_ok {cmds : List (Iteration Command)} (h : g.generate a [] = .ok cmds) :
    cmds = (List.range a.numItr).map (g.iteration a) ∧ (0 < a.numItr → 0 < a.nMac) := by
  unfold generate cmdListReset at h
  generalize a.numItr = n at h ⊢
  induction n generalizing cmds with
  | zero =>
    obtain rfl := Except.ok.inj h
    exact ⟨rfl, fun h => absurd h (lt_irrefl 0)⟩
  | succ n ih =>
    rw [List.range_succ, List.foldlM_append] at h
    obtain ⟨cmds', hcmds', h⟩ := bind_ok_iff.mp h
    obtain ⟨hprev, -⟩ := ih hcmds'
    have hlength : cmds'.length = n := by rw [hprev, List.length_map, List.length_range]
    obtain ⟨cmds'', hcmds'', hlast⟩ := bind_ok_iff.mp h
    obtain rfl := Except.ok.inj hlast
    obtain ⟨hmac, rfl⟩ := (attention_eq_ok hlength).mp hcmds''
    refine ⟨?_, fun _ => hmac⟩
    rw [List.range_succ, List.map_append, ← hprev]
    rfl

/-- With a positive `n_mac` the commands are generated. -/
theorem generate_of_pos (hmac : 0 < a.nMac) :
    g.generate a [] = .ok ((List.range a.numItr).map (g.iteration a)) := by
  rw [generate, cmdListReset]
  generalize a.numItr = n
  induction n with
  | zero => rfl
  | succ n ih =>
    rw [List.range_succ, List.foldlM_append, ih, List.map_append]
    have hlength : ((List.range n).map (g.iteration a)).length = n := by
      rw [List.length_map, List.length_range]
    have hlast : g.attention a (a.keyAddr n) (a.valAddr n) n (a.validChannel n)
        ((List.range n).map (g.iteration a)) =
        .ok ((List.range n).map (g.iteration a) ++ [g.iteration a n]) :=
      (attention_eq_ok hlength).mpr ⟨hmac, rfl⟩
    exact bind_ok_iff.mpr ⟨_, rfl, bind_ok_iff.mpr ⟨_, hlast, rfl⟩⟩

end Generator

end AttAcc.Trace
