import AttAcc.Memory.Bandwidth
import AttAcc.Trace.Statistics

/-!
# What the wrapper gets from a simulation

`run_ramulator` generates a trace, lets the simulator run on it, and reads the counters from its
output. Put together, the parts of this make one function of the arguments, but for the cycles:
what is read is what the generator wrote, by kind, and the cycles are enough for the MACs at the
rate that the timings allow (`generated_answer`).
-/

namespace AttAcc.Trace

open Dram (TimingCons TimingVals timingcons)

/-! ## Counting lines -/

/-- How often a trace has a mnemonic. -/
def numberOf (m : Mnemonic) (trace : List Command) : ℕ :=
  trace.countP fun c => decide (c.mnemonic = m)

/-- The counter of a mnemonic. -/
def Mnemonic.stat (m : Mnemonic) : Option Stat := (requestType m.reqType).bind Trace.stat

/-- Each counter is for one mnemonic. -/
theorem Mnemonic.eq_of_stat {m m' : Mnemonic} {st : Stat} (hm : m.stat = some st)
    (hm' : m'.stat = some st) : m' = m := by
  cases m <;> cases m' <;> first | rfl | (cases hm <;> cases hm')

/-- The lines of a trace that are for a counter. -/
theorem countP_entries {m : Mnemonic} {st : Stat} (hm : m.stat = some st) (trace : List Command) :
    (trace.map Command.entry).countP (fun t => decide (t.stat = some st)) = numberOf m trace := by
  rw [List.countP_map, numberOf]
  refine List.countP_congr fun c _ => ?_
  rw [Function.comp_apply, decide_eq_true_eq, decide_eq_true_eq]
  refine ⟨fun hstat => Mnemonic.eq_of_stat hm hstat, ?_⟩
  rintro rfl
  exact hm

theorem numberOf_le (m : Mnemonic) (trace : List Command) : numberOf m trace ≤ trace.length :=
  List.countP_le_length

/-- MACs of all kinds. -/
theorem numberOf_macs (trace : List Command) :
    numberOf .MAC_AB trace + numberOf .MAC_SB trace + numberOf .MAC_PB trace =
      trace.countP Command.isMac := by
  induction trace with
  | nil => rfl
  | cons c rest ih =>
    simp only [numberOf, List.countP_cons] at ih ⊢
    rw [← ih, Command.isMac]
    cases c.mnemonic <;> simp <;> omega

namespace Level

variable {l : Level}

/-- The constraint that keeps the MACs of a generator apart. -/
def macCons (v : TimingVals) : Level → TimingCons
  | bank => ⟨0, [.MACAB], [.MACAB], v.nCCDAB⟩
  | bg => ⟨0, [.MACSB], [.MACSB], v.nCCDSB⟩
  | buffer => ⟨0, [.MACPB], [.MACPB], v.nBL⟩

theorem macCons_mem (v : TimingVals) : l.macCons v ∈ timingcons v := by
  cases l <;> simp [macCons, timingcons]

/-- It is one between the MAC and itself, for a channel. -/
theorem macCons_self (v : TimingVals) : (l.macCons v).level = 0 ∧
    l.access.command ∈ (l.macCons v).preceding ∧ l.access.command ∈ (l.macCons v).following := by
  cases l <;> simp [macCons, access, Dram.Access.command]

theorem isMac_mac : ∀ addr, Command.isMac ⟨l.generator.mac, addr⟩ = true := by
  cases l <;> exact fun _ => rfl

/-- The requests that end with the MAC of a generator. -/
theorem translation_eq_iff {m : Mnemonic} {type : Controller.RequestType}
    (h : requestType m.reqType = some type) :
    type.translation = l.access.command ↔ m = l.generator.mac := by
  cases m <;> cases h <;> cases l <;> decide

/-- A generator writes MACs of one kind. -/
theorem isMac_iff {a : Args} {cmds : List (Iteration Command)} {trace : List Command}
    (hrun : l.generator.runAttention a [] = .ok (cmds, trace)) {c : Command} (hc : c ∈ trace) :
    c.isMac = true ↔ c.mnemonic = l.generator.mac := by
  obtain ⟨hcmds, -, tagged, hout, rfl⟩ := exists_tagged hrun
  obtain ⟨t, ht, rfl⟩ := List.mem_map.mp hc
  have hspelled : t.2.mnemonic = mnemonicOf l.generator t.1.phase :=
    spelled_of_mem_emit hcmds hout t ht
  rw [Command.isMac, hspelled]
  cases t.1.phase <;> cases l <;> decide

end Level

end AttAcc.Trace

namespace AttAcc.Memory

open AddrMapper (Utilities)
open Controller (Addr AddrVec Device endsAt hbm3PIM)
open Dram (NodeBase TimingVals timingcons)
open Trace (Args Iteration Mnemonic Prints Side Text TraceEntry nChannel numberOf outputList
  parseOutput)

/-! ## The answer -/

section Counters

variable {D : Device} {n : ℕ}

/-- What is read from the output of a simulation that is over. -/
theorem parseOutput_of_isOver (setup : Setup D n) (trace : List Trace.Command) (sides : List Side)
    (hover : (setup.run (trace.map Trace.Command.entry) sides).isOver = true)
    (hclk : 0 < (setup.run (trace.map Trace.Command.entry) sides).memory.clk)
    (hlength : trace.length < 2 ^ 31) {stdout : Text}
    (hprints : Prints (setup.run (trace.map Trace.Command.entry) sides).memory stdout) :
    parseOutput (outputList stdout) =
      .ok [((setup.run (trace.map Trace.Command.entry) sides).memory.clk : ℤ),
        trace.countP Trace.Command.isMac, numberOf .SFM trace, numberOf .MV_GB trace,
        numberOf .MV_SB trace, numberOf .WR_GB trace] := by
  have hinv : Trace.Inv _ (setup.run (trace.map Trace.Command.entry) sides) := Trace.inv_run _ _ _
  have hcounter : ∀ {m : Mnemonic} {st : Trace.Stat}, m.stat = some st →
      ((setup.run (trace.map Trace.Command.entry) sides).memory.counters st).toInt =
        numberOf m trace := by
    intro m st hm
    have hlt : numberOf m trace < 2 ^ 31 := (Trace.numberOf_le m trace).trans_lt hlength
    rw [hinv.counters, take_of_isOver setup hover, Trace.countP_entries hm, Trace.toInt_ofNat hlt]
  have hne : ¬((setup.run (trace.map Trace.Command.entry) sides).memory.clk : ℤ) = 0 :=
    Int.natCast_ne_zero.mpr hclk.ne'
  rw [Trace.parseOutput_eq hprints, if_neg hne, hcounter (m := .MAC_AB) rfl,
    hcounter (m := .MAC_SB) rfl, hcounter (m := .MAC_PB) rfl, hcounter (m := .SFM) rfl,
    hcounter (m := .MV_GB) rfl, hcounter (m := .MV_SB) rfl, hcounter (m := .WR_GB) rfl,
    ← Trace.numberOf_macs]
  push_cast
  rfl

/-- The loop of `main` is a simulation, and the memory system ticks last in it. -/
theorem exists_run_mainLoop (setup : Setup D n) (entries : List TraceEntry) (rounds : ℕ)
    (sides : List Side) : ∃ before, setup.mainLoop (rounds + 1) (setup.run entries sides) =
      setup.run entries (before ++ [.memory]) := by
  have hround : ∀ sides, setup.iteration (setup.run entries sides) =
      setup.run entries ((sides ++ [.frontend]) ++ [.memory]) := by
    intro sides
    simp [Setup.run, Setup.iteration, List.foldl_append, Trace.State.step]
  induction rounds generalizing sides with
  | zero => exact ⟨sides ++ [.frontend], by simp [Setup.mainLoop, hround]⟩
  | succ rounds ih =>
    rw [Setup.mainLoop, hround]
    split_ifs
    · exact ⟨_, rfl⟩
    · exact ih _

theorem clk_pos (setup : Setup D n) (entries : List TraceEntry) (before : List Side) :
    0 < (setup.run entries (before ++ [.memory])).memory.clk := by
  rw [Setup.run, List.foldl_append]
  exact Nat.succ_pos _

end Counters

/-! ## The cycles -/

section Cycles

open Dram (Banks)

variable {base : NodeBase Trace.channelNodes} {v : TimingVals} {l : Trace.Level} {a : Args}
  {cmds : List (Iteration Trace.Command)} {trace : List Trace.Command} {u : Utilities}
  {setup : Setup (hbm3PIM base) nChannel}

/-- The requests of a channel are for its node. -/
theorem countP_endsAt {D : Device} {n : ℕ} (setup : Setup D n) (entries : List TraceEntry)
    (cmd : Dram.Command) (c : Fin n) :
    (setup.lines entries c).countP (endsAt cmd [((c : ℕ) : ℤ)]) =
      (setup.lines entries c).countP fun p => decide (p.typeId.translation = cmd) := by
  refine List.countP_congr fun p hp => ?_
  have hchannel := of_decide_eq_true (List.mem_filter.mp hp).2
  have htake : p.addrVec.take 1 = [((c : ℕ) : ℤ)] := by
    cases haddr : p.addrVec with
    | nil =>
      rw [haddr] at hchannel
      exact absurd hchannel (by simp)
    | cons field rest =>
      rw [haddr] at hchannel
      exact congrArg (fun field => [field]) hchannel
  rw [endsAt, decide_eq_true_eq, decide_eq_true_eq]
  exact and_iff_left htake

/-- The requests of a generated trace that end with a MAC. -/
theorem countP_translation (hrun : l.generator.runAttention a [] = .ok (cmds, trace))
    (applyMapper : Addr → AddrVec) :
    (((trace.map Trace.Command.entry).filterMap (TraceEntry.packet applyMapper)).countP
      fun p => decide (p.typeId.translation = l.access.command)) =
        trace.countP Trace.Command.isMac := by
  rw [List.countP_filterMap, List.countP_map]
  refine List.countP_congr fun c hc => ?_
  obtain ⟨type, htype, -, -⟩ := requestType_reqType c.mnemonic
  have hpacket : TraceEntry.packet applyMapper c.entry = some ⟨c.addr, applyMapper c.addr, type⟩ :=
    congrArg (Option.map _) htype
  rw [Function.comp_apply, hpacket, Option.map_some, Option.getD_some, decide_eq_true_eq,
    Trace.Level.translation_eq_iff htype, Trace.Level.isMac_iff hrun hc]

/-- **The MACs of a generated trace take their cycles.** -/
theorem macs_rate (hrun : l.generator.runAttention a [] = .ok (cmds, trace)) (hu : u.Documented)
    (K : base.Keeps (timingcons v)) (hmapper : setup.applyMapper = pimMapper u) {sides : List Side}
    (hover : (setup.run (trace.map Trace.Command.entry) sides).isOver = true) :
    trace.countP Trace.Command.isMac * (l.macCons v).latency ≤
      nChannel * ((setup.run (trace.map Trace.Command.entry) sides).memory.clk +
        (l.macCons v).latency) := by
  have hpim : ∀ t ∈ trace.map Trace.Command.entry, IsPimLine t := by
    intro t ht
    obtain ⟨c, -, rfl⟩ := List.mem_map.mp ht
    exact isPimLine_entry c
  have hmaps : ∀ t ∈ trace.map Trace.Command.entry, ∃ c, setup.MapsTo t c := by
    intro t ht
    obtain ⟨c, -, rfl⟩ := List.mem_map.mp ht
    exact exists_mapsTo_entry hu hmapper c
  obtain ⟨hlevel, hpreceding, hfollowing⟩ := Trace.Level.macCons_self (l := l) v
  have hchannel : ∀ c : Fin nChannel,
      ((setup.lines (trace.map Trace.Command.entry) c).countP fun p =>
        decide (p.typeId.translation = l.access.command)) * (l.macCons v).latency ≤
          (setup.run (trace.map Trace.Command.entry) sides).memory.clk +
            (l.macCons v).latency := by
    intro c
    rw [← countP_endsAt]
    have hlines := countP_lines_le setup hpim sides hover c
      (show l.access.command ≠ .BARRIER by cases l <;> decide) [(c : ℤ)]
    refine (Nat.mul_le_mul_right _ hlines).trans
      (bus_rate_memory K setup _ sides c (Trace.Level.macCons_mem v) ?_ hpreceding hfollowing ?_)
    · rw [hlevel]
      rfl
    · rw [hlevel]
      exact Nat.zero_le _
  calc trace.countP Trace.Command.isMac * (l.macCons v).latency
      = ∑ c, ((setup.lines (trace.map Trace.Command.entry) c).countP fun p =>
          decide (p.typeId.translation = l.access.command)) * (l.macCons v).latency := by
        rw [← Finset.sum_mul, sum_countP_lines setup _ hmaps, countP_translation hrun]
    _ ≤ ∑ _c : Fin nChannel, ((setup.run (trace.map Trace.Command.entry) sides).memory.clk +
          (l.macCons v).latency) := Finset.sum_le_sum fun c _ => hchannel c
    _ = nChannel * ((setup.run (trace.map Trace.Command.entry) sides).memory.clk +
          (l.macCons v).latency) := by
        rw [Finset.sum_const, Finset.card_fin, smul_eq_mul]

/-- Every head has twice the rows and columns of its keys as MACs, at least. -/
theorem le_countP_isMac (hrun : l.generator.runAttention a [] = .ok (cmds, trace)) :
    l.generator.seqRows a * l.generator.headCols a * (2 * a.nHeadPerHbm) ≤
      trace.countP Trace.Command.isMac := by
  obtain ⟨rfl, hemit, -⟩ := Trace.exists_tagged hrun
  have hcount := Trace.macCount_emit Trace.Level.isMac_mac hemit
  rw [Trace.channels_eq] at hcount
  calc l.generator.seqRows a * l.generator.headCols a * (2 * a.nHeadPerHbm)
      ≤ l.generator.seqRows a * l.generator.headCols a * (2 * a.nHeadPerHbm + Trace.surplus a) :=
        Nat.mul_le_mul_left _ (Nat.le_add_right _ _)
    _ = Trace.macCount trace := hcount.symm
    _ ≤ trace.countP Trace.Command.isMac := (List.dropWhile_sublist _).countP_le

/-- **What `run_ramulator` gets**: the simulator ends on the trace that a generator has written, and
if it is done with it, then from any output that has the counters, the cycles and the commands of
the trace are read, by kind. The MACs are two for every row and column of the keys of a head or
more, and the cycles are enough for the MACs of 16 channels. -/
theorem generated_answer (l : Trace.Level) (a : Args) (hfit : Trace.KeysFit l a)
    {cmds : List (Iteration Trace.Command)} {trace : List Trace.Command}
    (hrun : l.generator.runAttention a [] = .ok (cmds, trace)) (hlength : trace.length < 2 ^ 31)
    {tokenize : Text → List Text} (htokenize : Trace.SplitsAtSpace tokenize)
    {entries : List TraceEntry}
    (hread : Trace.initTrace tokenize (.content (Trace.writeTrace trace)) = .ok entries)
    {u : Utilities} (hu : u.Documented) {base : NodeBase Trace.channelNodes} (h : base.Documented)
    {v : TimingVals} (K : base.Keeps (timingcons v)) (setup : Setup (hbm3PIM base) nChannel)
    (hmapper : setup.applyMapper = pimMapper u) (hclosed : ∀ c, (setup.dram c).1 = Banks.initial)
    (hround : (l.banks + 1) * (h.latency + 1) + setup.numRanks * (h.refreshLatency + 1) <
      setup.nrefi.toNat) :
    ∃ rounds, let s := setup.mainLoop rounds (setup.start entries)
      Ended setup s ∧ (s.isOver = true →
        (∀ stdout, Prints s.memory stdout → parseOutput (outputList stdout) =
          .ok [(s.memory.clk : ℤ), trace.countP Trace.Command.isMac, numberOf .SFM trace,
            numberOf .MV_GB trace, numberOf .MV_SB trace, numberOf .WR_GB trace]) ∧
        l.generator.seqRows a * l.generator.headCols a * (2 * a.nHeadPerHbm) ≤
          trace.countP Trace.Command.isMac ∧
        trace.countP Trace.Command.isMac * (l.macCons v).latency ≤
          nChannel * (s.memory.clk + (l.macCons v).latency)) := by
  obtain rfl := eq_of_initTrace htokenize hread
  obtain ⟨rounds, hended⟩ := exists_mainLoop
    (servable_generated (h := h) hfit hrun hu hmapper hclosed)
    ((roundBacklog_macMachine_le h l setup.numRanks).trans_lt hround)
  refine ⟨rounds + 1, hended, fun hover => ?_⟩
  obtain ⟨before, hbefore⟩ := exists_run_mainLoop setup (trace.map Trace.Command.entry) rounds []
  rw [show setup.start (trace.map Trace.Command.entry) = setup.run _ [] from rfl, hbefore]
    at hover ⊢
  exact ⟨fun stdout hprints => parseOutput_of_isOver setup trace _ hover (clk_pos setup _ before)
    hlength hprints, le_countP_isMac hrun, macs_rate hrun hu K hmapper hover⟩

end Cycles

/-- The trace of 33 heads, with the MAC units in the buffer die. -/
theorem generated_answer_thirty_three : ∃ cmds trace,
    Trace.buffer.runAttention (Trace.shortArgs 33) [] = .ok (cmds, trace) ∧
      ∃ rounds, let s := hbm3Setup.mainLoop rounds (hbm3Setup.start (trace.map Trace.Command.entry))
        Ended hbm3Setup s ∧ (s.isOver = true →
          (∀ stdout, Prints s.memory stdout → parseOutput (outputList stdout) =
            .ok [(s.memory.clk : ℤ), trace.countP Trace.Command.isMac, numberOf .SFM trace,
              numberOf .MV_GB trace, numberOf .MV_SB trace, numberOf .WR_GB trace]) ∧
          Trace.buffer.seqRows (Trace.shortArgs 33) * Trace.buffer.headCols (Trace.shortArgs 33) *
              (2 * 33) ≤ trace.countP Trace.Command.isMac ∧
          trace.countP Trace.Command.isMac * 2 ≤ 16 * (s.memory.clk + 2)) := by
  have hall : (Trace.buffer.runAttention (Trace.shortArgs 33) []).toOption.any
      (fun r => decide (r.2.length < 2 ^ 31) &&
        r.2.all fun cmd => decide ((cmd.addr : ℤ) < 2 ^ 63)) = true := by decide +kernel
  rcases hrun : Trace.buffer.runAttention (Trace.shortArgs 33) [] with e | ⟨cmds, trace⟩
  · rw [hrun] at hall
    cases hall
  · rw [hrun] at hall
    obtain ⟨hlength, hall⟩ := Bool.and_eq_true_iff.mp hall
    have haddr : ∀ cmd ∈ trace, (cmd.addr : ℤ) < 2 ^ 63 :=
      fun cmd hcmd => of_decide_eq_true (List.all_eq_true.mp hall cmd hcmd)
    exact ⟨cmds, trace, rfl, generated_answer .buffer (Trace.shortArgs 33) (by decide +kernel) hrun
      (of_decide_eq_true hlength) Trace.splitsAtSpace_splitOn
      (Trace.initTrace_writeTrace Trace.splitsAtSpace_splitOn haddr)
      AddrMapper.documented_utilities (Dram.documented_timedNodes _ 25)
      (Dram.keeps_timedNodes _ (Dram.level_timingcons Dram.hbm3_6400_8Gb) 25) hbm3Setup rfl
      (fun _ => rfl) (by decide)⟩

end AttAcc.Memory
