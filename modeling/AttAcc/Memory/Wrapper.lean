import AttAcc.Memory.Answer
import AttAcc.Trace.Traffic

/-!
# How fast the wrapper can answer

`Ramulator.output` answers with a time after a chain of programs: a generator writes the trace of a
key, the simulator runs it, and the wrapper reads, scales and logs what it has counted. The keys and
values of all heads take their MACs, and the MACs of a channel are kept apart. So no answer, from a
fresh simulation or from the log, is a time in which the keys and values cannot be read at the rate
of the MACs (`attention_rate`).
-/

namespace AttAcc.Trace

/-- The units of a mode. -/
def levelOf : PIMType → Level
  | .BA => .bank
  | .BG => .bg
  | .BUFFER => .buffer

theorem generator_levelOf (pimType : PIMType) :
    (levelOf pimType).generator = generator pimType := by
  cases pimType <;> rfl

/-- The bytes that a MAC reads from the cells of a channel. -/
def macBytes (pimType : PIMType) : ℕ := outputMemAcc pimType 1

theorem macBytes_eq (pimType : PIMType) :
    macBytes pimType = 32 * ((generator pimType).units * (generator pimType).lanes) := by
  cases pimType <;> decide

/-- The keys and values are the bytes of two MACs for each tile of a head. -/
theorem Granular.footprint_eq_macBytes {key : SimKey} (h : Granular key) :
    footprint key = (generator key.pimType).seqRows (simArgs key) *
      (generator key.pimType).headCols (simArgs key) * (2 * (simArgs key).nHeadPerHbm) *
        macBytes key.pimType := by
  have hheads : (simArgs key).nHeadPerHbm = key.nhead := rfl
  rw [h.footprint_eq, macBytes_eq, hheads]
  ring

end AttAcc.Trace

namespace AttAcc.Memory

open AddrMapper (Utilities)
open Controller (hbm3PIM)
open Dram (NodeBase TimingVals timingcons)
open Trace (Granular Iteration Prints Side Text TraceEntry footprint generator levelOf macBytes
  nChannel numberOf outputList parseOutput simArgs)

/-! ## Simulations of a key -/

/-- The simulation of the trace of a key, done, by a device that keeps the timings. -/
structure DoneFor (v : TimingVals) (key : SimKey) where
  cmds : List (Iteration Trace.Command)
  trace : List Trace.Command
  run_eq : (generator key.pimType).runAttention (simArgs key) [] = .ok (cmds, trace)
  length_lt : trace.length < 2 ^ 31
  utilities : Utilities
  documented : utilities.Documented
  base : NodeBase Trace.channelNodes
  keeps : base.Keeps (timingcons v)
  setup : Setup (hbm3PIM base) nChannel
  mapper_eq : setup.applyMapper = pimMapper utilities
  sides : List Side
  isOver : (setup.run (trace.map Trace.Command.entry) (sides ++ [.memory])).isOver = true

namespace DoneFor

variable {v : TimingVals} {key : SimKey} (d : DoneFor v key)

/-- Its last state. -/
def last : Simulation (hbm3PIM d.base) nChannel :=
  d.setup.run (d.trace.map Trace.Command.entry) (d.sides ++ [.memory])

/-- What it has counted. -/
def counters : Counters where
  cycle := d.last.memory.clk
  mac := d.trace.countP Trace.Command.isMac
  softmax := numberOf .SFM d.trace
  mvgb := numberOf .MV_GB d.trace
  mvsb := numberOf .MV_SB d.trace
  wrgb := numberOf .WR_GB d.trace

/-- `run_ramulator` reads these counters from any output that has them. -/
theorem parseOutput_eq {stdout : Text} (hprints : Prints d.last.memory stdout) :
    parseOutput (outputList stdout) = .ok [(d.counters.cycle : ℤ), d.counters.mac,
      d.counters.softmax, d.counters.mvgb, d.counters.mvsb, d.counters.wrgb] :=
  parseOutput_of_isOver d.setup d.trace _ d.isOver (clk_pos d.setup _ d.sides) d.length_lt hprints

/-- **Keys and values take their cycles.** -/
theorem footprint_le (hkey : Granular key) :
    footprint key * ((levelOf key.pimType).macCons v).latency ≤
      nChannel * macBytes key.pimType *
        (d.counters.cycle + ((levelOf key.pimType).macCons v).latency) := by
  have hrun : (levelOf key.pimType).generator.runAttention (simArgs key) [] =
      .ok (d.cmds, d.trace) := by
    rw [Trace.generator_levelOf, d.run_eq]
  have hmacs := le_countP_isMac hrun
  have hrate := macs_rate hrun d.documented d.keeps d.mapper_eq d.isOver
  rw [Trace.generator_levelOf] at hmacs
  set latency := ((levelOf key.pimType).macCons v).latency
  calc footprint key * latency
      = (generator key.pimType).seqRows (simArgs key) *
          (generator key.pimType).headCols (simArgs key) * (2 * (simArgs key).nHeadPerHbm) *
            latency * macBytes key.pimType := by
        rw [hkey.footprint_eq_macBytes]
        ring
    _ ≤ d.trace.countP Trace.Command.isMac * latency * macBytes key.pimType :=
        Nat.mul_le_mul_right _ (Nat.mul_le_mul_right _ hmacs)
    _ ≤ nChannel * (d.last.memory.clk + latency) * macBytes key.pimType :=
        Nat.mul_le_mul_right _ hrate
    _ = nChannel * macBytes key.pimType * (d.counters.cycle + latency) := by
        rw [Nat.mul_right_comm]
        rfl

end DoneFor

/-- What a toolchain counts comes from such simulations, whose timings depend on the power
constraint. -/
def Simulates (env : Toolchain) (v : Bool → TimingVals) : Prop :=
  ∀ key c, env.simulate key = .ok c → ∃ d : DoneFor (v key.powerConstraint) key, d.counters = c

/-! ## A simulator -/

/-- Without ranks to refresh, a simulation that has ended is over: no refresh was rejected. -/
theorem isOver_of_ended {D : Controller.Device} {n : ℕ} (hD : D.RefreshCloses) {setup : Setup D n}
    (hranks : setup.numRanks = 0) {entries : List TraceEntry} (hpim : ∀ t ∈ entries, IsPimLine t)
    {sides : List Side} (hended : Ended setup (setup.run entries sides)) :
    (setup.run entries sides).isOver = true := by
  rcases hended with hover | ⟨-, c, hlt⟩
  · exact hover
  · have hcons := Consistent.run setup entries sides
    have hround : (setup.refresh c).round = [] := by
      rw [← List.length_eq_zero_iff, length_round, hranks]
    have hnone : (((setup.run entries sides).channel c).controller.buffer .priority) = [] := by
      refine List.eq_nil_iff_forall_not_mem.mpr fun r hr => ?_
      have hrefresh := (hcons.pimOnly hD hpim c).refresh r hr
      have hpacket : r.packet ∈ ((setup.run entries sides).channel c).controller.packets :=
        List.mem_map_of_mem (List.mem_reverse.mpr
          ((hcons.accounted c).ordered.mem_accepted .priority r hr))
      rcases List.mem_append.mp ((hcons.packets_perm c).mem_iff.mp hpacket) with hline | hround'
      · obtain ⟨hmem, -⟩ := List.mem_filter.mp hline
        obtain ⟨t, ht, htp⟩ := List.mem_filterMap.mp hmem
        obtain ⟨type, htype, hbuffer⟩ := hpim t (List.mem_of_mem_take ht)
        rw [TraceEntry.packet, htype] at htp
        have hsame : type = r.typeId := congrArg Controller.Packet.typeId (Option.some.inj htp)
        rw [hsame, hrefresh] at hbuffer
        cases hbuffer
      · rw [hround] at hround'
        simp at hround'
    rw [hnone, hranks] at hlt
    exact absurd hlt (Nat.not_lt_zero _)

/-- The memory of 16 channels, which is not refreshed. -/
def unrefreshed : Setup (hbm3PIM (o := Trace.channelNodes)
    (Dram.timedNodes (timingcons Dram.hbm3_6400_8Gb) 25)) nChannel :=
  { hbm3Setup with numRanks := 0 }

/-- It gets done with generated traces. -/
theorem exists_doneFor {key : SimKey} (hfit : Trace.KeysFit (levelOf key.pimType) (simArgs key))
    {cmds : List (Iteration Trace.Command)} {trace : List Trace.Command}
    (hrun : (generator key.pimType).runAttention (simArgs key) [] = .ok (cmds, trace))
    (hlength : trace.length < 2 ^ 31) : Nonempty (DoneFor Dram.hbm3_6400_8Gb key) := by
  have hlevel : (levelOf key.pimType).generator.runAttention (simArgs key) [] =
      .ok (cmds, trace) := by
    rw [Trace.generator_levelOf, hrun]
  have hserv : Servable unrefreshed (macMachine (Dram.documented_timedNodes
      (timingcons Dram.hbm3_6400_8Gb) 25) (levelOf key.pimType))
        (trace.map Trace.Command.entry) :=
    servable_generated hfit hlevel AddrMapper.documented_utilities rfl fun _ => rfl
  have hround : roundBacklog (macMachine (Dram.documented_timedNodes
      (timingcons Dram.hbm3_6400_8Gb) 25) (levelOf key.pimType)) (Controller.latencies
        (Dram.documented_timedNodes (timingcons Dram.hbm3_6400_8Gb) 25)) unrefreshed.numRanks <
          unrefreshed.nrefi.toNat := by
    refine (roundBacklog_macMachine_le _ _ _).trans_lt ?_
    cases key.pimType <;> decide
  obtain ⟨rounds, hended⟩ := exists_mainLoop hserv hround
  obtain ⟨before, hbefore⟩ :=
    exists_run_mainLoop unrefreshed (trace.map Trace.Command.entry) rounds []
  have hended : Ended unrefreshed (unrefreshed.run (trace.map Trace.Command.entry)
      (before ++ [.memory])) := hbefore ▸ hended
  exact ⟨{
    cmds := cmds
    trace := trace
    run_eq := hrun
    length_lt := hlength
    utilities := AddrMapper.utilities
    documented := AddrMapper.documented_utilities
    base := _
    keeps := Dram.keeps_timedNodes _ (Dram.level_timingcons Dram.hbm3_6400_8Gb) 25
    setup := unrefreshed
    mapper_eq := rfl
    sides := before
    isOver := isOver_of_ended (refreshCloses_hbm3PIM _) rfl hserv.isPimLine hended }⟩

/-- A toolchain that answers with a simulation of the key, where one gets done. -/
noncomputable def simulator : Toolchain where
  pandas := true
  ramulatorDir := true
  simulate key :=
    have := Classical.propDecidable (Nonempty (DoneFor Dram.hbm3_6400_8Gb key))
    if h : Nonempty (DoneFor Dram.hbm3_6400_8Gb key) then .ok h.some.counters
    else .error (.runtimeError "Ramulator produced no memory_system_cycles")

theorem simulates_simulator : Simulates simulator fun _ => Dram.hbm3_6400_8Gb := by
  intro key c hc
  by_cases h : Nonempty (DoneFor Dram.hbm3_6400_8Gb key)
  · exact ⟨h.some, Except.ok.inj ((dif_pos h).symm.trans hc)⟩
  · cases (dif_neg h).symm.trans hc

/-! ## Answers -/

/-- The clock period, in s. -/
def period : ℚ := tCK / 1000 / 1000 / 1000

/-- The time between two MACs of a channel. -/
def macTime (v : TimingVals) (pimType : PIMType) : ℚ :=
  ((levelOf pimType).macCons v).latency * period

section Answers

variable {env : Toolchain} {r : RamulatorConfig} {q : Query}

/-- A group of heads or more is simulated. -/
theorem one_le_numOpsGroup (hnum : 0 < r.numHbm) (hops : 0 < q.layer.pimNumOp) :
    1 ≤ r.numOpsGroup q := by
  rw [RamulatorConfig.numOpsGroup]
  split_ifs
  · have hheads : 0 < q.layer.pimNumOp ⌈/⌉ r.numHbm := by
      by_contra hnone
      have hle := (ceilDiv_le_iff_le_mul hnum).mp (Nat.le_of_not_lt hnone)
      omega
    by_contra hnone
    have hzero := Nat.le_of_lt_succ (Nat.lt_of_not_le hnone)
    have hle := (ceilDiv_le_iff_le_mul (by decide : 0 < 64)).mp hzero
    omega
  · exact le_rfl

/-- The time of the post-processing is that of the cycles, or more. -/
theorem cycles_le_postProcess {bufferScale timeScale : ℕ} (hscale : 1 ≤ timeScale) (c : Counters) :
    c.cycle * period ≤ (r.postProcess q bufferScale timeScale c).1 := by
  have htime : (0 : ℚ) ≤ tCK * c.cycle / 1000 / 1000 / 1000 := by
    have htck : (0 : ℚ) ≤ tCK := by norm_num [tCK]
    positivity
  calc c.cycle * period = tCK * c.cycle / 1000 / 1000 / 1000 := by
        rw [period]
        ring
    _ ≤ tCK * c.cycle / 1000 / 1000 / 1000 * timeScale :=
        le_mul_of_one_le_right htime (Nat.one_le_cast.mpr hscale)

/-- The state of the wrapper stays sound over its calls. -/
theorem sound_calls (hpandas : env.pandas = true) (hdir : env.ramulatorDir = true)
    (hnum : r.numHbm ≠ 0) {qs : List Query} (hqs : ∀ q ∈ qs, q.layer.k = r.dhead) {s : Session}
    (hs : s.Sound env r) : (qs.foldl (fun s q => (s.call env q).2) s).Sound env r := by
  induction qs generalizing s with
  | nil => exact hs
  | cons q qs ih =>
    obtain ⟨hq, hqs⟩ := List.forall_mem_cons.mp hqs
    refine ih hqs ?_
    show (s.call env q).2.Sound env r
    rcases Session.output_of_sound hpandas hdir hs hnum hq with
      ⟨c, s', -, hs', hfresh | hcached⟩ | ⟨e, -, herror⟩
    · rw [Session.call_of_ok hfresh]
      exact hs'
    · rw [Session.call_of_ok hcached]
      exact hs'
    · rw [Session.call_of_error herror]
      exact hs

end Answers

/-- **No answer is faster than the MACs**: in every sequence of calls, whatever is in the log and
whether an answer comes from it or from a fresh simulation, the time it gives is enough to read the
keys and values of the heads that are simulated, in fast mode of 64 of an HBM, at the rate of the
MACs. -/
theorem attention_rate {env : Toolchain} {v : Bool → TimingVals} (hsim : Simulates env v)
    (hpandas : env.pandas = true) (hdir : env.ramulatorDir = true) {r : RamulatorConfig}
    (hnum : 0 < r.numHbm) {s : Session} (hs : s.Sound env r) {qs : List Query}
    (hqs : ∀ q ∈ qs, q.layer.k = r.dhead) {q : Query} (hk : q.layer.k = r.dhead)
    (hops : 0 < q.layer.pimNumOp) (hkey : Granular (r.runKey q)) {answer : ℚ × PimTraffic}
    (h : ((qs.foldl (fun s q => (s.call env q).2) s).call env q).1 = .ok answer) :
    footprint (r.runKey q) * macTime (v q.powerConstraint) q.pimType ≤
      nChannel * macBytes q.pimType *
        (answer.1 + macTime (v q.powerConstraint) q.pimType) := by
  have hsound := sound_calls hpandas hdir hnum.ne' hqs hs
  obtain ⟨c, hc, htime⟩ : ∃ c, env.runRamulator (r.runKey q) = .ok c ∧
      c.cycle * period ≤ answer.1 := by
    rcases Session.output_of_sound hpandas hdir hsound hnum.ne' hk with
      ⟨c, s', hc, -, hfresh | hcached⟩ | ⟨e, -, herror⟩
    · rw [Session.call_of_ok hfresh] at h
      obtain rfl := Except.ok.inj h
      exact ⟨c, hc, cycles_le_postProcess le_rfl c⟩
    · rw [Session.call_of_ok hcached] at h
      obtain rfl := Except.ok.inj h
      exact ⟨c, hc, cycles_le_postProcess (one_le_numOpsGroup hnum hops) c⟩
    · rw [Session.call_of_error herror] at h
      cases h
  obtain ⟨d, rfl⟩ := hsim _ _ (Toolchain.runRamulator_eq_ok.mp hc).1
  have hcycles : (footprint (r.runKey q) : ℚ) *
      ((levelOf q.pimType).macCons (v q.powerConstraint)).latency ≤
        nChannel * macBytes q.pimType * (d.counters.cycle +
          ((levelOf q.pimType).macCons (v q.powerConstraint)).latency) := by
    exact_mod_cast d.footprint_le hkey
  have hperiod : (0 : ℚ) ≤ period := by norm_num [period, tCK]
  have hbytes : (0 : ℚ) ≤ nChannel * macBytes q.pimType := by positivity
  calc footprint (r.runKey q) * macTime (v q.powerConstraint) q.pimType
      = footprint (r.runKey q) *
          ((levelOf q.pimType).macCons (v q.powerConstraint)).latency * period := by
        rw [macTime, mul_assoc]
    _ ≤ nChannel * macBytes q.pimType * (d.counters.cycle +
          ((levelOf q.pimType).macCons (v q.powerConstraint)).latency) * period :=
        mul_le_mul_of_nonneg_right hcycles hperiod
    _ = nChannel * macBytes q.pimType * (d.counters.cycle * period +
          macTime (v q.powerConstraint) q.pimType) := by
        rw [macTime, mul_assoc, add_mul]
    _ ≤ nChannel * macBytes q.pimType *
          (answer.1 + macTime (v q.powerConstraint) q.pimType) :=
        mul_le_mul_of_nonneg_left (add_le_add_left htime _) hbytes

/-- One head of 64 elements, of one HBM. -/
def oneHbm : RamulatorConfig := ⟨2048, 1, 64, false⟩

/-- The scores of one head, in bank mode: 16 keys. -/
def tileQuery : Query where
  pimType := .BA
  layer := ⟨⟨.gen, .score, .MATMUL, false, .W16A16, 1, 16, 64, 1, 1⟩, .inl rfl⟩

/-- The answer of a simulation. -/
theorem attention_rate_tile : ∃ answer : ℚ × PimTraffic,
    (Session.call simulator ⟨⟨oneHbm, []⟩, none⟩ tileQuery).1 = .ok answer ∧
      footprint (oneHbm.runKey tileQuery) * macTime Dram.hbm3_6400_8Gb .BA ≤
        nChannel * macBytes .BA * (answer.1 + macTime Dram.hbm3_6400_8Gb .BA) := by
  have hkey : oneHbm.runKey tileQuery = Trace.tileKey .BA 1 := by decide
  have hs : Session.Sound simulator ⟨⟨oneHbm, []⟩, none⟩ oneHbm :=
    ⟨rfl, Library.soundFor_nil, fun _ h => by cases h⟩
  have hshort : ((generator .BA).runAttention (simArgs (Trace.tileKey .BA 1)) []).toOption.any
      (fun r => decide (r.2.length < 2 ^ 31)) = true := by decide +kernel
  rcases hrun : (generator .BA).runAttention (simArgs (Trace.tileKey .BA 1)) [] with
    e | ⟨cmds, trace⟩
  · rw [hrun] at hshort
    cases hshort
  · rw [hrun] at hshort
    have hdone : Nonempty (DoneFor Dram.hbm3_6400_8Gb (Trace.tileKey .BA 1)) :=
      exists_doneFor (by decide +kernel) hrun (of_decide_eq_true hshort)
    have hanswers : simulator.runRamulator (oneHbm.runKey tileQuery) =
        .ok hdone.some.counters := by
      rw [hkey]
      exact Toolchain.runRamulator_eq_ok.mpr ⟨dif_pos hdone, clk_pos _ _ _⟩
    obtain ⟨answer, hanswer⟩ : ∃ answer,
        (Session.call simulator ⟨⟨oneHbm, []⟩, none⟩ tileQuery).1 = .ok answer := by
      rcases Session.output_of_sound (q := tileQuery) rfl rfl hs (by decide) rfl with
        ⟨c, s', hc, -, hfresh | hcached⟩ | ⟨e, he, -⟩
      · exact ⟨_, congrArg Prod.fst (Session.call_of_ok hfresh)⟩
      · exact ⟨_, congrArg Prod.fst (Session.call_of_ok hcached)⟩
      · rw [hanswers] at he
        cases he
    exact ⟨answer, hanswer, attention_rate simulates_simulator rfl rfl (by decide) hs
      (fun _ h => absurd h List.not_mem_nil) rfl (by decide)
      (hkey ▸ Trace.granular_tileKey .BA 1) hanswer⟩

end AttAcc.Memory
