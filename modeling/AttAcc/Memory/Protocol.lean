import AttAcc.Controller.Bus
import AttAcc.Memory.GeneratedEnds

/-!
# What the command buses of HBM3-PIM keep

The commands on the bus of a channel, replayed from its first state, say which rows are open in its
banks. In every simulation, of any trace, a request is finished only while the banks that it needs
have its row open, and a refresh while all are closed (`bus_opens_rows`); and where the
nodes keep timing constraints, two commands are as far apart as the constraints on them ask for
(`bus_keeps_timings`).
-/

namespace AttAcc.Memory

open Controller (Device Issue Replayed bus nodeAt rowAt hbm3PIM)
open Dram (Access Banks Command Node NodeBase Organization TimingCons commandScope covers)
open Library
open Trace (Side TraceEntry)

variable {o : Organization} {base : NodeBase o} {n : ℕ}

/-- The bus of a channel is legal, in every simulation. -/
theorem replayed_run {D : Device} (setup : Setup D n) (entries : List TraceEntry)
    (sides : List Side) (c : Fin n) :
    Replayed (setup.dram c) ((setup.run entries sides).channel c).controller :=
  .of_runsTo ((Consistent.run setup entries sides).follows c).runsTo

/-! ## Rows -/

/-- The banks after some commands. -/
def banksAfter (base : NodeBase o) (dram : (hbm3PIM base).State) (issues : List (ℕ × Issue))
    (clk : ℕ) : Banks o := ((hbm3PIM base).replay dram issues clk).1

/-- A command finds open what its request needs, and a refresh finds all banks closed. -/
structure FindsRows (banks : Banks o) (i : Issue) : Prop where
  access : ∀ (access : Access) (x : Node o), i.1.finalCommand = access.command →
    i.2 = access.command → nodeAt o i.1.addrVec = some x →
    ∀ y, access.range x y = true → (banks y).RowOpen (rowAt i.1.addrVec)
  refresh : i.1.finalCommand = .REFab → i.2 = .REFab → ∀ y, (banks y).state = .Closed

/-- The device asks for the final command of a request when the banks are ready for it. -/
theorem findsRows_of_allows {s : (hbm3PIM base).State} {i : Issue} (h : (hbm3PIM base).Allows s i) :
    FindsRows s.1 i := by
  obtain ⟨hcommand, -⟩ := h
  refine ⟨?_, ?_⟩
  · intro access x hfinal hissued hnode
    rw [hissued, Controller.command, hfinal, Controller.preq_access, hnode] at hcommand
    have hpreq : s.1.preqOfAccess access x (rowAt i.1.addrVec) = access.command := hcommand.symm
    rcases s.1.preq_cases access x (rowAt i.1.addrVec) with ⟨hopen, -⟩ | ⟨_, -, -, hact⟩ |
      ⟨_, -, -, hpre⟩
    · exact hopen
    · exact absurd (hact.symm.trans hpreq) (by cases access <;> decide)
    · exact absurd (hpre.symm.trans hpreq) Access.pre_ne_command
  · intro hfinal hissued y
    rw [hissued, Controller.command, hfinal] at hcommand
    have hpreq : Dram.Preq.RequireAllBanksClosed s.1 .REFab = .REFab := hcommand.symm
    rw [Dram.Preq.RequireAllBanksClosed] at hpreq
    split_ifs at hpreq with hall
    exact Controller.state_of_allClosed hall y

/-- **Commands find the rows that they need**: in every simulation of every trace, on the bus of
every channel. -/
theorem bus_opens_rows (base : NodeBase o) (setup : Setup (hbm3PIM base) n)
    (entries : List TraceEntry) (sides : List Side) (c : Fin n) :
    ∀ newer older clk i,
      bus ((setup.run entries sides).channel c).controller.log = newer ++ (clk, i) :: older →
        FindsRows (banksAfter base (setup.dram c) older clk) i := by
  intro newer older clk i hbus
  have hlegal := (replayed_run setup entries sides c).legal
  rw [hbus] at hlegal
  exact findsRows_of_allows hlegal.allowed_of_append

/-- MACs five cycles apart. -/
def macsApart : List TimingCons := [⟨0, [.MACAB], [.MACAB], 5⟩]

/-- One channel with one bank. -/
def oneBank : Setup (hbm3PIM (o := ⟨1, 1, 1, 1⟩) (Dram.timedNodes macsApart 25)) 1 where
  applyMapper _ := [0, 0, 0, 0, 0, 0, 0]
  watermarks := Controller.defaultWatermarks
  maxSize _ := 32
  dram _ := (Dram.Banks.initial, Dram.NodeClks.initial)
  scheme := .no
  dramOrgLevels := 7
  numRanks := 1
  nrefi := 100
  nrefi_pos := by norm_num
  stale _ _ := none

/-- The first of two MACs, and its activation. -/
theorem bus_opens_rows_macs : ∃ mac activation,
    bus ((oneBank.run macBarrierMacLines [.frontend, .memory]).channel 0).controller.log =
        [mac, activation] ∧ mac.2.2 = .MACAB ∧
      FindsRows (banksAfter (Dram.timedNodes macsApart 25) (oneBank.dram 0) [activation] mac.1)
        mac.2 := by
  have hlength : (bus ((oneBank.run macBarrierMacLines
      [.frontend, .memory]).channel 0).controller.log).length = 2 := by decide +kernel
  have hcommand : ((bus ((oneBank.run macBarrierMacLines
      [.frontend, .memory]).channel 0).controller.log).head?.map fun p => p.2.2) = some .MACAB := by
    decide +kernel
  obtain ⟨mac, activation, hbus⟩ := List.length_eq_two.mp hlength
  rw [hbus] at hcommand
  exact ⟨mac, activation, hbus, Option.some.inj hcommand,
    bus_opens_rows _ oneBank macBarrierMacLines [.frontend, .memory] 0 [] [activation] mac.1 mac.2
      hbus⟩

/-! ## Timings -/

/-- Commands are as far apart as a constraint asks for: where it begins with a command that covers
the node, a later command that is ready only with the node is not too early. -/
def KeepsTimings (cons : List TimingCons) (issues : List (ℕ × Issue)) : Prop :=
  ∀ c ∈ cons, ∀ newer older clk i, issues = newer ++ (clk, i) :: older →
    i.2 ∈ c.following → c.level ≤ commandScope i.2 → c.level < i.1.addrVec.length →
    ∀ clk' i', (clk', i') ∈ older → i'.2 ∈ c.preceding →
      covers i'.1.addrVec (i.1.addrVec.take (c.level + 1)) = true → clk' + c.latency ≤ clk

/-- A constraint, as a countdown of the device. -/
def countdown {cons : List TimingCons} (K : base.Keeps cons) {c : TimingCons} (hc : c ∈ cons)
    {path : List ℤ} (hlength : path.length = c.level + 1) {next : Command}
    (hnext : next ∈ c.following) (hscope : c.level ≤ commandScope next) :
    Countdown (hbm3PIM base).tick (hbm3PIM base).act (hbm3PIM base).Allows
      (fun i => i.2 ∈ c.preceding ∧ covers i.1.addrVec path = true)
      (fun i => i.2 = next ∧ i.1.addrVec.take (c.level + 1) = path) c.latency where
  left s := K.remaining s.2 path next
  start _ _ hfirst := K.update hc hlength hfirst.1 hnext hfirst.2
  act_le _ _ := K.update_le _ _ _ _ _
  tick_le _ := K.tick _ _ _
  allowed := by
    rintro s i ⟨-, hready⟩ ⟨hcmd, hpath⟩
    rw [← hcmd, ← hpath]
    exact K.ready hready (K.level_lt c hc) (hcmd ▸ hscope)

/-- **The buses keep the timing constraints** that the nodes keep, in every simulation of every
trace. -/
theorem bus_keeps_timings {cons : List TimingCons} (K : base.Keeps cons)
    (setup : Setup (hbm3PIM base) n) (entries : List TraceEntry) (sides : List Side) (c : Fin n) :
    KeepsTimings cons (bus ((setup.run entries sides).channel c).controller.log) := by
  intro con hcon newer older clk i hbus hfollowing hscope hlength clk' i' hmem hpreceding hcovers
  have hlegal := (replayed_run setup entries sides c).legal
  rw [hbus] at hlegal
  have hpath : (i.1.addrVec.take (con.level + 1)).length = con.level + 1 :=
    List.length_take_of_le hlength
  exact hlegal.spaced (countdown K hcon hpath hfollowing hscope) hmem ⟨hpreceding, hcovers⟩
    ⟨rfl, rfl⟩

/-- The constraints of `HBM3-PIM.cpp` at 6.4 Gbps, on a trace of MACs. -/
theorem bus_keeps_timings_macs : KeepsTimings (Dram.timingcons Dram.hbm3_6400_8Gb)
    (bus ((hbm3Setup.run macBarrierMacLines [.frontend, .memory, .memory]).channel
      ⟨0, by decide⟩).controller.log) :=
  bus_keeps_timings (Dram.keeps_timedNodes _ (Dram.level_timingcons _) 25) hbm3Setup
    macBarrierMacLines [.frontend, .memory, .memory] ⟨0, by decide⟩

end AttAcc.Memory
