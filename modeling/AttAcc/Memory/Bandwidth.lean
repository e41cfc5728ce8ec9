import AttAcc.Memory.Completion
import AttAcc.Memory.Protocol

/-!
# How fast a simulation can be

A constraint between a command and itself is a rate: the commands of a node that it
is on take its latency each (`bus_rate`). As every line of a trace ends as a command, a simulation
that is over has taken as many cycles as the lines for one node need at that rate
(`simulation_rate`), so the simulator never reports a bandwidth above the one that its timings
allow.
-/

namespace AttAcc.Controller

open Dram (Command)

/-- How often a command is on a bus for a node. -/
def commandsAt (cmd : Command) (path : List ℤ) (issues : List (ℕ × Issue)) : ℕ :=
  issues.countP fun p => decide (p.2.2 = cmd ∧ p.2.1.addrVec.take path.length = path)

/-- The requests that end with a command at a node. -/
def endsAt (cmd : Command) (path : List ℤ) (p : Packet) : Bool :=
  decide (p.typeId.translation = cmd ∧ p.addrVec.take path.length = path)

/-- What is finished was on the bus. -/
theorem countP_finals_le {D : Device} (s : State D) (cmd : Command) (path : List ℤ) :
    (s.finals.countP fun r => endsAt cmd path r.packet) ≤ commandsAt cmd path (bus s.log) := by
  rw [State.finals, commandsAt, bus, List.countP_filterMap, List.countP_filterMap]
  refine List.countP_mono_left fun e _ he => ?_
  cases e with
  | forwarded req | delivered req | lost req => cases he
  | issued clk req command =>
    rw [Entry.final?] at he
    split_ifs at he with hfinal
    · obtain ⟨hcmd, hpath⟩ := of_decide_eq_true he
      exact decide_eq_true ⟨hfinal.trans hcmd, hpath⟩
    · cases he

end AttAcc.Controller

namespace AttAcc.Memory

open Controller (Packet bus commandsAt endsAt countP_finals_le hbm3PIM nodeAt)
open Dram (Command NodeBase Organization TimingCons commandScope covers)
open Library
open Trace (Side TraceEntry)

variable {o : Organization} {base : NodeBase o} {n : ℕ} {cons : List TimingCons} {con : TimingCons}
  {cmd : Command} {path : List ℤ}

/-- An address covers the nodes on its path. -/
theorem covers_take (addrVec : List ℤ) (k : ℕ) : covers addrVec (addrVec.take k) = true := by
  induction addrVec generalizing k with
  | nil => rfl
  | cons field rest ih =>
    cases k with
    | zero => rfl
    | succ k => simpa [covers] using ih k

/-- A constraint between a command and itself, as a countdown. -/
def selfCountdown (K : base.Keeps cons) (hcon : con ∈ cons) (hpath : path.length = con.level + 1)
    (hpreceding : cmd ∈ con.preceding) (hfollowing : cmd ∈ con.following)
    (hscope : con.level ≤ commandScope cmd) :
    Countdown (hbm3PIM base).tick (hbm3PIM base).act (hbm3PIM base).Allows
      (fun i => decide (i.2 = cmd ∧ i.1.addrVec.take path.length = path) = true)
      (fun i => decide (i.2 = cmd ∧ i.1.addrVec.take path.length = path) = true) con.latency :=
  (countdown K hcon hpath hfollowing hscope).imp
    (fun i hi => by
      obtain ⟨rfl, htake⟩ := of_decide_eq_true hi
      exact ⟨hpreceding, htake ▸ covers_take _ _⟩)
    (fun i hi => by
      obtain ⟨rfl, htake⟩ := of_decide_eq_true hi
      exact ⟨rfl, hpath ▸ htake⟩)

/-- **A command cannot be issued faster than a constraint on it allows**: in every simulation of
every trace, at every node. -/
theorem bus_rate (K : base.Keeps cons) (setup : Setup (hbm3PIM base) n) (entries : List TraceEntry)
    (sides : List Side) (c : Fin n) (hcon : con ∈ cons) (hpath : path.length = con.level + 1)
    (hpreceding : cmd ∈ con.preceding) (hfollowing : cmd ∈ con.following)
    (hscope : con.level ≤ commandScope cmd) :
    let ctrl := ((setup.run entries sides).channel c).controller
    commandsAt cmd path (bus ctrl.log) * con.latency ≤ ctrl.clk.toNat + con.latency := by
  have hreplayed := replayed_run setup entries sides c
  exact hreplayed.legal.countP_mul_le
    (selfCountdown K hcon hpath hpreceding hfollowing hscope)
    fun q hq _ => hreplayed.le_clk q hq

/-! ## Cycles of a simulation -/

/-- No channel is ahead of the memory system. -/
theorem clk_le {D : Controller.Device} (setup : Setup D n) (entries : List TraceEntry)
    (sides : List Side) (c : Fin n) :
    ((setup.run entries sides).channel c).controller.clk ≤
      (setup.run entries sides).memory.clk := by
  rw [Setup.run, Setup.start]
  refine Trace.run_induction
    (P := fun s => ∀ c, (s.channel c).controller.clk ≤ s.memory.clk) ?_ ?_ (fun _ => le_rfl) sides c
  · intro s s' requestSent hs hlt hattempt h c
    obtain ⟨hclk, ⟨-, -, p, -, hsend⟩ | ⟨-, -, hsame | ⟨p, hsend⟩⟩⟩ :=
      Trace.attempt_cases hs hlt hattempt
    · obtain ⟨-, -, -, c', -, s₁, haccepts, hchannels⟩ | ⟨hfalse, -⟩ := send_cases hsend
      · have hc : (s'.channel c).controller.clk = (s.channel c).controller.clk := by
          rw [Trace.State.channel, hchannels]
          by_cases hself : c = c'
          · rw [hself, Function.update_self]
            exact Controller.clk_send haccepts
          · rw [Function.update_of_ne hself]
        rw [hc, hclk]
        exact h c
      · cases hfalse
    · rw [Trace.State.channel, hsame, hclk]
      exact h c
    · obtain ⟨htrue, -⟩ | ⟨-, hchannels, -⟩ := send_cases hsend
      · cases htrue
      · rw [Trace.State.channel, hchannels, hclk]
        exact h c
  · intro s _ h c
    have hclk : (s.tickMemory setup.parts).memory.clk = s.memory.clk + 1 := rfl
    rw [hclk, Nat.cast_succ]
    obtain ⟨-, -, hticks⟩ | ⟨-, hsame⟩ := tick_cases setup s.memory.controllers
    · obtain ⟨s₁, hs₁, hchannel⟩ := Option.map_eq_some_iff.mp (hticks c)
      have hcontroller : ((s.tickMemory setup.parts).channel c).controller = s₁ :=
        (congrArg Channel.controller hchannel).symm
      rw [hcontroller, Controller.clk_tick hs₁]
      exact Int.add_le_add_right (h c) 1
    · have hchannel : (s.tickMemory setup.parts).channel c = s.channel c := congrFun hsame c
      rw [hchannel]
      exact (h c).trans (Int.le_add_one le_rfl)

/-- Refreshes need banks closed. -/
theorem refreshCloses_hbm3PIM (base : NodeBase o) : (hbm3PIM base).RefreshCloses := by
  intro s addrVec
  show (Dram.Preq.RequireAllBanksClosed s.1 .REFab).isOpening = false
  rw [Dram.Preq.RequireAllBanksClosed]
  split_ifs
  · rfl
  · rfl

/-- The rate, by the clock of the memory system. -/
theorem bus_rate_memory (K : base.Keeps cons) (setup : Setup (hbm3PIM base) n)
    (entries : List TraceEntry) (sides : List Side) (c : Fin n) (hcon : con ∈ cons)
    (hpath : path.length = con.level + 1) (hpreceding : cmd ∈ con.preceding)
    (hfollowing : cmd ∈ con.following) (hscope : con.level ≤ commandScope cmd) :
    commandsAt cmd path (bus ((setup.run entries sides).channel c).controller.log) * con.latency ≤
      (setup.run entries sides).memory.clk + con.latency :=
  calc commandsAt cmd path (bus ((setup.run entries sides).channel c).controller.log) * con.latency
      ≤ ((setup.run entries sides).channel c).controller.clk.toNat + con.latency :=
        bus_rate K setup entries sides c hcon hpath hpreceding hfollowing hscope
    _ ≤ (setup.run entries sides).memory.clk + con.latency :=
        Nat.add_le_add_right (Int.toNat_le.mpr (clk_le setup entries sides c)) _

/-- When a trace of PIM requests is done, the requests that end with a command are on the bus. -/
theorem countP_lines_le (setup : Setup (hbm3PIM base) n) {entries : List TraceEntry}
    (hpim : ∀ t ∈ entries, IsPimLine t) (sides : List Side)
    (hover : (setup.run entries sides).isOver = true) (c : Fin n) (hbarrier : cmd ≠ .BARRIER)
    (path : List ℤ) : (setup.lines entries c).countP (endsAt cmd path) ≤
      commandsAt cmd path (bus ((setup.run entries sides).channel c).controller.log) := by
  set ctrl := ((setup.run entries sides).channel c).controller
  have hperm :=
    (finals_perm_of_isOver (refreshCloses_hbm3PIM base) setup hpim sides hover c).countP_eq
      (endsAt cmd path)
  calc (setup.lines entries c).countP (endsAt cmd path)
      ≤ ((setup.lines entries c).filter isWork).countP (endsAt cmd path) := by
        rw [List.countP_filter]
        refine List.countP_mono_left fun p _ hp => ?_
        have hwork : isWork p = true := decide_eq_true fun htype => hbarrier <| by
          rw [← (of_decide_eq_true hp).1, htype]
          rfl
        rw [hp, hwork]
        rfl
    _ ≤ (ctrl.finals.map Controller.Request.packet |>.filter isWork).countP (endsAt cmd path) := by
        rw [hperm, List.countP_append]
        exact Nat.le_add_right _ _
    _ ≤ (ctrl.finals.map Controller.Request.packet).countP (endsAt cmd path) :=
        List.filter_sublist.countP_le
    _ = ctrl.finals.countP fun r => endsAt cmd path r.packet := List.countP_map
    _ ≤ commandsAt cmd path (bus ctrl.log) := countP_finals_le ctrl cmd path

/-- **How long a simulation takes**: when a trace of PIM requests is done, the memory system has
ticked as often as the requests for one node need that end with a command which is kept apart
from itself there, and is ready only with the node. -/
theorem simulation_rate (K : base.Keeps cons) (setup : Setup (hbm3PIM base) n)
    {entries : List TraceEntry} (hpim : ∀ t ∈ entries, IsPimLine t) (sides : List Side)
    (hover : (setup.run entries sides).isOver = true) (c : Fin n) (hcon : con ∈ cons)
    (hpath : path.length = con.level + 1) (hpreceding : cmd ∈ con.preceding)
    (hfollowing : cmd ∈ con.following) (hscope : con.level ≤ commandScope cmd)
    (hbarrier : cmd ≠ .BARRIER) :
    (setup.lines entries c).countP (endsAt cmd path) * con.latency ≤
      (setup.run entries sides).memory.clk + con.latency := by
  have hlines := countP_lines_le setup hpim sides hover c hbarrier path
  calc (setup.lines entries c).countP (endsAt cmd path) * con.latency
      ≤ commandsAt cmd path (bus ((setup.run entries sides).channel c).controller.log) *
          con.latency := Nat.mul_le_mul_right _ hlines
    _ ≤ (setup.run entries sides).memory.clk + con.latency :=
        bus_rate_memory K setup entries sides c hcon hpath hpreceding hfollowing hscope

/-- Two MACs and their activation. -/
theorem simulation_rate_macs : (oneBank.run macBarrierMacLines
    (.frontend :: List.replicate 7 .memory)).isOver = true ∧
      2 * 5 ≤ (oneBank.run macBarrierMacLines
        (.frontend :: List.replicate 7 .memory)).memory.clk + 5 := by
  have hover : (oneBank.run macBarrierMacLines
      (.frontend :: List.replicate 7 .memory)).isOver = true := by decide +kernel
  exact ⟨hover, simulation_rate (Dram.keeps_timedNodes macsApart (by decide) 25) oneBank
    isPimLine_macs _ hover 0 List.mem_cons_self (rfl : [(0 : ℤ)].length = 0 + 1)
    List.mem_cons_self List.mem_cons_self (Nat.zero_le _) (by decide)⟩

end AttAcc.Memory
