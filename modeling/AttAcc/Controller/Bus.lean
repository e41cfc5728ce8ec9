import AttAcc.Controller.Refresh
import AttAcc.Library.Components
import AttAcc.Library.Replay

/-!
# The command bus

What a controller has issued, with the cycles (`bus`), says what state its device is in, and every
command of it was what the device asked for at its cycle, and ready (`Replayed`). This holds of
any device, whatever the controller is sent, for both passes of a tick: the second one asks a device
that has seen the command of the first.
-/

namespace AttAcc.Controller

open Dram (Command)
open Library

variable {D : Device} {w : Watermarks} {s s' : State D} {dram₀ : D.State} {c : Cursor}

/-- A command on the bus, and the request that it is issued for. -/
abbrev Issue := Request × Command

/-- The command of an entry, with its cycle. -/
def Entry.issue : Entry → Option (ℕ × Issue)
  | .issued clk req command => some (clk.toNat, req, command)
  | .forwarded _ | .delivered _ | .lost _ => none

/-- The commands of a log, newest first. -/
def bus (log : List Entry) : List (ℕ × Issue) := log.filterMap Entry.issue

/-- A device sees a command. -/
def Device.act (D : Device) (dram : D.State) (i : Issue) : D.State :=
  D.issueCommand dram i.2 i.1.addrVec

/-- A command is what the device asks for, and ready. -/
def Device.Allows (D : Device) (dram : D.State) (i : Issue) : Prop :=
  i.2 = command dram i.1 ∧ D.checkReady dram i.2 i.1.addrVec = true

/-- The device, after some commands. -/
abbrev Device.replay (D : Device) (dram : D.State) (issues : List (ℕ × Issue)) (clk : ℕ) :
    D.State :=
  Library.replay D.tick D.act dram issues clk

/-- Every command of a bus was asked for, and ready. -/
abbrev Device.Legal (D : Device) (dram : D.State) (issues : List (ℕ × Issue)) : Prop :=
  Library.Legal D.tick D.act D.Allows dram issues

/-- The commands on the bus of a controller are legal, and have left its device as it is. -/
structure Replayed (dram₀ : D.State) (s : State D) : Prop where
  clk_nonneg : 0 ≤ s.clk
  le_clk : ∀ p ∈ bus s.log, p.1 ≤ s.clk.toNat
  dram : D.replay dram₀ (bus s.log) s.clk.toNat = s.dram
  legal : D.Legal dram₀ (bus s.log)

/-! What the steps of a controller change of its clock, its device and its bus. -/

theorem frame_finish (s : State D) (c : Cursor) :
    (s.finish c).clk = s.clk ∧ (s.finish c).dram = s.dram ∧ (s.finish c).log = s.log := by
  rw [State.finish]
  split_ifs
  · exact ⟨rfl, rfl, rfl⟩
  · exact ⟨rfl, rfl, rfl⟩

theorem frame_moveToActive (s : State D) (c : Cursor) :
    (s.moveToActive c).clk = s.clk ∧ (s.moveToActive c).dram = s.dram ∧
      bus (s.moveToActive c).log = bus s.log := by
  rw [State.moveToActive]
  split_ifs
  · exact ⟨rfl, rfl, rfl⟩
  · exact ⟨rfl, rfl, rfl⟩

theorem frame_accept_bus (s : State D) (id : BufferId) (r : Request) :
    (s.accept id r).1.clk = s.clk ∧ (s.accept id r).1.dram = s.dram ∧
      (s.accept id r).1.log = s.log := by
  rw [State.accept]
  split_ifs
  · exact ⟨rfl, rfl, rfl⟩
  · exact ⟨rfl, rfl, rfl⟩

namespace Replayed

theorem initial (maxSize : BufferId → ℕ) (dram : D.State) :
    Replayed dram (State.initial maxSize dram) :=
  ⟨le_rfl, fun _ hp => absurd hp List.not_mem_nil, rfl, trivial⟩

theorem congr (h : Replayed dram₀ s) (hclk : s'.clk = s.clk) (hdram : s'.dram = s.dram)
    (hbus : bus s'.log = bus s.log) : Replayed dram₀ s' := by
  refine ⟨?_, ?_, ?_, ?_⟩
  · rw [hclk]
    exact h.clk_nonneg
  · rw [hclk, hbus]
    exact h.le_clk
  · rw [hclk, hbus, hdram]
    exact h.dram
  · rw [hbus]
    exact h.legal

/-- **A command goes to the bus**, which a pass has chosen. -/
theorem commanded (h : Replayed dram₀ s) {fits : Command → Bool} (hc : Chosen s fits c) :
    Replayed dram₀ (s.commanded c) := by
  have hbus : bus (s.commanded c).log = (s.clk.toNat, c.req, c.command) :: bus s.log := rfl
  refine ⟨h.clk_nonneg, ?_, ?_, ?_⟩
  · rw [hbus]
    exact List.forall_mem_cons.mpr ⟨le_rfl, h.le_clk⟩
  · rw [hbus]
    exact replay_self.trans (congrArg (fun dram => D.act dram (c.req, c.command)) h.dram)
  · rw [hbus]
    refine ⟨⟨h.le_clk, ?_⟩, h.legal⟩
    show D.Allows (D.replay dram₀ (bus s.log) s.clk.toNat) (c.req, c.command)
    rw [h.dram]
    exact ⟨hc.command, hc.ready⟩

theorem issue (h : Replayed dram₀ s) {fits : Command → Bool} (hc : Chosen s fits c) :
    Replayed dram₀ (s.issue c) := by
  have hcommanded := h.commanded hc
  by_cases hfinal : c.command = c.req.finalCommand
  · obtain ⟨hclk, hdram, hlog⟩ := frame_finish (s.commanded c) c
    rw [State.issue_of_final hfinal]
    exact hcommanded.congr hclk hdram (congrArg bus hlog)
  · cases hmoves : s.moves c with
    | false =>
      rw [State.issue_of_stays hfinal hmoves]
      exact hcommanded
    | true =>
      obtain ⟨hclk, hdram, hbus⟩ := frame_moveToActive (s.commanded c) c
      rw [State.issue_of_moves hfinal hmoves]
      exact hcommanded.congr hclk hdram hbus

/-- A pass adds a legal command, or none. -/
theorem pass (h : Replayed dram₀ s) (w : Watermarks) (fits : Command → Bool) :
    Replayed dram₀ ((s.schedule w fits).1.serve (s.schedule w fits).2) := by
  obtain ⟨hpruned, hchosen⟩ := s.schedule_spec w fits
  have hafter : Replayed dram₀ (s.schedule w fits).1 :=
    h.congr hpruned.clk hpruned.dram (congrArg bus hpruned.log)
  cases houtcome : (s.schedule w fits).2 with
  | found c => exact hafter.issue (hchosen c houtcome)
  | stopped reqIt => exact hafter

/-- A cycle passes for the device. -/
theorem beginTick (h : Replayed dram₀ s) : Replayed dram₀ s.beginTick := by
  have hclk : (s.clk + 1).toNat = s.clk.toNat + 1 := Int.toNat_add h.clk_nonneg (by decide)
  have hnext : Replayed dram₀ ({ s with clk := s.clk + 1, dram := D.tick s.dram } : State D) := by
    refine ⟨Int.add_nonneg h.clk_nonneg (by decide), ?_, ?_, h.legal⟩
    · show ∀ p ∈ bus s.log, p.1 ≤ (s.clk + 1).toNat
      rw [hclk]
      exact fun p hp => Nat.le_succ_of_le (h.le_clk p hp)
    · show D.replay dram₀ (bus s.log) (s.clk + 1).toNat = D.tick s.dram
      rw [hclk]
      exact (replay_succ h.le_clk).trans (congrArg D.tick h.dram)
  rw [State.beginTick, State.serveCompletedReads]
  split
  · exact hnext
  · split_ifs
    · exact hnext.congr rfl rfl rfl
    · exact hnext

theorem accept (h : Replayed dram₀ s) (id : BufferId) (r : Request) :
    Replayed dram₀ (s.accept id r).1 := by
  obtain ⟨hclk, hdram, hlog⟩ := frame_accept_bus s id r
  exact h.congr hclk hdram (congrArg bus hlog)

theorem send (h : Replayed dram₀ s) {p : Packet} {r : State D × Bool} (hr : s.send p = some r) :
    Replayed dram₀ r.1 := by
  rw [State.send] at hr
  simp only at hr
  split_ifs at hr
  · obtain rfl := Option.some.inj hr
    exact h.congr rfl rfl rfl
  · obtain ⟨id, -, rfl⟩ := Option.map_eq_some_iff.mp hr
    exact h.accept id _

/-- **A step keeps the bus legal.** -/
theorem step (h : Replayed dram₀ s) (e : Event) : Replayed dram₀ (step w s e) := by
  cases e with
  | send p =>
    rw [Controller.step]
    cases hsend : s.send p with
    | none => exact h
    | some r => exact h.send hsend
  | tick refreshes stale =>
    rw [Controller.step, State.tick]
    cases hrefresh : State.refreshTick refreshes s.beginTick with
    | none => exact h
    | some s₁ =>
      have hs₁ : Replayed dram₀ s₁ := State.refreshTick_induction (P := Replayed dram₀)
        (fun s addrVec hs => hs.accept .priority _) h.beginTick hrefresh
      exact (hs₁.pass w _).pass w _

/-- **The bus of a controller is legal**, in every state that it runs to. -/
theorem of_runsTo {maxSize : BufferId → ℕ}
    (h : RunsTo (Controller.step w) (.initial maxSize dram₀) s) : Replayed dram₀ s :=
  h.keeps (fun _ e hs => hs.step e) (.initial maxSize dram₀)

end Replayed

end AttAcc.Controller
