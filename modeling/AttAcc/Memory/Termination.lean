import Mathlib.Algebra.BigOperators.Fin
import Mathlib.Data.Finset.Lattice.Fold
import Mathlib.Data.Prod.Lex
import Mathlib.Order.Lattice.Nat
import AttAcc.Controller.Service
import AttAcc.Memory.Completion

/-!
# The loop of `main` ends

A simulation of PIM work ends, if a round of refreshes adds less to the load of a controller than
the cycles between two rounds (`exists_mainLoop`): it is over, or it throws as the refreshes of a
round do not fit the buffer of a channel. The lines that are to be sent and finished become fewer;
between, the largest load of a channel goes down, but for a round every `nREFI` cycles.
-/

namespace AttAcc.Trace

open Controller (Packet)

variable {σ : Type*} {parts : Parts σ} {entries : List TraceEntry} {s s' : State σ}

/-- A round of the frontend hands over the next line. -/
theorem attempt_of_packet (h : Inv entries s) (hlt : s.frontend.traceCount < entries.length)
    {p : Packet} (hp : entries[s.frontend.traceCount].packet parts.applyMapper = some p)
    {requestSent : Bool} (hs' : s.attempt parts = (requestSent, s')) :
    parts.send (p.addrVec.getD 0 (-1)) p s.memory.controllers =
      (requestSent, s'.memory.controllers) := by
  have hget : s.frontend.trace[s.frontend.currTraceIdx]? = some entries[s.frontend.traceCount] := by
    rw [h.sameTrace, h.currTraceIdx_eq hlt]
    exact List.getElem?_eq_getElem hlt
  obtain ⟨type, htype, rfl⟩ := Option.map_eq_some_iff.mp hp
  rw [State.attempt] at hs'
  simp only [hget, htype] at hs'
  rcases hsend : s.memory.send parts entries[s.frontend.traceCount].addr type with
    ⟨isSuccess, memory⟩
  have hcontrollers := (MemorySystem.controllers_send hsend).2
  simp only [hsend] at hs'
  cases isSuccess with
  | false =>
    obtain ⟨rfl, rfl⟩ := Prod.mk.inj hs'
    exact hcontrollers
  | true =>
    obtain ⟨rfl, rfl⟩ := Prod.mk.inj hs'
    exact hcontrollers

end AttAcc.Trace

namespace AttAcc.Controller.RefreshManager

/-- A round is submitted when it is due, at most. -/
theorem InPhase.refreshes_cases {m : RefreshManager} (h : m.InPhase) :
    m.tick.2 = [] ∨ m.tick.2 = m.round ∧ m.nrefi ∣ m.clk + 1 := by
  rw [RefreshManager.tick]
  simp only
  split_ifs with hdue
  · refine .inr ⟨rfl, ?_⟩
    rw [hdue.2, h.nextRefreshCycle hdue.1]
    exact dvd_mul_right _ _
  · exact .inl rfl

end AttAcc.Controller.RefreshManager

namespace AttAcc.Memory

open Controller (Addr Device Latencies Packet RowMachine Serving roundLoad)
open Library
open Trace (Side TraceEntry requestType)

variable {D : Device} {n : ℕ} {setup : Setup D n} {entries : List TraceEntry}
  {s s' : Simulation D n} {M : Fin n → RowMachine D} {L : Latencies D}

/-- A PIM request for a channel is rejected by a full buffer. -/
theorem rejected_cases {σ σ' : Channels D n} {p : Packet} (hp : p.typeId.sendBuffer = some .pim)
    {c : Fin n} (hrunning : σ.thrown = false) (h : Setup.send (c : ℕ) p σ = (false, σ')) :
    σ'.thrown = false ∧ (σ.channel c).controller.buffer .pim ≠ [] := by
  have hrange : 0 ≤ ((c : ℕ) : ℤ) ∧ ((c : ℕ) : ℤ).toNat < n := ⟨Int.natCast_nonneg _, c.isLt⟩
  have hread : ¬p.typeId = .Read := by
    intro hread
    rw [hread] at hp
    cases hp
  rw [Setup.send, hrunning, dif_pos hrange] at h
  simp only [Bool.false_eq_true, if_false] at h
  cases hsend : (σ.channel c).controller.send p with
  | none =>
    rw [Controller.State.send] at hsend
    simp [hread, hp] at hsend
  | some result =>
    obtain ⟨s', isSuccess⟩ := result
    have hsend' : (σ.channel ⟨((c : ℕ) : ℤ).toNat, hrange.2⟩).controller.send p =
        some (s', isSuccess) := hsend
    simp only [hsend'] at h
    obtain ⟨rfl, rfl⟩ := Prod.mk.inj h
    rcases Controller.send_pim_cases hp hsend with ⟨htrue, -⟩ | ⟨-, -, hne⟩
    · cases htrue
    · exact ⟨rfl, hne⟩

/-- What a trace asks of the devices: its lines are PIM requests for channels that there are, which
the machines of rows know. -/
structure Servable (setup : Setup D n) (M : Fin n → RowMachine D) (entries : List TraceEntry) :
    Prop where
  isPimLine : ∀ t ∈ entries, IsPimLine t
  mapsTo : ∀ t ∈ entries, ∃ c, setup.MapsTo t c
  known : ∀ c, ∀ p ∈ setup.lines entries c, (M c).Known p
  valid : ∀ c, (M c).Valid (setup.dram c)

/-- The program has thrown, as the refreshes of a round do not fit the buffer of a channel. -/
def Rejects (setup : Setup D n) (s : Simulation D n) : Prop :=
  s.thrown = true ∧ ∃ c, ((s.channel c).controller.buffers .priority).maxSize <
    ((s.channel c).controller.buffer .priority).length + setup.numRanks

/-- A simulation of PIM work that goes on. -/
structure Working (setup : Setup D n) (M : Fin n → RowMachine D) (entries : List TraceEntry)
    (s : Simulation D n) : Prop where
  consistent : Consistent setup entries s
  inv : Trace.Inv entries s
  running : s.thrown = false
  serving : ∀ c, Serving (M c) (s.channel c).controller

/-- What is left to do: the lines that are not sent, which have to be sent and finished, and those
that wait. -/
def left (entries : List TraceEntry) (s : Simulation D n) : ℕ :=
  2 * (entries.length - s.frontend.traceCount) +
    ∑ c, ((s.channel c).controller.buffer .pim).length

/-- The largest load of a channel. -/
def backlog (M : Fin n → RowMachine D) (L : Latencies D) (s : Simulation D n) : ℕ :=
  Finset.univ.sup fun c => (s.channel c).controller.load (M c) L

/-- The most that a round of refreshes adds to the load of a channel. -/
def roundBacklog (M : Fin n → RowMachine D) (L : Latencies D) (ranks : ℕ) : ℕ :=
  Finset.univ.sup fun c => roundLoad (M c) L ranks

theorem length_round (setup : Setup D n) (c : Fin n) :
    (setup.refresh c).round.length = setup.numRanks := by
  simp [Controller.RefreshManager.round, Setup.refresh, Controller.RefreshManager.setup]

namespace Working

theorem start (h : Servable setup M entries) : Working setup M entries (setup.start entries) where
  consistent := .start setup entries
  inv := Trace.inv_init entries setup.channels
  running := rfl
  serving c := .initial setup.maxSize (h.valid c)

/-- A line of the trace, as the request that is sent. -/
theorem exists_packet (hs : Servable setup M entries) {i : ℕ} (hi : i < entries.length) :
    ∃ p, entries[i].packet setup.applyMapper = some p ∧ p.typeId.sendBuffer = some .pim ∧
      ∃ c : Fin n, p.addrVec.getD 0 (-1) = (c : ℕ) ∧ (M c).Known p := by
  obtain ⟨type, htype, hbuffer⟩ := hs.isPimLine _ (List.getElem_mem hi)
  obtain ⟨c, p, hpacket, hc⟩ := hs.mapsTo _ (List.getElem_mem hi)
  obtain ⟨type', htype', rfl⟩ := Option.map_eq_some_iff.mp hpacket
  obtain rfl : type = type' := Option.some.inj (htype.symm.trans htype')
  refine ⟨_, hpacket, hbuffer, c, hc, hs.known c _ ?_⟩
  exact List.mem_filter.mpr
    ⟨List.mem_filterMap.mpr ⟨_, List.getElem_mem hi, hpacket⟩, decide_eq_true hc⟩

/-- **A round of the frontend** sends a line, or changes nothing that matters. -/
theorem attempt (hs : Servable setup M entries) (h : Working setup M entries s)
    (hlt : s.frontend.traceCount < entries.length) {requestSent : Bool}
    (hattempt : s.attempt setup.parts = (requestSent, s')) :
    Working setup M entries s' ∧ s'.memory.clk = s.memory.clk ∧
      (requestSent = true ∧ left entries s' < left entries s ∨
        requestSent = false ∧ s'.frontend.traceCount = s.frontend.traceCount ∧
          s'.memory.controllers.channel = s.memory.controllers.channel ∧
          ∃ c, (s.channel c).controller.buffer .pim ≠ []) := by
  have hconsistent := h.consistent.attempt h.inv hlt hattempt
  obtain ⟨hinv, hcount⟩ := h.inv.attempt hlt hattempt
  obtain ⟨hclk, -⟩ := Trace.attempt_cases h.inv hlt hattempt
  obtain ⟨p, hp, hbuffer, c, hc, hknown⟩ := exists_packet hs hlt
  have hsend := Trace.attempt_of_packet h.inv hlt hp hattempt
  rw [hc] at hsend
  rcases send_cases hsend with ⟨rfl, -, hrunning, c', hc', s₁, haccepts, hchannels⟩ |
    ⟨rfl, hchannels, -⟩
  · obtain rfl : c' = c := Fin.ext (Int.ofNat_inj.mp hc')
    have hself : s'.channel c' = { s.channel c' with controller := s₁ } := by
      rw [Trace.State.channel, hchannels, Function.update_self]
    have hother : ∀ i ≠ c', s'.channel i = s.channel i := by
      intro i hne
      rw [Trace.State.channel, hchannels, Function.update_of_ne hne]
    have hserving : ∀ i, Serving (M i) (s'.channel i).controller := by
      intro i
      by_cases hsame : i = c'
      · subst hsame
        rw [hself]
        exact (h.serving i).send hbuffer hknown haccepts
      · rw [hother i hsame]
        exact h.serving i
    have hlength : ∀ i, ((s'.channel i).controller.buffer .pim).length =
        ((s.channel i).controller.buffer .pim).length + if i = c' then 1 else 0 := by
      intro i
      by_cases hsame : i = c'
      · subst hsame
        rw [hself, if_pos rfl]
        rcases Controller.send_pim_cases hbuffer haccepts with
          ⟨-, -, -, -, r, -, -, hpim⟩ | ⟨hfalse, -⟩
        · rw [hpim, List.length_append, List.length_singleton]
        · cases hfalse
      · rw [hother i hsame, if_neg hsame, Nat.add_zero]
    refine ⟨⟨hconsistent, hinv, hrunning, hserving⟩, hclk, .inl ⟨rfl, ?_⟩⟩
    have hsum : ∑ i, ((s'.channel i).controller.buffer .pim).length =
        ∑ i, ((s.channel i).controller.buffer .pim).length + 1 := by
      simp [hlength, Finset.sum_add_distrib]
    rw [if_pos rfl] at hcount
    rw [left, left, hsum, hcount]
    omega
  · obtain ⟨hrunning, hne⟩ := rejected_cases hbuffer h.running hsend
    have hserving : ∀ i, Serving (M i) (s'.channel i).controller := by
      intro i
      rw [Trace.State.channel, hchannels]
      exact h.serving i
    exact ⟨⟨hconsistent, hinv, hrunning, hserving⟩, hclk, .inr ⟨rfl, hcount, hchannels, c, hne⟩⟩

/-- **A tick of the frontend** sends lines, or changes nothing that matters: it is finished, or it
waits for a channel. -/
theorem tickFrontend (hs : Servable setup M entries) (h : Working setup M entries s) :
    Working setup M entries (s.tickFrontend setup.parts) ∧
      (s.tickFrontend setup.parts).memory.clk = s.memory.clk ∧
      (left entries (s.tickFrontend setup.parts) < left entries s ∨
        (s.tickFrontend setup.parts).frontend.traceCount = s.frontend.traceCount ∧
          (s.tickFrontend setup.parts).memory.controllers.channel =
            s.memory.controllers.channel ∧
          (s.frontend.isFinished = true ∨ ∃ c, (s.channel c).controller.buffer .pim ≠ [])) := by
  have hloop : ∀ rounds, ∀ s : Simulation D n, Working setup M entries s →
      Working setup M entries (s.loop setup.parts rounds) ∧
        (s.loop setup.parts rounds).memory.clk = s.memory.clk ∧
        (left entries (s.loop setup.parts rounds) < left entries s ∨
          (s.loop setup.parts rounds).frontend.traceCount = s.frontend.traceCount ∧
            (s.loop setup.parts rounds).memory.controllers.channel =
              s.memory.controllers.channel ∧
            (s.frontend.isFinished = true ∨ rounds = 0 ∨
              ∃ c, (s.channel c).controller.buffer .pim ≠ [])) := by
    intro rounds
    induction rounds with
    | zero => exact fun s h => ⟨h, rfl, .inr ⟨rfl, rfl, .inr (.inl rfl)⟩⟩
    | succ rounds ih =>
      intro s h
      rw [Trace.State.loop]
      split_ifs with hfinished
      · exact ⟨h, rfl, .inr ⟨rfl, rfl, .inl hfinished⟩⟩
      · rcases hround : s.attempt setup.parts with ⟨requestSent, s₁⟩
        obtain ⟨h₁, hclk, hcases⟩ := h.attempt hs (h.inv.lt_of_not_finished hfinished) hround
        cases requestSent with
        | false =>
          obtain ⟨hfalse, -⟩ | ⟨-, hcount, hchannels, hwaits⟩ := hcases
          · cases hfalse
          · exact ⟨h₁, hclk, .inr ⟨hcount, hchannels, .inr (.inr hwaits)⟩⟩
        | true =>
          obtain ⟨-, hlt⟩ | ⟨hfalse, -⟩ := hcases
          · obtain ⟨h₂, hclk₂, hcases₂⟩ := ih s₁ h₁
            refine ⟨h₂, hclk₂.trans hclk, .inl ?_⟩
            rcases hcases₂ with hlt₂ | ⟨hcount, hchannels, -⟩
            · exact hlt₂.trans hlt
            · refine lt_of_eq_of_lt ?_ hlt
              simp only [left, Trace.State.channel, hcount, hchannels, if_true]
          · cases hfalse
  obtain ⟨hworking, hclk, hcases⟩ := hloop (s.frontend.traceLength - s.frontend.traceCount) s h
  refine ⟨hworking, hclk, hcases.imp_right ?_⟩
  rintro ⟨hcount, hchannels, hfinished | hnone | hwaits⟩
  · exact ⟨hcount, hchannels, .inl hfinished⟩
  · refine ⟨hcount, hchannels, .inl ?_⟩
    rw [Trace.Frontend.isFinished]
    exact decide_eq_true (Nat.sub_eq_zero_iff_le.mp hnone)
  · exact ⟨hcount, hchannels, .inr hwaits⟩

/-- **A tick of a channel** finishes a request, or lowers the load, but for a round that is due. -/
theorem load_tick (h : Working setup M entries s) (c : Fin n)
    {ch' : Channel D} (htick : (s.channel c).tick setup.watermarks (setup.stale c) = some ch')
    (L : Latencies D) :
    Serving (M c) ch'.controller ∧
      ((ch'.controller.buffer .pim).length < ((s.channel c).controller.buffer .pim).length ∨
        ch'.controller.buffer .pim = (s.channel c).controller.buffer .pim ∧
          ch'.controller.load (M c) L ≤ (s.channel c).controller.load (M c) L - 1 +
            if setup.nrefi.toNat ∣ s.memory.clk + 1 then roundLoad (M c) L setup.numRanks
            else 0) := by
  obtain ⟨s₁, hs₁, rfl⟩ := Option.map_eq_some_iff.mp htick
  have hc := h.consistent.follows c
  refine ⟨(h.serving c).tick hs₁, ?_⟩
  rcases (h.serving c).load_tick (L := L) hs₁ with hlt | ⟨hsame, hload⟩
  · exact .inl hlt
  · refine .inr ⟨hsame, hload.trans (Nat.add_le_add_left ?_ _)⟩
    rcases hc.inPhase.refreshes_cases with hnone | ⟨hround, hdue⟩
    · rw [if_pos hnone]
      exact Nat.zero_le _
    · have hdvd : setup.nrefi.toNat ∣ s.memory.clk + 1 := by
        have hclk : (s.channel c).refresh.clk = s.memory.clk :=
          hc.clk.trans (h.consistent.clk h.running c)
        rw [hc.nrefi, hclk] at hdue
        refine Int.natCast_dvd_natCast.mp ?_
        rw [Int.toNat_of_nonneg setup.nrefi_pos.le, Nat.cast_succ]
        exact hdue
      have hlength : (s.channel c).refresh.tick.2.length = setup.numRanks := by
        rw [hround, hc.round, length_round]
      rw [if_pos hdvd, hlength]
      split_ifs
      · exact Nat.zero_le _
      · exact le_rfl

/-- A tick of a channel throws where its refreshes do not fit. -/
theorem rejects_of_tick (h : Working setup M entries s) {c : Fin n}
    (htick : (s.channel c).tick setup.watermarks (setup.stale c) = none) :
    ((s.channel c).controller.buffers .priority).maxSize <
      ((s.channel c).controller.buffer .priority).length + setup.numRanks := by
  have hnone := Option.map_eq_none_iff.mp (Option.map_eq_none_iff.mp htick)
  have hlt := Controller.maxSize_lt_of_refreshTick hnone
  rw [(h.serving c).pimOnly.beginTick_eq] at hlt
  have hlength : (s.channel c).refresh.tick.2.length ≤ setup.numRanks := by
    rcases (h.consistent.follows c).inPhase.refreshes_cases with hnil | ⟨hround, -⟩
    · rw [hnil]
      exact Nat.zero_le _
    · rw [hround, (h.consistent.follows c).round, length_round]
  exact hlt.trans_le (Nat.add_le_add_left hlength _)

/-- **A tick of the memory system** finishes a request, or lowers the backlog, or throws as the
refreshes of a channel do not fit. -/
theorem tickMemory (h : Working setup M entries s) (L : Latencies D) :
    Rejects setup (s.tickMemory setup.parts) ∨
      Working setup M entries (s.tickMemory setup.parts) ∧
        (left entries (s.tickMemory setup.parts) < left entries s ∨
          left entries (s.tickMemory setup.parts) = left entries s ∧
            backlog M L (s.tickMemory setup.parts) ≤ backlog M L s - 1 +
              if setup.nrefi.toNat ∣ s.memory.clk + 1 then roundBacklog M L setup.numRanks
              else 0) := by
  have hconsistent := h.consistent.tickMemory
  have hinv : Trace.Inv entries (s.tickMemory setup.parts) := h.inv.step .memory
  by_cases hall : ∀ c, ((s.channel c).tick setup.watermarks (setup.stale c)).isSome
  · obtain ⟨hrunning, hticks⟩ : (setup.tick s.memory.controllers).thrown = false ∧ ∀ c,
        (s.channel c).tick setup.watermarks (setup.stale c) =
          some ((setup.tick s.memory.controllers).channel c) := by
      have hrunning : ¬s.memory.controllers.thrown = true := ne_true_of_eq_false h.running
      rw [Setup.tick, if_neg hrunning, dif_pos hall]
      exact ⟨h.running, fun c => (Option.some_get (hall c)).symm⟩
    have hchannel := fun c => h.load_tick c (hticks c) L
    refine .inr ⟨⟨hconsistent, hinv, hrunning, fun c => (hchannel c).1⟩, ?_⟩
    by_cases hfinished : ∃ c, (((s.tickMemory setup.parts).channel c).controller.buffer
        .pim).length < ((s.channel c).controller.buffer .pim).length
    · left
      obtain ⟨c, hlt⟩ := hfinished
      refine Nat.add_lt_add_left (Finset.sum_lt_sum (fun c' _ => ?_) ⟨c, Finset.mem_univ c, hlt⟩) _
      rcases (hchannel c').2 with hlt' | ⟨hsame, -⟩
      · exact hlt'.le
      · exact (congrArg List.length hsame).le
    · right
      have hstays := fun c => (hchannel c).2.resolve_left fun hlt => hfinished ⟨c, hlt⟩
      refine ⟨congrArg (2 * (entries.length - s.frontend.traceCount) + ·)
        (Finset.sum_congr rfl fun c _ => congrArg List.length (hstays c).1),
        Finset.sup_le fun c hc => ?_⟩
      have hload := (hstays c).2
      have hle : (s.channel c).controller.load (M c) L ≤ backlog M L s :=
        Finset.le_sup (f := fun c => (s.channel c).controller.load (M c) L) hc
      have hround : roundLoad (M c) L setup.numRanks ≤ roundBacklog M L setup.numRanks :=
        Finset.le_sup (f := fun c => roundLoad (M c) L setup.numRanks) hc
      show ((s.tickMemory setup.parts).channel c).controller.load (M c) L ≤ _
      split_ifs at hload ⊢
      · exact hload.trans (Nat.add_le_add (Nat.sub_le_sub_right hle 1) hround)
      · exact hload.trans (Nat.add_le_add_right (Nat.sub_le_sub_right hle 1) 0)
  · left
    obtain ⟨c, hc⟩ := not_forall.mp hall
    have hnone := Option.not_isSome_iff_eq_none.mp hc
    obtain ⟨hthrown, hsame⟩ : (setup.tick s.memory.controllers).thrown = true ∧
        (setup.tick s.memory.controllers).channel = s.memory.controllers.channel := by
      have hrunning : ¬s.memory.controllers.thrown = true := ne_true_of_eq_false h.running
      rw [Setup.tick, if_neg hrunning, dif_neg hall]
      exact ⟨rfl, rfl⟩
    refine ⟨hthrown, c, ?_⟩
    have hchannel : (s.tickMemory setup.parts).channel c = s.channel c := congrFun hsame c
    rw [hchannel]
    exact h.rejects_of_tick hnone

/-- A simulation that is not over has a line to send, or a channel with a load. -/
theorem backlog_pos (h : Working setup M entries s) (hover : ¬s.isOver = true) (L : Latencies D)
    (hwaits : s.frontend.isFinished = true ∨ ∃ c, (s.channel c).controller.buffer .pim ≠ []) :
    0 < backlog M L s := by
  have hload : ∀ c, (s.channel c).controller.buffer .priority ≠ [] ∨
      (s.channel c).controller.buffer .pim ≠ [] → 0 < backlog M L s := by
    intro c hc
    have hpos : 0 < (s.channel c).controller.load (M c) L := Controller.load_pos hc
    exact hpos.trans_le
      (Finset.le_sup (f := fun c => (s.channel c).controller.load (M c) L) (Finset.mem_univ c))
  rcases hwaits with hfinished | ⟨c, hc⟩
  · have hpending : s.isPending = true := by
      by_contra hnot
      exact hover (Bool.and_eq_true_iff.mpr ⟨hfinished, by simp [hnot]⟩)
    obtain ⟨c, hc⟩ := of_decide_eq_true hpending
    have hpim := (h.serving c).pimOnly
    refine hload c ?_
    simpa [Channel.isPending, hpim.active, hpim.read, hpim.write, hpim.pending] using hc
  · exact hload c (.inr hc)

/-- The cycles since the last round. -/
theorem elapsed_succ {N clk : ℕ} (hN : 0 < N) :
    ¬N ∣ clk + 1 ∧ (clk + 1) % N = clk % N + 1 ∨
      N ∣ clk + 1 ∧ clk % N + 1 = N ∧ (clk + 1) % N = 0 := by
  have hlt := Nat.mod_lt clk hN
  have hmod : (clk + 1) % N = (clk % N + 1) % N := (Nat.mod_add_mod clk N 1).symm
  rcases Nat.lt_or_eq_of_le (show clk % N + 1 ≤ N from hlt) with hless | heq
  · rw [Nat.mod_eq_of_lt hless] at hmod
    refine .inl ⟨fun hdvd => ?_, hmod⟩
    rw [Nat.mod_eq_zero_of_dvd hdvd] at hmod
    exact absurd hmod.symm (Nat.succ_ne_zero _)
  · have hzero : (clk + 1) % N = 0 := by rw [hmod, heq, Nat.mod_self]
    exact .inr ⟨Nat.dvd_of_mod_eq_zero hzero, heq, hzero⟩

end Working

/-- What every iteration brings closer to its end. -/
def rank (setup : Setup D n) (M : Fin n → RowMachine D) (L : Latencies D)
    (entries : List TraceEntry) (s : Simulation D n) : ℕ ×ₗ ℕ :=
  toLex (left entries s, countdown (roundBacklog M L setup.numRanks) (backlog M L s)
    (s.memory.clk % setup.nrefi.toNat))

/-- **An iteration of the loop** brings the end closer. -/
theorem Working.iteration (hs : Servable setup M entries) (h : Working setup M entries s)
    (hround : roundBacklog M L setup.numRanks < setup.nrefi.toNat) (hover : ¬s.isOver = true) :
    Rejects setup (setup.iteration s) ∨ Working setup M entries (setup.iteration s) ∧
      rank setup M L entries (setup.iteration s) < rank setup M L entries s := by
  obtain ⟨hfrontend, hclk, hcases⟩ := h.tickFrontend hs
  refine (hfrontend.tickMemory L).imp_right ?_
  rintro ⟨hmemory, hcases'⟩
  refine ⟨hmemory, Prod.Lex.lt_iff.mpr ?_⟩
  have hmemoryClk : (setup.iteration s).memory.clk = s.memory.clk + 1 := congrArg (· + 1) hclk
  rcases hcases with hsent | ⟨hcount, hchannels, hwaits⟩
  · -- A line was sent.
    left
    rcases hcases' with hfinished | ⟨hsame, -⟩
    · exact hfinished.trans hsent
    · exact lt_of_eq_of_lt hsame hsent
  · have hleft : left entries (s.tickFrontend setup.parts) = left entries s := by
      simp only [left, Trace.State.channel, hcount, hchannels]
    have hbacklog : backlog M L (s.tickFrontend setup.parts) = backlog M L s := by
      simp only [backlog, Trace.State.channel, hchannels]
    rcases hcases' with hfinished | ⟨hsame, hlower⟩
    · exact .inl (hfinished.trans_eq hleft)
    · refine .inr ⟨hsame.trans hleft, ?_⟩
      have hpos := h.backlog_pos hover L hwaits
      rw [hbacklog, hclk] at hlower
      have hN : 0 < setup.nrefi.toNat := (Nat.zero_le _).trans_lt hround
      show countdown _ _ ((setup.iteration s).memory.clk % _) < countdown _ _ _
      rw [hmemoryClk]
      refine countdown_lt hround hpos ?_
      rcases @elapsed_succ _ s.memory.clk hN with ⟨hnot, helapsed⟩ | ⟨hdvd, hlast, hzero⟩
      · rw [if_neg hnot] at hlower
        exact .inl ⟨helapsed, hlower⟩
      · rw [if_pos hdvd] at hlower
        exact .inr ⟨hlast, hzero, hlower⟩

/-- The program has ended: it is done, or a refresh is rejected. -/
def Ended (setup : Setup D n) (s : Simulation D n) : Prop := s.isOver = true ∨ Rejects setup s

theorem mainLoop_eq (rounds : ℕ) (s : Simulation D n) : setup.mainLoop rounds s =
    loopUntil setup.iteration (fun s => s.thrown || s.isOver) rounds s := by
  induction rounds generalizing s with
  | zero => rfl
  | succ rounds ih => rw [Setup.mainLoop, loopUntil, ih]

/-- **The loop of `main` ends**, after its first round or later. -/
theorem exists_mainLoop (hs : Servable setup M entries)
    (hround : roundBacklog M L setup.numRanks < setup.nrefi.toNat) :
    ∃ rounds, Ended setup (setup.mainLoop (rounds + 1) (setup.start entries)) := by
  have hstop : ∀ s, Working setup M entries s → (s.thrown || s.isOver) = true → Ended setup s := by
    intro s h hstops
    rw [h.running, Bool.false_or] at hstops
    exact .inl hstops
  have hstep : ∀ s, Working setup M entries s → ¬Ended setup s → Ended setup (setup.iteration s) ∨
      Working setup M entries (setup.iteration s) ∧
        rank setup M L entries (setup.iteration s) < rank setup M L entries s :=
    fun s h hended => (h.iteration hs hround fun hover => hended (.inl hover)).imp_left .inr
  -- The first iteration comes before the first test.
  have hfirst := ((Working.start hs).tickFrontend hs).1.tickMemory L
  by_cases hended : Ended setup (setup.iteration (setup.start entries))
  · exact ⟨0, by simpa [mainLoop_eq] using hended⟩
  · obtain ⟨hworking, -⟩ := hfirst.resolve_left fun hrejects => hended (.inr hrejects)
    obtain ⟨rounds, hrounds⟩ := exists_loopUntil hstop hstep hworking hended
    refine ⟨rounds, ?_⟩
    rw [mainLoop_eq, loopUntil, if_neg fun hstops => hended (hstop _ hworking hstops)]
    exact hrounds

end AttAcc.Memory
