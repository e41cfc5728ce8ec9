import AttAcc.Memory.System

/-!
# From the lines of a trace to the command bus

The requests that a controller accepts from the frontend are numbered by the lines of its channel,
so the request of a line can be told (`RequestOf`). A barrier in a trace then orders what the
controllers do with the lines of its channel on either side (`line_barrier_order`).
-/

namespace AttAcc.Memory

open Controller (Addr AddrVec Device Entry Ordered Accounted Packet Request RequestType Separated)
open Dram (Command)
open Library
open Trace (Side TraceEntry requestType)

variable {D : Device} {n : ℕ}

/-! ## Lines of a channel -/

/-- A line is mapped to a channel. -/
def Setup.MapsTo (setup : Setup D n) (t : TraceEntry) (c : Fin n) : Prop :=
  ∃ p, t.packet setup.applyMapper = some p ∧ p.addrVec.getD 0 (-1) = (c : ℕ)

/-- The requests that the frontend has sent to a channel, oldest first. -/
def Channel.sent (ch : Channel D) : List Request :=
  ch.controller.accepted.reverse.filter fun r => fromFrontend r.packet

/-- The request of line `i`, which is mapped to the channel: as many have been sent before it as
there are lines of the channel in front of it. -/
structure RequestOf (setup : Setup D n) (entries : List TraceEntry) (s : Simulation D n) (c : Fin n)
    (i : ℕ) (r : Request) : Prop where
  line : ∃ t, entries[i]? = some t ∧ setup.MapsTo t c
  request : (s.channel c).sent[(setup.lines (entries.take i) c).length]? = some r

section Lines

variable {setup : Setup D n} {entries : List TraceEntry} {c : Fin n} {i j : ℕ} {t : TraceEntry}

/-- A line of a channel stands behind the ones in front of it. -/
theorem lines_take (ht : entries[i]? = some t) {p : Packet}
    (hp : t.packet setup.applyMapper = some p) (hc : p.addrVec.getD 0 (-1) = (c : ℕ)) :
    setup.lines (entries.take (i + 1)) c = setup.lines (entries.take i) c ++ [p] := by
  obtain ⟨hlt, rfl⟩ := List.getElem?_eq_some_iff.mp ht
  rw [lines_take_succ setup hlt hp, if_pos hc]

/-- The lines of a part of a trace come first. -/
theorem lines_mono (setup : Setup D n) (entries : List TraceEntry) (c : Fin n) (hij : i ≤ j) :
    setup.lines (entries.take i) c <+: setup.lines (entries.take j) c := by
  have htake : entries.take i <+: entries.take j := List.take_prefix_take_left hij
  exact (htake.filterMap _).filter _

/-- So lines of a channel are told apart by how many are in front of them. -/
theorem length_lines_lt (ht : entries[i]? = some t) (hc : setup.MapsTo t c) (hij : i < j) :
    (setup.lines (entries.take i) c).length < (setup.lines (entries.take j) c).length := by
  obtain ⟨p, hp, hpc⟩ := hc
  have hle := (lines_mono setup entries c (Nat.succ_le_of_lt hij)).length_le
  rw [Nat.succ_eq_add_one, lines_take ht hp hpc, List.length_append, List.length_singleton] at hle
  omega

end Lines

/-! ## Requests of lines -/

section Requests

variable {setup : Setup D n} {entries : List TraceEntry} {s : Simulation D n} {c : Fin n}
  {i j : ℕ} {x y : Request}

/-- The accounts of a channel. -/
theorem Consistent.accounted (h : Consistent setup entries s) (c : Fin n) :
    Accounted (s.channel c).controller :=
  (h.follows c).runsTo.keeps (fun _ e hs => (hs.step e).1) (.initial _ _)

/-- What has been sent to a channel are its lines. -/
theorem Consistent.map_sent (h : Consistent setup entries s) (c : Fin n) :
    (s.channel c).sent.map Request.packet =
      setup.lines (entries.take s.frontend.traceCount) c := by
  rw [← (h.follows c).lines, Channel.sent, Controller.State.packets, List.filter_map]
  rfl

/-- The requests of a channel are in the order of their numbers. -/
theorem Consistent.sorted_sent (h : Consistent setup entries s) (c : Fin n) :
    (s.channel c).sent.Pairwise fun r r' => r.uid < r'.uid :=
  (List.pairwise_reverse.mpr (h.accounted c).distinct).filter _

/-- The next line to be sent, and those behind it, have no request yet. -/
theorem RequestOf.lt (hx : RequestOf setup entries s c i x) (h : Consistent setup entries s) :
    i < s.frontend.traceCount := by
  by_contra hle
  have hlength : (s.channel c).sent.length =
      (setup.lines (entries.take s.frontend.traceCount) c).length := by
    rw [← h.map_sent c, List.length_map]
  have hprefix := (lines_mono setup entries c (not_lt.mp hle)).length_le
  have hindex := (List.getElem?_eq_some_iff.mp hx.request).1
  omega

/-- The lines in front of it have. -/
theorem exists_requestOf (h : Consistent setup entries s) {t : TraceEntry}
    (ht : entries[i]? = some t) (hc : setup.MapsTo t c) (hi : i < s.frontend.traceCount) :
    ∃ r, RequestOf setup entries s c i r ∧ t.packet setup.applyMapper = some r.packet := by
  obtain ⟨p, hp, hpc⟩ := hc
  have hlines : (setup.lines (entries.take s.frontend.traceCount) c)[
      (setup.lines (entries.take i) c).length]? = some p := by
    obtain ⟨rest, hrest⟩ := lines_mono setup entries c (Nat.succ_le_of_lt hi)
    rw [← hrest, Nat.succ_eq_add_one, lines_take ht hp hpc, List.append_assoc]
    simp
  rw [← h.map_sent c, List.getElem?_map] at hlines
  obtain ⟨r, hr, rfl⟩ := Option.map_eq_some_iff.mp hlines
  exact ⟨r, ⟨⟨t, ht, r.packet, hp, hpc⟩, hr⟩, hp⟩

/-- The request of a line is what the line says. -/
theorem RequestOf.packet_eq (hx : RequestOf setup entries s c i x) (h : Consistent setup entries s)
    {t : TraceEntry} (ht : entries[i]? = some t) : t.packet setup.applyMapper = some x.packet := by
  obtain ⟨t', ht', hc⟩ := hx.line
  obtain rfl := Option.some.inj (ht'.symm.trans ht)
  obtain ⟨r, hr, hpacket⟩ := exists_requestOf h ht hc (hx.lt h)
  obtain rfl := Option.some.inj (hr.request.symm.trans hx.request)
  exact hpacket

theorem RequestOf.mem_accepted (hx : RequestOf setup entries s c i x) :
    x ∈ (s.channel c).controller.accepted :=
  List.mem_reverse.mp (List.mem_filter.mp (List.mem_of_getElem? hx.request)).1

/-- Requests are numbered in the order of their lines. -/
theorem RequestOf.uid_lt (hx : RequestOf setup entries s c i x)
    (hy : RequestOf setup entries s c j y) (h : Consistent setup entries s) (hij : i < j) :
    x.uid < y.uid := by
  obtain ⟨t, ht, hc⟩ := hx.line
  obtain ⟨hi, hxi⟩ := List.getElem?_eq_some_iff.mp hx.request
  obtain ⟨hj, hyj⟩ := List.getElem?_eq_some_iff.mp hy.request
  have huid := List.pairwise_iff_getElem.mp (h.sorted_sent c) _ _ hi hj
    (length_lines_lt ht hc hij)
  rwa [hxi, hyj] at huid

/-- A line is for the PIM units. -/
def IsPimLine (t : TraceEntry) : Prop :=
  ∃ type, requestType t.reqType = some type ∧ type.sendBuffer = some .pim

/-- A line is a barrier. -/
def IsBarrierLine (t : TraceEntry) : Prop := requestType t.reqType = some .PIM_BARRIER

theorem RequestOf.isPim (hx : RequestOf setup entries s c i x) (h : Consistent setup entries s)
    {t : TraceEntry} (ht : entries[i]? = some t) (hpim : IsPimLine t) : x.IsPim := by
  obtain ⟨type, htype, hbuffer⟩ := hpim
  have hpacket := hx.packet_eq h ht
  rw [TraceEntry.packet, htype] at hpacket
  have htypeId : type = x.typeId := congrArg Packet.typeId (Option.some.inj hpacket)
  rw [Request.IsPim, ← htypeId]
  exact hbuffer

theorem RequestOf.isBarrier (hx : RequestOf setup entries s c i x)
    (h : Consistent setup entries s) {t : TraceEntry} (ht : entries[i]? = some t)
    (hbarrier : IsBarrierLine t) : x.isBarrier = true := by
  have hpacket := hx.packet_eq h ht
  rw [TraceEntry.packet, hbarrier] at hpacket
  have htypeId : RequestType.PIM_BARRIER = x.typeId :=
    congrArg Packet.typeId (Option.some.inj hpacket)
  exact decide_eq_true htypeId.symm

end Requests

/-! ## Barriers -/

/-- What an ordered log says of two requests with a barrier between. -/
theorem ordered_separated {s : Controller.State D} (h : Ordered s) {x b y : Request}
    (hsep : Separated s.accepted x b y) {newer older : List Entry} {clk : ℤ} {cmd : Command}
    (hlog : s.log = newer ++ .issued clk y cmd :: older) (hcmd : cmd.opensOrCloses = false) :
    (x.isBarrier = false → ∃ clk' ≤ clk, .issued clk' x x.finalCommand ∈ older) ∧
      ∀ clk' cmd', .issued clk' x cmd' ∉ newer := by
  obtain ⟨hclk, hfinished, -⟩ := h.entry hlog
  refine ⟨?_, ?_⟩
  · intro hbarrier
    obtain ⟨clk', hfinal⟩ := hfinished x b hsep hcmd hbarrier
    exact ⟨clk', hclk _ _ _ hfinal, hfinal⟩
  · intro clk' cmd' hx
    obtain ⟨front, back, rfl⟩ := List.append_of_mem hx
    rw [List.append_assoc, List.cons_append] at hlog
    have hmem : Entry.issued clk y cmd ∈ back ++ .issued clk y cmd :: older := by simp
    exact (h.entry hlog).2.2 b y clk cmd hmem hcmd hsep

/-- Lines of a channel on either side of a barrier have requests on either side of it. -/
theorem separated_of_lines {setup : Setup D n} {entries : List TraceEntry} {s : Simulation D n}
    (h : Consistent setup entries s) {c : Fin n} {i j l : ℕ} {ti tj tl : TraceEntry} (hij : i < j)
    (hjl : j < l) (hi : entries[i]? = some ti) (hci : setup.MapsTo ti c) (hpi : IsPimLine ti)
    (hj : entries[j]? = some tj) (hcj : setup.MapsTo tj c) (hbj : IsBarrierLine tj)
    (hl : entries[l]? = some tl) (hpl : IsPimLine tl) {y : Request}
    (hy : RequestOf setup entries s c l y) :
    ∃ x, RequestOf setup entries s c i x ∧ (¬IsBarrierLine ti → x.isBarrier = false) ∧
      ∃ b, Separated (s.channel c).controller.accepted x b y := by
  have hcount := hy.lt h
  obtain ⟨x, hx, hpacket⟩ := exists_requestOf h hi hci (by omega)
  obtain ⟨b, hb, -⟩ := exists_requestOf h hj hcj (by omega)
  refine ⟨x, hx, ?_, b, hx.mem_accepted, hb.mem_accepted, hy.mem_accepted, hx.isPim h hi hpi,
    hy.isPim h hl hpl, hb.isBarrier h hj hbj, hx.uid_lt hb h hij, hb.uid_lt hy h hjl⟩
  intro hnot
  obtain ⟨type, htype, heq⟩ := Option.map_eq_some_iff.mp hpacket
  have htypeId : type = x.typeId := congrArg Packet.typeId heq
  refine decide_eq_false fun hbarrier => hnot ?_
  rw [IsBarrierLine, htype, htypeId, hbarrier]

/-- **A barrier in a trace reaches the command bus**: let line `i` of a trace, a barrier and line
`l` be mapped to one channel, in this order, the two lines for the PIM units. However the ticks of
the frontend and of the memory system follow each other, when the controller issues a command for
line `l` that opens or closes no row, it has issued the final command of line `i`, unless that is a
barrier, no later than in the same cycle, and issues none for line `i` from then on. -/
theorem line_barrier_order (setup : Setup D n) {entries : List TraceEntry} (sides : List Side)
    {c : Fin n} {i j l : ℕ} {ti tj tl : TraceEntry} (hij : i < j) (hjl : j < l)
    (hi : entries[i]? = some ti) (hci : setup.MapsTo ti c) (hpi : IsPimLine ti)
    (hj : entries[j]? = some tj) (hcj : setup.MapsTo tj c) (hbj : IsBarrierLine tj)
    (hl : entries[l]? = some tl) (hpl : IsPimLine tl) {y : Request}
    (hy : RequestOf setup entries (setup.run entries sides) c l y) {newer older : List Entry}
    {clk : ℤ} {cmd : Command} (hcmd : cmd.opensOrCloses = false)
    (hlog : ((setup.run entries sides).channel c).controller.log =
      newer ++ .issued clk y cmd :: older) :
    ∃ x, RequestOf setup entries (setup.run entries sides) c i x ∧
      (¬IsBarrierLine ti → ∃ clk' ≤ clk, .issued clk' x x.finalCommand ∈ older) ∧
      ∀ clk' cmd', .issued clk' x cmd' ∉ newer := by
  have h := Consistent.run setup entries sides
  obtain ⟨x, hx, hbarrier, b, hsep⟩ :=
    separated_of_lines h hij hjl hi hci hpi hj hcj hbj hl hpl hy
  obtain ⟨hfinal, hnone⟩ := ordered_separated (h.accounted c).ordered hsep hlog hcmd
  exact ⟨x, hx, fun hnot => hfinal (hbarrier hnot), hnone⟩

/-- A single channel on which every command is ready, without refreshes. -/
def oneChannel : Setup Controller.readyDevice 1 where
  applyMapper _ := [0, 0, 0, 0, 0, 0, 0]
  watermarks := Controller.defaultWatermarks
  maxSize _ := 32
  dram _ := ()
  scheme := .no
  dramOrgLevels := 7
  numRanks := 2
  nrefi := 100
  nrefi_pos := by decide
  stale _ _ := none

/-- Two MACs with a barrier between them. -/
def macBarrierMacLines : List TraceEntry := [⟨4, 0⟩, ⟨13, 0⟩, ⟨4, 0⟩]

/-- Number `uid` of the MACs, as the controller has accepted it. -/
def macOf (uid : ℕ) : Request := ⟨uid, 0, [0, 0, 0, 0, 0, 0, 0], .PIM_MAC_AB, 0, -1⟩

/-- The second MAC waits for the first. -/
theorem line_barrier_order_macs : ∃ x,
    RequestOf oneChannel macBarrierMacLines
        (oneChannel.run macBarrierMacLines [.frontend, .memory, .memory]) 0 0 x ∧
      ∃ clk' ≤ 2, .issued clk' x x.finalCommand ∈ [Entry.issued 1 (macOf 0) .MACAB] := by
  have hmaps : ∀ type, requestType type ≠ none → oneChannel.MapsTo ⟨type, 0⟩ 0 := by
    intro type htype
    obtain ⟨t, ht⟩ := Option.ne_none_iff_exists'.mp htype
    exact ⟨_, congrArg _ ht, rfl⟩
  have hy : RequestOf oneChannel macBarrierMacLines
      (oneChannel.run macBarrierMacLines [.frontend, .memory, .memory]) 0 2 (macOf 2) :=
    ⟨⟨_, rfl, hmaps 4 (by decide)⟩, by decide +kernel⟩
  have hlog : ((oneChannel.run macBarrierMacLines
      [.frontend, .memory, .memory]).channel 0).controller.log =
      [] ++ .issued 2 (macOf 2) .MACAB :: [.issued 1 (macOf 0) .MACAB] := by decide +kernel
  obtain ⟨x, hx, hdone, -⟩ := line_barrier_order oneChannel [.frontend, .memory, .memory]
    (by decide : 0 < 1) (by decide : 1 < 2) rfl (hmaps 4 (by decide)) ⟨_, rfl, rfl⟩ rfl
    (hmaps 13 (by decide)) rfl rfl ⟨_, rfl, rfl⟩ hy rfl hlog
  have hmac : requestType 4 ≠ some .PIM_BARRIER := by decide
  exact ⟨x, hx, hdone hmac⟩

end AttAcc.Memory
