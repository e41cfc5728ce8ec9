import AttAcc.Controller.Timings
import AttAcc.Memory.Generated
import AttAcc.Memory.Termination
import AttAcc.Trace.Regions

/-!
# Simulations of generated traces end

The MACs of a generator are addressed to the banks of one unit (`Level.usedBanks`), if the keys
fit, and their broadcasts find row buffers there (`Level.placed`). So `HBM3-PIM` is a
machine of rows to a generated trace, and the loop of `main` ends on it
(`generated_simulation_ends`), if a round of refreshes and the activations behind it take
less than `nREFI`. With the presets for 8 Gb at 6.4 Gbps they do.
-/

namespace AttAcc.Trace

open Dram (Access Node)

/-- The nodes below a channel of the generators' memory. -/
def channelNodes : Dram.Organization := ⟨nPch, nRank, nBg, nBank⟩

/-- A bank of the first pseudo channel, by its number. -/
def bankAt (slot : ℕ) : Node channelNodes where
  pseudochannel := ⟨0, by decide⟩
  rank := ⟨slot / (nBg * nBank) % nRank, Nat.mod_lt _ (by decide)⟩
  bankgroup := ⟨slot / nBank % nBg, Nat.mod_lt _ (by decide)⟩
  bank := ⟨slot % nBank, Nat.mod_lt _ (by decide)⟩

namespace Level

/-- The access that a MAC makes. -/
def access : Level → Access
  | bank => .MACAB
  | bg => .MACSB
  | buffer => .MACPB

variable (l : Level)

/-- The banks that MACs are addressed to. -/
def usedBanks : Finset (Node channelNodes) := (Finset.range l.banks).image bankAt

variable {l}

theorem mem_usedBanks {x : Node channelNodes} :
    x ∈ l.usedBanks ↔ ∃ slot < l.banks, bankAt slot = x := by
  simp [usedBanks]

theorem card_usedBanks_le : l.usedBanks.card ≤ l.banks :=
  Finset.card_image_le.trans_eq (Finset.card_range _)

theorem mnemonic_mac : l.generator.mac ≠ .BARRIER := by cases l <;> decide

/-- What the frontend and the device make of a MAC. -/
theorem requestType_mac {t : Controller.RequestType}
    (h : requestType l.generator.mac.reqType = some t) : t.translation = l.access.command := by
  cases l with
  | bank | bg | buffer =>
    obtain rfl := Option.some.inj h
    rfl

/-- Where a precharge closes all banks in range, it closes the first one. -/
theorem exists_first_of_closes {access : Access} {x : Node channelNodes}
    (h : ∀ n, access.range x n = true → access.closes x n = true) :
    ∃ n rest, access.loop x = n :: rest ∧ access.closes x n = true := by
  have hmem : x ∈ access.loop x := Access.mem_loop.mpr (Access.range_self access x)
  obtain ⟨n, rest, hloop⟩ := List.exists_cons_of_ne_nil (List.ne_nil_of_mem hmem)
  exact ⟨n, rest, hloop, h n (Access.mem_loop.mp (hloop ▸ List.mem_cons_self))⟩

/-- **The MACs of a generator find row buffers**: those of different banks need different banks,
and their precharges close the bank that is looked at first. -/
theorem placed : Dram.Placed l.access l.usedBanks where
  disjoint := by
    intro x hx y hy n hxn hyn
    obtain ⟨s, hs, rfl⟩ := mem_usedBanks.mp hx
    obtain ⟨t, ht, rfl⟩ := mem_usedBanks.mp hy
    cases l with
    | bank => rw [Nat.lt_one_iff.mp hs, Nat.lt_one_iff.mp ht]
    | bg =>
      have hbank : s % nBank = t % nBank :=
        congrArg Fin.val ((of_decide_eq_true hxn).symm.trans (of_decide_eq_true hyn))
      have hsame : s = t :=
        (Nat.mod_eq_of_lt hs).symm.trans (hbank.trans (Nat.mod_eq_of_lt ht))
      rw [hsame]
    | buffer =>
      obtain ⟨hxrank, hxbg, hxbank⟩ := of_decide_eq_true hxn
      obtain ⟨hyrank, hybg, hybank⟩ := of_decide_eq_true hyn
      exact Node.ext rfl (hxrank.symm.trans hyrank) (hxbg.symm.trans hybg)
        (hxbank.symm.trans hybank)
  first := by
    intro x hx
    cases l with
    | bank => exact exists_first_of_closes fun _ h => h
    | buffer => exact exists_first_of_closes fun _ h => h
    | bg =>
      -- `PRESB` closes the bank of the addressed bank group only, and that is the first one.
      obtain ⟨s, hs, rfl⟩ := mem_usedBanks.mp hx
      have hhead : ∀ s < nBank, (Access.MACSB.loop (bankAt s)).head? = some (bankAt s) := by decide
      obtain ⟨rest, hloop⟩ := List.head?_eq_some_iff.mp (hhead s hs)
      exact ⟨bankAt s, rest, hloop, decide_eq_true ⟨rfl, rfl, rfl⟩⟩

/-! ## Addresses of MACs -/

/-- An address in a bank that MACs are addressed to, of some channel. -/
def InUsedBank (l : Level) (addr : ℕ) : Prop :=
  ∃ lch, ∃ slot < l.banks, ∃ low < HbmGs.ba, lch * HbmGs.ch + slot * HbmGs.ba + low = addr

/-- The bank of a column is one of a unit. -/
theorem exists_macOffset_lt (l : Level) (idx : ℕ) :
    ∃ slot < l.banks, l.generator.macOffset idx = slot * HbmGs.ba + l.depth idx * HbmGs.col := by
  cases l with
  | bank => exact ⟨0, by decide, by rw [Nat.zero_mul, Nat.zero_add]; rfl⟩
  | bg =>
    refine ⟨idx / nCol % nBank, Nat.mod_lt _ (by decide), ?_⟩
    simp only [generator, Trace.bg, depth, HbmGs.ba, HbmGs.row, HbmGs.col, nRow, nCol, nBank,
      prefetchSize]
    omega
  | buffer =>
    refine ⟨idx % (nBg * nRank) * nBank + idx / (nBg * nRank) % nBank, ?_, ?_⟩
    · simp only [banks, nBg, nRank, nBank]
      omega
    · simp only [generator, Trace.buffer, depth, HbmGs.bg, HbmGs.ba, HbmGs.row, HbmGs.col, nRow,
        nCol, nBank, nBg, nRank, prefetchSize]
      omega

/-- A region that ends within its bank stays in it. -/
theorem inUsedBank_macOffset {addr lch width idx : ℕ}
    (hend : addr + l.bankCols width * HbmGs.col ≤ HbmGs.ba) (hidx : idx < width) :
    l.InUsedBank (addr + lch * HbmGs.ch + l.generator.macOffset idx) := by
  obtain ⟨slot, hslot, hoffset⟩ := l.exists_macOffset_lt idx
  have hdepth := Nat.mul_le_mul_right HbmGs.col (Nat.succ_le_of_lt (l.depth_lt hidx))
  rw [Nat.succ_mul] at hdepth
  have hcol : 0 < HbmGs.col := by decide
  refine ⟨lch, slot, hslot, addr + l.depth idx * HbmGs.col, by omega, ?_⟩
  rw [hoffset]
  omega

/-- **The MACs of an iteration** stay in these banks. -/
theorem inUsedBank_macRows {addr rows cols validChannel : ℕ}
    (hend : addr + l.bankCols (rows * cols) * HbmGs.col ≤ HbmGs.ba) :
    ∀ cmds ∈ (List.range rows).map (l.generator.macRow addr cols validChannel), ∀ c ∈ cmds,
      l.InUsedBank c.addr := by
  intro cmds hcmds c hc
  obtain ⟨row, hrow, rfl⟩ := List.mem_map.mp hcmds
  obtain ⟨k, hk, lch, -, rfl⟩ := l.generator.mem_macRow.mp hc
  obtain ⟨idx, hidx, hcount⟩ := exists_row_iff.mp
    ⟨row, List.mem_range.mp hrow, k, hk, (rfl : k + row * cols = k + row * cols)⟩
  exact inUsedBank_macOffset hend (hcount ▸ hidx)

/-! ## MACs of a trace -/

variable {a : Args} {itr : ℕ}

/-- What a MAC of a trace is addressed to. -/
def MacInUsedBank (l : Level) (c : Tag × Command) : Prop :=
  c.2.mnemonic = l.generator.mac → l.InUsedBank c.2.addr

theorem macInUsedBank_tagRows {phase : Phase} {rows : List (List Command)}
    (h : ∀ cmds ∈ rows, ∀ c ∈ cmds, l.InUsedBank c.addr) :
    ∀ cmds ∈ tagRows phase itr rows, ∀ c ∈ cmds, l.MacInUsedBank c := by
  intro cmds hcmds c hc _
  obtain ⟨row, hrow, rfl⟩ := List.mem_mapIdx.mp hcmds
  have hmem : c.2 ∈ (tagRow phase itr row rows[row]).map Prod.snd := List.mem_map_of_mem hc
  rw [map_snd_tagRow] at hmem
  exact h _ (List.getElem_mem hrow) c.2 hmem

/-- The other commands are no MACs. -/
theorem macInUsedBank_of_phase (phase : Phase) {c : Tag × Command}
    (hphase : mnemonicOf l.generator phase ≠ l.generator.mac) (hspelled : Spelled l.generator c)
    (hc : c.1.phase = phase) : l.MacInUsedBank c := by
  intro hmac
  rw [Spelled, hc] at hspelled
  exact absurd (hspelled.symm.trans hmac) hphase

/-- **The MACs of an iteration** are addressed to banks that are used, if the keys fit. -/
theorem macInUsedBank_iteration (hfit : KeysFit l a) (hitr : itr < a.numItr) :
    ((l.generator.iteration a itr).tag itr).Forall l.MacInUsedBank := by
  have hspelled := @spelled_iteration l.generator a itr itr
  have hbank : Args.vOffset + Args.vOffset = HbmGs.ba := by decide
  have hkey := hfit itr hitr
  have hvectors : ∀ phase ∈ [Phase.scoreWrgb, .scoreMvsb, .sfm, .contextMvgb, .contextMvsb],
      mnemonicOf l.generator phase ≠ l.generator.mac := by cases l <;> decide
  refine ⟨?_, ?_, ?_, ?_, ?_, ?_, ?_⟩
  · intro c hc
    exact macInUsedBank_of_phase .scoreWrgb (hvectors _ (by decide)) (hspelled.scoreWrgb c hc)
      (mem_tagRow hc).1
  · exact macInUsedBank_tagRows (inUsedBank_macRows (by rw [Generator.operandCols] at hkey; omega))
  · intro group hgroup c hc
    exact macInUsedBank_of_phase .scoreMvsb (hvectors _ (by decide))
      (hspelled.scoreMvsb group hgroup c hc) (mem_tagRows hgroup c hc).1
  · intro c hc
    exact macInUsedBank_of_phase .sfm (hvectors _ (by decide)) (hspelled.sfm c hc) (mem_tagRow hc).1
  · intro c hc
    exact macInUsedBank_of_phase .contextMvgb (hvectors _ (by decide)) (hspelled.contextMvgb c hc)
      (mem_tagRow hc).1
  · refine macInUsedBank_tagRows (inUsedBank_macRows ?_)
    rw [Generator.operandCols, Nat.mul_comm (l.generator.seqRows a)] at hkey
    rw [Args.valAddr]
    omega
  · intro group hgroup c hc
    exact macInUsedBank_of_phase .contextMvsb (hvectors _ (by decide))
      (hspelled.contextMvsb group hgroup c hc) (mem_tagRows hgroup c hc).1

/-- **What a trace needs open**: rows for the MACs of its generator, in banks that are used. -/
theorem mac_of_mem_emit {cmds : List (Iteration Command)} {out : List (Tag × Command)}
    (hfit : KeysFit l a) (hcmds : cmds = (List.range a.numItr).map (l.generator.iteration a))
    (hout : l.generator.emit a (tagBarrier Generator.barrier) (tagAll cmds) = .ok out)
    {c : Tag × Command} (hc : c ∈ out) {type : Controller.RequestType}
    (htype : requestType c.2.mnemonic.reqType = some type) (haccess : type.isAccess = true) :
    type.translation = l.access.command ∧ l.InUsedBank c.2.addr := by
  have hmac : c.2.mnemonic = l.generator.mac := by
    have hspelled := spelled_of_mem_emit hcmds hout c hc
    rw [Spelled] at hspelled
    rw [hspelled] at htype ⊢
    generalize c.1.phase = phase at htype ⊢
    cases phase with
    | scoreMac | contextMac => rfl
    | _ =>
      obtain rfl := Option.some.inj htype
      cases haccess
  have hused : ∀ c ∈ out, l.MacInUsedBank c :=
    forall_mem_emit hcmds (fun _ => macInUsedBank_iteration hfit) (fun c hc =>
      macInUsedBank_of_phase .barrier mnemonic_mac.symm (spelled_barrier c hc) (mem_tagRow hc).1)
      hout
  rw [hmac] at htype
  exact ⟨requestType_mac htype, hused c hc hmac⟩

end Level

end AttAcc.Trace

namespace AttAcc.Memory

open AddrMapper (Utilities generatorOrganization hbm3PIMMap hbm3PIMMap_eq)
open Controller (Addr AddrVec Device KnownPacket Latencies LeadsTo Packet RowMachine)
open Trace (Args Generator Iteration TraceEntry nChannel)

section Lines

variable {u : Utilities} {l : Trace.Level}

/-- `HBM_GS`, by level. -/
def granularity : AddrMapper.Level → ℕ
  | .channel => Trace.HbmGs.ch
  | .pseudochannel => Trace.HbmGs.pch
  | .rank => Trace.HbmGs.rank
  | .bankgroup => Trace.HbmGs.bg
  | .bank => Trace.HbmGs.ba
  | .row => Trace.HbmGs.row
  | .column => Trace.HbmGs.col

/-- **Where the mapper `HBM3-PIM` sends an address.** -/
theorem hbm3PIMMap_natCast (hu : u.Documented) (addr : ℕ) (level : AddrMapper.Level) :
    hbm3PIMMap u generatorOrganization addr level =
      ((addr / granularity level % generatorOrganization.count level : ℕ) : ℤ) := by
  have hgs : generatorOrganization.hbmGs level = granularity level := by
    cases level <;> decide
  rw [hbm3PIMMap_eq hu AddrMapper.powersOfTwo_generator (Int.natCast_nonneg addr), hgs]
  push_cast
  rfl

/-- The fields of an address, by the number of its bank. -/
theorem fields_of_slot {lch slot low : ℕ}
    (hslot : slot < Trace.nRank * Trace.nBg * Trace.nBank) (hlow : low < Trace.HbmGs.ba)
    {addr : ℕ} (haddr : lch * Trace.HbmGs.ch + slot * Trace.HbmGs.ba + low = addr) :
    addr / Trace.HbmGs.pch % Trace.nPch = 0 ∧
      addr / Trace.HbmGs.rank % Trace.nRank = slot / (Trace.nBg * Trace.nBank) % Trace.nRank ∧
      addr / Trace.HbmGs.bg % Trace.nBg = slot / Trace.nBank % Trace.nBg ∧
      addr / Trace.HbmGs.ba % Trace.nBank = slot % Trace.nBank := by
  simp only [Trace.HbmGs.ch, Trace.HbmGs.pch, Trace.HbmGs.rank, Trace.HbmGs.bg, Trace.HbmGs.ba,
    Trace.HbmGs.row, Trace.HbmGs.col, Trace.nRow, Trace.nCol, Trace.nBank, Trace.nBg, Trace.nRank,
    Trace.nPch, Trace.prefetchSize] at *
  omega

/-- An address in a bank that is used leads to it. -/
theorem leadsTo_of_inUsedBank (hu : u.Documented) {addr : ℕ} (h : l.InUsedBank addr) :
    ∃ x ∈ l.usedBanks, LeadsTo ((pimMapper u addr).getD 0 (-1)) (pimMapper u addr) x := by
  obtain ⟨lch, slot, hslot, low, hlow, haddr⟩ := h
  have hbanks : l.banks ≤ Trace.nRank * Trace.nBg * Trace.nBank := by cases l <;> decide
  obtain ⟨hpch, hrank, hbg, hbank⟩ := fields_of_slot (hslot.trans_le hbanks) hlow haddr
  have hmap := hbm3PIMMap_natCast hu addr
  refine ⟨Trace.bankAt slot, Trace.Level.mem_usedBanks.mpr ⟨slot, hslot, rfl⟩, ?_⟩
  show [_, hbm3PIMMap u _ addr .pseudochannel, hbm3PIMMap u _ addr .rank,
    hbm3PIMMap u _ addr .bankgroup, hbm3PIMMap u _ addr .bank] = Controller.addrVecOf _ _
  rw [hmap .pseudochannel, hmap .rank, hmap .bankgroup, hmap .bank]
  show [_, ((addr / Trace.HbmGs.pch % Trace.nPch : ℕ) : ℤ),
    ((addr / Trace.HbmGs.rank % Trace.nRank : ℕ) : ℤ),
    ((addr / Trace.HbmGs.bg % Trace.nBg : ℕ) : ℤ),
    ((addr / Trace.HbmGs.ba % Trace.nBank : ℕ) : ℤ)] = _
  rw [hpch, hrank, hbg, hbank]
  rfl

/-- Every line of a generated trace is for one of the channels. -/
theorem exists_mapsTo_entry {D : Device} {setup : Setup D nChannel} (hu : u.Documented)
    (hmapper : setup.applyMapper = pimMapper u) (cmd : Trace.Command) :
    ∃ c, setup.MapsTo cmd.entry c := by
  obtain ⟨type, htype, -, -⟩ := requestType_reqType cmd.mnemonic
  refine ⟨⟨cmd.addr / Trace.HbmGs.ch % nChannel, Nat.mod_lt _ (by decide)⟩, _,
    congrArg _ htype, ?_⟩
  rw [hmapper]
  exact hbm3PIMMap_natCast hu cmd.addr .channel

end Lines

/-! ## Generated traces -/

open Dram (Banks NodeBase)

section Ends

variable {base : NodeBase Trace.channelNodes} (h : base.Documented) {l : Trace.Level}

/-- The banks of a channel, as row buffers for the MACs of a generator. -/
def macMachine (l : Trace.Level) (c : Fin nChannel) : RowMachine (Controller.hbm3PIM base) :=
  Controller.rowMachine h (c : ℕ) (@Trace.Level.placed l)

/-- A round of refreshes, and the activations that follow it. -/
theorem roundBacklog_macMachine_le (l : Trace.Level) (ranks : ℕ) :
    roundBacklog (macMachine h l) (Controller.latencies h) ranks ≤
      (l.banks + 1) * (h.latency + 1) + ranks * (h.refreshLatency + 1) := by
  refine Finset.sup_le fun c _ => ?_
  have hcard : (macMachine h l c).classes.card ≤ l.banks := Trace.Level.card_usedBanks_le
  exact Nat.add_le_add_right (Nat.mul_le_mul_right _ (Nat.succ_le_succ hcard)) _

variable {h} {a : Args} {cmds : List (Iteration Trace.Command)} {trace : List Trace.Command}
  {u : Utilities} {setup : Setup (Controller.hbm3PIM base) nChannel}

/-- **What a generated trace asks of the devices** they can do. -/
theorem servable_generated (hfit : Trace.KeysFit l a)
    (hrun : l.generator.runAttention a [] = .ok (cmds, trace)) (hu : u.Documented)
    (hmapper : setup.applyMapper = pimMapper u) (hclosed : ∀ c, (setup.dram c).1 = Banks.initial) :
    Servable setup (macMachine h l) (trace.map Trace.Command.entry) := by
  obtain ⟨hcmds, -, tagged, hout, rfl⟩ := Trace.exists_tagged hrun
  have hentry : ∀ t ∈ (tagged.map Prod.snd).map Trace.Command.entry,
      ∃ c ∈ tagged, c.2.entry = t := by
    intro t ht
    obtain ⟨cmd, hcmd, rfl⟩ := List.mem_map.mp ht
    obtain ⟨c, hc, rfl⟩ := List.mem_map.mp hcmd
    exact ⟨c, hc, rfl⟩
  refine ⟨?_, ?_, ?_, ?_⟩
  · intro t ht
    obtain ⟨c, -, rfl⟩ := hentry t ht
    exact isPimLine_entry c.2
  · intro t ht
    obtain ⟨c, -, rfl⟩ := hentry t ht
    exact exists_mapsTo_entry hu hmapper c.2
  · intro ch p hp
    obtain ⟨hmem, hchannel⟩ := List.mem_filter.mp hp
    obtain ⟨t, ht, hpacket⟩ := List.mem_filterMap.mp hmem
    obtain ⟨c, hc, rfl⟩ := hentry t ht
    obtain ⟨type, htype, hbuffer, -⟩ := requestType_reqType c.2.mnemonic
    obtain ⟨type', htype', rfl⟩ := Option.map_eq_some_iff.mp hpacket
    obtain rfl : type = type' := Option.some.inj (htype.symm.trans htype')
    refine ⟨hbuffer, fun haccess => ?_⟩
    obtain ⟨htranslation, hused⟩ := Trace.Level.mac_of_mem_emit hfit hcmds hout hc htype haccess
    obtain ⟨x, hx, hleads⟩ := leadsTo_of_inUsedBank hu hused
    refine ⟨htranslation, x, hx, ?_⟩
    have hfield : (pimMapper u c.2.addr).getD 0 (-1) = (ch : ℕ) :=
      hmapper ▸ of_decide_eq_true hchannel
    rw [hfield] at hleads
    rw [hmapper]
    exact hleads
  · intro c x _
    rw [hclosed]
    exact .inl rfl

/-- **Simulations of generated traces end**, where the keys of every iteration fit below the
values (`Trace.keysFit_of_capacity`). -/
theorem generated_simulation_ends (l : Trace.Level) (a : Args) (hfit : Trace.KeysFit l a)
    {cmds : List (Iteration Trace.Command)} {trace : List Trace.Command}
    (hrun : l.generator.runAttention a [] = .ok (cmds, trace))
    {tokenize : Trace.Text → List Trace.Text} (htokenize : Trace.SplitsAtSpace tokenize)
    {entries : List TraceEntry}
    (hread : Trace.initTrace tokenize (.content (Trace.writeTrace trace)) = .ok entries)
    {u : Utilities} (hu : u.Documented) {base : NodeBase Trace.channelNodes} (h : base.Documented)
    (setup : Setup (Controller.hbm3PIM base) nChannel) (hmapper : setup.applyMapper = pimMapper u)
    (hclosed : ∀ c, (setup.dram c).1 = Banks.initial)
    (hround : (l.banks + 1) * (h.latency + 1) + setup.numRanks * (h.refreshLatency + 1) <
      setup.nrefi.toNat) :
    ∃ rounds, Ended setup (setup.mainLoop rounds (setup.start entries)) := by
  obtain rfl := eq_of_initTrace htokenize hread
  obtain ⟨rounds, hended⟩ :=
    exists_mainLoop (servable_generated (h := h) hfit hrun hu hmapper hclosed)
      ((roundBacklog_macMachine_le h l setup.numRanks).trans_lt hround)
  exact ⟨rounds + 1, hended⟩

end Ends

/-- 16 channels of `HBM3_8Gb_2R` at 6.4 Gbps. -/
def hbm3Setup : Setup (Controller.hbm3PIM (o := Trace.channelNodes)
    (Dram.timedNodes (Dram.timingcons Dram.hbm3_6400_8Gb) 25)) nChannel where
  applyMapper := pimMapper AddrMapper.utilities
  watermarks := Controller.defaultWatermarks
  maxSize _ := 32
  dram _ := (Banks.initial, Dram.NodeClks.initial)
  scheme := .allBankHBM3
  dramOrgLevels := 7
  numRanks := 2
  nrefi := 6240
  nrefi_pos := by norm_num
  stale _ _ := none

/-- The trace of 33 heads, with the MAC units in the buffer die. -/
theorem generated_simulation_ends_thirty_three : ∃ cmds trace,
    Trace.buffer.runAttention (Trace.shortArgs 33) [] = .ok (cmds, trace) ∧
      ∃ rounds, Ended hbm3Setup
        (hbm3Setup.mainLoop rounds (hbm3Setup.start (trace.map Trace.Command.entry))) := by
  have hall : (Trace.buffer.runAttention (Trace.shortArgs 33) []).toOption.any
      (fun r => r.2.all fun cmd => decide ((cmd.addr : ℤ) < 2 ^ 63)) = true := by decide +kernel
  rcases hrun : Trace.buffer.runAttention (Trace.shortArgs 33) [] with e | ⟨cmds, trace⟩
  · rw [hrun] at hall
    cases hall
  · rw [hrun] at hall
    have haddr : ∀ cmd ∈ trace, (cmd.addr : ℤ) < 2 ^ 63 :=
      fun cmd hcmd => of_decide_eq_true (List.all_eq_true.mp hall cmd hcmd)
    exact ⟨cmds, trace, rfl, generated_simulation_ends .buffer (Trace.shortArgs 33)
      (by decide +kernel) hrun Trace.splitsAtSpace_splitOn
      (Trace.initTrace_writeTrace Trace.splitsAtSpace_splitOn haddr)
      AddrMapper.documented_utilities (Dram.documented_timedNodes _ 25) hbm3Setup rfl
      (fun _ => rfl) (by decide)⟩

end AttAcc.Memory
