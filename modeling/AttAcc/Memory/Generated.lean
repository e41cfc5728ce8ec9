import AttAcc.Dram.AddrMapper
import AttAcc.Memory.Order
import AttAcc.Trace.Order
import AttAcc.Trace.Traffic

/-!
# Generated traces on the command bus

A generator writes a trace, the frontend reads it and sends its lines through the mapper
`HBM3-PIM` to the controllers of 16 channels, and these issue commands as they find them ready.
The order of the trace survives: on every channel, moves are issued behind the MACs that they
drain, and MACs behind the vectors that they work on (`generated_bus_order`). What carries it
through is that each fence of a trace has a barrier for every channel.
-/

namespace AttAcc.Trace

open Library

/-! ## How commands are spelled -/

/-- The mnemonic of the commands of a list. -/
def mnemonicOf (g : Generator) : Phase → Mnemonic
  | .scoreWrgb => .WR_GB
  | .scoreMac | .contextMac => g.mac
  | .scoreMvsb | .contextMvsb => .MV_SB
  | .sfm => .SFM
  | .contextMvgb => .MV_GB
  | .barrier => .BARRIER

theorem mnemonicOf_ne_barrier {g : Generator} (hmac : g.mac ≠ .BARRIER) {phase : Phase}
    (h : phase ≠ .barrier) : mnemonicOf g phase ≠ .BARRIER := by
  cases phase with
  | scoreMac => exact hmac
  | contextMac => exact hmac
  | barrier => exact absurd rfl h
  | _ => simp [mnemonicOf]

/-- A tagged command is spelled as its tag says. -/
def Spelled (g : Generator) (c : Tag × Command) : Prop :=
  c.2.mnemonic = mnemonicOf g c.1.phase

section Spelling

variable {g : Generator} {a : Args} {phase : Phase} {itr row : ℕ}

theorem spelled_tagRow {cmds : List Command} (h : ∀ c ∈ cmds, c.mnemonic = mnemonicOf g phase) :
    ∀ c ∈ tagRow phase itr row cmds, Spelled g c := by
  intro c hc
  have hmem : c.2 ∈ cmds := by
    rw [← map_snd_tagRow phase itr row cmds]
    exact List.mem_map_of_mem hc
  rw [Spelled, (mem_tagRow hc).1]
  exact h c.2 hmem

theorem spelled_tagRows {rows : List (List Command)}
    (h : ∀ cmds ∈ rows, ∀ c ∈ cmds, c.mnemonic = mnemonicOf g phase) :
    ∀ cmds ∈ tagRows phase itr rows, ∀ c ∈ cmds, Spelled g c := by
  intro cmds hcmds c hc
  obtain ⟨i, hi, rfl⟩ := List.mem_mapIdx.mp hcmds
  exact spelled_tagRow (h _ (List.getElem_mem hi)) c hc

theorem mnemonic_macRow {addr count channels n : ℕ} {c : Command}
    (hc : c ∈ g.macRow addr count channels n) : c.mnemonic = g.mac := by
  obtain ⟨-, -, -, -, rfl⟩ := (g.mem_macRow).mp hc
  rfl

/-- The commands of an iteration. -/
theorem spelled_iteration (itr n : ℕ) : ((g.iteration a n).tag itr).Forall (Spelled g) where
  scoreWrgb := spelled_tagRow mnemonic_cpvec
  scoreMac := by
    refine spelled_tagRows fun cmds hcmds c hc => ?_
    obtain ⟨_, -, rfl⟩ := List.mem_map.mp hcmds
    exact mnemonic_macRow hc
  scoreMvsb := by
    refine spelled_tagRows fun cmds hcmds c hc => ?_
    obtain ⟨_, -, rfl⟩ := List.mem_map.mp hcmds
    exact mnemonic_mvsb c hc
  sfm := by
    refine spelled_tagRow fun c hc => ?_
    obtain ⟨-, -, rfl⟩ := List.mem_map.mp hc
    rfl
  contextMvgb := spelled_tagRow mnemonic_cpvec
  contextMac := by
    refine spelled_tagRows fun cmds hcmds c hc => ?_
    obtain ⟨_, -, rfl⟩ := List.mem_map.mp hcmds
    exact mnemonic_macRow hc
  contextMvsb := by
    refine spelled_tagRows fun cmds hcmds c hc => ?_
    obtain ⟨_, -, rfl⟩ := List.mem_map.mp hcmds
    exact mnemonic_mvsb c hc

theorem Iteration.Forall.withoutContext {α : Type*} {P : α → Prop} {it : Iteration α}
    (h : it.Forall P) : it.withoutContext.Forall P where
  scoreWrgb := h.scoreWrgb
  scoreMac := h.scoreMac
  scoreMvsb := h.scoreMvsb
  sfm := h.sfm
  contextMvgb := h.contextMvgb
  contextMac _ hrow := absurd hrow List.not_mem_nil
  contextMvsb _ hrow := absurd hrow List.not_mem_nil

theorem spelled_barrier : ∀ c ∈ tagBarrier Generator.barrier, Spelled g c := by
  refine spelled_tagRow fun c hc => ?_
  obtain ⟨-, -, rfl⟩ := List.mem_map.mp hc
  rfl

end Spelling

section Emitted

variable {g : Generator} {a : Args} {cmds : List (Iteration Command)} {out : List (Tag × Command)}

/-- What holds of the commands of every iteration, and of the barriers, holds of a trace. -/
theorem forall_mem_emit {P : Tag × Command → Prop}
    (hcmds : cmds = (List.range a.numItr).map (g.iteration a))
    (hiteration : ∀ itr < a.numItr, ((g.iteration a itr).tag itr).Forall P)
    (hbarrier : ∀ c ∈ tagBarrier Generator.barrier, P c)
    (h : g.emit a (tagBarrier Generator.barrier) (tagAll cmds) = .ok out) : ∀ c ∈ out, P c := by
  have hforall : ∀ {i : ℕ} {head : Iteration (Tag × Command)},
      index (tagAll cmds) i = .ok head → (tagAll cmds)[i]? = some head ∧ head.Forall P := by
    intro i head hhead
    obtain ⟨hget, it, hit, rfl⟩ := index_tagAll hhead
    obtain ⟨hi, rfl⟩ := List.getElem?_eq_some_iff.mp hit
    simp only [hcmds, List.length_map, List.length_range] at hi
    refine ⟨hget, ?_⟩
    simp only [hcmds, List.getElem_map, List.getElem_range]
    exact hiteration i hi
  obtain ⟨pairs, hpairs, h⟩ := bind_ok_iff.mp h
  obtain ⟨tail, htail, h⟩ := bind_ok_iff.mp h
  obtain rfl := Except.ok.inj h
  intro c hc
  rcases List.mem_append.mp hc with hc | hc
  · obtain ⟨pair, hpair, hc⟩ := List.mem_flatten.mp hc
    obtain ⟨p, -, hp⟩ := exists_of_mem_mapM hpairs pair hpair
    obtain ⟨head0, hhead0, hp'⟩ := bind_ok_iff.mp hp
    obtain ⟨head1, hhead1, -⟩ := bind_ok_iff.mp hp'
    obtain ⟨hget0, h0⟩ := hforall hhead0
    obtain ⟨hget1, h1⟩ := hforall hhead1
    exact forall_mem_emitPair hget0 hget1 h0 h1.withoutContext hbarrier hp c hc
  · rw [Generator.emitTail] at htail
    split_ifs at htail with hodd
    · obtain ⟨head, hhead, -⟩ := bind_ok_iff.mp htail
      obtain ⟨hget, hhead⟩ := hforall hhead
      exact forall_mem_emitLast hget hhead hbarrier htail c hc
    · obtain rfl := Except.ok.inj htail
      exact absurd hc List.not_mem_nil

/-- **Every command of a trace is spelled as its tag says.** -/
theorem spelled_of_mem_emit (hcmds : cmds = (List.range a.numItr).map (g.iteration a))
    (h : g.emit a (tagBarrier Generator.barrier) (tagAll cmds) = .ok out) :
    ∀ c ∈ out, Spelled g c :=
  forall_mem_emit hcmds (fun itr _ => spelled_iteration itr itr) spelled_barrier h

end Emitted

end AttAcc.Trace

namespace AttAcc.Memory

open AddrMapper (Level Utilities generatorOrganization hbm3PIMMap)
open Controller (Addr AddrVec Device Entry)
open Library
open Trace (Args Draws Generator Iteration Mnemonic Side Tag TraceEntry nChannel tagAll tagBarrier)

/-! ## Lines of a generated trace -/

/-- `apply` of `HBM3-PIM`, the fields in the order of the levels. -/
def pimMapper (u : Utilities) (addr : Addr) : AddrVec :=
  Level.all.map (hbm3PIMMap u generatorOrganization addr)

section Lines

variable {D : Device} {setup : Setup D nChannel} {u : Utilities}

theorem requestType_reqType (m : Mnemonic) : ∃ type, Trace.requestType m.reqType = some type ∧
    type.sendBuffer = some .pim ∧ (type = .PIM_BARRIER ↔ m = .BARRIER) := by
  cases m with
  | WR_GB => exact ⟨_, rfl, rfl, by decide⟩
  | MAC_AB => exact ⟨_, rfl, rfl, by decide⟩
  | MAC_SB => exact ⟨_, rfl, rfl, by decide⟩
  | MAC_PB => exact ⟨_, rfl, rfl, by decide⟩
  | MV_SB => exact ⟨_, rfl, rfl, by decide⟩
  | MV_GB => exact ⟨_, rfl, rfl, by decide⟩
  | SFM => exact ⟨_, rfl, rfl, by decide⟩
  | BARRIER => exact ⟨_, rfl, rfl, by decide⟩

theorem isPimLine_entry (cmd : Trace.Command) : IsPimLine cmd.entry := by
  obtain ⟨type, htype, hbuffer, -⟩ := requestType_reqType cmd.mnemonic
  exact ⟨type, htype, hbuffer⟩

theorem isBarrierLine_entry {cmd : Trace.Command} :
    IsBarrierLine cmd.entry ↔ cmd.mnemonic = .BARRIER := by
  obtain ⟨type, htype, -, hbarrier⟩ := requestType_reqType cmd.mnemonic
  rw [← hbarrier, IsBarrierLine, Trace.Command.entry, htype, Option.some.injEq]

/-- The fields of a barrier. -/
def barrierFields (lch : ℕ) : Level → ℤ
  | .channel => lch
  | _ => 0

/-- **Every channel has a barrier in a fence.** -/
theorem exists_barrier (hu : u.Documented) (hmapper : setup.applyMapper = pimMapper u)
    (c : Fin nChannel) :
    ∃ b ∈ Generator.barrier, b.mnemonic = .BARRIER ∧ setup.MapsTo b.entry c := by
  refine ⟨⟨.BARRIER, c * Trace.HbmGs.ch⟩, List.mem_map_of_mem (List.mem_range.mpr c.isLt), rfl, ?_⟩
  obtain ⟨type, htype, -, -⟩ := requestType_reqType .BARRIER
  refine ⟨_, congrArg _ htype, ?_⟩
  have hfields : barrierFields c ∈ generatorOrganization.fields := by
    intro level
    cases level with
    | channel =>
      have hlt : (c : ℕ) < 16 := c.isLt
      refine ⟨Int.natCast_nonneg _, ?_⟩
      show ((c : ℕ) : ℤ) < 16
      omega
    | _ => exact ⟨le_rfl, AddrMapper.powersOfTwo_generator.pos.1 _⟩
  have hencode :
      generatorOrganization.encode (barrierFields c) = ((c * Trace.HbmGs.ch : ℕ) : ℤ) := by
    have hch : generatorOrganization.hbmGs .channel = (Trace.HbmGs.ch : ℤ) := by decide
    simp [AddrMapper.Organization.encode, Level.all, barrierFields, hch]
  have hmap := (AddrMapper.hbm3PIMMap_encode hu AddrMapper.powersOfTwo_generator hfields).2
  rw [hencode] at hmap
  simp only [hmapper, pimMapper, Level.all, Trace.Command.entry, hmap]
  rfl

end Lines

/-- What is read from the file of a generator is what it has written. -/
theorem eq_of_initTrace {tokenize : Trace.Text → List Trace.Text}
    (htokenize : Trace.SplitsAtSpace tokenize) {cmds : List Trace.Command}
    {entries : List TraceEntry}
    (h : Trace.initTrace tokenize (.content (Trace.writeTrace cmds)) = .ok entries) :
    entries = cmds.map Trace.Command.entry := by
  rw [Trace.initTrace, Trace.getLines_writeTrace, mapM_ok_iff, List.forall₂_map_left_iff] at h
  refine (map_eq_map_of_forall₂ (g := id) h ?_).symm ▸ (List.map_id entries).symm
  intro cmd entry hentry
  rw [Trace.parseLine_line htokenize] at hentry
  split_ifs at hentry
  exact (Except.ok.inj hentry).symm

/-! ## What is done before a command -/

/-- The final command of line `i` is in a part of the log, no later than a cycle. -/
def DoneBy {D : Device} {n : ℕ} (setup : Setup D n) (entries : List TraceEntry) (s : Simulation D n)
    (c : Fin n) (clk : ℤ) (older : List Entry) (i : ℕ) : Prop :=
  ∃ r, RequestOf setup entries s c i r ∧ ∃ clk' ≤ clk, .issued clk' r r.finalCommand ∈ older

section Bus

variable {D : Device} {setup : Setup D nChannel} {u : Utilities}
  {tagged : List (Tag × Trace.Command)} {entries : List TraceEntry} {c : Fin nChannel}
  {sides : List Side} {x y : Tag × Trace.Command} {p q : List (Tag × Trace.Command)}

/-- The entries of a tagged trace. -/
abbrev entriesOf (tagged : List (Tag × Trace.Command)) : List TraceEntry :=
  (tagged.map Prod.snd).map Trace.Command.entry

theorem getElem?_entriesOf {i : ℕ} (h : tagged[i]? = some x) :
    (entriesOf tagged)[i]? = some x.2.entry := by
  rw [entriesOf, List.getElem?_map, List.getElem?_map, h]
  rfl

/-- **A fence in a trace reaches the bus of every channel**: what is in front of it is done before
a command for what is behind it is issued that opens or closes no row. -/
theorem doneBy_of_fence (hu : u.Documented) (hmapper : setup.applyMapper = pimMapper u) {i l : ℕ}
    {fence : List (Tag × Trace.Command)} (hfence : fence = tagBarrier Generator.barrier)
    (hsplit : tagged = p ++ fence ++ q) (hi : tagged[i]? = some x) (hip : i < p.length)
    (hl : tagged[l]? = some y) (hlp : p.length + fence.length ≤ l)
    (hx : x.2.mnemonic ≠ .BARRIER) (hc : setup.MapsTo x.2.entry c) {r : Controller.Request}
    (hr : RequestOf setup (entriesOf tagged) (setup.run (entriesOf tagged) sides) c l r)
    {newer older : List Entry} {clk : ℤ} {cmd : Dram.Command} (hcmd : cmd.opensOrCloses = false)
    (hlog : ((setup.run (entriesOf tagged) sides).channel c).controller.log =
      newer ++ .issued clk r cmd :: older) :
    DoneBy setup (entriesOf tagged) (setup.run (entriesOf tagged) sides) c clk older i := by
  obtain ⟨b, hb, hbarrier, hbc⟩ := exists_barrier hu hmapper c
  have hmem : b ∈ fence.map Prod.snd := by
    rw [hfence, tagBarrier, Trace.map_snd_tagRow]
    exact hb
  obtain ⟨tb, htb, rfl⟩ := List.mem_map.mp hmem
  obtain ⟨k, hk, hkb⟩ := List.mem_iff_getElem.mp htb
  -- the barrier of the channel is a line between the two
  have hj : tagged[p.length + k]? = some tb := by
    rw [hsplit, List.append_assoc, List.getElem?_append_right (Nat.le_add_right _ _),
      Nat.add_sub_cancel_left, List.getElem?_append_left hk, List.getElem?_eq_getElem hk, hkb]
  have h := Consistent.run setup (entriesOf tagged) sides
  obtain ⟨rx, hrx, hnot, b, hsep⟩ := separated_of_lines h (by omega : i < p.length + k)
    (by omega : p.length + k < l) (getElem?_entriesOf hi) hc (isPimLine_entry _)
    (getElem?_entriesOf hj) hbc (isBarrierLine_entry.mpr hbarrier) (getElem?_entriesOf hl)
    (isPimLine_entry _) hr
  obtain ⟨hdone, -⟩ := ordered_separated (h.accounted c).ordered hsep hlog hcmd
  exact ⟨rx, hrx, hdone (hnot (mt isBarrierLine_entry.mp hx))⟩

/-- The lines in front of the first barrier. -/
def warmUp (tagged : List (Tag × Trace.Command)) : List (Tag × Trace.Command) :=
  tagged.takeWhile fun c => decide (c.1.phase ≠ .barrier)

theorem warmUp_append (tagged : List (Tag × Trace.Command)) :
    warmUp tagged ++ Trace.afterWarmUp tagged = tagged := List.takeWhile_append_dropWhile

/-- There is no part of a fence among them. -/
theorem not_mem_warmUp {b : Tag × Trace.Command} (hb : b ∈ tagBarrier Generator.barrier) :
    b ∉ warmUp tagged := by
  intro hmem
  have hphase := List.mem_takeWhile_imp hmem
  rw [(Trace.mem_tagRow hb).1] at hphase
  exact absurd hphase (by decide)

theorem barrier_ne_nil : tagBarrier Generator.barrier ≠ [] := by decide

/-- A move is behind a fence, and that is behind the MACs that it drains. -/
theorem fence_of_draws {g : Generator} {a : Args} {cmds : List (Iteration Trace.Command)}
    (h : Trace.DependencyOrdered g a cmds (tagBarrier Generator.barrier)
      (Trace.withoutDummies tagged)) {l : ℕ} (hl : tagged[l]? = some y)
    (hdraws : Draws g a cmds y x) : ∃ i p q, tagged[i]? = some x ∧ i < p.length ∧
      tagged = p ++ tagBarrier Generator.barrier ++ q ∧
      p.length + (tagBarrier Generator.barrier).length ≤ l := by
  have hkeep : ∀ y x, Draws g a cmds y x → decide (y.1.phase ≠ .scoreMac) = true := by
    intro y x hyx
    rcases hyx.1.2 with ⟨hphase, -⟩ | ⟨hphase, -⟩
    · rw [hphase]
      decide
    · rw [hphase]
      decide
  have hpreceded : Preceded (tagBarrier Generator.barrier) (Draws g a cmds) tagged := by
    rw [← warmUp_append tagged]
    exact Preceded.of_filter barrier_ne_nil (fun b hb => not_mem_warmUp hb) hkeep h.drained
  obtain ⟨p, q, hsplit, rfl⟩ := exists_split hl
  obtain ⟨front, back, rfl, hx⟩ := hpreceded p y q hsplit x hdraws
  obtain ⟨i, hi, hix⟩ := List.mem_iff_getElem.mp hx
  refine ⟨i, front, back ++ y :: q, ?_, hi, ?_, ?_⟩
  · rw [hsplit, List.append_assoc, List.append_assoc, List.getElem?_append_left hi,
      List.getElem?_eq_getElem hi, hix]
  · rw [hsplit, List.append_assoc _ back]
  · simp

/-- A MAC is behind a fence, and that is behind the vectors that it works on, unless it is a dummy
MAC. -/
theorem fence_of_feeds {g : Generator} {a : Args} {cmds : List (Iteration Trace.Command)}
    (h : Trace.DependencyOrdered g a cmds (tagBarrier Generator.barrier)
      (Trace.withoutDummies tagged)) {i l : ℕ} (hwarm : (warmUp tagged).length ≤ l)
    (hl : tagged[l]? = some y) (hi : tagged[i]? = some x)
    (hfeeds : (Trace.kind x).Feeds (Trace.kind y)) : i < l ∧ ∃ p q, i < p.length ∧
      tagged = p ++ tagBarrier Generator.barrier ++ q ∧
      p.length + (tagBarrier Generator.barrier).length ≤ l := by
  have hkeep : ∀ x y : Tag × Trace.Command, (Trace.kind x).Feeds (Trace.kind y) →
      decide (x.1.phase ≠ .scoreMac) = true := by
    intro x y hxy
    rcases hxy.2 with ⟨hphase, -⟩ | ⟨hphase, -⟩
    · exact decide_eq_true fun hmac => absurd (hphase.symm.trans hmac) (by decide)
    · exact decide_eq_true fun hmac => absurd (hphase.symm.trans hmac) (by decide)
  -- a vector is not behind its MAC
  have hlt : i < l := by
    by_contra hle
    have hne : i ≠ l := by
      rintro rfl
      obtain rfl := Option.some.inj (hi.symm.trans hl)
      rcases hfeeds.2 with ⟨hphase, hmac⟩ | ⟨hphase, hmac⟩
      · exact absurd (hphase.symm.trans hmac) (by decide)
      · exact absurd (hphase.symm.trans hmac) (by decide)
    have hafter : ∀ {k : ℕ} {z : Tag × Trace.Command}, (warmUp tagged).length ≤ k →
        tagged[k]? = some z → (Trace.afterWarmUp tagged)[k - (warmUp tagged).length]? = some z := by
      intro k z hk hz
      rwa [← warmUp_append tagged, List.getElem?_append_right hk] at hz
    obtain ⟨hil, hx⟩ := List.getElem?_eq_some_iff.mp (hafter (by omega) hi)
    obtain ⟨hll, hy⟩ := List.getElem?_eq_some_iff.mp (hafter hwarm hl)
    have hpair := List.pairwise_iff_getElem.mp (List.pairwise_append.mp h.fed).2.1 _ _ hll hil
      (by omega)
    rw [hx, hy] at hpair
    exact hpair hfeeds
  refine ⟨hlt, ?_⟩
  obtain ⟨p, rest, hsplit, rfl⟩ := exists_split hi
  have hrest : rest[l - (p.length + 1)]? = some y := by
    have hindex : l = p.length + (l - (p.length + 1) + 1) := by omega
    rw [hsplit, hindex, List.getElem?_append_right (Nat.le_add_right _ _),
      Nat.add_sub_cancel_left, List.getElem?_cons_succ] at hl
    exact hl
  obtain ⟨q, r, rfl, hq⟩ := exists_split hrest
  have hinfix : tagBarrier Generator.barrier <:+: q := by
    refine Fenced.of_filter barrier_ne_nil (fun b hb => not_mem_warmUp hb) hkeep h.fenced
      ((warmUp_append tagged).trans hsplit) hfeeds ?_
    omega
  obtain ⟨front, back, rfl⟩ := hinfix
  refine ⟨p ++ x :: front, back ++ y :: r, by simp, ?_, ?_⟩
  · rw [hsplit]
    simp
  · simp only [List.length_append, List.length_cons] at hq ⊢
    omega

end Bus

/-- What has to be done in a channel before a command for a line is issued that opens or closes no
row: where the line is a move, the MACs that it drains, and where it is a MAC, but for the dummies
in front of the first barrier, all vectors that it works on. -/
structure BusOrdered {D : Device} (g : Generator) (a : Args) (cmds : List (Iteration Trace.Command))
    (tagged : List (Tag × Trace.Command)) (setup : Setup D nChannel) (entries : List TraceEntry)
    (s : Simulation D nChannel) (c : Fin nChannel) : Prop where
  drained : ∀ l y r newer older clk cmd, tagged[l]? = some y → RequestOf setup entries s c l r →
    cmd.opensOrCloses = false →
    (s.channel c).controller.log = newer ++ .issued clk r cmd :: older →
    ∀ x, Draws g a cmds y x → setup.MapsTo x.2.entry c →
      ∃ i < l, tagged[i]? = some x ∧ DoneBy setup entries s c clk older i
  fed : ∀ l y r newer older clk cmd, tagged[l]? = some y → RequestOf setup entries s c l r →
    cmd.opensOrCloses = false →
    (s.channel c).controller.log = newer ++ .issued clk r cmd :: older →
    (warmUp tagged).length ≤ l → ∀ i x, tagged[i]? = some x →
      (Trace.kind x).Feeds (Trace.kind y) → setup.MapsTo x.2.entry c →
      i < l ∧ DoneBy setup entries s c clk older i

/-- **The order of a generated trace on the command bus**: let a generator write a trace, the
frontend read it, and the mapper `HBM3-PIM` spread it over 16 channels. However the ticks of the
frontend and of the memory system follow each other, every channel issues the final commands of the
MACs before the moves that drain them, and those of the vectors before the MACs that work on
them. -/
theorem generated_bus_order {D : Device} {g : Generator} (hmac : g.mac ≠ .BARRIER) (a : Args)
    {cmds : List (Iteration Trace.Command)} {trace : List Trace.Command}
    (hrun : g.runAttention a [] = .ok (cmds, trace)) {tokenize : Trace.Text → List Trace.Text}
    (htokenize : Trace.SplitsAtSpace tokenize) {entries : List TraceEntry}
    (hread : Trace.initTrace tokenize (.content (Trace.writeTrace trace)) = .ok entries)
    {u : Utilities} (hu : u.Documented) (setup : Setup D nChannel)
    (hmapper : setup.applyMapper = pimMapper u) (sides : List Side) (c : Fin nChannel) :
    ∃ tagged, g.emit a (tagBarrier Generator.barrier) (tagAll cmds) = .ok tagged ∧
      tagged.map Prod.snd = trace ∧
      BusOrdered g a cmds tagged setup entries (setup.run entries sides) c := by
  obtain ⟨hcmds, -, tagged, hout, rfl⟩ := Trace.exists_tagged hrun
  obtain rfl := eq_of_initTrace htokenize hread
  have hordered : Trace.DependencyOrdered g a cmds (tagBarrier Generator.barrier)
      (Trace.withoutDummies tagged) := by
    refine Trace.ordered_emit (by decide) ?_ hout
    intro j it hit
    rw [hcmds, List.getElem?_map] at hit
    obtain ⟨n, -, rfl⟩ := Option.map_eq_some_iff.mp hit
    simp [Generator.iteration, Generator.commands]
  have hspelled : ∀ {i : ℕ} {x : Tag × Trace.Command}, tagged[i]? = some x →
      x.1.phase ≠ .barrier → x.2.mnemonic ≠ .BARRIER := by
    intro i x hi hphase
    rw [Trace.spelled_of_mem_emit hcmds hout x (List.mem_of_getElem? hi)]
    exact Trace.mnemonicOf_ne_barrier hmac hphase
  refine ⟨tagged, hout, rfl, ?_, ?_⟩
  · intro l y r newer older clk cmd hl hr hcmd hlog x hdraws hc
    obtain ⟨i, p, q, hi, hip, hsplit, hlp⟩ := fence_of_draws hordered hl hdraws
    have hphase : x.1.phase ≠ .barrier := by
      intro hbarrier
      rcases hdraws.1.2 with ⟨-, hphase, -⟩ | ⟨-, hphase, -⟩
      · exact absurd (hphase.symm.trans hbarrier) (by decide)
      · exact absurd (hphase.symm.trans hbarrier) (by decide)
    refine ⟨i, by omega, hi, ?_⟩
    exact doneBy_of_fence hu hmapper rfl hsplit hi hip hl hlp (hspelled hi hphase) hc hr hcmd hlog
  · intro l y r newer older clk cmd hl hr hcmd hlog hwarm i x hi hfeeds hc
    obtain ⟨hil, p, q, hip, hsplit, hlp⟩ := fence_of_feeds hordered hwarm hl hi hfeeds
    have hphase : x.1.phase ≠ .barrier := by
      intro hbarrier
      rcases hfeeds.2 with ⟨hphase, -⟩ | ⟨hphase, -⟩
      · exact absurd (hphase.symm.trans hbarrier) (by decide)
      · exact absurd (hphase.symm.trans hbarrier) (by decide)
    refine ⟨hil, ?_⟩
    exact doneBy_of_fence hu hmapper rfl hsplit hi hip hl hlp (hspelled hi hphase) hc hr hcmd hlog

/-- 16 channels of a device, with refreshes every 100 cycles. -/
def sixteenChannels (D : Device) (dram : D.State) : Setup D nChannel where
  applyMapper := pimMapper AddrMapper.utilities
  watermarks := Controller.defaultWatermarks
  maxSize _ := 32
  dram _ := dram
  scheme := .allBankHBM3
  dramOrgLevels := 7
  numRanks := 2
  nrefi := 100
  nrefi_pos := oneChannel.nrefi_pos
  stale _ _ := none

/-- The trace of 33 heads, a pair of iterations and a last one, on 16 channels. -/
theorem generated_bus_order_thirty_three : ∃ cmds trace tagged,
    Trace.bank.runAttention (Trace.shortArgs 33) [] = .ok (cmds, trace) ∧
      tagged.map Prod.snd = trace ∧
      BusOrdered Trace.bank (Trace.shortArgs 33) cmds tagged
        (sixteenChannels Controller.readyDevice ()) (entriesOf tagged)
        ((sixteenChannels Controller.readyDevice ()).run (entriesOf tagged) [.frontend, .memory])
        (Fin.last 15) := by
  obtain ⟨cmds, trace, hrun⟩ := Trace.exists_run_short 33 (by decide +kernel)
  have haddr : ∀ cmd ∈ trace, (cmd.addr : ℤ) < 2 ^ 63 := by
    have hall : (Trace.bank.runAttention (Trace.shortArgs 33) []).toOption.all
        (fun r => r.2.all fun cmd => decide ((cmd.addr : ℤ) < 2 ^ 63)) = true := by decide +kernel
    rw [hrun] at hall
    exact fun cmd hcmd => of_decide_eq_true (List.all_eq_true.mp hall cmd hcmd)
  obtain ⟨tagged, -, htrace, hordered⟩ := generated_bus_order (D := Controller.readyDevice)
    (by decide) (Trace.shortArgs 33) hrun Trace.splitsAtSpace_splitOn
    (Trace.initTrace_writeTrace Trace.splitsAtSpace_splitOn haddr)
    AddrMapper.documented_utilities (sixteenChannels Controller.readyDevice ()) rfl
    [.frontend, .memory] (Fin.last 15)
  refine ⟨cmds, trace, tagged, hrun, htrace, ?_⟩
  rw [entriesOf, htrace]
  exact hordered

end AttAcc.Memory
