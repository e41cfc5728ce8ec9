import AttAcc.Controller.Hbm3Pim

/-!
# The timings of HBM3-PIM

The timing constraints of `HBM3-PIM.cpp` on PIM commands (`timingcons`), and nodes that keep them
(`timedNodes`): a command sets the earliest times of others in the nodes that its address covers,
and is ready when these have come at every node on its path. These nodes do what is relied on
(`documented_timedNodes`), and the longest constraints are the latencies.
-/

namespace AttAcc.Dram

variable {o : Organization}

/-- A constraint of `populate_timingcons`, with its level by the number of it. -/
structure TimingCons where
  level : ℕ
  preceding : List Command
  following : List Command
  latency : ℕ
  deriving Repr

/-- `m_timing_vals`, as far as constraints on PIM commands use them. -/
structure TimingVals where
  nBL : ℕ
  nRCDRD : ℕ
  nRP : ℕ
  nRAS : ℕ
  nRC : ℕ
  nRTPL : ℕ
  nCCDS : ℕ
  nCCDL : ℕ
  nCCDAB : ℕ
  nCCDSB : ℕ
  nRFC : ℕ

/-- The commands that move data. -/
def dataCommands : List Command := [.WRGB, .MVSB, .MVGB, .SFM, .RD, .WR]

/-- The constraints on PIM commands. -/
def timingcons (v : TimingVals) : List TimingCons :=
  -- all banks
  [⟨0, [.ACTAB], [.ACTAB, .ACT, .PRE, .PREA, .REFab, .REFsb], 2⟩,
    ⟨0, [.MACAB], [.MACAB], v.nCCDAB⟩,
    ⟨0, [.ACTAB], [.ACTAB], v.nRC⟩,
    ⟨0, [.ACTAB], [.MACAB], v.nRCDRD⟩,
    ⟨0, [.ACTAB], [.PREA], v.nRAS⟩,
    ⟨0, [.MACAB], [.PREA], v.nRTPL⟩,
    ⟨0, [.PREA], [.ACTAB], v.nRP⟩,
    ⟨1, [.ACTAB], [.REFab], v.nRC⟩,
    ⟨1, [.PREA], [.REFab], v.nRP⟩,
    ⟨1, [.REFab], [.ACTAB], v.nRFC⟩,
    -- same bank
    ⟨0, [.ACTSB], [.ACTSB, .ACT, .PRE, .PREA, .PRESB, .REFab, .REFsb], 2⟩,
    ⟨0, [.MACSB], [.MACSB], v.nCCDSB⟩,
    ⟨4, [.ACTSB], [.ACTSB], v.nRC⟩,
    ⟨4, [.ACTSB], [.MACSB], v.nRCDRD⟩,
    ⟨4, [.ACTSB], [.PRESB], v.nRAS⟩,
    ⟨4, [.MACSB], [.PRESB], v.nRTPL⟩,
    ⟨4, [.PRESB], [.ACTSB], v.nRP⟩,
    ⟨1, [.ACTSB], [.REFab], v.nRC⟩,
    ⟨1, [.PRESB], [.REFab], v.nRP⟩,
    ⟨1, [.REFab], [.ACTSB], v.nRFC⟩,
    -- per bank
    ⟨0, [.ACTPB], [.ACTPB, .ACT, .PRE, .PREA, .PREPB, .REFab, .REFsb], 2⟩,
    ⟨0, [.MACPB], [.MACPB], v.nBL⟩,
    ⟨2, [.MACPB], [.MACPB], v.nCCDS⟩,
    ⟨3, [.MACPB], [.MACPB], v.nCCDL⟩,
    ⟨4, [.ACTPB], [.ACTPB], v.nRC⟩,
    ⟨4, [.ACTPB], [.MACPB], v.nRCDRD⟩,
    ⟨4, [.ACTPB], [.PREPB], v.nRAS⟩,
    ⟨4, [.MACPB], [.PREPB], v.nRTPL⟩,
    ⟨4, [.PREPB], [.ACTPB], v.nRP⟩,
    ⟨1, [.ACTPB], [.REFab], v.nRC⟩,
    ⟨1, [.PREPB], [.REFab], v.nRP⟩,
    ⟨1, [.REFab], [.ACTPB], v.nRFC⟩,
    -- data movement
    ⟨1, dataCommands, dataCommands, v.nBL⟩,
    ⟨2, dataCommands, dataCommands, v.nCCDS⟩,
    ⟨3, dataCommands, dataCommands, v.nCCDL⟩]

/-- The level of `m_command_scopes`, but for commands that have none. -/
def commandScope : Command → ℕ
  | .PREA | .REFab | .SFM | .SETH => 0
  | .PRE | .PRESB | .PREPB | .REFsb | .WRGB | .MVSB | .MVGB | .SETM | .BARRIER => 4
  | .ACT | .ACTAB | .ACTSB | .ACTPB => 5
  | .RD | .WR | .MACAB | .MACSB | .MACPB => 6

/-- The longest of some constraints. -/
def longest (cons : List TimingCons) : ℕ := (cons.map TimingCons.latency).foldr max 0

/-! ## Nodes that keep the timings -/

/-- `m_cmd_ready_clk` of the nodes, by the paths to them, and a time at which all commands are
ready. -/
structure NodeClks where
  clk : ℕ
  cmdReadyClk : List ℤ → Command → ℕ
  last : ℕ
  le_last : ∀ path cmd, cmdReadyClk path cmd ≤ last

/-- The nodes as they are constructed: every command is ready. -/
def NodeClks.initial : NodeClks := ⟨0, fun _ _ => 0, 0, fun _ _ => le_rfl⟩

/-- A node that an address covers: `-1` stands for all nodes of a level. -/
def covers (addrVec path : List ℤ) : Bool :=
  (addrVec.zip path).all fun (field, id) => decide (field = -1 ∨ field = id)

variable {cons : List TimingCons}

theorem le_longest {c : TimingCons} (h : c ∈ cons) : c.latency ≤ longest cons := by
  induction cons with
  | nil => cases h
  | cons head rest ih =>
    show c.latency ≤ max head.latency (longest rest)
    rcases List.mem_cons.mp h with rfl | h
    · exact le_max_left _ _
    · exact (ih h).trans (le_max_right _ _)

theorem longest_le {bound : ℕ} (h : ∀ c ∈ cons, c.latency ≤ bound) : longest cons ≤ bound := by
  induction cons with
  | nil => exact Nat.zero_le _
  | cons head rest ih =>
    exact max_le (h head List.mem_cons_self) (ih fun c hc => h c (List.mem_cons_of_mem _ hc))

/-- Fewer constraints. -/
theorem longest_filter_le (p q : TimingCons → Bool) (h : ∀ c, p c = true → q c = true) :
    longest (cons.filter p) ≤ longest (cons.filter q) :=
  longest_le fun c hc =>
    have hc := List.mem_filter.mp hc
    le_longest (List.mem_filter.mpr ⟨hc.1, h c hc.2⟩)

section Nodes

variable (cons)

/-- The constraints that a command begins. -/
def after (cmd : Command) (c : TimingCons) : Bool := decide (cmd ∈ c.preceding)

/-- A command is issued. -/
def NodeClks.update (t : NodeClks) (cmd : Command) (addrVec : List ℤ) : NodeClks where
  clk := t.clk
  cmdReadyClk path next :=
    if covers addrVec path then
      max (t.cmdReadyClk path next) (t.clk + longest (cons.filter fun c =>
        after cmd c && decide (c.level + 1 = path.length ∧ next ∈ c.following)))
    else t.cmdReadyClk path next
  last := max t.last (t.clk + longest (cons.filter (after cmd)))
  le_last := by
    intro path next
    have hlast := t.le_last path next
    split_ifs
    · refine max_le_max hlast (Nat.add_le_add_left (longest_filter_le _ _ ?_) _)
      intro c hc
      exact (Bool.and_eq_true_iff.mp hc).1
    · exact hlast.trans (le_max_left _ _)

/-- Commands get ready later, if at all. -/
theorem NodeClks.le_update (t : NodeClks) (cmd : Command) (addrVec path : List ℤ)
    (next : Command) : t.cmdReadyClk path next ≤
      (t.update cons cmd addrVec).cmdReadyClk path next := by
  simp only [update]
  split_ifs
  · exact le_max_left _ _
  · exact le_rfl

/-- And not before a constraint has passed. -/
theorem NodeClks.add_le_update (t : NodeClks) {cmd next : Command} {addrVec path : List ℤ}
    {c : TimingCons} (hc : c ∈ cons) (hlength : path.length = c.level + 1)
    (hcmd : cmd ∈ c.preceding) (hnext : next ∈ c.following) (hcovers : covers addrVec path = true) :
    t.clk + c.latency ≤ (t.update cons cmd addrVec).cmdReadyClk path next := by
  have hmem : c ∈ cons.filter fun c =>
      after cmd c && decide (c.level + 1 = path.length ∧ next ∈ c.following) := by
    refine List.mem_filter.mpr ⟨hc, Bool.and_eq_true_iff.mpr ⟨decide_eq_true hcmd, ?_⟩⟩
    exact decide_eq_true ⟨hlength.symm, hnext⟩
  simp only [update, hcovers, if_true]
  exact (Nat.add_le_add_left (le_longest hmem) _).trans (le_max_right _ _)

/-- The nodes of a device with some constraints. -/
def timedNodes (readLatency : ℤ) : NodeBase o where
  Timing := NodeClks
  tick t := { t with clk := t.clk + 1 }
  checkReady t cmd addrVec := (List.range Controller.rowLevel).all fun level =>
    decide (level ≤ commandScope cmd → t.cmdReadyClk (addrVec.take (level + 1)) cmd ≤ t.clk)
  updateTiming t cmd addrVec := t.update cons cmd addrVec
  rowHit b row := decide (b.RowOpen row)
  requireBankClosed b cmd :=
    match b.state with
    | .Closed => cmd
    | .Opened => .PRE
  readLatency := readLatency

/-- **Nodes that keep timings do what is relied on.** -/
def documented_timedNodes (readLatency : ℤ) :
    (timedNodes (o := o) cons readLatency).Documented where
  wait t := t.last - t.clk
  latency := longest (cons.filter fun c => decide (c.preceding ≠ [.REFab]))
  refreshLatency := longest (cons.filter (after .REFab))
  ready := by
    intro t cmd a hwait
    refine List.all_eq_true.mpr fun level _ => decide_eq_true fun _ => ?_
    exact (t.le_last _ cmd).trans (Nat.sub_eq_zero_iff_le.mp hwait)
  tick := by
    intro t
    exact (Nat.sub_sub _ _ _).ge
  update := by
    intro t cmd a hcmd
    have hle : longest (cons.filter (after cmd)) ≤
        longest (cons.filter fun c => decide (c.preceding ≠ [.REFab])) := by
      refine longest_filter_le _ _ fun c hc => decide_eq_true fun hrefresh => hcmd ?_
      have hmem : cmd ∈ c.preceding := of_decide_eq_true hc
      rw [hrefresh] at hmem
      exact List.mem_singleton.mp hmem
    show max t.last (t.clk + _) - t.clk ≤ _
    omega
  updateRefresh := by
    intro t a
    show max t.last (t.clk + _) - t.clk ≤ _
    omega
  readyBank := by
    intro t cmd a b _ hbank
    have hpath : ∀ level ∈ List.range Controller.rowLevel,
        a.take (level + 1) = b.take (level + 1) := by
      intro level hlevel
      have hle : level + 1 ≤ Controller.rowLevel := List.mem_range.mp hlevel
      rw [← Nat.min_eq_left hle, ← List.take_take, hbank, List.take_take]
    refine Bool.eq_iff_iff.mpr ?_
    simp only [timedNodes, List.all_eq_true]
    exact forall₂_congr fun level hlevel => by rw [hpath level hlevel]
  rowHit := fun h => decide_eq_true h

end Nodes

/-- **Nodes keep some constraints**: a countdown for every node and command, which the commands in
front of it start and none stops, is over when the command is ready at the node. -/
structure NodeBase.Keeps (base : NodeBase o) (cons : List TimingCons) where
  remaining : base.Timing → List ℤ → Command → ℕ
  level_lt : ∀ c ∈ cons, c.level < Controller.rowLevel
  ready : ∀ {t cmd a level}, base.checkReady t cmd a = true → level < Controller.rowLevel →
    level ≤ commandScope cmd → remaining t (a.take (level + 1)) cmd = 0
  tick : ∀ t path cmd, remaining t path cmd ≤ remaining (base.tick t) path cmd + 1
  update_le : ∀ t cmd a path next,
    remaining t path next ≤ remaining (base.updateTiming t cmd a) path next
  update : ∀ {t cmd a path next c}, c ∈ cons → path.length = c.level + 1 → cmd ∈ c.preceding →
    next ∈ c.following → covers a path = true →
      c.latency ≤ remaining (base.updateTiming t cmd a) path next

/-- Nodes that keep timings keep the constraints that they are made with. -/
def keeps_timedNodes (cons : List TimingCons) (h : ∀ c ∈ cons, c.level < Controller.rowLevel)
    (readLatency : ℤ) : (timedNodes (o := o) cons readLatency).Keeps cons where
  remaining t path cmd := t.cmdReadyClk path cmd - t.clk
  level_lt := h
  ready := by
    intro t cmd a level hready hlevel hscope
    have hnode := List.all_eq_true.mp hready level (List.mem_range.mpr hlevel)
    exact Nat.sub_eq_zero_of_le (of_decide_eq_true hnode hscope)
  tick := by
    intro t path cmd
    show t.cmdReadyClk path cmd - t.clk ≤ t.cmdReadyClk path cmd - (t.clk + 1) + 1
    omega
  update_le t cmd a path next := Nat.sub_le_sub_right (NodeClks.le_update cons t cmd a path next) _
  update := by
    intro t cmd a path next c hc hlength hcmd hnext hcovers
    exact Nat.le_sub_of_add_le'
      (NodeClks.add_le_update cons t hc hlength hcmd hnext hcovers)

theorem level_timingcons (v : TimingVals) : ∀ c ∈ timingcons v, c.level < Controller.rowLevel := by
  simp [timingcons, Controller.rowLevel]

/-- The preset `HBM3_6.4Gbps` for 8 Gb, where `nRFC` is 350 ns. -/
def hbm3_6400_8Gb : TimingVals where
  nBL := 2
  nRCDRD := 23
  nRP := 23
  nRAS := 55
  nRC := 77
  nRTPL := 10
  nCCDS := 2
  nCCDL := 4
  nCCDAB := 7
  nCCDSB := 8
  nRFC := 560

/-- The longest constraint is `nRC`, but for refreshes. -/
example : (documented_timedNodes (o := ⟨2, 2, 4, 4⟩) (timingcons hbm3_6400_8Gb) 25).latency = 77 ∧
    (documented_timedNodes (o := ⟨2, 2, 4, 4⟩) (timingcons hbm3_6400_8Gb) 25).refreshLatency =
      560 := by decide

end AttAcc.Dram
