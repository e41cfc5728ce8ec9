import AttAcc.Library.Regions
import AttAcc.Trace.Generate

/-!
# Where a trace finds keys and values

Iteration `itr` keeps its keys `itr * partition_size` bytes into every bank and its values
`v_offset` bytes later. `partition_size` counts the elements that a bank holds of a head,
and the MACs advance by columns of 32 bytes. So the regions of two iterations are disjoint
exactly when a region takes at most `partition_size` bytes (`regionsDisjoint_iff`), which a
head of more than one byte an element and `max_L` tokens does not.
-/

namespace AttAcc.Trace

open Library

/-! ## Columns -/

/-- The column that a command addresses, among all columns of an HBM. -/
def Command.column (c : Command) : ℕ := c.addr / HbmGs.col

namespace Iteration

variable (it : Iteration Command)

/-- The columns of the keys. -/
def keyColumns : List ℕ := it.scoreMac.flatten.map Command.column

/-- The columns of the values. -/
def valueColumns : List ℕ := it.contextMac.flatten.map Command.column

end Iteration

/-- No two iterations share a column of keys or a column of values, and no column of keys
is one of values. -/
def RegionsDisjoint (cmds : List (Iteration Command)) : Prop :=
  (cmds.Pairwise fun it it' => it.keyColumns.Disjoint it'.keyColumns ∧
    it.valueColumns.Disjoint it'.valueColumns) ∧
  ∀ it ∈ cmds, ∀ it' ∈ cmds, it.keyColumns.Disjoint it'.valueColumns

/-! ## Where the columns of an operand lie -/

/-- Where the MAC units sit. -/
inductive Level where
  | bank
  | bg
  | buffer
  deriving DecidableEq, Repr

namespace Level

/-- The generator of a level. -/
def generator : Level → Generator
  | bank => Trace.bank
  | bg => Trace.bg
  | buffer => Trace.buffer

/-- How many banks a unit takes its columns from. -/
def banks : Level → ℕ
  | bank => 1
  | bg => nBank
  | buffer => nBg * nRank * nBank

/-- The place of a column in its bank, by its index. -/
def depth : Level → ℕ → ℕ
  | bank, idx => idx
  | bg, idx => idx / (nCol * nBank) * nCol + idx % nCol
  | buffer, idx => idx / (nBg * nRank * nBank)

/-- How many columns of a bank an operand of `n` columns takes, at most. -/
def bankCols : Level → ℕ → ℕ
  | bank, n => n
  | bg, n => n / (nCol * nBank) * nCol + min (n % (nCol * nBank)) nCol
  | buffer, n => n ⌈/⌉ (nBg * nRank * nBank)

variable (l : Level)

/-- An address is a bank and a place in it. -/
theorem exists_macOffset_eq (idx : ℕ) :
    ∃ slot, l.generator.macOffset idx = slot * HbmGs.ba + l.depth idx * HbmGs.col := by
  cases l with
  | bank => exact ⟨0, by rw [Nat.zero_mul, Nat.zero_add]; rfl⟩
  | bg =>
    refine ⟨idx / nCol % nBank, ?_⟩
    simp only [generator, Trace.bg, depth, HbmGs.ba, HbmGs.row, HbmGs.col, nRow, nCol, nBank,
      prefetchSize]
    omega
  | buffer =>
    refine ⟨idx % (nBg * nRank) * nBank + idx / (nBg * nRank) % nBank, ?_⟩
    simp only [generator, Trace.buffer, depth, HbmGs.bg, HbmGs.ba, HbmGs.row, HbmGs.col, nRow,
      nCol, nBank, nBg, nRank, prefetchSize]
    omega

theorem depth_lt {idx n : ℕ} (h : idx < n) : l.depth idx < l.bankCols n := by
  cases l with
  | bank => exact h
  | bg =>
    simp only [depth, bankCols, nCol, nBank]
    omega
  | buffer =>
    simp only [depth, bankCols, nBg, nRank, nBank, Nat.ceilDiv_eq_add_pred_div]
    omega

/-- The first bank holds a column at every place that is taken. -/
theorem exists_macOffset_eq_mul {c n : ℕ} (h : c < l.bankCols n) :
    ∃ idx < n, l.generator.macOffset idx = c * HbmGs.col := by
  cases l with
  | bank => exact ⟨c, h, rfl⟩
  | bg =>
    simp only [bankCols, nCol, nBank] at h
    refine ⟨c / 32 * 128 + c % 32, by omega, ?_⟩
    simp only [generator, Trace.bg, HbmGs.ba, HbmGs.row, HbmGs.col, nRow, nCol, nBank,
      prefetchSize]
    omega
  | buffer =>
    simp only [bankCols, nBg, nRank, nBank, Nat.ceilDiv_eq_add_pred_div] at h
    refine ⟨c * 32, by omega, ?_⟩
    simp only [generator, Trace.buffer, HbmGs.bg, HbmGs.ba, HbmGs.row, HbmGs.col, nRow,
      nCol, nBank, nBg, nRank, prefetchSize]
    omega

/-- A column takes an index of its bank at most `banks` times. -/
theorem le_banks_mul_bankCols (n : ℕ) : n ≤ l.banks * l.bankCols n := by
  cases l with
  | bank => exact (Nat.one_mul n).ge
  | bg =>
    simp only [banks, bankCols, nCol, nBank]
    omega
  | buffer =>
    simp only [banks, bankCols, nBg, nRank, nBank, Nat.ceilDiv_eq_add_pred_div]
    omega

theorem bankCols_mono {m n : ℕ} (h : m ≤ n) : l.bankCols m ≤ l.bankCols n := by
  cases l with
  | bank => exact h
  | bg =>
    simp only [bankCols, nCol, nBank]
    omega
  | buffer =>
    simp only [bankCols, nBg, nRank, nBank, Nat.ceilDiv_eq_add_pred_div]
    omega

/-- The banks of a channel are those of all units. -/
theorem units_mul_lanes_mul_banks :
    l.generator.units * l.generator.lanes * l.banks = nPch * nRank * nBg * nBank := by
  cases l with
  | bank => rfl
  | bg => rfl
  | buffer => rfl

end Level

namespace Generator

variable (g : Generator) (a : Args)

/-- How many columns the keys of a head take in a unit, as do its values. -/
def operandCols : ℕ := g.seqRows a * g.headCols a

end Generator

/-! ## The columns of an iteration -/

/-- The position of a column in its bank. -/
def inBank (column : ℕ) : ℕ := column % (HbmGs.ba / HbmGs.col)

section Columns

variable {l : Level} {a : Args} {itr col : ℕ}

/-- Counting row by row is counting. -/
theorem exists_row_iff {rows cols : ℕ} {P : ℕ → Prop} :
    (∃ row < rows, ∃ c < cols, P (c + row * cols)) ↔ ∃ idx < rows * cols, P idx := by
  refine ⟨?_, ?_⟩
  · rintro ⟨row, hrow, c, hc, h⟩
    refine ⟨c + row * cols, ?_, h⟩
    have hnext : (row + 1) * cols ≤ rows * cols := Nat.mul_le_mul_right _ hrow
    rw [Nat.add_mul, Nat.one_mul] at hnext
    omega
  · rintro ⟨idx, hidx, h⟩
    have hcols : 0 < cols := Nat.pos_of_mul_pos_left (Nat.zero_lt_of_lt hidx)
    refine ⟨idx / cols, Nat.div_lt_of_lt_mul (by rwa [Nat.mul_comm] at hidx), idx % cols,
      Nat.mod_lt _ hcols, ?_⟩
    rwa [Nat.mul_comm, Nat.mod_add_div]

/-- The columns that the MACs of an operand address. -/
theorem mem_map_column_macRows {g : Generator} {addr rows cols valid : ℕ} :
    col ∈ (((List.range rows).map (g.macRow addr cols valid)).flatten).map Command.column ↔
      ∃ idx < rows * cols, ∃ lch < valid,
        (addr + lch * HbmGs.ch + g.macOffset idx) / HbmGs.col = col := by
  rw [← exists_row_iff (P := fun idx => ∃ lch < valid,
    (addr + lch * HbmGs.ch + g.macOffset idx) / HbmGs.col = col)]
  simp only [List.mem_map, List.mem_flatten, List.mem_range]
  refine ⟨?_, ?_⟩
  · rintro ⟨c, ⟨_, ⟨row, hrow, rfl⟩, hc⟩, rfl⟩
    obtain ⟨k, hk, lch, hlch, rfl⟩ := g.mem_macRow.mp hc
    exact ⟨row, hrow, k, hk, lch, hlch, rfl⟩
  · rintro ⟨row, hrow, k, hk, lch, hlch, rfl⟩
    exact ⟨_, ⟨_, ⟨row, hrow, rfl⟩, g.mem_macRow.mpr ⟨k, hk, lch, hlch, rfl⟩⟩, rfl⟩

theorem mem_keyColumns {g : Generator} : col ∈ (g.iteration a itr).keyColumns ↔
    ∃ idx < g.operandCols a, ∃ lch < a.validChannel itr,
      (a.keyAddr itr + lch * HbmGs.ch + g.macOffset idx) / HbmGs.col = col :=
  mem_map_column_macRows

theorem mem_valueColumns {g : Generator} : col ∈ (g.iteration a itr).valueColumns ↔
    ∃ idx < g.operandCols a, ∃ lch < a.validChannel itr,
      (a.valAddr itr + lch * HbmGs.ch + g.macOffset idx) / HbmGs.col = col := by
  rw [Generator.operandCols, Nat.mul_comm]
  exact mem_map_column_macRows

/-- A region that ends within its bank keeps its columns in it. -/
theorem inBank_mem_cells {addr width lch idx : ℕ}
    (hend : addr + l.bankCols width * HbmGs.col ≤ HbmGs.ba) (hidx : idx < width) :
    inBank ((addr + lch * HbmGs.ch + l.generator.macOffset idx) / HbmGs.col) ∈
      cells HbmGs.col addr (l.bankCols width) := by
  obtain ⟨slot, hslot⟩ := l.exists_macOffset_eq idx
  have hdepth := l.depth_lt hidx
  have hcell : (addr + l.depth idx * HbmGs.col) / HbmGs.col ∈
      cells HbmGs.col addr (l.bankCols width) := mem_cells (by decide) hdepth
  have hinBank : inBank ((addr + lch * HbmGs.ch + l.generator.macOffset idx) / HbmGs.col) =
      (addr + l.depth idx * HbmGs.col) / HbmGs.col := by
    rw [hslot]
    simp only [inBank, HbmGs.ch, HbmGs.pch, HbmGs.rank, HbmGs.bg, HbmGs.ba, HbmGs.row, HbmGs.col,
      nRow, nCol, nBank, nBg, nRank, nPch, prefetchSize] at hend ⊢
    omega
  rw [hinBank]
  exact hcell

/-- The keys of every iteration fit below the values. -/
def KeysFit (l : Level) (a : Args) : Prop :=
  ∀ itr < a.numItr,
    a.keyAddr itr + l.bankCols (l.generator.operandCols a) * HbmGs.col ≤ Args.vOffset

instance (l : Level) (a : Args) : Decidable (KeysFit l a) :=
  inferInstanceAs (Decidable (∀ itr < a.numItr, _))

/-- The columns of `max_L` tokens take at least `partition_size` bytes of a bank. -/
theorem partitionSize_le (l : Level) (a : Args) (hpos : 0 < a.nMac) (hmac : a.nMac ≤ HbmGs.col) :
    a.partitionSize ≤
      l.bankCols (l.generator.operandCols { a with L := a.maxL }) * HbmGs.col := by
  let a' : Args := { a with L := a.maxL }
  let n := l.generator.operandCols a'
  have hrows : a.maxL ≤ l.generator.units * l.generator.seqRows a' :=
    le_smul_ceilDiv l.generator.units_pos
  have hcols : a.dhead ≤ l.generator.lanes * a.nMac * l.generator.headCols a' :=
    le_smul_ceilDiv (Nat.mul_pos l.generator.lanes_pos hpos)
  refine (ceilDiv_le_iff_le_mul (by decide)).mpr ?_
  calc a.maxL * a.dhead
      ≤ l.generator.units * l.generator.seqRows a' *
          (l.generator.lanes * a.nMac * l.generator.headCols a') := Nat.mul_le_mul hrows hcols
    _ = l.generator.units * l.generator.lanes * a.nMac * n := by
        simp only [n, Generator.operandCols]
        ring
    _ ≤ l.generator.units * l.generator.lanes * a.nMac * (l.banks * l.bankCols n) :=
        Nat.mul_le_mul_left _ (l.le_banks_mul_bankCols n)
    _ = l.generator.units * l.generator.lanes * l.banks * (l.bankCols n * a.nMac) := by ring
    _ ≤ nPch * nRank * nBg * nBank * (l.bankCols n * HbmGs.col) := by
        rw [l.units_mul_lanes_mul_banks]
        exact Nat.mul_le_mul_left _ (Nat.mul_le_mul_left _ hmac)

/-- If `v_offset` has room for the columns of `max_L` tokens of every iteration, then the
keys fit below it. -/
theorem keysFit_of_capacity (hpos : 0 < a.nMac) (hmac : a.nMac ≤ HbmGs.col) (hL : a.L ≤ a.maxL)
    (hroom : a.numItr *
      (l.bankCols (l.generator.operandCols { a with L := a.maxL }) * HbmGs.col) ≤ Args.vOffset) :
    KeysFit l a := by
  intro itr hitr
  have hpartition := partitionSize_le l a hpos hmac
  have hcols : l.generator.operandCols a ≤ l.generator.operandCols { a with L := a.maxL } :=
    Nat.mul_le_mul_right _ ((gc_smul_ceilDiv l.generator.units_pos).monotone_l hL)
  have hregion : l.bankCols (l.generator.operandCols a) * HbmGs.col ≤
      l.bankCols (l.generator.operandCols { a with L := a.maxL }) * HbmGs.col :=
    Nat.mul_le_mul_right _ (l.bankCols_mono hcols)
  generalize l.bankCols (l.generator.operandCols { a with L := a.maxL }) * HbmGs.col = room
    at hroom hpartition hregion
  calc a.keyAddr itr + l.bankCols (l.generator.operandCols a) * HbmGs.col
      ≤ itr * room + room := Nat.add_le_add (Nat.mul_le_mul_left _ hpartition) hregion
    _ = (itr + 1) * room := by ring
    _ ≤ a.numItr * room := Nat.mul_le_mul_right _ hitr
    _ ≤ Args.vOffset := hroom

theorem inBank_keyColumns (hfit : KeysFit l a) (hitr : itr < a.numItr)
    (h : col ∈ (l.generator.iteration a itr).keyColumns) :
    inBank col ∈ cells HbmGs.col (a.keyAddr itr) (l.bankCols (l.generator.operandCols a)) := by
  obtain ⟨idx, hidx, lch, -, rfl⟩ := mem_keyColumns.mp h
  have hbank : Args.vOffset ≤ HbmGs.ba := by decide
  exact inBank_mem_cells ((hfit itr hitr).trans hbank) hidx

theorem inBank_valueColumns (hfit : KeysFit l a) (hitr : itr < a.numItr)
    (h : col ∈ (l.generator.iteration a itr).valueColumns) :
    inBank col ∈ cells HbmGs.col (a.valAddr itr) (l.bankCols (l.generator.operandCols a)) := by
  obtain ⟨idx, hidx, lch, -, rfl⟩ := mem_valueColumns.mp h
  have hbank : Args.vOffset + Args.vOffset = HbmGs.ba := by decide
  have hkey := hfit itr hitr
  refine inBank_mem_cells ?_ hidx
  rw [Args.valAddr]
  omega

/-- Columns of disjoint regions are disjoint. -/
theorem disjoint_of_inBank {cols cols' : List ℕ} {s s' : Set ℕ} (h : ∀ col ∈ cols, inBank col ∈ s)
    (h' : ∀ col ∈ cols', inBank col ∈ s') (hdisjoint : Disjoint s s') : cols.Disjoint cols' := by
  intro col hcol hcol'
  exact Set.disjoint_left.mp hdisjoint (h col hcol) (h' col hcol')

/-- A stride that covers a region keeps all regions apart. -/
theorem regionsDisjoint_of_le (hfit : KeysFit l a)
    (h : a.numItr ≤ 1 ∨
      l.bankCols (l.generator.operandCols a) * HbmGs.col ≤ a.partitionSize) :
    RegionsDisjoint ((List.range a.numItr).map (l.generator.iteration a)) := by
  have hcol : 0 < HbmGs.col := by decide
  have hpartition : ∀ {base : ℕ}, HbmGs.col ∣ base → (Set.Iio a.numItr).PairwiseDisjoint
      fun i => cells HbmGs.col (base + i * a.partitionSize)
        (l.bankCols (l.generator.operandCols a)) :=
    fun hbase => (pairwiseDisjoint_cells_iff hcol hbase).mpr h
  refine ⟨?_, ?_⟩
  · rw [List.pairwise_map, List.pairwise_iff_getElem]
    intro i j hi hj hij
    rw [List.length_range] at hi hj
    rw [List.getElem_range, List.getElem_range]
    refine ⟨disjoint_of_inBank (fun _ => inBank_keyColumns hfit hi)
      (fun _ => inBank_keyColumns hfit hj) ?_,
      disjoint_of_inBank (fun _ => inBank_valueColumns hfit hi)
      (fun _ => inBank_valueColumns hfit hj) ?_⟩
    · have hkeys := hpartition (Nat.dvd_zero _) hi hj hij.ne
      simp only [Function.onFun, Nat.zero_add] at hkeys
      exact hkeys
    · have hvalues := hpartition (by decide : HbmGs.col ∣ Args.vOffset) hi hj hij.ne
      simp only [Function.onFun, Nat.add_comm Args.vOffset] at hvalues
      exact hvalues
  · intro it hit it' hit'
    obtain ⟨i, hi, rfl⟩ := List.mem_map.mp hit
    obtain ⟨j, hj, rfl⟩ := List.mem_map.mp hit'
    have hi := List.mem_range.mp hi
    have hj := List.mem_range.mp hj
    -- The keys of every iteration end below `v_offset`, where the values of the first start.
    have hbelow : a.keyAddr i + l.bankCols (l.generator.operandCols a) * HbmGs.col ≤
        a.valAddr j := (hfit i hi).trans (Nat.le_add_left _ _)
    exact disjoint_of_inBank (fun _ => inBank_keyColumns hfit hi)
      (fun _ => inBank_valueColumns hfit hj) (disjoint_cells hcol hbelow)

/-- A shorter stride puts the first keys of the second iteration among those of the first. -/
theorem not_regionsDisjoint_of_lt (hitr : 1 < a.numItr)
    (h : a.partitionSize < l.bankCols (l.generator.operandCols a) * HbmGs.col) :
    ¬RegionsDisjoint ((List.range a.numItr).map (l.generator.iteration a)) := by
  intro hdisjoint
  have hplace : a.partitionSize / HbmGs.col < l.bankCols (l.generator.operandCols a) :=
    (Nat.div_lt_iff_lt_mul (by decide)).mpr h
  obtain ⟨idx, hidx, haddr⟩ := l.exists_macOffset_eq_mul hplace
  obtain ⟨first, hfirst, hzero⟩ := l.exists_macOffset_eq_mul (Nat.zero_lt_of_lt hplace)
  have hkey0 : a.partitionSize / HbmGs.col ∈ (l.generator.iteration a 0).keyColumns := by
    refine mem_keyColumns.mpr ⟨idx, hidx, 0, a.validChannel_pos 0, ?_⟩
    rw [haddr, Args.keyAddr, Nat.zero_mul, Nat.zero_mul, Nat.zero_add]
    exact Nat.mul_div_cancel _ (by decide)
  have hkey1 : a.partitionSize / HbmGs.col ∈ (l.generator.iteration a 1).keyColumns := by
    refine mem_keyColumns.mpr ⟨first, hfirst, 0, a.validChannel_pos 1, ?_⟩
    rw [hzero, Args.keyAddr, Nat.one_mul, Nat.zero_mul, Nat.zero_mul, Nat.add_zero]
  have hpairs := hdisjoint.1
  rw [List.pairwise_map, List.pairwise_iff_getElem] at hpairs
  have h01 := hpairs 0 1 (by rw [List.length_range]; omega) (by rw [List.length_range]; omega)
    Nat.zero_lt_one
  rw [List.getElem_range, List.getElem_range] at h01
  exact h01.1 hkey0 hkey1

/-- **The regions are disjoint exactly when the stride covers one**: for each generator and
all arguments with keys that fit below the values, no iterations share a column if and only
if there is at most one of them, or the keys of an iteration take at most `partition_size`
bytes of a bank. -/
theorem regionsDisjoint_iff (l : Level) (a : Args) (hfit : KeysFit l a)
    {cmds : List (Iteration Command)} (h : l.generator.generate a [] = .ok cmds) :
    RegionsDisjoint cmds ↔ a.numItr ≤ 1 ∨
      l.bankCols (l.generator.operandCols a) * HbmGs.col ≤ a.partitionSize := by
  obtain ⟨rfl, -⟩ := Generator.generate_eq_ok h
  refine ⟨?_, regionsDisjoint_of_le hfit⟩
  intro hdisjoint
  by_contra hneg
  obtain ⟨hitr, hsize⟩ := not_or.mp hneg
  exact not_regionsDisjoint_of_lt (Nat.lt_of_not_le hitr) (Nat.lt_of_not_le hsize) hdisjoint

/-- Heads of size 128 in 16 bits, 2048 tokens of at most `maxL`, 17 heads. -/
def longArgs (maxL : ℕ) : Args := ⟨128, maxL, 16, 2048, 17⟩

/-- With space for twice the tokens, 17 heads of 2048 tokens are kept apart. -/
theorem regionsDisjoint_long : ∃ cmds, bank.generate (longArgs 4096) [] = .ok cmds ∧
    RegionsDisjoint cmds := by
  have hcmds := Generator.generate_of_pos (g := bank) (a := longArgs 4096) (by decide)
  exact ⟨_, hcmds, (regionsDisjoint_iff .bank (longArgs 4096) (by decide +kernel) hcmds).mpr
    (by decide +kernel)⟩

/-- With space for 2048 tokens, the keys of the 17th head lie among those of the first. -/
theorem not_regionsDisjoint_long : ∃ cmds, KeysFit .bank (longArgs 2048) ∧
    bank.generate (longArgs 2048) [] = .ok cmds ∧ ¬RegionsDisjoint cmds := by
  refine ⟨_, by decide +kernel, Generator.generate_of_pos (by decide), ?_⟩
  exact not_regionsDisjoint_of_lt (l := .bank) (by decide +kernel) (by decide +kernel)

end Columns

end AttAcc.Trace
