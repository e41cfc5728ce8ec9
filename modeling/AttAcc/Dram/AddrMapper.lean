import Mathlib.Tactic.Positivity
import AttAcc.Library.MixedRadix
import AttAcc.Trace.File

/-!
# Address mappers

The linear mappers of `hbm3_pim_linear_mappers.cpp` and `hbm3_linear_mappers.cpp`, which slice
an address into a field for every level of the organization, and the granularities from which
the generators make addresses. A mapper is a positional system, read in its own order of
levels (`apply_eq`). So each is a bijection, and the generators' encoding is the inverse of
`HBM3-PIM`, also through the text of a trace.
-/

namespace AttAcc.AddrMapper

open Library

/-! ## The mappers -/

/-- `m_levels`. -/
inductive Level where
  | channel
  | pseudochannel
  | rank
  | bankgroup
  | bank
  | row
  | column
  deriving DecidableEq, Repr

/-- The levels by their index. -/
def Level.all : List Level := [.channel, .pseudochannel, .rank, .bankgroup, .bank, .row, .column]

/-- What a mapper asks of a device: `m_organization.count`, `m_internal_prefetch_size` and
`m_channel_width`. -/
structure Organization where
  count : Level → ℕ
  internalPrefetchSize : ℕ
  channelWidth : ℕ

/-- `tx_bytes`. -/
def Organization.txBytes (org : Organization) : ℕ := org.internalPrefetchSize * org.channelWidth / 8

/-- The utilities of the simulator that the mappers use. `slice_lower_bits` returns the bits, and
leaves the rest in its argument. -/
structure Utilities where
  calcLog2 : ℕ → ℕ
  sliceLowerBits : ℤ → ℕ → ℤ × ℤ

/-- What they do, for bits that an `int` has. -/
structure Utilities.Documented (u : Utilities) : Prop where
  calcLog2 : ∀ bits ≤ 30, u.calcLog2 (2 ^ bits) = bits
  sliceLowerBits : ∀ addr bits, 0 ≤ addr → bits ≤ 30 →
    u.sliceLowerBits addr bits = (addr % 2 ^ bits, addr / 2 ^ bits)

/-- `HBM3PIMLinearMapperBase` and `HBM3LinearMapperBase`. -/
structure LinearMapper where
  addrBits : Level → ℕ
  txOffset : ℕ

/-- `setup`. -/
def LinearMapper.setup (u : Utilities) (org : Organization) : LinearMapper where
  addrBits level := u.calcLog2 (org.count level)
  txOffset := u.calcLog2 org.txBytes

/-- `apply`: the levels are sliced off in some order, into an `addr_vec` of `-1`s. -/
def LinearMapper.apply (u : Utilities) (m : LinearMapper) (order : List Level) (addr : ℤ) :
    Level → ℤ :=
  let sliced := order.foldl (fun (s : ℤ × (Level → ℤ)) level =>
    let (field, rest) := u.sliceLowerBits s.1 (m.addrBits level)
    (rest, Function.update s.2 level field)) (addr >>> m.txOffset, fun _ => -1)
  sliced.2

section

variable (u : Utilities) (org : Organization)

/-- `HBM3-PIM`. -/
def hbm3PIMMap : ℤ → Level → ℤ :=
  (LinearMapper.setup u org).apply u
    [.column, .row, .bank, .bankgroup, .rank, .pseudochannel, .channel]

/-- `HBM3-PIM-Custom`: the channel, and then from the last level up. -/
def hbm3PIMCustomMap : ℤ → Level → ℤ :=
  (LinearMapper.setup u org).apply u (.channel :: (Level.all.drop 1).reverse)

/-- `HBM3-Base`. -/
def hbm3BaseMap : ℤ → Level → ℤ :=
  (LinearMapper.setup u org).apply u Level.all.reverse

/-- `HBM3-Custom`. -/
def hbm3CustomMap : ℤ → Level → ℤ :=
  (LinearMapper.setup u org).apply u
    [.channel, .pseudochannel, .bankgroup, .column, .rank, .bank, .row]

end

/-! ## The encoding -/

namespace Organization

variable (org : Organization)

/-- `HBM_GS`, built from the counts of an organization. -/
def hbmGs : Level → ℤ :=
  let col : ℤ := org.txBytes
  let row := org.count .column * col
  let ba := org.count .row * row
  let bg := org.count .bank * ba
  let rank := org.count .bankgroup * bg
  let pch := org.count .rank * rank
  let ch := org.count .pseudochannel * pch
  fun
    | .channel => ch
    | .pseudochannel => pch
    | .rank => rank
    | .bankgroup => bg
    | .bank => ba
    | .row => row
    | .column => col

/-- The address of some fields: each times its granularity. -/
def encode (fields : Level → ℤ) : ℤ :=
  (Level.all.map fun level => fields level * org.hbmGs level).sum

/-- The capacity, in bytes. -/
def capacity : ℤ := org.count .channel * org.hbmGs .channel

/-- The addresses of columns. -/
def addrs : Set ℤ := {addr | 0 ≤ addr ∧ addr < org.capacity ∧ (org.txBytes : ℤ) ∣ addr}

/-- The fields that are in range. -/
def fields : Set (Level → ℤ) := {fields | Digits (fun level => (org.count level : ℤ)) fields}

/-- Every count is a power of two that fits an `int`, and so are the bytes of a column. -/
structure PowersOfTwo : Prop where
  count : ∀ level, ∃ bits ≤ 30, org.count level = 2 ^ bits
  txBytes : ∃ bits ≤ 30, org.txBytes = 2 ^ bits

end Organization

/-- The organization that the generators are written for. -/
def generatorOrganization : Organization where
  count
    | .channel => Trace.nChannel
    | .pseudochannel => Trace.nPch
    | .rank => Trace.nRank
    | .bankgroup => Trace.nBg
    | .bank => Trace.nBank
    | .row => Trace.nRow
    | .column => Trace.nCol
  internalPrefetchSize := 8
  channelWidth := 32

/-- Their table is the one of this organization. -/
example : Level.all.map generatorOrganization.hbmGs =
    [(Trace.HbmGs.ch : ℤ), Trace.HbmGs.pch, Trace.HbmGs.rank, Trace.HbmGs.bg, Trace.HbmGs.ba,
      Trace.HbmGs.row, Trace.HbmGs.col] := by decide

/-! ## Inverses -/

section

variable {u : Utilities} {org : Organization} {order : List Level}

/-- There is a column. -/
theorem Organization.PowersOfTwo.pos (h : org.PowersOfTwo) :
    (∀ level, (0 : ℤ) < org.count level) ∧ (0 : ℤ) < org.txBytes := by
  refine ⟨?_, ?_⟩
  · intro level
    obtain ⟨bits, -, hbits⟩ := h.count level
    rw [hbits]
    positivity
  · obtain ⟨bits, -, hbits⟩ := h.txBytes
    rw [hbits]
    positivity

/-- **A mapper reads the digits of an address**, in its order of levels. -/
theorem apply_eq (hu : u.Documented) (horg : org.PowersOfTwo) {addr : ℤ} (haddr : 0 ≤ addr) :
    (LinearMapper.setup u org).apply u order addr =
      digitsAt (fun level => (org.count level : ℤ)) order (addr / org.txBytes) fun _ => -1 := by
  have hshift : addr >>> (LinearMapper.setup u org).txOffset = addr / org.txBytes := by
    obtain ⟨bits, hle, hbits⟩ := horg.txBytes
    rw [LinearMapper.setup, hbits, hu.calcLog2 bits hle, Int.shiftRight_eq_div_pow]
  have hslice : ∀ addr, 0 ≤ addr → ∀ level,
      u.sliceLowerBits addr ((LinearMapper.setup u org).addrBits level) =
        (addr % org.count level, addr / org.count level) := by
    intro addr haddr level
    obtain ⟨bits, hle, hbits⟩ := horg.count level
    have haddrBits : (LinearMapper.setup u org).addrBits level = bits :=
      (congrArg u.calcLog2 hbits).trans (hu.calcLog2 bits hle)
    rw [haddrBits, hbits, hu.sliceLowerBits addr bits haddr hle]
    push_cast
    rfl
  have hnonneg : 0 ≤ addr / org.txBytes := Int.ediv_nonneg haddr horg.pos.2.le
  rw [LinearMapper.apply, hshift]
  generalize addr / (org.txBytes : ℤ) = n at hnonneg ⊢
  generalize (fun _ => -1 : Level → ℤ) = old
  induction order generalizing n old with
  | nil => rfl
  | cons level order ih =>
    have hrest := ih (n / org.count level) (Int.ediv_nonneg hnonneg (horg.pos.1 level).le)
      (Function.update old level (n % org.count level))
    rw [digitsAt, ← hrest]
    simp only [List.foldl_cons, hslice n hnonneg level]

/-- A field of `HBM3-PIM`, by the granularity of its level. -/
theorem hbm3PIMMap_eq (hu : u.Documented) (horg : org.PowersOfTwo) {addr : ℤ} (haddr : 0 ≤ addr)
    (level : Level) : hbm3PIMMap u org addr level = addr / org.hbmGs level % org.count level := by
  have hfield : ∀ p q : List Level, level ∉ q →
      [.column, .row, .bank, .bankgroup, .rank, .pseudochannel, .channel] = p ++ level :: q →
      org.hbmGs level = org.txBytes * span (fun level => (org.count level : ℤ)) p →
      hbm3PIMMap u org addr level = addr / org.hbmGs level % org.count level := by
    intro p q hq hsplit hgs
    rw [hbm3PIMMap, apply_eq hu horg haddr, hsplit, digitsAt_append_cons horg.pos.1 hq, hgs,
      Int.ediv_ediv_of_nonneg horg.pos.2.le]
  cases level with
  | channel =>
    refine hfield [.column, .row, .bank, .bankgroup, .rank, .pseudochannel] [] (by decide) rfl ?_
    simp only [Organization.hbmGs, span_cons, span_nil]
    ring
  | pseudochannel =>
    refine hfield [.column, .row, .bank, .bankgroup, .rank] [.channel] (by decide) rfl ?_
    simp only [Organization.hbmGs, span_cons, span_nil]
    ring
  | rank =>
    refine hfield [.column, .row, .bank, .bankgroup] [.pseudochannel, .channel] (by decide) rfl ?_
    simp only [Organization.hbmGs, span_cons, span_nil]
    ring
  | bankgroup =>
    refine hfield [.column, .row, .bank] [.rank, .pseudochannel, .channel] (by decide) rfl ?_
    simp only [Organization.hbmGs, span_cons, span_nil]
    ring
  | bank =>
    refine hfield [.column, .row] [.bankgroup, .rank, .pseudochannel, .channel] (by decide) rfl ?_
    simp only [Organization.hbmGs, span_cons, span_nil]
    ring
  | row =>
    refine hfield [.column] [.bank, .bankgroup, .rank, .pseudochannel, .channel] (by decide) rfl ?_
    simp only [Organization.hbmGs, span_cons, span_nil]
    ring
  | column =>
    refine hfield [] [.row, .bank, .bankgroup, .rank, .pseudochannel, .channel] (by decide) rfl ?_
    simp only [Organization.hbmGs, span_nil]
    ring

/-- The capacity, in any order of levels. -/
theorem capacity_eq (horder : order.Perm Level.all) :
    org.capacity = span (fun level => (org.count level : ℤ)) order * org.txBytes := by
  rw [span_perm horder, Organization.capacity, Organization.hbmGs, span, Level.all]
  simp only [List.map_cons, List.map_nil, List.prod_cons, List.prod_nil]
  ring

/-- Columns are numbered by their addresses. -/
theorem bijOn_column (horg : org.PowersOfTwo) (horder : order.Perm Level.all) :
    Set.BijOn (fun addr => addr / (org.txBytes : ℤ)) org.addrs
      {n | 0 ≤ n ∧ n < span (fun level => (org.count level : ℤ)) order} := by
  have htx := horg.pos.2
  have hinv : Set.InvOn (fun n => (org.txBytes : ℤ) * n) (fun addr => addr / (org.txBytes : ℤ))
      org.addrs {n | 0 ≤ n ∧ n < span (fun level => (org.count level : ℤ)) order} := by
    refine ⟨?_, ?_⟩
    · rintro addr ⟨-, -, haligned⟩
      exact Int.mul_ediv_cancel' haligned
    · rintro n -
      exact Int.mul_ediv_cancel_left n htx.ne'
  refine hinv.bijOn ?_ ?_
  · rintro addr ⟨hnonneg, hlt, -⟩
    rw [capacity_eq horder] at hlt
    exact ⟨Int.ediv_nonneg hnonneg htx.le, Int.ediv_lt_of_lt_mul htx hlt⟩
  · rintro n ⟨hnonneg, hlt⟩
    refine ⟨mul_nonneg htx.le hnonneg, ?_, dvd_mul_right _ _⟩
    rw [capacity_eq horder]
    exact lt_of_eq_of_lt (mul_comm _ _) (mul_lt_mul_of_pos_right hlt htx)

/-- **A mapper that slices off every level once is a bijection.** -/
theorem bijOn_apply (hu : u.Documented) (horg : org.PowersOfTwo) (horder : order.Perm Level.all) :
    Set.BijOn ((LinearMapper.setup u org).apply u order) org.addrs org.fields := by
  have hnodup : order.Nodup := horder.nodup_iff.mpr (by decide)
  have hall : ∀ level, level ∈ order := by
    intro level
    refine horder.mem_iff.mpr ?_
    cases level
    all_goals decide
  have hbij := (bijOn_digitsAt horg.pos.1 hnodup hall fun _ => -1).comp (bijOn_column horg horder)
  refine hbij.congr ?_
  rintro addr ⟨hnonneg, -⟩
  exact (apply_eq hu horg hnonneg).symm

/-- The generators encode in the order of `HBM3-PIM`. -/
theorem encode_eq (fields : Level → ℤ) : org.encode fields =
    org.txBytes * place (fun level => (org.count level : ℤ)) fields
      [.column, .row, .bank, .bankgroup, .rank, .pseudochannel, .channel] := by
  rw [Organization.encode, Organization.hbmGs, Level.all]
  simp only [List.map_cons, List.map_nil, List.sum_cons, List.sum_nil, place]
  ring

/-- Fields in range have an address, which `HBM3-PIM` maps back to them. -/
theorem hbm3PIMMap_encode (hu : u.Documented) (horg : org.PowersOfTwo) {fields : Level → ℤ}
    (hfields : fields ∈ org.fields) :
    org.encode fields ∈ org.addrs ∧ hbm3PIMMap u org (org.encode fields) = fields := by
  have htx := horg.pos.2
  have hperm : [Level.column, .row, .bank, .bankgroup, .rank, .pseudochannel, .channel].Perm
      Level.all := by decide
  have hnonneg := place_nonneg [Level.column, .row, .bank, .bankgroup, .rank, .pseudochannel,
    .channel] hfields
  have hlt := place_lt_span [Level.column, .row, .bank, .bankgroup, .rank, .pseudochannel,
    .channel] hfields
  have hencode : 0 ≤ org.encode fields := by
    rw [encode_eq]
    exact mul_nonneg htx.le hnonneg
  refine ⟨⟨hencode, ?_, ?_⟩, ?_⟩
  · rw [encode_eq, capacity_eq hperm, mul_comm]
    exact mul_lt_mul_of_pos_right hlt htx
  · rw [encode_eq]
    exact dvd_mul_right _ _
  · rw [hbm3PIMMap, apply_eq hu horg hencode, encode_eq, Int.mul_ediv_cancel_left _ htx.ne']
    funext level
    refine digitsAt_place hfields (by decide) ?_ _
    cases level
    all_goals decide

/-- And the fields of an address encode to it. -/
theorem encode_hbm3PIMMap (hu : u.Documented) (horg : org.PowersOfTwo) {addr : ℤ}
    (haddr : addr ∈ org.addrs) :
    hbm3PIMMap u org addr ∈ org.fields ∧ org.encode (hbm3PIMMap u org addr) = addr := by
  have hbij : Set.BijOn (hbm3PIMMap u org) org.addrs org.fields :=
    bijOn_apply hu horg (by decide)
  have hfields := hbij.mapsTo haddr
  obtain ⟨hencode, hmap⟩ := hbm3PIMMap_encode hu horg hfields
  exact ⟨hfields, hbij.injOn hencode haddr hmap⟩

end

/-- **Addresses and fields are the same thing**: for every organization of powers of two whose
capacity an address can hold, fields that are encoded, written as a line of a trace, read from
it and mapped by `HBM3-PIM` come back, every address of a column has fields that encode to it,
and all four mappers are bijections between these addresses and the fields in range. -/
theorem address_round_trip {u : Utilities} (hu : u.Documented)
    {tokenize : Trace.Text → List Trace.Text} (htokenize : Trace.SplitsAtSpace tokenize)
    {org : Organization} (horg : org.PowersOfTwo) (hcapacity : org.capacity ≤ 2 ^ 63) :
    (∀ fields ∈ org.fields, ∀ mnemonic : Trace.Mnemonic,
      Trace.initTrace tokenize
          (.content (Trace.writeTrace [⟨mnemonic, (org.encode fields).toNat⟩])) =
        .ok [⟨mnemonic.reqType, org.encode fields⟩] ∧
      hbm3PIMMap u org (org.encode fields) = fields) ∧
    (∀ addr ∈ org.addrs, hbm3PIMMap u org addr ∈ org.fields ∧
      org.encode (hbm3PIMMap u org addr) = addr) ∧
    Set.BijOn (hbm3PIMMap u org) org.addrs org.fields ∧
    Set.BijOn (hbm3PIMCustomMap u org) org.addrs org.fields ∧
    Set.BijOn (hbm3BaseMap u org) org.addrs org.fields ∧
    Set.BijOn (hbm3CustomMap u org) org.addrs org.fields := by
  refine ⟨?_, fun addr haddr => encode_hbm3PIMMap hu horg haddr, bijOn_apply hu horg (by decide),
    bijOn_apply hu horg (by decide), bijOn_apply hu horg (by decide),
    bijOn_apply hu horg (by decide)⟩
  intro fields hfields mnemonic
  obtain ⟨⟨hnonneg, hlt, -⟩, hmap⟩ := hbm3PIMMap_encode hu horg hfields
  have hcast : ((org.encode fields).toNat : ℤ) = org.encode fields := Int.toNat_of_nonneg hnonneg
  have hfits : ((org.encode fields).toNat : ℤ) < 2 ^ 63 := by
    rw [hcast]
    exact hlt.trans_le hcapacity
  refine ⟨?_, hmap⟩
  rw [Trace.initTrace_singleton htokenize, if_pos hfits, Trace.Command.entry, hcast]

/-- What the utilities do. -/
def utilities : Utilities where
  calcLog2 := Nat.log2
  sliceLowerBits addr bits := (addr % 2 ^ bits, addr / 2 ^ bits)

theorem documented_utilities : utilities.Documented :=
  ⟨fun _ _ => Nat.log2_two_pow, fun _ _ _ _ => rfl⟩

theorem powersOfTwo_generator : generatorOrganization.PowersOfTwo := by
  refine ⟨?_, 5, by decide, by decide⟩
  intro level
  cases level with
  | channel => exact ⟨4, by decide, by decide⟩
  | pseudochannel => exact ⟨1, by decide, by decide⟩
  | rank => exact ⟨1, by decide, by decide⟩
  | bankgroup => exact ⟨2, by decide, by decide⟩
  | bank => exact ⟨2, by decide, by decide⟩
  | row => exact ⟨14, by decide, by decide⟩
  | column => exact ⟨5, by decide, by decide⟩

/-- The last column of the generators' memory. -/
theorem address_round_trip_last :
    hbm3PIMMap utilities generatorOrganization 0xffffffe0 ∈ generatorOrganization.fields ∧
      generatorOrganization.encode (hbm3PIMMap utilities generatorOrganization 0xffffffe0) =
        0xffffffe0 :=
  (address_round_trip documented_utilities Trace.splitsAtSpace_splitOn powersOfTwo_generator
    (by decide)).2.1 0xffffffe0 ⟨by decide, by decide, by decide⟩

/-- An organization with more bytes than addresses. -/
def hugeOrganization : Organization where
  count
    | .channel | .pseudochannel => 2 ^ 30
    | _ => 1
  internalPrefetchSize := 8
  channelWidth := 32

/-- Its last channel. -/
def hugeFields : Level → ℤ
  | .channel => 2 ^ 30 - 1
  | _ => 0

/-- The lines of its last channel cannot be read. -/
theorem not_address_round_trip : hugeOrganization.PowersOfTwo ∧
    hugeFields ∈ hugeOrganization.fields ∧ ∀ mnemonic : Trace.Mnemonic,
      Trace.initTrace (fun line => line.splitOn ' ') (.content (Trace.writeTrace
        [⟨mnemonic, (hugeOrganization.encode hugeFields).toNat⟩])) = .error .outOfRange := by
  refine ⟨⟨?_, 5, by decide, by decide⟩, ?_, ?_⟩
  · intro level
    cases level with
    | channel => exact ⟨30, by decide, rfl⟩
    | pseudochannel => exact ⟨30, by decide, rfl⟩
    | rank | bankgroup | bank | row | column => exact ⟨0, by decide, rfl⟩
  · intro level
    cases level
    all_goals decide
  · have hlarge : ¬((hugeOrganization.encode hugeFields).toNat : ℤ) < 2 ^ 63 := by decide
    intro mnemonic
    rw [Trace.initTrace_singleton Trace.splitsAtSpace_splitOn, if_neg hlarge]

end AttAcc.AddrMapper
