import AttAcc.Devices
import AttAcc.Library.Memo
import AttAcc.Transformer

/-!
# The Ramulator wrapper

`Ramulator` of `src/ramulator_wrapper.py`. It turns the counters of an external DRAM
simulation into a time and traffic, and logs the counters so that a later query with the
same key need not simulate again. The two paths, `run` for a fresh simulation and
`output` for a logged row, were written separately, and differ in two places: `run` does
not scale the time by `num_ops_group`, and counts a `BUFFER` access once where `output`
counts it twice. `output_eq_iff` says exactly when that does not show.

The simulator and the trace generators are a parameter: what they print for a key.
-/

namespace AttAcc

open Library

/-- The columns of the log that identify a simulation. -/
structure SimKey where
  l : ℕ
  maxL : ℕ
  nhead : ℕ
  dhead : ℕ
  dbyte : ℕ
  pimType : PIMType
  powerConstraint : Bool
  deriving DecidableEq, Repr

/-- The counters `run_ramulator` parses. -/
structure Counters where
  cycle : ℕ
  mac : ℕ
  softmax : ℕ
  mvgb : ℕ
  mvsb : ℕ
  wrgb : ℕ
  deriving DecidableEq, Repr

/-- A row of the log. -/
structure LogRow where
  key : SimKey
  counters : Counters
  deriving DecidableEq, Repr

/-- A row of a log that was written before the `max_L` column existed. -/
structure LegacyRow where
  l : ℕ
  nhead : ℕ
  dhead : ℕ
  dbyte : ℕ
  pimType : PIMType
  powerConstraint : Bool
  counters : Counters
  deriving DecidableEq, Repr

/-- The log file. -/
inductive LogFile where
  | current (rows : List LogRow)
  | legacy (rows : List LegacyRow)

/-- `df.insert(1, 'max_L', self.max_L)`, for one row. -/
def LegacyRow.insertMaxL (maxL : ℕ) (row : LegacyRow) : LogRow :=
  ⟨⟨row.l, maxL, row.nhead, row.dhead, row.dbyte, row.pimType, row.powerConstraint⟩, row.counters⟩

/-- `pd.read_csv`, and the column it may lack. -/
def LogFile.read (maxL : ℕ) : LogFile → List LogRow
  | .current rows => rows
  | .legacy rows => rows.map (LegacyRow.insertMaxL maxL)

/-- What the wrapper finds outside: whether pandas can be imported and `ramulator_dir`
exists, and what the trace generator and the simulator print for a key. -/
structure Toolchain where
  pandas : Bool
  ramulatorDir : Bool
  simulate : SimKey → Except PyError Counters

/-- `run_ramulator`: a simulation without cycles is an error. -/
def Toolchain.runRamulator (env : Toolchain) (key : SimKey) : Except PyError Counters := do
  let out ← env.simulate key
  if out.cycle = 0 then .error (.runtimeError "Ramulator produced no memory_system_cycles")
  else return out

theorem Toolchain.runRamulator_eq_ok {env : Toolchain} {key : SimKey} {c : Counters} :
    env.runRamulator key = .ok c ↔ env.simulate key = .ok c ∧ 0 < c.cycle := by
  rw [runRamulator, bind_ok_iff]
  refine ⟨?_, ?_⟩
  · rintro ⟨out, hout, h⟩
    split_ifs at h with hcycle
    obtain rfl := Except.ok.inj h
    exact ⟨hout, Nat.pos_of_ne_zero hcycle⟩
  · rintro ⟨hout, hcycle⟩
    exact ⟨c, hout, if_neg hcycle.ne'⟩

/-- The attributes of a `Ramulator` that its constructor sets once. -/
structure RamulatorConfig where
  maxL : ℕ
  numHbm : ℕ
  dhead : ℕ
  fastMode : Bool

/-- A `Ramulator`. -/
structure Ramulator extends RamulatorConfig where
  df : List LogRow

/-- A `Ramulator` with the log file it writes to. -/
structure Session where
  ram : Ramulator
  outputLog : Option LogFile

/-- The arguments of `output`. -/
structure Query where
  pimType : PIMType
  layer : Layer
  powerConstraint : Bool := true

/-- `Ramulator.__init__`, next to a log file. -/
def Ramulator.new (env : Toolchain) (mi : ModelInfos) (fastMode : Bool) (numHbm maxL : ℕ)
    (outputLog : Option LogFile) : Except PyError Session :=
  match mi.dhead with
  | none => .error .keyError
  | some dhead =>
    let df := if env.pandas then (outputLog.map (LogFile.read maxL)).getD [] else []
    .ok ⟨⟨⟨maxL, numHbm, dhead, fastMode⟩, df⟩, outputLog⟩

/-- The clock period, in ns. -/
def tCK : ℚ := 769 / 1000

namespace RamulatorConfig

variable (r : RamulatorConfig) (q : Query)

/-- `num_ops_per_hbm`: in fast mode a fixed number of heads is simulated. -/
def numOpsPerHbm : ℕ :=
  if r.fastMode then 64 else q.layer.pimNumOp ⌈/⌉ r.numHbm

/-- `num_ops_group`: how many such simulations the heads of an HBM take. -/
def numOpsGroup : ℕ :=
  if r.fastMode then (q.layer.pimNumOp ⌈/⌉ r.numHbm) ⌈/⌉ 64 else 1

/-- The division both need. -/
def checkNumHbm : Except PyError Unit :=
  if r.numHbm = 0 then .error .zeroDivision else .ok ()

/-- The key `run` simulates and logs. -/
def runKey : SimKey :=
  ⟨q.layer.n, r.maxL, r.numOpsPerHbm q, r.dhead, q.layer.dbyte, q.pimType, q.powerConstraint⟩

/-- The key `output` looks up: the head size is that of the layer. -/
def outputKey : SimKey :=
  ⟨q.layer.n, r.maxL, r.numOpsPerHbm q, q.layer.k, q.layer.dbyte, q.pimType, q.powerConstraint⟩

/-- The post-processing of both paths, up to the factors that differ: how often a `BUFFER`
access counts, and by what the time is scaled. -/
def postProcess (bufferScale timeScale : ℕ) (c : Counters) : ℚ × PimTraffic :=
  let scale : ℚ := r.numHbm * r.numOpsGroup q
  let memAcc := c.mac * 32 * match q.pimType with
    | .BA => 2 * 2 * 4 * 4
    | .BG => 2 * 2 * 4
    | .BUFFER => bufferScale
  (tCK * c.cycle / 1000 / 1000 / 1000 * timeScale,
    { io0 := (c.wrgb * 32 : ℕ) * scale
      io1 := ((c.wrgb + c.mvsb + c.mvgb) * 32 : ℕ) * scale
      io2 := ((c.wrgb + c.mvsb + c.mvgb) * 32 : ℕ) * scale
      io3 := ((c.wrgb + c.mvsb + c.mvgb) * 32 : ℕ) * scale
      memAcc := (memAcc : ℕ) * scale })

/-- What `run` returns for fresh counters. -/
def freshResult (c : Counters) : ℚ × PimTraffic :=
  r.postProcess q 1 1 c

/-- What `output` returns for logged counters. -/
def cachedResult (c : Counters) : ℚ × PimTraffic :=
  r.postProcess q 2 (r.numOpsGroup q) c

/-- What `output` answers when it always simulates. -/
def answer (env : Toolchain) : Except PyError (ℚ × PimTraffic) := do
  r.checkNumHbm
  let result ← env.runRamulator (r.runKey q)
  return r.freshResult q result

/-- **When the two paths agree**: in fast mode the heads make up exactly one group, and in
`BUFFER` mode no access is counted. Without an HBM both raise. -/
def Agrees (c : Counters) : Prop :=
  r.numHbm = 0 ∨
    (r.fastMode = true → 0 < q.layer.pimNumOp ∧ q.layer.pimNumOp ≤ 64 * r.numHbm) ∧
      (q.pimType = .BUFFER → c.mac = 0)

variable {r q}

/-- The heads make up one group outside fast mode, and in it when there are at most 64 for
every HBM. -/
theorem numOpsGroup_eq_one_iff (hnum : 0 < r.numHbm) :
    r.numOpsGroup q = 1 ↔
      (r.fastMode = true → 0 < q.layer.pimNumOp ∧ q.layer.pimNumOp ≤ 64 * r.numHbm) := by
  rw [numOpsGroup]
  cases r.fastMode with
  | false => simp
  | true =>
    have hle : ∀ k, (q.layer.pimNumOp ⌈/⌉ r.numHbm) ⌈/⌉ 64 ≤ k ↔
        q.layer.pimNumOp ≤ r.numHbm * (64 * k) := by
      intro k
      rw [ceilDiv_le_iff_le_mul (by decide : 0 < 64), ceilDiv_le_iff_le_mul hnum]
    have hone := hle 1
    have hzero := hle 0
    rw [if_pos rfl]
    rw [Nat.mul_one, Nat.mul_comm] at hone
    simp only [forall_const]
    omega

/-- A simulation that ran is processed alike by both paths exactly when they agree. -/
theorem cachedResult_eq_freshResult_iff {c : Counters} (hnum : 0 < r.numHbm)
    (hcycle : 0 < c.cycle) :
    r.cachedResult q c = r.freshResult q c ↔ r.Agrees q c := by
  have htime : (0 : ℚ) < tCK * c.cycle / 1000 / 1000 / 1000 := by
    have hcycle : (0 : ℚ) < c.cycle := Nat.cast_pos.mpr hcycle
    have htck : (0 : ℚ) < tCK := by norm_num [tCK]
    positivity
  have hgroup : tCK * c.cycle / 1000 / 1000 / 1000 * (r.numOpsGroup q : ℚ) =
      tCK * c.cycle / 1000 / 1000 / 1000 * ((1 : ℕ) : ℚ) ↔ r.numOpsGroup q = 1 := by
    rw [mul_right_inj' htime.ne']
    exact Nat.cast_inj
  rw [cachedResult, freshResult, postProcess, postProcess, Prod.mk.injEq, hgroup, Agrees,
    ← numOpsGroup_eq_one_iff hnum, or_iff_right hnum.ne']
  refine and_congr_right fun hone => ?_
  have hscale : ((r.numHbm : ℚ) * r.numOpsGroup q) ≠ 0 := by
    rw [hone]
    have hnum : (r.numHbm : ℚ) ≠ 0 := Nat.cast_ne_zero.mpr hnum.ne'
    simpa using hnum
  rw [PimTraffic.mk.injEq]
  cases q.pimType with
  | BA => simp
  | BG => simp
  | BUFFER =>
    simp only [true_and, mul_left_inj' hscale, Nat.cast_inj, forall_const]
    omega

variable (r q)

end RamulatorConfig

namespace Session

variable (env : Toolchain) (s : Session) (q : Query)

/-- The rows the next row is appended to: an empty table is read from the file again. -/
def rows : List LogRow :=
  if s.ram.df = [] then (s.outputLog.map (LogFile.read s.ram.maxL)).getD [] else s.ram.df

/-- `update_log_file`. -/
def updateLogFile (log : LogRow) : Except PyError Session :=
  if env.pandas then
    let df := (s.rows ++ [log]).eraseDups
    .ok ⟨{ s.ram with df := df }, some (.current df)⟩
  else .error (.assertion "Ramulator logging requires pandas")

/-- `run`. -/
def run : Except PyError ((ℚ × PimTraffic) × Session) :=
  if env.ramulatorDir then do
    s.ram.checkNumHbm
    let result ← env.runRamulator (s.ram.runKey q)
    let s' ← s.updateLogFile env ⟨s.ram.runKey q, result⟩
    return (s.ram.freshResult q result, s')
  else .error (.assertion "Need to install ramulator")

/-- The first call on an empty table runs once, and drops the result. -/
def warmUp : Except PyError Session :=
  if s.ram.df = [] then (s.run env q).map Prod.snd else .ok s

/-- The lookup that ends `output`. -/
def lookUp : Except PyError ((ℚ × PimTraffic) × Session) := do
  s.ram.checkNumHbm
  match lookup LogRow.key LogRow.counters s.ram.df (s.ram.outputKey q) with
  | none => s.run env q
  | some counters => return (s.ram.cachedResult q counters, s)

/-- `output`. -/
def output : Except PyError ((ℚ × PimTraffic) × Session) :=
  if env.pandas then do
    let s ← s.warmUp env q
    s.lookUp env q
  else .error (.assertion "Ramulator execution requires pandas")

/-- One call of a sequence: an exception leaves the object as it was. -/
def call : Except PyError (ℚ × PimTraffic) × Session :=
  match s.output env q with
  | .ok (result, s') => (.ok result, s')
  | .error e => (.error e, s)

/-- What the sessions of one object keep: its attributes, and that the rows in memory and in
the file were produced by the simulator. -/
structure Sound (r : RamulatorConfig) : Prop where
  config : s.ram.toRamulatorConfig = r
  df : SoundFor LogRow.key LogRow.counters env.runRamulator s.ram.df
  outputLog : ∀ file, s.outputLog = some file →
    SoundFor LogRow.key LogRow.counters env.runRamulator (file.read r.maxL)

end Session

/-- The constructor starts a sound session next to a file of simulated rows. -/
theorem Ramulator.sound_new {env : Toolchain} {mi : ModelInfos} {fastMode : Bool}
    {numHbm maxL : ℕ} {outputLog : Option LogFile} {s : Session}
    (h : Ramulator.new env mi fastMode numHbm maxL outputLog = .ok s)
    (hfile : ∀ file, outputLog = some file →
      SoundFor LogRow.key LogRow.counters env.runRamulator (file.read maxL)) :
    ∃ dhead, mi.dhead = some dhead ∧ s.Sound env ⟨maxL, numHbm, dhead, fastMode⟩ := by
  unfold Ramulator.new at h
  rcases hdhead : mi.dhead with _ | dhead
  · rw [hdhead] at h
    cases h
  · rw [hdhead] at h
    obtain rfl := Except.ok.inj h
    refine ⟨dhead, rfl, rfl, ?_, hfile⟩
    cases hpandas : env.pandas with
    | false => exact soundFor_nil
    | true =>
      rcases outputLog with _ | file
      · exact soundFor_nil
      · exact hfile file rfl

namespace Session

variable {env : Toolchain} {r : RamulatorConfig} {s s' : Session} {q : Query}
  {result : ℚ × PimTraffic}

/-- The rows a new row is appended to were produced by the simulator. -/
theorem Sound.rows (hs : s.Sound env r) :
    SoundFor LogRow.key LogRow.counters env.runRamulator s.rows := by
  rw [Session.rows]
  split_ifs
  · rcases hfile : s.outputLog with _ | file
    · exact soundFor_nil
    · have hmaxL : s.ram.maxL = r.maxL := congrArg RamulatorConfig.maxL hs.config
      rw [Option.map_some, Option.getD_some, hmaxL]
      exact hs.outputLog file hfile
  · exact hs.df

/-- Logging a fresh simulation keeps the session sound, and the row is found from then on. -/
theorem Sound.updateLogFile (hs : s.Sound env r) {key : SimKey} {c : Counters}
    (hc : env.runRamulator key = .ok c) (h : s.updateLogFile env ⟨key, c⟩ = .ok s') :
    s'.Sound env r ∧ lookup LogRow.key LogRow.counters s'.ram.df key = some c := by
  unfold Session.updateLogFile at h
  split_ifs at h
  obtain rfl := Except.ok.inj h
  have hdf : SoundFor LogRow.key LogRow.counters env.runRamulator
      (s.rows ++ [(⟨key, c⟩ : LogRow)]).eraseDups := hs.rows.append_eraseDups hc
  refine ⟨⟨hs.config, hdf, ?_⟩, ?_⟩
  · intro file hfile
    obtain rfl := Option.some.inj hfile
    exact hdf
  · have hmem : (⟨key, c⟩ : LogRow) ∈ (s.rows ++ [(⟨key, c⟩ : LogRow)]).eraseDups :=
      List.mem_eraseDups.mpr (List.mem_append_right _ (List.mem_singleton.mpr rfl))
    obtain ⟨c', hc'⟩ : ∃ c', lookup LogRow.key LogRow.counters
        (s.rows ++ [(⟨key, c⟩ : LogRow)]).eraseDups key = some c' := exists_lookup hmem
    obtain rfl := Except.ok.inj (hc.symm.trans (hdf.of_lookup hc'))
    exact hc'

theorem call_of_ok (h : s.output env q = .ok (result, s')) : s.call env q = (.ok result, s') := by
  rw [call, h]

theorem call_of_error {e : PyError} (h : s.output env q = .error e) :
    s.call env q = (.error e, s) := by
  rw [call, h]

section Ready

variable (hpandas : env.pandas = true) (hdir : env.ramulatorDir = true)

include hpandas hdir in
/-- `run` answers as if there were no log, and the row it writes is found from then on. -/
theorem run_of_sound (hs : s.Sound env r) (hnum : r.numHbm ≠ 0) (q : Query) :
    (∃ c s', env.runRamulator (r.runKey q) = .ok c ∧
        s.run env q = .ok (r.freshResult q c, s') ∧ s'.Sound env r ∧
        lookup LogRow.key LogRow.counters s'.ram.df (r.runKey q) = some c) ∨
      ∃ e, env.runRamulator (r.runKey q) = .error e ∧ s.run env q = .error e := by
  obtain rfl := hs.config
  have hcheck : s.ram.checkNumHbm = .ok () := if_neg hnum
  rcases hrun : env.runRamulator (s.ram.runKey q) with e | c
  · refine .inr ⟨e, rfl, ?_⟩
    rw [Session.run, if_pos hdir, hcheck, hrun]
    rfl
  · have hlog : s.updateLogFile env ⟨s.ram.runKey q, c⟩ = .ok _ := if_pos hpandas
    obtain ⟨hsound, hfound⟩ := hs.updateLogFile hrun hlog
    refine .inl ⟨c, _, rfl, ?_, hsound, hfound⟩
    rw [Session.run, if_pos hdir, hcheck, hrun]
    exact bind_ok_iff.mpr ⟨(), rfl, bind_ok_iff.mpr ⟨c, rfl, bind_ok_iff.mpr ⟨_, hlog, rfl⟩⟩⟩

/-- A key that is logged is answered from its row. -/
theorem lookUp_of_hit (hs : s.Sound env r) (hnum : r.numHbm ≠ 0) {c : Counters}
    (hfound : lookup LogRow.key LogRow.counters s.ram.df (r.outputKey q) = some c) :
    s.lookUp env q = .ok (r.cachedResult q c, s) := by
  obtain rfl := hs.config
  have hcheck : s.ram.checkNumHbm = .ok () := if_neg hnum
  rw [lookUp, hcheck, hfound]
  rfl

include hpandas in
/-- Only an empty log is run on before the lookup. -/
theorem output_of_ne_nil (hdf : s.ram.df ≠ []) : s.output env q = s.lookUp env q := by
  rw [output, if_pos hpandas, warmUp, if_neg hdf]
  rfl

include hpandas in
/-- A query whose row is logged changes nothing. -/
theorem output_of_hit (hs : s.Sound env r) (hnum : r.numHbm ≠ 0) {c : Counters}
    (hfound : lookup LogRow.key LogRow.counters s.ram.df (r.outputKey q) = some c) :
    s.output env q = .ok (r.cachedResult q c, s) := by
  have hdf : s.ram.df ≠ [] := by
    intro hdf
    rw [hdf] at hfound
    cases hfound
  rw [output_of_ne_nil hpandas hdf, lookUp_of_hit hs hnum hfound]

include hpandas in
/-- A query whose row is not logged is run. -/
theorem output_of_miss (hs : s.Sound env r) (hnum : r.numHbm ≠ 0) (hdf : s.ram.df ≠ [])
    (hmiss : lookup LogRow.key LogRow.counters s.ram.df (r.outputKey q) = none) :
    s.output env q = s.run env q := by
  obtain rfl := hs.config
  have hcheck : s.ram.checkNumHbm = .ok () := if_neg hnum
  rw [output_of_ne_nil hpandas hdf, lookUp, hcheck, hmiss]
  rfl

include hpandas in
/-- Without an HBM every query raises. -/
theorem output_of_numHbm_eq_zero (hs : s.Sound env r) (hnum : r.numHbm = 0)
    (hdir : env.ramulatorDir = true) : s.output env q = .error .zeroDivision := by
  obtain rfl := hs.config
  have hcheck : s.ram.checkNumHbm = .error .zeroDivision := if_pos hnum
  by_cases hdf : s.ram.df = []
  · rw [output, if_pos hpandas, warmUp, if_pos hdf, run, if_pos hdir, hcheck]
    rfl
  · rw [output_of_ne_nil hpandas hdf, lookUp, hcheck]
    rfl

include hpandas hdir in
/-- **What a query answers**: the counters of its key, processed by one path or the other.
The session stays sound. -/
theorem output_of_sound (hs : s.Sound env r) (hnum : r.numHbm ≠ 0) (hk : q.layer.k = r.dhead) :
    (∃ c s', env.runRamulator (r.runKey q) = .ok c ∧ s'.Sound env r ∧
        (s.output env q = .ok (r.freshResult q c, s') ∨
          s.output env q = .ok (r.cachedResult q c, s'))) ∨
      ∃ e, env.runRamulator (r.runKey q) = .error e ∧ s.output env q = .error e := by
  have hkey : r.outputKey q = r.runKey q := by
    rw [RamulatorConfig.outputKey, hk]
    rfl
  rcases hfound : lookup LogRow.key LogRow.counters s.ram.df (r.outputKey q) with _ | c
  · by_cases hdf : s.ram.df = []
    · -- the first query: its own run logs the row that answers it
      rcases run_of_sound hpandas hdir hs hnum q with
        ⟨c, s', hc, hrun, hs', hfound'⟩ | ⟨e, he, hrun⟩
      · refine .inl ⟨c, s', hc, hs', .inr ?_⟩
        rw [← hkey] at hfound'
        have hlook := lookUp_of_hit hs' hnum hfound'
        rw [output, if_pos hpandas, warmUp, if_pos hdf, hrun]
        exact hlook
      · refine .inr ⟨e, he, ?_⟩
        rw [output, if_pos hpandas, warmUp, if_pos hdf, hrun]
        rfl
    · rw [output_of_miss hpandas hs hnum hdf hfound]
      rcases run_of_sound hpandas hdir hs hnum q with ⟨c, s', hc, hrun, hs', -⟩ | ⟨e, he, hrun⟩
      · exact .inl ⟨c, s', hc, hs', .inl hrun⟩
      · exact .inr ⟨e, he, hrun⟩
  · have hc := hs.df.of_lookup hfound
    rw [hkey] at hc
    exact .inl ⟨c, s, hc, hs, .inr (output_of_hit hpandas hs hnum hfound)⟩

include hpandas hdir in
/-- Where the two paths agree, one call answers what a simulation does. -/
theorem call_of_sound (hs : s.Sound env r) (hk : q.layer.k = r.dhead)
    (hagrees : ∀ c, env.runRamulator (r.runKey q) = .ok c → r.Agrees q c) :
    (s.call env q).1 = r.answer q env ∧ (s.call env q).2.Sound env r := by
  by_cases hnum : r.numHbm = 0
  · rw [call_of_error (output_of_numHbm_eq_zero hpandas hs hnum hdir), RamulatorConfig.answer,
      RamulatorConfig.checkNumHbm, if_pos hnum]
    exact ⟨rfl, hs⟩
  · have hanswer : r.answer q env =
        (env.runRamulator (r.runKey q)).map fun c => r.freshResult q c := by
      rw [RamulatorConfig.answer, RamulatorConfig.checkNumHbm, if_neg hnum]
      rcases env.runRamulator (r.runKey q) with e | c
      · rfl
      · rfl
    rcases output_of_sound hpandas hdir hs hnum hk with ⟨c, s', hc, hs', hout⟩ | ⟨e, he, hout⟩
    · have hcycle := (Toolchain.runRamulator_eq_ok.mp hc).2
      have hsame := (RamulatorConfig.cachedResult_eq_freshResult_iff
        (Nat.pos_of_ne_zero hnum) hcycle).mpr (hagrees c hc)
      rw [hsame, or_self] at hout
      rw [call_of_ok hout, hanswer, hc]
      exact ⟨rfl, hs'⟩
    · rw [call_of_error hout, hanswer, he]
      exact ⟨rfl, hs⟩

end Ready

/-- **A logged row answers what a simulation does exactly when the two paths agree.** For a
key that the simulator gives counters for, a session that has its row and one that has not
give the same time and traffic if and only if there is no HBM to divide by, or, in fast
mode, the heads are exactly one group and, in `BUFFER` mode, no access is counted. And in
every sequence of queries for which that holds, each answer is the one a simulation gives,
whatever was logged before and in whatever order the queries come. -/
theorem output_eq_iff {env : Toolchain} (hpandas : env.pandas = true)
    (hdir : env.ramulatorDir = true) (r : RamulatorConfig) :
    (∀ q : Query, q.layer.k = r.dhead → ∀ c, env.runRamulator (r.runKey q) = .ok c →
      ∀ miss hit : Session, miss.Sound env r → hit.Sound env r → miss.ram.df ≠ [] →
        lookup LogRow.key LogRow.counters miss.ram.df (r.outputKey q) = none →
        lookup LogRow.key LogRow.counters hit.ram.df (r.outputKey q) ≠ none →
        ((hit.call env q).1 = (miss.call env q).1 ↔ r.Agrees q c)) ∧
    ∀ qs : List Query, (∀ q ∈ qs, q.layer.k = r.dhead ∧
        ∀ c, env.runRamulator (r.runKey q) = .ok c → r.Agrees q c) →
      ∀ s : Session, s.Sound env r →
        answers (fun s q => s.call env q) s qs = qs.map fun q => r.answer q env := by
  refine ⟨?_, ?_⟩
  · intro q hk c hc miss hit hmiss hhit hdf hnone hsome
    have hkey : r.outputKey q = r.runKey q := by
      rw [RamulatorConfig.outputKey, hk]
      rfl
    by_cases hnum : r.numHbm = 0
    · rw [call_of_error (output_of_numHbm_eq_zero hpandas hmiss hnum hdir),
        call_of_error (output_of_numHbm_eq_zero hpandas hhit hnum hdir)]
      exact ⟨fun _ => .inl hnum, fun _ => rfl⟩
    · obtain ⟨c', hfound⟩ := Option.ne_none_iff_exists'.mp hsome
      have hc' := hhit.df.of_lookup hfound
      rw [hkey] at hc'
      obtain rfl := Except.ok.inj (hc.symm.trans hc')
      -- both sessions process the counters of one simulation, by different paths
      have hrun := output_of_miss hpandas hmiss hnum hdf hnone
      rcases run_of_sound hpandas hdir hmiss hnum q with ⟨d, s', hd, hfresh, -⟩ | ⟨e, he, -⟩
      · obtain rfl := Except.ok.inj (hc.symm.trans hd)
        rw [call_of_ok (output_of_hit hpandas hhit hnum hfound), call_of_ok (hrun.trans hfresh),
          Except.ok.injEq]
        exact RamulatorConfig.cachedResult_eq_freshResult_iff (Nat.pos_of_ne_zero hnum)
          (Toolchain.runRamulator_eq_ok.mp hc).2
      · rw [hc] at he
        cases he
  · intro qs hqs s hs
    refine answers_eq_map (I := fun s => s.Sound env r) ?_ hs
    intro s hs q hq
    obtain ⟨hk, hagrees⟩ := hqs q hq
    exact call_of_sound hpandas hdir hs hk hagrees

/-! ### One query of a decode step -/

/-- A simulator that reports one cycle and one MAC for every key. -/
def oneMac : Toolchain := ⟨true, true, fun _ => .ok ⟨1, 1, 0, 0, 0, 0⟩⟩

/-- The default five HBMs, for heads of size 128. -/
def defaultRamulator : RamulatorConfig := ⟨2048, 5, 128, false⟩

/-- The score of one token against 128 others, with eight KV heads. -/
def scoreQuery (pimType : PIMType) : Query where
  pimType := pimType
  layer := ⟨⟨.gen, .score, .MATMUL, false, .W16A16, 1, 128, 128, 8, 8⟩, .inl rfl⟩

/-- A session that has simulated one other length. -/
def otherSession (pimType : PIMType) : Session where
  ram := ⟨defaultRamulator, [⟨⟨127, 2048, 2, 128, 2, pimType, true⟩, ⟨1, 1, 0, 0, 0, 0⟩⟩]⟩
  outputLog := none

theorem sound_otherSession (pimType : PIMType) :
    (otherSession pimType).Sound oneMac defaultRamulator := by
  refine ⟨rfl, ?_, fun _ h => by cases h⟩
  intro row hrow
  rw [List.mem_singleton.mp hrow]
  rfl

/-- For `BA` the second of two equal queries answers what the first did. -/
theorem output_eq_iff_bank :
    answers (fun s q => s.call oneMac q) (otherSession .BA) [scoreQuery .BA, scoreQuery .BA] =
      [scoreQuery .BA, scoreQuery .BA].map fun q => defaultRamulator.answer q oneMac := by
  refine (@output_eq_iff oneMac rfl rfl defaultRamulator).2 _ ?_ _ (sound_otherSession .BA)
  intro q hq
  obtain rfl : q = scoreQuery .BA := by simpa using hq
  exact ⟨rfl, fun c _ => .inr ⟨nofun, nofun⟩⟩

/-- For `BUFFER` it reports twice the cell traffic. -/
theorem call_ne_call_buffer : (otherSession .BUFFER).Sound oneMac defaultRamulator ∧
    (((otherSession .BUFFER).call oneMac (scoreQuery .BUFFER)).2.call oneMac
        (scoreQuery .BUFFER)).1 ≠
      ((otherSession .BUFFER).call oneMac (scoreQuery .BUFFER)).1 := by
  refine ⟨sound_otherSession .BUFFER, ?_⟩
  intro h
  have hmem := congrArg (fun r => r.toOption.map fun result => result.2.memAcc) h
  revert hmem
  decide +kernel

end Session

end AttAcc
