import AttAcc.Ramulator
import AttAcc.Library.Runs

/-!
# Restarts

The log file outlives the process that wrote it, and a later process may ask with another
`max_L`. This follows raw counters through constructions and queries of any number of
`Ramulator`s next to one file, with a record of all simulations that were ever run.

A file without a `max_L` column is read as if its rows had been simulated with the `max_L` of
whoever reads it. That is the only way to an answer that nobody simulated
(`answers_simulated_iff`).
-/

namespace AttAcc

open Library

/-! ## A query, before its result is processed -/

/-- What a query is answered from: the rows it simulated, and the counters it takes, logged or
fresh. -/
structure Use where
  simulated : List LogRow
  counters : Counters
  logged : Bool

/-- The result of a query. -/
def Use.result (u : Use) (r : RamulatorConfig) (q : Query) : ℚ × PimTraffic :=
  if u.logged then r.cachedResult q u.counters else r.freshResult q u.counters

namespace Session

variable (env : Toolchain) (s : Session) (q : Query)

/-- `run`, up to its post-processing: the row it logs. -/
def runRow : Except PyError (LogRow × Session) :=
  if env.ramulatorDir then do
    s.ram.checkNumHbm
    let result ← env.runRamulator (s.ram.runKey q)
    let s' ← s.updateLogFile env ⟨s.ram.runKey q, result⟩
    return (⟨s.ram.runKey q, result⟩, s')
  else .error (.assertion "Need to install ramulator")

/-- The run on an empty table. -/
def warmUpRow : Except PyError (List LogRow × Session) :=
  if s.ram.df = [] then (s.runRow env q).map fun r => ([r.1], r.2) else .ok ([], s)

/-- The lookup, behind a warm-up. -/
def lookUpRow (warm : List LogRow) : Except PyError (Use × Session) := do
  s.ram.checkNumHbm
  match lookup LogRow.key LogRow.counters s.ram.df (s.ram.outputKey q) with
  | none => (s.runRow env q).map fun r => (⟨warm ++ [r.1], r.1.counters, false⟩, r.2)
  | some counters => return (⟨warm, counters, true⟩, s)

/-- `output`, up to its post-processing. -/
def outputRow : Except PyError (Use × Session) :=
  if env.pandas then do
    let (warm, s) ← s.warmUpRow env q
    s.lookUpRow env q warm
  else .error (.assertion "Ramulator execution requires pandas")

variable {env s q} {s' : Session} {row : LogRow} {u : Use} {warm : List LogRow}

/-- This is `run`. -/
theorem run_eq_runRow : s.run env q =
    (s.runRow env q).map fun r => (s.ram.freshResult q r.1.counters, r.2) := by
  rw [run, runRow]
  split_ifs
  · rcases s.ram.checkNumHbm with e | _
    · rfl
    · rcases env.runRamulator (s.ram.runKey q) with e | result
      · rfl
      · show (s.updateLogFile env _ >>= _) = (s.updateLogFile env _ >>= _).map _
        rcases s.updateLogFile env ⟨s.ram.runKey q, result⟩ with e | s'
        · rfl
        · rfl
  · rfl

/-- What a run leaves: the row of its key, behind the rows there were, in memory and in the
file. -/
theorem runRow_eq_ok (h : s.runRow env q = .ok (row, s')) :
    row.key = s.ram.runKey q ∧ s'.ram.toRamulatorConfig = s.ram.toRamulatorConfig ∧
      s'.outputLog = some (.current s'.ram.df) ∧ ∀ r ∈ s'.ram.df, r ∈ s.rows ∨ r = row := by
  rw [runRow] at h
  split_ifs at h
  obtain ⟨_, -, h⟩ := bind_ok_iff.mp h
  obtain ⟨result, -, h⟩ := bind_ok_iff.mp h
  obtain ⟨s'', hlog, h⟩ := bind_ok_iff.mp h
  obtain ⟨rfl, rfl⟩ := Prod.mk.inj (Except.ok.inj h)
  rw [updateLogFile] at hlog
  split_ifs at hlog
  obtain rfl := Except.ok.inj hlog
  refine ⟨rfl, rfl, rfl, ?_⟩
  intro r hr
  have hmem := List.mem_append.mp (List.mem_eraseDups.mp hr)
  exact hmem.imp_right List.mem_singleton.mp

theorem warmUpRow_eq_ok (h : s.warmUpRow env q = .ok (warm, s')) :
    s'.ram.toRamulatorConfig = s.ram.toRamulatorConfig := by
  rw [warmUpRow] at h
  split_ifs at h
  · rcases hrun : s.runRow env q with e | ⟨row, s''⟩
    · rw [hrun] at h
      cases h
    · rw [hrun] at h
      obtain ⟨-, rfl⟩ := Prod.mk.inj (Except.ok.inj h)
      exact (runRow_eq_ok hrun).2.1
  · obtain ⟨-, rfl⟩ := Prod.mk.inj (Except.ok.inj h)
    rfl

/-- This is `output`. -/
theorem output_eq_outputRow : s.output env q =
    (s.outputRow env q).map fun r => (r.1.result s.ram.toRamulatorConfig q, r.2) := by
  have hlook : ∀ (warm : List LogRow) (s' : Session),
      s'.ram.toRamulatorConfig = s.ram.toRamulatorConfig →
      s'.lookUp env q = (s'.lookUpRow env q warm).map fun r =>
        (r.1.result s.ram.toRamulatorConfig q, r.2) := by
    intro warm s' hconfig
    rw [lookUp, lookUpRow, run_eq_runRow, ← hconfig]
    rcases s'.ram.checkNumHbm with e | _
    · rfl
    · rcases hfound : lookup LogRow.key LogRow.counters s'.ram.df (s'.ram.outputKey q) with _ | c
      · show (s'.runRow env q).map _ = ((s'.runRow env q).map _).map _
        rcases s'.runRow env q with e | r
        · rfl
        · rfl
      · rfl
  rw [output, outputRow]
  split_ifs
  · have hwarm : s.warmUp env q = (s.warmUpRow env q).map Prod.snd := by
      rw [warmUp, warmUpRow, run_eq_runRow]
      split_ifs
      · rcases s.runRow env q with e | r
        · rfl
        · rfl
      · rfl
    rw [hwarm]
    rcases hrow : s.warmUpRow env q with e | ⟨warm, s'⟩
    · rfl
    · exact hlook warm s' (warmUpRow_eq_ok hrow)
  · rfl

/-- All rows that a session can reach satisfy `P`. -/
structure Rows (P : LogRow → Prop) (s : Session) : Prop where
  df : ∀ row ∈ s.ram.df, P row
  outputLog : ∀ file, s.outputLog = some file → ∀ row ∈ file.read s.ram.maxL, P row

variable {P : LogRow → Prop}

theorem Rows.rows (hs : s.Rows P) : ∀ row ∈ s.rows, P row := by
  intro row hrow
  rw [Session.rows] at hrow
  split_ifs at hrow
  · rcases hfile : s.outputLog with _ | file
    · rw [hfile] at hrow
      exact absurd hrow List.not_mem_nil
    · rw [hfile] at hrow
      exact hs.outputLog file hfile row hrow
  · exact hs.df row hrow

theorem Rows.runRow (hs : s.Rows P) (h : s.runRow env q = .ok (row, s')) (hrow : P row) :
    s'.Rows P := by
  obtain ⟨-, -, hfile, hdf⟩ := runRow_eq_ok h
  have hall : ∀ r ∈ s'.ram.df, P r := by
    intro r hr
    rcases hdf r hr with hold | rfl
    · exact hs.rows r hold
    · exact hrow
  refine ⟨hall, ?_⟩
  intro file hlog
  obtain rfl := Option.some.inj (hfile.symm.trans hlog)
  exact hall

theorem Rows.imp {P' : LogRow → Prop} (hs : s.Rows P) (h : ∀ row, P row → P' row) : s.Rows P' :=
  ⟨fun row hrow => h row (hs.df row hrow),
    fun file hfile row hrow => h row (hs.outputLog file hfile row hrow)⟩

/-- **What a query is answered from**: the counters of a row with its key, that was there or
that it simulated. Afterwards there are no other rows. -/
theorem Rows.outputRow (hs : s.Rows P) (hk : q.layer.k = s.ram.dhead)
    (h : s.outputRow env q = .ok (u, s')) :
    s'.ram.toRamulatorConfig = s.ram.toRamulatorConfig ∧
      (∀ rows, s'.outputLog = some (.legacy rows) → s.outputLog = some (.legacy rows)) ∧
      s'.Rows (fun row => P row ∨ row ∈ u.simulated) ∧
      (P ⟨s.ram.outputKey q, u.counters⟩ ∨ ⟨s.ram.outputKey q, u.counters⟩ ∈ u.simulated) := by
  have hkey : s.ram.outputKey q = s.ram.runKey q := by
    rw [RamulatorConfig.outputKey, hk]
    rfl
  rw [Session.outputRow] at h
  split_ifs at h
  obtain ⟨⟨warm, s₁⟩, hwarm, h⟩ := bind_ok_iff.mp h
  -- the session behind the warm-up
  have hfirst : s₁.ram.toRamulatorConfig = s.ram.toRamulatorConfig ∧
      (∀ rows, s₁.outputLog = some (.legacy rows) → s.outputLog = some (.legacy rows)) ∧
      s₁.Rows (fun row => P row ∨ row ∈ warm) := by
    rw [warmUpRow] at hwarm
    split_ifs at hwarm
    · rcases hrun : s.runRow env q with e | ⟨row, s''⟩
      · rw [hrun] at hwarm
        cases hwarm
      · rw [hrun] at hwarm
        obtain ⟨rfl, rfl⟩ := Prod.mk.inj (Except.ok.inj hwarm)
        obtain ⟨-, hconfig, hfile, -⟩ := runRow_eq_ok hrun
        refine ⟨hconfig, ?_, ?_⟩
        · intro rows hrows
          cases hfile.symm.trans hrows
        · exact (hs.imp fun _ => .inl).runRow hrun (.inr (List.mem_singleton.mpr rfl))
    · obtain ⟨rfl, rfl⟩ := Prod.mk.inj (Except.ok.inj hwarm)
      exact ⟨rfl, fun _ hrows => hrows, hs.imp fun _ => .inl⟩
  obtain ⟨hconfig, hlegacy, hrows⟩ := hfirst
  rw [← hconfig] at hkey ⊢
  obtain ⟨_, -, h⟩ := bind_ok_iff.mp h
  rcases hfound : lookup LogRow.key LogRow.counters s₁.ram.df (s₁.ram.outputKey q) with _ | c
  · rw [hfound] at h
    rcases hrun : s₁.runRow env q with e | ⟨row, s''⟩
    · rw [hrun] at h
      cases h
    · rw [hrun] at h
      obtain ⟨rfl, rfl⟩ := Prod.mk.inj (Except.ok.inj h)
      obtain ⟨hrow, hconfig', hfile, -⟩ := runRow_eq_ok hrun
      refine ⟨hconfig', ?_, ?_, ?_⟩
      · intro rows hrows
        cases hfile.symm.trans hrows
      · refine (hrows.imp fun r hr =>
          hr.imp_right fun hr => List.mem_append_left _ hr).runRow hrun ?_
        exact .inr (List.mem_append_right _ (List.mem_singleton.mpr rfl))
      · rw [hkey, ← hrow]
        exact .inr (List.mem_append_right _ (List.mem_singleton.mpr rfl))
  · rw [hfound] at h
    obtain ⟨rfl, rfl⟩ := Prod.mk.inj (Except.ok.inj h)
    refine ⟨rfl, hlegacy, hrows, ?_⟩
    obtain ⟨entry, hmem, hentry, rfl⟩ := mem_of_lookup hfound
    rw [← hentry]
    exact hrows.df entry hmem

end Session

/-! ## Processes -/

/-- The wrappers next to a log file, every simulation there ever was, and the answers so far:
the key of each query, with the raw counters it was answered from. -/
structure World where
  objects : List Ramulator
  file : Option LogFile
  simulated : List LogRow
  answers : List LogRow

/-- What a process does: it makes a wrapper, or queries the `i`-th one. -/
inductive Event where
  | construct (mi : ModelInfos) (fastMode : Bool) (numHbm maxL : ℕ)
  | output (i : ℕ) (q : Query)

namespace World

variable (env : Toolchain) (w : World)

/-- An event. A call that raises leaves everything as it was: it has simulated nothing, since
a simulation that ran once runs again. -/
def step : Event → World
  | .construct mi fastMode numHbm maxL =>
    match Ramulator.new env mi fastMode numHbm maxL w.file with
    | .ok s => { w with objects := w.objects ++ [s.ram] }
    | .error _ => w
  | .output i q =>
    match w.objects[i]? with
    | none => w
    | some ram =>
      match Session.outputRow env ⟨ram, w.file⟩ q with
      | .ok (u, s) =>
        { objects := w.objects.set i s.ram
          file := s.outputLog
          simulated := w.simulated ++ u.simulated
          answers := w.answers ++ [⟨ram.outputKey q, u.counters⟩] }
      | .error _ => w

/-- Every answer so far was produced by a simulation with exactly its key. -/
def AnswersSimulated : Prop := ∀ row ∈ w.answers, row ∈ w.simulated

/-- Queries are for the heads of the model a wrapper was made for. -/
def Asks : Event → Prop
  | .construct _ _ _ _ => True
  | .output i q => ∀ ram, w.objects[i]? = some ram → q.layer.k = ram.dhead

/-- If a wrapper is made next to an old file, the rows were simulated with its `max_L`. -/
def Migrates : Event → Prop
  | .construct _ _ _ maxL => ∀ rows, w.file = some (.legacy rows) →
      ∀ row ∈ rows, row.insertMaxL maxL ∈ w.simulated
  | .output _ _ => True

/-- What every step keeps that makes no wrapper out of stale rows. -/
structure Sound : Prop where
  answers : w.AnswersSimulated
  current : ∀ rows, w.file = some (.current rows) → ∀ row ∈ rows, row ∈ w.simulated
  objects : ∀ ram ∈ w.objects, Session.Rows (· ∈ w.simulated) ⟨ram, w.file⟩

variable {env w}

theorem Sound.construct (hw : w.Sound) {mi : ModelInfos} {fastMode : Bool} {numHbm maxL : ℕ}
    (h : w.Migrates (.construct mi fastMode numHbm maxL)) :
    (w.step env (.construct mi fastMode numHbm maxL)).Sound := by
  rw [step, Ramulator.new]
  rcases mi.dhead with _ | dhead
  · exact hw
  · refine ⟨hw.answers, hw.current, ?_⟩
    intro ram hram
    rcases List.mem_append.mp hram with hold | hnew
    · exact hw.objects ram hold
    · obtain rfl := List.mem_singleton.mp hnew
      -- a new object reads the file, of which every row has been simulated, also what it migrates
      have hread : ∀ file, w.file = some file → ∀ row ∈ file.read maxL, row ∈ w.simulated := by
        intro file hfile row hrow
        cases file with
        | current rows => exact hw.current rows hfile row hrow
        | legacy rows =>
          obtain ⟨old, hold, rfl⟩ := List.mem_map.mp hrow
          exact h rows hfile old hold
      refine ⟨?_, hread⟩
      intro row hrow
      have hdf : row ∈ (if env.pandas then (w.file.map (LogFile.read maxL)).getD [] else []) := hrow
      split_ifs at hdf
      · rcases hfile : w.file with _ | file
        · rw [hfile] at hdf
          exact absurd hdf List.not_mem_nil
        · rw [hfile] at hdf
          exact hread file hfile row hdf
      · exact absurd hdf List.not_mem_nil

theorem step_output_of_ok {i : ℕ} {q : Query} {ram : Ramulator} {u : Use} {s : Session}
    (hram : w.objects[i]? = some ram)
    (hout : Session.outputRow env ⟨ram, w.file⟩ q = .ok (u, s)) :
    w.step env (.output i q) =
      ⟨w.objects.set i s.ram, s.outputLog, w.simulated ++ u.simulated,
        w.answers ++ [⟨ram.outputKey q, u.counters⟩]⟩ := by
  simp only [step, hram, hout]

theorem Sound.output (hw : w.Sound) {i : ℕ} {q : Query} (h : w.Asks (.output i q)) :
    (w.step env (.output i q)).Sound := by
  rcases hram : w.objects[i]? with _ | ram
  · simp only [step, hram]
    exact hw
  · have hmem := List.mem_of_getElem? hram
    rcases hout : Session.outputRow env ⟨ram, w.file⟩ q with e | ⟨u, s⟩
    · simp only [step, hram, hout]
      exact hw
    · rw [step_output_of_ok hram hout]
      obtain ⟨hconfig, hlegacy, hrows, hanswer⟩ :=
        (hw.objects ram hmem).outputRow (h ram hram) hout
      have hrows : s.Rows (· ∈ w.simulated ++ u.simulated) :=
        hrows.imp fun row hrow => List.mem_append.mpr hrow
      refine ⟨?_, ?_, ?_⟩
      · intro row hrow
        rcases List.mem_append.mp hrow with hold | hnew
        · exact List.mem_append_left _ (hw.answers row hold)
        · obtain rfl := List.mem_singleton.mp hnew
          exact List.mem_append.mpr hanswer
      · intro rows hfile
        exact hrows.outputLog _ hfile
      · intro ram' hram'
        rcases List.mem_or_eq_of_mem_set hram' with hold | rfl
        · have hold := (hw.objects ram' hold).imp fun row (hrow : row ∈ w.simulated) =>
            List.mem_append_left u.simulated hrow
          refine ⟨hold.df, ?_⟩
          intro file hfile
          cases file with
          | current rows => exact hrows.outputLog _ hfile
          | legacy rows => exact hold.outputLog _ (hlegacy rows hfile)
        · exact hrows

/-- The step rule. -/
theorem Sound.step (hw : w.Sound) {e : Event} (hasks : w.Asks e) (hmigrates : w.Migrates e) :
    (w.step env e).Sound := by
  cases e with
  | construct mi fastMode numHbm maxL => exact hw.construct hmigrates
  | output i q => exact hw.output hasks

/-- How the sessions before left things: no wrapper is there yet, and the rows of the file were
simulated, those of an old file with some `max_L`. -/
structure Initial (w : World) : Prop where
  objects : w.objects = []
  answers : w.answers = []
  current : ∀ rows, w.file = some (.current rows) → ∀ row ∈ rows, row ∈ w.simulated
  legacy : ∀ rows, w.file = some (.legacy rows) → ∀ row ∈ rows, ∃ (r : RamulatorConfig) (q : Query),
    r.numHbm ≠ 0 ∧ q.layer.k = r.dhead ∧ row.insertMaxL r.maxL ∈ w.simulated ∧
      row.insertMaxL r.maxL = ⟨r.runKey q, row.counters⟩

theorem Initial.sound (hw : w.Initial) : w.Sound := by
  refine ⟨?_, hw.current, ?_⟩
  · intro row hrow
    rw [hw.answers] at hrow
    exact absurd hrow List.not_mem_nil
  · intro ram hram
    rw [hw.objects] at hram
    exact absurd hram List.not_mem_nil

/-- The run lemma. -/
theorem Initial.throughout (hw : w.Initial) {events : List Event}
    (h : Along (World.step env) (fun w e => w.Asks e ∧ w.Migrates e) w events) :
    Throughout (World.step env) AnswersSimulated w events := by
  have hsound : Throughout (World.step env) Sound w events :=
    throughout_of_along (fun w e hw h => hw.step h.1 h.2) hw.sound h
  exact hsound.imp fun w hw => hw.answers

/-- No old file has rows. -/
def NoLegacy (w : World) : Prop := ∀ rows, w.file = some (.legacy rows) → rows = []

/-- Old files are never written. -/
theorem NoLegacy.step (hw : w.NoLegacy) {e : Event} (h : w.Asks e) :
    (w.step env e).NoLegacy := by
  cases e with
  | construct mi fastMode numHbm maxL =>
    simp only [World.step]
    rcases Ramulator.new env mi fastMode numHbm maxL w.file with e | s
    · exact hw
    · exact hw
  | output i q =>
    rcases hram : w.objects[i]? with _ | ram
    · simp only [World.step, hram]
      exact hw
    · rcases hout : Session.outputRow env ⟨ram, w.file⟩ q with e | ⟨u, s⟩
      · simp only [World.step, hram, hout]
        exact hw
      · rw [step_output_of_ok hram hout]
        have hrows : Session.Rows (fun _ => True) ⟨ram, w.file⟩ :=
          ⟨fun _ _ => trivial, fun _ _ _ _ => trivial⟩
        obtain ⟨-, hlegacy, -⟩ := hrows.outputRow (h ram hram) hout
        intro rows hfile
        exact hw rows (hlegacy rows hfile)

/-- Without rows in an old file there is nothing to migrate, then or later. -/
theorem NoLegacy.along (hw : w.NoLegacy) {events : List Event}
    (h : Along (World.step env) Asks w events) :
    Along (World.step env) (fun w e => w.Asks e ∧ w.Migrates e) w events := by
  refine h.imp_of_invariant (J := NoLegacy) (fun w e hw h => hw.step h) ?_ hw
  intro w e hw h
  refine ⟨h, ?_⟩
  cases e with
  | construct mi fastMode numHbm maxL =>
    intro rows hfile row hrow
    rw [hw rows hfile] at hrow
    exact absurd hrow List.not_mem_nil
  | output i q => exact trivial

/-- A model with heads of a size. -/
def modelOf (dhead : ℕ) : ModelInfos where
  name := ""
  ndec := 0
  hdim := 0
  dhead := some dhead
  ffScale := 0
  dtype := .W16A16

/-- Rows of an old file answer a query that nobody simulated: one with a `max_L` that was never
used. -/
theorem Initial.exists_stale (hpandas : env.pandas = true) (hw : w.Initial)
    {rows : List LegacyRow} (hfile : w.file = some (.legacy rows)) (hrows : rows ≠ []) :
    ∃ events, Along (World.step env) Asks w events ∧
      ¬Throughout (World.step env) AnswersSimulated w events := by
  obtain ⟨old, hold⟩ := List.exists_mem_of_ne_nil rows hrows
  obtain ⟨r, q, hnum, hk, -, hrow⟩ := hw.legacy rows hfile old hold
  obtain ⟨maxL, hfresh⟩ := Infinite.exists_notMem_finset
    (w.simulated.map fun row => row.key.maxL).toFinset
  have hfresh : ∀ row ∈ w.simulated, row.key.maxL ≠ maxL := by
    intro row hrow hmaxL
    exact hfresh (List.mem_toFinset.mpr (List.mem_map.mpr ⟨row, hrow, hmaxL⟩))
  let stale : RamulatorConfig := { r with maxL := maxL }
  let ram : Ramulator := ⟨stale, rows.map (LegacyRow.insertMaxL maxL)⟩
  let made : World := { w with objects := [ram] }
  have hmake : w.step env (.construct (modelOf r.dhead) r.fastMode r.numHbm maxL) = made := by
    simp [World.step, Ramulator.new, modelOf, made, ram, stale, hw.objects, hfile, hpandas,
      LogFile.read]
  -- the old row has the key of the query, but for the `max_L` it was given
  have hkey : (old.insertMaxL maxL).key = stale.outputKey q := by
    have hold := congrArg (fun row : LogRow => { row.key with maxL := maxL }) hrow
    rw [RamulatorConfig.outputKey, hk]
    exact hold
  obtain ⟨c, hfound⟩ : ∃ c,
      lookup LogRow.key LogRow.counters ram.df (stale.outputKey q) = some c := by
    rw [← hkey]
    exact exists_lookup (List.mem_map_of_mem hold)
  have hout : Session.outputRow env ⟨ram, w.file⟩ q =
      .ok (⟨[], c, true⟩, ⟨ram, w.file⟩) := by
    have hdf : ram.df ≠ [] := fun hnil => hrows (List.map_eq_nil_iff.mp hnil)
    have hcheck : ram.checkNumHbm = .ok () := if_neg hnum
    rw [Session.outputRow, if_pos hpandas, Session.warmUpRow, if_neg hdf]
    simp only [bind, Except.bind, Session.lookUpRow, hcheck]
    rw [hfound]
    rfl
  refine ⟨[.construct (modelOf r.dhead) r.fastMode r.numHbm maxL, .output 0 q], ?_, ?_⟩
  · refine ⟨trivial, ?_, trivial⟩
    rw [hmake]
    intro ram' hram'
    obtain rfl := Option.some.inj hram'
    exact hk
  · intro h
    have hlast := h.last
    rw [List.foldl_cons, hmake, List.foldl_cons, step_output_of_ok (w := made) rfl hout] at hlast
    have hmem := hlast ⟨stale.outputKey q, c⟩ (List.mem_append_right _ (List.mem_singleton.mpr rfl))
    rw [List.append_nil] at hmem
    exact hfresh _ hmem rfl

end World

/-- **When answers are those of a simulation with their key**: for every log file that earlier
sessions left, with any number of wrappers with any `max_L`, and queries in any order, every
answer is, if old rows are only read with the `max_L` they were simulated with. If old rows
are read with any `max_L`, then all answers in all runs are simulated if and only if there are
no old rows. -/
theorem answers_simulated_iff {env : Toolchain} (hpandas : env.pandas = true) {w : World}
    (hw : w.Initial) :
    (∀ events, Along (World.step env) (fun w e => w.Asks e ∧ w.Migrates e) w events →
      Throughout (World.step env) World.AnswersSimulated w events) ∧
    ((∀ events, Along (World.step env) World.Asks w events →
        Throughout (World.step env) World.AnswersSimulated w events) ↔
      ∀ rows, w.file = some (.legacy rows) → rows = []) := by
  refine ⟨fun events h => hw.throughout h, ?_, ?_⟩
  · intro h rows hfile
    by_contra hrows
    obtain ⟨events, hasks, hstale⟩ := hw.exists_stale hpandas hfile hrows
    exact hstale (h events hasks)
  · intro hnone events hasks
    exact hw.throughout (World.NoLegacy.along hnone hasks)

/-- A session without a log, with one query, and a longer one with the same query. -/
def twoLengths : List Event :=
  [.construct (World.modelOf 128) false 5 2048, .output 0 (Session.scoreQuery .BA),
    .construct (World.modelOf 128) false 5 4096, .output 1 (Session.scoreQuery .BA)]

/-- Both of its answers are simulated. -/
theorem answers_simulated_twoLengths :
    Throughout (World.step Session.oneMac) World.AnswersSimulated ⟨[], none, [], []⟩
      twoLengths := by
  have hpandas : Session.oneMac.pandas = true := rfl
  refine ((answers_simulated_iff hpandas ?_).2.mpr ?_) twoLengths ?_
  · exact ⟨rfl, rfl, nofun, nofun⟩
  · exact nofun
  · refine ⟨trivial, ?_, trivial, ?_, trivial⟩
    · intro ram hram
      obtain rfl := Option.some.inj hram
      rfl
    · intro ram hram
      obtain rfl := Option.some.inj hram
      rfl

/-- A row of an old file, and a world with it that has simulated it for lengths up to 2048. -/
def oldRow : LegacyRow := ⟨128, 2, 128, 2, .BA, true, ⟨1, 1, 0, 0, 0, 0⟩⟩

def oldWorld : World := ⟨[], some (.legacy [oldRow]), [oldRow.insertMaxL 2048], []⟩

/-- A wrapper for lengths up to 4096 answers from it. -/
theorem not_answers_simulated : oldWorld.Initial ∧ ∃ events,
    Along (World.step Session.oneMac) World.Asks oldWorld events ∧
      ¬Throughout (World.step Session.oneMac) World.AnswersSimulated oldWorld events := by
  refine ⟨⟨rfl, rfl, nofun, ?_⟩,
    [.construct (World.modelOf 128) false 5 4096, .output 0 (Session.scoreQuery .BA)], ?_, ?_⟩
  · intro rows hrows row hrow
    obtain rfl := LogFile.legacy.inj (Option.some.inj hrows)
    obtain rfl := List.mem_singleton.mp hrow
    exact ⟨Session.defaultRamulator, Session.scoreQuery .BA, by decide, rfl,
      List.mem_singleton.mpr rfl, by decide +kernel⟩
  · refine ⟨trivial, ?_, trivial⟩
    intro ram hram
    obtain rfl := Option.some.inj hram
    rfl
  · intro h
    have hmem := h.last (oldRow.insertMaxL 4096) (by decide +kernel)
    revert hmem
    decide +kernel

end AttAcc
