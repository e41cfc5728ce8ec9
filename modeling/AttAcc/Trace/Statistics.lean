import AttAcc.Library.List
import AttAcc.Trace.Frontend
import AttAcc.Types

/-!
# Statistics

The simulator prints its counters, and `run_ramulator` reads them back: for each line of the
output, it looks for the parts of the counters' names, in some order, and adds up the numbers
at the ends of the lines. Some names have parts of others. Still every counter ends up where
it belongs, and holds the number of lines of its kind in the trace, as long as it does not
overflow (`counters_eq_trace`).
-/

namespace AttAcc.Trace

open Library

/-! ## Printing -/

namespace Stat

/-- The counters, in the order in which they are registered. -/
def all : List Stat :=
  [.read, .write, .pimMacAllBank, .pimMacSameBank, .pimMacPerBank, .pimWriteToGemvBuffer,
    .pimMoveToSoftmaxBuffer, .pimMoveToGemvBuffer, .pimSoftmax, .pimSetModel, .pimSetHead, .other]

/-- The name a counter is registered with. -/
def name : Stat → Text
  | read => "total_num_read_requests".toList
  | write => "total_num_write_requests".toList
  | pimMacAllBank => "total_num_pim_mac_all_bank_requests".toList
  | pimMacSameBank => "total_num_pim_mac_same_bank_requests".toList
  | pimMacPerBank => "total_num_pim_mac_per_bank_requests".toList
  | pimWriteToGemvBuffer => "total_num_pim_write_to_gemv_buffer_requests".toList
  | pimMoveToSoftmaxBuffer => "total_num_pim_move_to_softmax_buffer_requests".toList
  | pimMoveToGemvBuffer => "total_num_pim_move_to_gemv_buffer_requests".toList
  | pimSoftmax => "total_num_pim_softmax_requests".toList
  | pimSetModel => "total_num_pim_set_model_requests".toList
  | pimSetHead => "total_num_pim_set_head_requests".toList
  | other => "total_num_other_requests".toList

/-- The lines a counter is for, by their first word. -/
def word : Stat → Option Text
  | read => some "LD".toList
  | write => some "ST".toList
  | pimMacAllBank => some "PIM_MAC_AB".toList
  | pimMacSameBank => some "PIM_MAC_SB".toList
  | pimMacPerBank => some "PIM_MAC_PB".toList
  | pimWriteToGemvBuffer => some "PIM_WR_GB".toList
  | pimMoveToSoftmaxBuffer => some "PIM_MV_SB".toList
  | pimMoveToGemvBuffer => some "PIM_MV_GB".toList
  | pimSoftmax => some "PIM_SFM".toList
  | pimSetModel => some "PIM_SET_MODEL".toList
  | pimSetHead => some "PIM_SET_HEAD".toList
  | other => none

theorem mem_all (c : Stat) : c ∈ all := by
  cases c
  all_goals decide

end Stat

/-- An integer in decimal. -/
def showInt (z : ℤ) : Text :=
  if z < 0 then '-' :: Nat.toDigits 10 z.natAbs else Nat.toDigits 10 z.natAbs

/-- The line of a counter. -/
def statLine (name : Text) (value : ℤ) : Text := (name ++ [':']) ++ ' ' :: showInt value

/-- The lines of all registered counters. -/
def registered {σ : Type*} (m : MemorySystem σ) : List Text :=
  statLine "memory_system_cycles".toList m.clk ::
    Stat.all.map fun c => statLine c.name (m.counters c).toInt

/-! ## Reading -/

/-- `strip`. -/
def strip (s : Text) : Text := ((s.dropWhile isSpace).reverse.dropWhile isSpace).reverse

/-- `split` without an argument. -/
def splitSpace (s : Text) : List Text :=
  (s.splitOnP isSpace).filter fun token => decide (token ≠ [])

/-- `int`. The underscores that it allows between digits are not read. -/
def pyInt (token : Text) : Except PyError ℤ :=
  let (negative, digits) := readSign token
  if digits = [] ∨ (readDigits 10 0 digits).2 ≠ [] then .error .valueError
  else
    let magnitude : ℤ := (readDigits 10 0 digits).1
    .ok (if negative then -magnitude else magnitude)

/-- `output_list`. -/
def outputList (stdout : Text) : List Text :=
  (((strip stdout).splitOn '\n').map strip).filter fun line => decide (line ≠ [])

/-- `n_cmds` and `cycle`. -/
inductive Bucket where
  | mac
  | sfm
  | mvgb
  | mvsb
  | wrgb
  | cycle
  deriving DecidableEq, Repr

/-- Which of them a line is added to. -/
def bucket (line : Text) : Option Bucket :=
  if "mac".toList <:+: line then some .mac
  else if "softmax_requests".toList <:+: line then some .sfm
  else if "move_to_gemv_buffer".toList <:+: line then some .mvgb
  else if "move_to_softmax_buffer".toList <:+: line then some .mvsb
  else if "write_to_gemv_buffer".toList <:+: line then some .wrgb
  else if "memory_system_cycles".toList <:+: line then some .cycle
  else none

/-- `int(line.split()[-1])`. -/
def lastInt (line : Text) : Except PyError ℤ :=
  match (splitSpace line).getLast? with
  | none => .error .indexError
  | some token => pyInt token

/-- The loop over the output, one line. -/
def addLine (n : Bucket → ℤ) (line : Text) : Except PyError (Bucket → ℤ) :=
  match bucket line with
  | none => .ok n
  | some b => do
    let value ← lastInt line
    return Function.update n b (n b + value)

/-- The end of `run_ramulator`. -/
def parseOutput (lines : List Text) : Except PyError (List ℤ) := do
  let n ← lines.foldlM addLine fun _ => 0
  if n .cycle = 0 then .error (.runtimeError "Ramulator produced no memory_system_cycles")
  else return [n .cycle, n .mac, n .sfm, n .mvgb, n .mvsb, n .wrgb]

/-- The output has a line for every counter, and no other line of interest. -/
def Prints {σ : Type*} (m : MemorySystem σ) (stdout : Text) : Prop :=
  ∃ others, (outputList stdout).Perm (registered m ++ others) ∧ ∀ line ∈ others, bucket line = none

/-! ## Kinds of lines -/

/-- How many lines are for a counter. -/
def lineCount (tokenize : Text → List Text) (lines : List Text) (c : Stat) : ℕ :=
  lines.countP fun line => decide ((tokenize line).head? = c.word)

section Kinds

variable {tokenize : Text → List Text}

theorem mem_reqTypes {token : Text} {code : ℤ} (h : reqType token = some code) :
    (token, code) ∈ reqTypes := by
  obtain ⟨front, back, hsplit, -⟩ := List.lookup_eq_some_iff.mp h
  rw [hsplit]
  exact List.mem_append_right _ List.mem_cons_self

/-- Both switches agree on every `req_type`. -/
theorem stat_reqType : ∀ p ∈ reqTypes, ∀ c ∈ Stat.all,
    (requestType p.2).bind stat = some c ↔ some p.1 = c.word := by decide +kernel

/-- An entry is counted by the counter of its line. -/
theorem stat_parseLine {line : Text} {t : TraceEntry} (h : parseLine tokenize line = .ok t)
    (c : Stat) : t.stat = some c ↔ (tokenize line).head? = c.word := by
  rw [parseLine] at h
  split at h
  · rename_i kind addr htokens
    rcases hreq : reqType kind with _ | code
    · rw [hreq] at h
      cases h
    · rw [hreq] at h
      obtain ⟨value, -, h⟩ := bind_ok_iff.mp h
      obtain rfl := Except.ok.inj h
      rw [htokens]
      exact stat_reqType _ (mem_reqTypes hreq) c c.mem_all
  · cases h

/-- So the entries of a trace are counted as its lines are. -/
theorem countP_stat {lines : List Text} {entries : List TraceEntry}
    (h : List.Forall₂ (fun line t => parseLine tokenize line = .ok t) lines entries) (c : Stat) :
    (entries.countP fun t => decide (t.stat = some c)) = lineCount tokenize lines c := by
  rw [lineCount]
  induction h with
  | nil => rfl
  | cons hline _ ih =>
    rw [List.countP_cons, List.countP_cons, ih, decide_eq_decide.mpr (stat_parseLine hline c)]

end Kinds

/-! ## What is printed is read -/

/-- The characters of an integer. -/
theorem mem_showInt {c : Char} {z : ℤ} (hc : c ∈ showInt z) :
    c = '-' ∨ ∃ d < 10, c = d.digitChar := by
  rw [showInt] at hc
  split_ifs at hc
  · rcases List.mem_cons.mp hc with hminus | hc
    · exact .inl hminus
    · exact .inr (digit_of_mem_toDigits (by decide) hc)
  · exact .inr (digit_of_mem_toDigits (by decide) hc)

/-- Decimal digits are read as such. -/
theorem plain_digit : ∀ d < 10,
    isSpace d.digitChar = false ∧ d.digitChar ≠ '-' ∧ d.digitChar ≠ '+' ∧
    d.digitChar.isAlpha = false ∧ d.digitChar ≠ '_' := by decide

theorem readDigits_decimal (n : ℕ) : readDigits 10 0 (Nat.toDigits 10 n) = (n, []) := by
  have h := readDigits_padZeros (by decide : 1 < 10) (by decide) 0 n
  rwa [padZeros, Nat.zero_sub, List.replicate_zero, List.nil_append] at h

/-- **An integer is read back.** -/
theorem pyInt_showInt (z : ℤ) : pyInt (showInt z) = .ok z := by
  rw [pyInt, showInt]
  split_ifs with hneg
  · have hsign :
        readSign ('-' :: Nat.toDigits 10 z.natAbs) = (true, Nat.toDigits 10 z.natAbs) := rfl
    simp only [hsign, readDigits_decimal]
    rw [if_neg (by simp), if_pos trivial]
    exact congrArg Except.ok (by omega)
  · obtain ⟨c, cs, hdigits⟩ := List.exists_cons_of_ne_nil
      (Nat.toDigits_ne_nil (n := z.natAbs) (b := 10))
    have hmem : c ∈ Nat.toDigits 10 z.natAbs := hdigits ▸ List.mem_cons_self
    obtain ⟨d, hd, rfl⟩ := digit_of_mem_toDigits (by decide) hmem
    obtain ⟨-, hminus, hplus, -⟩ := plain_digit d hd
    have hread := readDigits_decimal z.natAbs
    rw [hdigits] at hread ⊢
    simp only [readSign_of_ne hminus hplus, hread]
    rw [if_neg (by simp), if_neg Bool.false_ne_true]
    exact congrArg Except.ok (by omega)

/-- The last word of a counter's line is its value. -/
theorem lastInt_statLine (name : Text) (z : ℤ) : lastInt (statLine name z) = .ok z := by
  have hspace : ∀ c ∈ showInt z, isSpace c = false := by
    intro c hc
    rcases mem_showInt hc with rfl | ⟨d, hd, rfl⟩
    · rfl
    · exact (plain_digit d hd).1
  have hne : showInt z ≠ [] := by
    rw [showInt]
    split_ifs
    · exact List.cons_ne_nil _ _
    · exact Nat.toDigits_ne_nil
  have hsplit : splitSpace (statLine name z) = splitSpace (name ++ [':']) ++ [showInt z] := by
    have hblank : isSpace ' ' = true := rfl
    rw [splitSpace, statLine, List.splitOnP_append_cons _ _ hblank,
      List.splitOnP_eq_singleton hspace, List.filter_append]
    simp [splitSpace, hne]
  rw [lastInt, hsplit, List.getLast?_append]
  exact pyInt_showInt z

/-- A part of a name. -/
def IsKey (key : Text) : Prop := key ≠ [] ∧ ∀ c ∈ key, c.isAlpha = true ∨ c = '_'

/-- A part of a name is only found in the name. -/
theorem IsKey.infix_statLine {key : Text} (h : IsKey key) (name : Text) (z : ℤ) :
    key <:+: statLine name z ↔ key <:+: name := by
  rw [statLine, List.append_assoc]
  refine infix_append_iff h.1 ?_
  intro c hc hmem
  have hplain : c.isAlpha = false ∧ c ≠ '_' := by
    rcases List.mem_append.mp hmem with hmem | hmem
    · obtain rfl := List.mem_singleton.mp hmem
      decide
    · rcases List.mem_cons.mp hmem with rfl | hmem
      · decide
      · rcases mem_showInt hmem with rfl | ⟨d, hd, rfl⟩
        · decide
        · obtain ⟨-, -, -, halpha, hunderscore⟩ := plain_digit d hd
          exact ⟨halpha, hunderscore⟩
  rcases h.2 c hc with halpha | hunderscore
  · rw [hplain.1] at halpha
    cases halpha
  · exact hplain.2 hunderscore

/-- **The bucket of a counter's line is that of its name.** -/
theorem bucket_statLine (name : Text) (z : ℤ) : bucket (statLine name z) = bucket name := by
  have hmac : IsKey "mac".toList := ⟨by decide, by simp⟩
  have hsfm : IsKey "softmax_requests".toList := ⟨by decide, by simp⟩
  have hmvgb : IsKey "move_to_gemv_buffer".toList := ⟨by decide, by simp⟩
  have hmvsb : IsKey "move_to_softmax_buffer".toList := ⟨by decide, by simp⟩
  have hwrgb : IsKey "write_to_gemv_buffer".toList := ⟨by decide, by simp⟩
  have hcycle : IsKey "memory_system_cycles".toList := ⟨by decide, by simp⟩
  simp only [bucket, hmac.infix_statLine, hsfm.infix_statLine, hmvgb.infix_statLine,
    hmvsb.infix_statLine, hwrgb.infix_statLine, hcycle.infix_statLine]

/-- The bucket of a counter. -/
def Stat.bucket : Stat → Option Bucket
  | pimMacAllBank | pimMacSameBank | pimMacPerBank => some .mac
  | pimSoftmax => some .sfm
  | pimMoveToGemvBuffer => some .mvgb
  | pimMoveToSoftmaxBuffer => some .mvsb
  | pimWriteToGemvBuffer => some .wrgb
  | read | write | pimSetModel | pimSetHead | other => none

theorem bucket_name (c : Stat) : Trace.bucket c.name = c.bucket := by
  cases c
  all_goals decide

theorem bucket_cycles : bucket "memory_system_cycles".toList = some .cycle := by decide

/-! ### Adding up -/

/-- What a line adds to a bucket. -/
def contribution (b : Bucket) (line : Text) : ℤ :=
  if bucket line = some b then valueOf (lastInt line) else 0

/-- The loop adds up what the lines have for each bucket. -/
theorem foldlM_addLine {lines : List Text} (h : ∀ line ∈ lines, bucket line ≠ none →
    ∃ value, lastInt line = .ok value) (n : Bucket → ℤ) :
    lines.foldlM addLine n = .ok fun b => n b + (lines.map (contribution b)).sum := by
  induction lines generalizing n with
  | nil => simp [pure, Except.pure]
  | cons line lines ih =>
    obtain ⟨hline, hlines⟩ := List.forall_mem_cons.mp h
    have hstep : addLine n line = .ok fun b => n b + contribution b line := by
      rw [addLine]
      rcases hbucket : bucket line with _ | b
      · simp [contribution, hbucket]
      · obtain ⟨value, hvalue⟩ := hline (by simp [hbucket])
        rw [hvalue]
        refine congrArg Except.ok (funext fun b' => ?_)
        by_cases hb : b' = b
        · rw [hb, Function.update_self, contribution, if_pos hbucket, hvalue, valueOf_ok]
        · have hne : ¬bucket line = some b' := by
            rw [hbucket]
            exact fun h => hb (Option.some.inj h).symm
          rw [Function.update_of_ne hb, contribution, if_neg hne, add_zero]
    rw [List.foldlM_cons, hstep]
    refine (ih hlines _).trans ?_
    simp only [List.map_cons, List.sum_cons, add_assoc]

theorem contribution_statLine (b : Bucket) (name : Text) (z : ℤ) :
    contribution b (statLine name z) = if bucket name = some b then z else 0 := by
  rw [contribution, bucket_statLine, lastInt_statLine, valueOf_ok]

variable {σ : Type*}

/-- **What is read from an output**: the counters, added up by bucket. -/
theorem parseOutput_eq {m : MemorySystem σ} {stdout : Text} (h : Prints m stdout) :
    parseOutput (outputList stdout) =
      if (m.clk : ℤ) = 0 then .error (.runtimeError "Ramulator produced no memory_system_cycles")
      else .ok [(m.clk : ℤ),
        (m.counters .pimMacAllBank).toInt + (m.counters .pimMacSameBank).toInt +
          (m.counters .pimMacPerBank).toInt,
        (m.counters .pimSoftmax).toInt, (m.counters .pimMoveToGemvBuffer).toInt,
        (m.counters .pimMoveToSoftmaxBuffer).toInt, (m.counters .pimWriteToGemvBuffer).toInt] := by
  obtain ⟨others, hperm, hothers⟩ := h
  have hread : ∀ line ∈ outputList stdout, bucket line ≠ none →
      ∃ value, lastInt line = .ok value := by
    intro line hline hbucket
    rcases List.mem_append.mp (hperm.mem_iff.mp hline) with hline | hline
    · rcases List.mem_cons.mp hline with rfl | hline
      · exact ⟨_, lastInt_statLine _ _⟩
      · obtain ⟨c, -, rfl⟩ := List.mem_map.mp hline
        exact ⟨_, lastInt_statLine _ _⟩
    · exact absurd (hothers line hline) hbucket
  have hsum : ∀ b, ((outputList stdout).map (contribution b)).sum =
      (if some Bucket.cycle = some b then (m.clk : ℤ) else 0) +
        (Stat.all.map fun c => if c.bucket = some b then (m.counters c).toInt else 0).sum := by
    intro b
    -- lines of other components are in no bucket
    have hnone : (others.map (contribution b)).sum = 0 := by
      refine List.sum_eq_zero ?_
      intro x hx
      obtain ⟨line, hline, rfl⟩ := List.mem_map.mp hx
      rw [contribution, hothers line hline, if_neg nofun]
    rw [(hperm.map _).sum_eq, List.map_append, List.sum_append, hnone, add_zero, registered,
      List.map_cons, List.sum_cons, contribution_statLine, bucket_cycles, List.map_map]
    refine congrArg _ (congrArg List.sum (List.map_congr_left fun c _ => ?_))
    rw [Function.comp_apply, contribution_statLine, bucket_name]
  rw [parseOutput, foldlM_addLine hread]
  simp only [bind, Except.bind, hsum, zero_add]
  simp [Stat.all, Stat.bucket, pure, Except.pure, add_assoc]

/-! ## Counters and lines -/

/-- An `int` holds a count below its limit. -/
theorem toInt_ofNat {n : ℕ} (h : n < 2 ^ 31) : (BitVec.ofNat 32 n).toInt = n := by
  have hmod : n % 2 ^ 32 = n := Nat.mod_eq_of_lt (by omega)
  rw [BitVec.toInt_eq_toNat_of_lt]
  · rw [BitVec.toNat_ofNat, hmod]
  · rw [BitVec.toNat_ofNat, hmod]
    omega

/-- **Counters are line counts**: for every trace that is read, whatever the controllers accept
and however the two sides take turns, the frontend looks at lines of the trace only, and every
line is accepted once, one after the other. When it is finished all are, every counter of fewer
than `2 ^ 31` lines is the number of lines of its kind, and from any output that prints the
counters, `run_ramulator` reads these numbers. -/
theorem counters_eq_trace {tokenize : Text → List Text} {text : Text} {entries : List TraceEntry}
    (hinit : initTrace tokenize (.content text) = .ok entries) (parts : Parts σ) (controllers : σ)
    (sides : List Side) :
    let lines := getLines text
    let s := sides.foldl (State.step parts) (State.init entries controllers)
    (∀ i ∈ s.looked, i < lines.length) ∧ s.frontend.traceCount ≤ lines.length ∧
      s.accepted = List.range s.frontend.traceCount ∧
      (s.frontend.isFinished = true →
        s.accepted = List.range lines.length ∧
        (∀ c, lineCount tokenize lines c < 2 ^ 31 →
          (s.memory.counters c).toInt = lineCount tokenize lines c) ∧
        ((∀ c, lineCount tokenize lines c < 2 ^ 31) → ∀ stdout, Prints s.memory stdout →
          parseOutput (outputList stdout) =
            if (s.memory.clk : ℤ) = 0 then
              .error (.runtimeError "Ramulator produced no memory_system_cycles")
            else .ok [(s.memory.clk : ℤ),
              lineCount tokenize lines .pimMacAllBank + lineCount tokenize lines .pimMacSameBank +
                lineCount tokenize lines .pimMacPerBank,
              lineCount tokenize lines .pimSoftmax, lineCount tokenize lines .pimMoveToGemvBuffer,
              lineCount tokenize lines .pimMoveToSoftmaxBuffer,
              lineCount tokenize lines .pimWriteToGemvBuffer])) := by
  intro lines s
  have hentries := mapM_ok_iff.mp hinit
  have hlength : lines.length = entries.length := hentries.length_eq
  have hinv : Inv entries s := inv_run entries controllers sides
  refine ⟨?_, hlength ▸ hinv.traceCount, hinv.accepted, ?_⟩
  · intro i hi
    rw [hlength]
    exact hinv.looked i hi
  · intro hfinished
    have hcount := hinv.isFinished_iff.mp hfinished
    have hcounters : ∀ c, s.memory.counters c = BitVec.ofNat 32 (lineCount tokenize lines c) := by
      intro c
      rw [hinv.counters c, hcount, List.take_length, countP_stat hentries]
    have hint : ∀ c, lineCount tokenize lines c < 2 ^ 31 →
        (s.memory.counters c).toInt = lineCount tokenize lines c := by
      intro c hc
      rw [hcounters c, toInt_ofNat hc]
    refine ⟨?_, hint, ?_⟩
    · rw [hinv.accepted, hcount, hlength]
    · intro hall stdout hprints
      rw [parseOutput_eq hprints, hint _ (hall _), hint _ (hall _), hint _ (hall _),
        hint _ (hall _), hint _ (hall _), hint _ (hall _), hint _ (hall _)]

/-! ### A trace of softmaxes -/

/-- Controllers that accept everything. -/
def accepting : Parts Unit := ⟨fun _ => [], fun _ _ controllers => (true, controllers), id⟩

/-- They accept the next line. -/
theorem attempt_accepting {entries : List TraceEntry} {s : State Unit} (h : Inv entries s)
    (hlt : s.frontend.traceCount < entries.length)
    (htype : requestType entries[s.frontend.traceCount].reqType ≠ none) :
    (s.attempt accepting).1 = true := by
  obtain ⟨type, htype⟩ := Option.ne_none_iff_exists'.mp htype
  have hget : s.frontend.trace[s.frontend.currTraceIdx]? = some entries[s.frontend.traceCount] := by
    rw [h.sameTrace, h.currTraceIdx_eq hlt]
    exact List.getElem?_eq_getElem hlt
  simp [State.attempt, hget, htype, MemorySystem.send, accepting]

/-- So one tick sends the whole trace. -/
theorem isFinished_loop {entries : List TraceEntry}
    (htypes : ∀ t ∈ entries, requestType t.reqType ≠ none) (rounds : ℕ) {s : State Unit}
    (h : Inv entries s) (hrounds : entries.length ≤ s.frontend.traceCount + rounds) :
    (s.loop accepting rounds).frontend.isFinished = true := by
  induction rounds generalizing s with
  | zero =>
    have hle := h.traceCount
    exact h.isFinished_iff.mpr (by omega)
  | succ rounds ih =>
    rw [State.loop]
    split_ifs with hfinished
    · exact hfinished
    · have hlt := h.lt_of_not_finished hfinished
      have hsent := attempt_accepting h hlt (htypes _ (List.getElem_mem hlt))
      rcases hattempt : s.attempt accepting with ⟨requestSent, s'⟩
      rw [hattempt] at hsent
      obtain rfl : requestSent = true := hsent
      obtain ⟨hs', hcount⟩ := h.attempt hlt hattempt
      rw [if_pos rfl] at hcount
      exact ih hs' (by omega)

/-- The lines of `n` softmaxes. -/
def softmaxes (n : ℕ) : Text := writeTrace (List.replicate n ⟨.SFM, 0⟩)

/-- Their entries. -/
def softmaxEntries (n : ℕ) : List TraceEntry := List.replicate n ⟨10, 0⟩

/-- What one tick sends of them. -/
def softmaxState (n : ℕ) : State Unit :=
  [Side.frontend].foldl (State.step accepting) (State.init (softmaxEntries n) ())

theorem initTrace_softmaxes (n : ℕ) :
    initTrace (fun line => line.splitOn ' ') (.content (softmaxes n)) = .ok (softmaxEntries n) := by
  rw [softmaxes, initTrace_writeTrace splitsAtSpace_splitOn, List.map_replicate]
  · rfl
  · intro c hc
    rw [(List.mem_replicate.mp hc).2]
    decide

theorem isFinished_softmaxState (n : ℕ) : (softmaxState n).frontend.isFinished = true := by
  have htypes : ∀ t ∈ softmaxEntries n, requestType t.reqType ≠ none := by
    intro t ht
    rw [(List.mem_replicate.mp ht).2]
    decide
  refine isFinished_loop htypes _ (inv_init _ ()) ?_
  exact (Nat.zero_add _).ge

theorem lineCount_softmaxes (n : ℕ) (c : Stat) :
    lineCount (fun line => line.splitOn ' ') (getLines (softmaxes n)) c =
      if c = .pimSoftmax then n else 0 := by
  rw [← countP_stat (mapM_ok_iff.mp (initTrace_softmaxes n)), softmaxEntries, List.countP_replicate]
  have hstat : (TraceEntry.stat ⟨10, 0⟩ = some c) ↔ c = .pimSoftmax := by
    rw [show TraceEntry.stat ⟨10, 0⟩ = some .pimSoftmax from rfl, Option.some.injEq, eq_comm]
  simp only [hstat, decide_eq_true_eq]

/-- Two of them are counted. -/
theorem counters_eq_trace_two : ((softmaxState 2).memory.counters .pimSoftmax).toInt = 2 := by
  have h := (counters_eq_trace (initTrace_softmaxes 2) accepting () [.frontend]).2.2.2
    (isFinished_softmaxState 2)
  have hcount := lineCount_softmaxes 2 .pimSoftmax
  rw [if_pos rfl] at hcount
  have hint := h.2.1 .pimSoftmax (by omega)
  rw [hcount] at hint
  exact hint

/-- `2 ^ 31` of them overflow. -/
theorem not_counters_eq_trace : (softmaxState (2 ^ 31)).frontend.isFinished = true ∧
    ((softmaxState (2 ^ 31)).memory.counters .pimSoftmax).toInt ≠
      lineCount (fun line => line.splitOn ' ') (getLines (softmaxes (2 ^ 31))) .pimSoftmax := by
  have hfinished := isFinished_softmaxState (2 ^ 31)
  refine ⟨hfinished, ?_⟩
  have hinv : Inv (softmaxEntries (2 ^ 31)) (softmaxState (2 ^ 31)) :=
    inv_run (softmaxEntries (2 ^ 31)) () [.frontend]
  have hcount := hinv.isFinished_iff.mp hfinished
  have hcounter := hinv.counters .pimSoftmax
  rw [hcount, List.take_length,
    countP_stat (mapM_ok_iff.mp (initTrace_softmaxes (2 ^ 31))), lineCount_softmaxes,
    if_pos rfl] at hcounter
  rw [hcounter, lineCount_softmaxes, if_pos rfl]
  decide

end AttAcc.Trace
