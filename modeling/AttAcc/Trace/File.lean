import AttAcc.Library.Except
import AttAcc.Library.Numerals
import AttAcc.Trace.Generate

/-!
# Trace files

A generator writes its commands as lines of text, and `PIMLoadStoreTrace::init_trace` of
`pim_loadstore_trace.cpp` reads them. What one writes, the other reads, as long as the address
fits the `long long` that it is parsed to (`parseLine_line`).
-/

namespace AttAcc.Trace

open Library

abbrev Text := List Char

/-! ## Writing -/

/-- How a mnemonic is spelled. -/
def Mnemonic.text : Mnemonic → Text
  | .WR_GB => "PIM_WR_GB".toList
  | .MAC_AB => "PIM_MAC_AB".toList
  | .MAC_SB => "PIM_MAC_SB".toList
  | .MAC_PB => "PIM_MAC_PB".toList
  | .MV_SB => "PIM_MV_SB".toList
  | .MV_GB => "PIM_MV_GB".toList
  | .SFM => "PIM_SFM".toList
  | .BARRIER => "PIM_BARRIER".toList

/-- `"PIM_… 0x{0:0>8}".format(hex(addr)[2:])`. -/
def Command.line (c : Command) : Text :=
  c.mnemonic.text ++ ' ' :: '0' :: 'x' :: padZeros 8 (Nat.toDigits 16 c.addr)

/-- The file that `run_attention` writes. -/
def writeTrace (cmds : List Command) : Text := cmds.flatMap fun c => c.line ++ ['\n']

/-! ## Reading -/

/-- What `init_trace` throws: its own `ConfigurationError`s, and those of `std::stoll`. -/
inductive TraceError where
  | doesNotExist
  | cannotBeOpened
  | formatInvalid
  | invalidArgument
  | outOfRange
  deriving DecidableEq, Repr

/-- What is found at the path of a trace. -/
inductive TraceFile where
  | missing
  | unreadable
  | content (text : Text)

/-- An entry of `m_trace`. -/
structure TraceEntry where
  reqType : ℤ
  addr : ℤ
  deriving DecidableEq, Repr

/-- The lines that `std::getline` gives. Nothing is left behind the last newline. -/
def getLines (text : Text) : List Text :=
  let lines := text.splitOn '\n'
  if lines.getLast? = some [] then lines.dropLast else lines

/-- The `req_type`s of the first words of a line, in the order in which they are tried. -/
def reqTypes : List (Text × ℤ) :=
  [("LD".toList, 0), ("ST".toList, 1), ("PIM_MAC_AB".toList, 4), ("PIM_MAC_SB".toList, 5),
    ("PIM_MAC_PB".toList, 6), ("PIM_WR_GB".toList, 7), ("PIM_MV_SB".toList, 8),
    ("PIM_MV_GB".toList, 9), ("PIM_SFM".toList, 10), ("PIM_SET_MODEL".toList, 11),
    ("PIM_SET_HEAD".toList, 12), ("PIM_BARRIER".toList, 13)]

/-- The `req_type` of a word. -/
def reqType (token : Text) : Option ℤ := reqTypes.lookup token

/-- `isspace`. -/
def isSpace (c : Char) : Bool :=
  c = ' ' || c = '\t' || c = '\n' || c = '\x0b' || c = '\x0c' || c = '\r'

/-- The sign of a number, and what follows it. -/
def readSign : Text → Bool × Text
  | '-' :: cs => (true, cs)
  | '+' :: cs => (false, cs)
  | cs => (false, cs)

/-- The `0x` that a hexadecimal number may have in front of a digit. -/
def skipHexPrefix (base : ℕ) : Text → Text
  | '0' :: x :: c :: cs =>
    if base = 16 ∧ (x = 'x' ∨ x = 'X') ∧ (digitIn 16 c).isSome then c :: cs
    else '0' :: x :: c :: cs
  | cs => cs

/-- `std::stoll`: the digits behind spaces, a sign and a `0x`. What follows them is ignored. -/
def stoll (base : ℕ) (s : Text) : Except TraceError ℤ :=
  let (negative, s) := readSign (s.dropWhile isSpace)
  match skipHexPrefix base s with
  | [] => .error .invalidArgument
  | c :: cs =>
    if (digitIn base c).isNone then .error .invalidArgument
    else
      let magnitude : ℤ := (readDigits base 0 (c :: cs)).1
      let value := if negative then -magnitude else magnitude
      if -2 ^ 63 ≤ value ∧ value < 2 ^ 63 then .ok value else .error .outOfRange

/-- The address of a line. -/
def parseAddr (token : Text) : Except TraceError ℤ :=
  if token.take 2 = ['0', 'x'] ∨ token.take 2 = ['0', 'X'] then stoll 16 (token.drop 2)
  else stoll 10 token

section

variable (tokenize : Text → List Text)

/-- A line of a trace. `tokenize(tokens, line, " ")` is a utility of the simulator. -/
def parseLine (line : Text) : Except TraceError TraceEntry :=
  match tokenize line with
  | [kind, addr] =>
    match reqType kind with
    | none => .error .formatInvalid
    | some reqType => do
      let addr ← parseAddr addr
      return ⟨reqType, addr⟩
  | _ => .error .formatInvalid

/-- `init_trace`. -/
def initTrace : TraceFile → Except TraceError (List TraceEntry)
  | .missing => .error .doesNotExist
  | .unreadable => .error .cannotBeOpened
  | .content text => (getLines text).mapM (parseLine tokenize)

/-- What `tokenize` does: it splits a line at its spaces. -/
def SplitsAtSpace : Prop :=
  ∀ a b : Text, ' ' ∉ a → ' ' ∉ b → tokenize (a ++ ' ' :: b) = [a, b]

end

/-! ## What is written is read -/

/-- The `req_type` a command is read with. -/
def Mnemonic.reqType : Mnemonic → ℤ
  | .WR_GB => 7
  | .MAC_AB => 4
  | .MAC_SB => 5
  | .MAC_PB => 6
  | .MV_SB => 8
  | .MV_GB => 9
  | .SFM => 10
  | .BARRIER => 13

/-- The entry that a command becomes. -/
def Command.entry (c : Command) : TraceEntry := ⟨c.mnemonic.reqType, c.addr⟩

theorem reqType_text (m : Mnemonic) : reqType m.text = some m.reqType := by
  cases m with
  | WR_GB => rfl
  | MAC_AB => rfl
  | MAC_SB => rfl
  | MAC_PB => rfl
  | MV_SB => rfl
  | MV_GB => rfl
  | SFM => rfl
  | BARRIER => rfl

theorem readSign_of_ne {c : Char} (hminus : c ≠ '-') (hplus : c ≠ '+') (cs : Text) :
    readSign (c :: cs) = (false, c :: cs) := by
  rw [readSign]
  · intro cs' h
    exact hminus (List.cons.inj h).1
  · intro cs' h
    exact hplus (List.cons.inj h).1

theorem skipHexPrefix_of_not_mem {s : Text} (base : ℕ) (hx : 'x' ∉ s) (hX : 'X' ∉ s) :
    skipHexPrefix base s = s := by
  rw [skipHexPrefix.eq_def]
  split
  · rename_i x c cs
    refine if_neg ?_
    rintro ⟨-, rfl | rfl, -⟩
    · exact hx (by simp)
    · exact hX (by simp)
  · rfl

/-- Hexadecimal digits are read as such. -/
theorem plain_digitChar : ∀ d < 16, digitIn 16 d.digitChar ≠ none ∧
    isSpace d.digitChar = false ∧ d.digitChar ≠ '-' ∧ d.digitChar ≠ '+' ∧ d.digitChar ≠ 'x' ∧
      d.digitChar ≠ 'X' ∧ d.digitChar ≠ ' ' ∧ d.digitChar ≠ '\n' := by decide

/-- A hexadecimal address is parsed if it fits. -/
theorem stoll_hex (width addr : ℕ) :
    stoll 16 (padZeros width (Nat.toDigits 16 addr)) =
      if (addr : ℤ) < 2 ^ 63 then .ok (addr : ℤ) else .error .outOfRange := by
  have hread := readDigits_padZeros (by decide : 1 < 16) (le_refl 16) width addr
  have hdigits : ∀ c ∈ padZeros width (Nat.toDigits 16 addr), ∃ d < 16, c = d.digitChar :=
    fun c hc => digit_of_mem_padZeros (by decide) hc
  have hne : padZeros width (Nat.toDigits 16 addr) ≠ [] :=
    fun hnil => Nat.toDigits_ne_nil (List.append_eq_nil_iff.mp hnil).2
  generalize padZeros width (Nat.toDigits 16 addr) = cs at hread hdigits hne
  have hx : 'x' ∉ cs := by
    intro hmem
    obtain ⟨d, hd, hc⟩ := hdigits _ hmem
    exact (plain_digitChar d hd).2.2.2.2.1 hc.symm
  have hX : 'X' ∉ cs := by
    intro hmem
    obtain ⟨d, hd, hc⟩ := hdigits _ hmem
    exact (plain_digitChar d hd).2.2.2.2.2.1 hc.symm
  obtain ⟨c, cs, rfl⟩ := List.exists_cons_of_ne_nil hne
  obtain ⟨d, hd, rfl⟩ := hdigits c List.mem_cons_self
  obtain ⟨hdigit, hspace, hminus, hplus, -⟩ := plain_digitChar d hd
  rw [stoll, List.dropWhile_cons_of_neg (by rw [hspace]; decide), readSign_of_ne hminus hplus]
  simp only [skipHexPrefix_of_not_mem 16 hx hX, hread]
  rw [if_neg (by simpa using hdigit)]
  refine if_congr ?_ rfl rfl
  rw [if_neg Bool.false_ne_true]
  omega

/-- An address is written without spaces. -/
theorem not_mem_address {addr : ℕ} {c : Char} (hc : c = ' ' ∨ c = '\n') :
    c ∉ '0' :: 'x' :: padZeros 8 (Nat.toDigits 16 addr) := by
  intro hmem
  have hplain : c ≠ '0' ∧ c ≠ 'x' := by
    rcases hc with rfl | rfl
    · decide
    · decide
  rcases List.mem_cons.mp hmem with hzero | hmem
  · exact hplain.1 hzero
  · rcases List.mem_cons.mp hmem with hx | hmem
    · exact hplain.2 hx
    · obtain ⟨d, hd, rfl⟩ := digit_of_mem_padZeros (by decide) hmem
      obtain ⟨-, -, -, -, -, -, hspace, hnewline⟩ := plain_digitChar d hd
      rcases hc with hc | hc
      · exact hspace hc
      · exact hnewline hc

theorem not_mem_text (m : Mnemonic) : ' ' ∉ m.text ∧ '\n' ∉ m.text := by
  cases m with
  | WR_GB => decide
  | MAC_AB => decide
  | MAC_SB => decide
  | MAC_PB => decide
  | MV_SB => decide
  | MV_GB => decide
  | SFM => decide
  | BARRIER => decide

section RoundTrip

variable {tokenize : Text → List Text}

/-- **A command is read back from its line**, if its address fits. -/
theorem parseLine_line (htokenize : SplitsAtSpace tokenize) (c : Command) :
    parseLine tokenize c.line =
      if (c.addr : ℤ) < 2 ^ 63 then .ok c.entry else .error .outOfRange := by
  have htokens : tokenize c.line =
      [c.mnemonic.text, '0' :: 'x' :: padZeros 8 (Nat.toDigits 16 c.addr)] :=
    htokenize _ _ (not_mem_text c.mnemonic).1 (not_mem_address (.inl rfl))
  have haddr : parseAddr ('0' :: 'x' :: padZeros 8 (Nat.toDigits 16 c.addr)) =
      if (c.addr : ℤ) < 2 ^ 63 then .ok (c.addr : ℤ) else .error .outOfRange := by
    rw [parseAddr, if_pos (.inl rfl)]
    exact stoll_hex 8 c.addr
  rw [parseLine, htokens]
  simp only [reqType_text, haddr]
  split_ifs
  · rfl
  · rfl

/-- The lines of a file are those that were written. -/
theorem getLines_writeTrace (cmds : List Command) :
    getLines (writeTrace cmds) = cmds.map Command.line := by
  have hline : ∀ c : Command, '\n' ∉ c.line := by
    intro c hmem
    rcases List.mem_append.mp hmem with hmem | hmem
    · exact (not_mem_text c.mnemonic).2 hmem
    · rcases List.mem_cons.mp hmem with hspace | hmem
      · exact absurd hspace (by decide)
      · exact not_mem_address (.inr rfl) hmem
  have hsplit : (writeTrace cmds).splitOn '\n' = cmds.map Command.line ++ [[]] := by
    induction cmds with
    | nil => rfl
    | cons c cmds ih =>
      rw [writeTrace, List.flatMap_cons, List.append_assoc, List.singleton_append,
        List.splitOn_append_cons_self_of_not_mem (hline c)]
      exact congrArg (List.cons c.line) ih
  simp [getLines, hsplit]

/-- **A trace is read back from its file**, if all its addresses fit. -/
theorem initTrace_writeTrace (htokenize : SplitsAtSpace tokenize) {cmds : List Command}
    (h : ∀ c ∈ cmds, (c.addr : ℤ) < 2 ^ 63) :
    initTrace tokenize (.content (writeTrace cmds)) = .ok (cmds.map Command.entry) := by
  rw [initTrace, getLines_writeTrace, mapM_ok_iff, List.forall₂_map_left_iff,
    List.forall₂_map_right_iff, List.forall₂_same]
  intro c hc
  rw [parseLine_line htokenize, if_pos (h c hc)]

/-- The same for one line, which throws if the address does not fit. -/
theorem initTrace_singleton (htokenize : SplitsAtSpace tokenize) (c : Command) :
    initTrace tokenize (.content (writeTrace [c])) =
      if (c.addr : ℤ) < 2 ^ 63 then .ok [c.entry] else .error .outOfRange := by
  rw [initTrace, getLines_writeTrace, List.map_singleton, List.mapM_cons,
    parseLine_line htokenize]
  split_ifs
  · rfl
  · rfl

end RoundTrip

/-- Splitting at every space is such a tokenizer. -/
theorem splitsAtSpace_splitOn : SplitsAtSpace fun line => line.splitOn ' ' := by
  intro a b ha hb
  have hsplit := List.splitOn_append_cons_self_of_not_mem ha b
  rw [List.splitOn_eq_singleton hb] at hsplit
  exact hsplit

end AttAcc.Trace
