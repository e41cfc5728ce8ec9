import AttAcc.Trace.Generate

/-!
# Emitting a trace

The second half of `run_attention`: it interleaves the commands of two iterations (the
heads of one on the units, the vectors of the other on the buses) in four software-pipelined
loops, and emits an odd last iteration on its own. Nothing it does depends on what a
command is, so it is defined over any type of commands (`emit_map`).
-/

namespace AttAcc.Trace

open Library

variable {α β : Type*}

/-- `xs[i]`. -/
def index (xs : List β) (i : ℕ) : Except PyError β :=
  match xs[i]? with
  | some x => .ok x
  | none => .error .indexError

theorem index_eq_ok {xs : List β} {i : ℕ} {x : β} : index xs i = .ok x ↔ xs[i]? = some x := by
  rw [index]
  rcases xs[i]? with _ | y
  · simp
  · simp

/-- `for k in range(stride)`, up to a `break` at the end of the list: the elements from
`start` on, at most `stride` of them. -/
def window (xs : List β) (start stride : ℕ) : List β := (xs.drop start).take stride

/-- The MACs of round `j` of a pipelined loop. The last round has none. -/
def macRound (rows : ℕ → Except PyError (List α)) (length j : ℕ) : Except PyError (List α) :=
  if j = length then .ok [] else rows j

/-- The moves that drain the round before. -/
def mvsbRound (groups : List (List α)) (j : ℕ) : Except PyError (List α) :=
  if j = 0 then .ok [] else index groups (j - 1)

/-- Round `j`: MACs, moves, what else is on the bus, and a barrier. -/
def pipelineStep (rows : ℕ → Except PyError (List α)) (groups : List (List α))
    (bus : ℕ → List α) (barrier : List α) (length j : ℕ) : Except PyError (List α) := do
  let mac ← macRound rows length j
  let mvsb ← mvsbRound groups j
  return mac ++ mvsb ++ bus j ++ if j = length then [] else barrier

/-- `for j in range(0, length+1)`. -/
def pipeline (rows : ℕ → Except PyError (List α)) (groups : List (List α))
    (bus : ℕ → List α) (barrier : List α) (length : ℕ) : Except PyError (List α) := do
  let rounds ← (List.range (length + 1)).mapM (pipelineStep rows groups bus barrier length)
  return rounds.flatten

namespace Iteration

variable (it : Iteration α)

/-- The score MACs of round `j`: sixteen rows. -/
def scoreRound (j : ℕ) : Except PyError (List α) :=
  .ok (window it.scoreMac (j * 16) 16).flatten

/-- The context MACs of round `j`: one row. -/
def contextRound (j : ℕ) : Except PyError (List α) := index it.contextMac j

/-- The softmax, at the start of a loop. -/
def sfmRound (j : ℕ) : List α := if j = 0 then it.sfm else []

/-- A slice of the input vector of the next head, in each round but the last. -/
def wrgbRound (cmds length j : ℕ) : List α :=
  let stride := cmds * it.validChannel / length
  if j = length then [] else window it.scoreWrgb (j * stride) stride

/-- A slice of the score vector of a head, in the second half of the rounds. -/
def mvgbRound (cmds length j : ℕ) : List α :=
  let stride := cmds * it.validChannel / (length ⌈/⌉ 2)
  if j = length ∨ j < length / 2 then []
  else window it.contextMvgb ((j - length / 2) * stride) stride

/-- The first MAC of every channel. -/
def firstMacs : Except PyError (List α) :=
  (List.range it.validChannel).mapM fun j => do
    let row ← index it.scoreMac 0
    index row j

/-- The dummy MACs, which only the first iteration issues. -/
def dummyMacs (i : ℕ) : Except PyError (List α) :=
  if i = 0 then it.firstMacs else .ok []

end Iteration

namespace Generator

variable (g : Generator) (a : Args)

/-- `length` of the score loops, `ceil(L / units / 16)`. -/
def scoreLength : ℕ := a.L ⌈/⌉ (g.units * 16)

/-- `length` of the context loops. -/
def contextLength : ℕ := g.headCols a

/-- How many commands write the input vector of a head, for each channel. -/
def wrgbCmds : ℕ := g.scoreCpvecBases.length * g.headCols a

/-- How many commands move the score vector of a head, for each channel. -/
def mvgbCmds : ℕ := g.contextCpvecBases.length * g.scoreCols a

/-- The first loop: the scores of head 0, and the input vector of head 1. -/
def score0 (barrier : List α) (head0 head1 : Iteration α) : Except PyError (List α) :=
  pipeline head0.scoreRound head0.scoreMvsb
    (head1.wrgbRound (g.wrgbCmds a) (g.scoreLength a)) barrier (g.scoreLength a)

/-- The second loop: the softmax of head 0, the scores of head 1. -/
def score1 (barrier : List α) (head0 head1 : Iteration α) : Except PyError (List α) :=
  pipeline head1.scoreRound head1.scoreMvsb
    (fun j => head0.sfmRound j ++ head0.mvgbRound (g.mvgbCmds a) (g.scoreLength a) j) barrier
    (g.scoreLength a)

/-- The third loop: the context of head 0, the softmax of head 1. -/
def context0 (barrier : List α) (head0 head1 : Iteration α) : Except PyError (List α) :=
  pipeline head0.contextRound head0.contextMvsb
    (fun j => head1.sfmRound j ++ head1.mvgbRound (g.mvgbCmds a) (g.contextLength a) j) barrier
    (g.contextLength a)

/-- The fourth loop. It is titled "Head1: Context", and indexes the lists of head 0. -/
def context1 (barrier : List α) (head0 : Iteration α) : Except PyError (List α) :=
  pipeline head0.contextRound head0.contextMvsb (fun _ => []) barrier (g.contextLength a)

/-- A pair of iterations, from index `i`. -/
def emitPair (barrier : List α) (cmds : List (Iteration α)) (i : ℕ) : Except PyError (List α) := do
  let head0 ← index cmds i
  let head1 ← index cmds (i + 1)
  let dummies ← head0.dummyMacs i
  let score0 ← g.score0 a barrier head0 head1
  let score1 ← g.score1 a barrier head0 head1
  let context0 ← g.context0 a barrier head0 head1
  let context1 ← g.context1 a barrier head0
  return head0.scoreWrgb ++ dummies ++ barrier ++ score0 ++ score1 ++ context0 ++ context1

/-- The last iteration on its own. -/
def emitLast (barrier : List α) (cmds : List (Iteration α)) (i : ℕ) : Except PyError (List α) := do
  let head ← index cmds i
  let score ← pipeline head.scoreRound head.scoreMvsb (fun _ => []) barrier (g.scoreLength a)
  let context ← pipeline head.contextRound head.contextMvsb (fun _ => []) barrier
    (g.contextLength a)
  return head.scoreWrgb ++ barrier ++ score ++ head.sfm ++ head.contextMvgb ++ barrier ++ context

/-- An odd number of iterations leaves the last one. -/
def emitTail (barrier : List α) (cmds : List (Iteration α)) : Except PyError (List α) :=
  if a.numItr % 2 ≠ 0 then g.emitLast a barrier cmds (a.numItr - 1) else .ok []

/-- The overlapped commands of all iterations: `for i in range(0, num_itr - 1, 2)`, then the
tail. -/
def emit (barrier : List α) (cmds : List (Iteration α)) : Except PyError (List α) := do
  let pairs ← (List.range (a.numItr / 2)).mapM fun p => g.emitPair a barrier cmds (2 * p)
  let tail ← g.emitTail a barrier cmds
  return pairs.flatten ++ tail

/-- The barrier of all channels. -/
def barrier : List Command := (List.range nChannel).map fun lch => ⟨.BARRIER, lch * HbmGs.ch⟩

/-- `run_attention`, on the lists of the module: the lists it leaves, and the lines of the
trace. -/
def runAttention (cmds : List (Iteration Command)) :
    Except PyError (List (Iteration Command) × List Command) := do
  let cmds ← g.generate a cmds
  let trace ← g.emit a barrier cmds
  return (cmds, trace)

end Generator

/-! ## Emission does not look at commands -/

section Map

variable (f : α → β)

/-- The commands of an iteration under a renaming. -/
def Iteration.map (it : Iteration α) : Iteration β where
  scoreWrgb := it.scoreWrgb.map f
  scoreMac := it.scoreMac.map (List.map f)
  scoreMvsb := it.scoreMvsb.map (List.map f)
  sfm := it.sfm.map f
  contextMvgb := it.contextMvgb.map f
  contextMac := it.contextMac.map (List.map f)
  contextMvsb := it.contextMvsb.map (List.map f)
  validChannel := it.validChannel

theorem index_map {γ δ : Type*} (h : γ → δ) (xs : List γ) (i : ℕ) :
    index (xs.map h) i = (index xs i).map h := by
  rw [index, index, List.getElem?_map]
  rcases xs[i]? with _ | x
  · rfl
  · rfl

theorem window_map {γ δ : Type*} (h : γ → δ) (xs : List γ) (start stride : ℕ) :
    window (xs.map h) start stride = (window xs start stride).map h := by
  rw [window, window, ← List.map_drop, List.map_take]

variable {f} {rows : ℕ → Except PyError (List α)} {groups : List (List α)} {bus : ℕ → List α}
  {barrier : List α} {length : ℕ}

theorem macRound_map (j : ℕ) :
    macRound (fun j => (rows j).map (List.map f)) length j =
      (macRound rows length j).map (List.map f) := by
  rw [macRound, macRound]
  split_ifs
  · rfl
  · rfl

theorem mvsbRound_map (j : ℕ) :
    mvsbRound (groups.map (List.map f)) j = (mvsbRound groups j).map (List.map f) := by
  rw [mvsbRound, mvsbRound]
  split_ifs
  · rfl
  · exact index_map _ _ _

theorem pipelineStep_map (j : ℕ) :
    pipelineStep (fun j => (rows j).map (List.map f)) (groups.map (List.map f))
        (fun j => (bus j).map f) (barrier.map f) length j =
      (pipelineStep rows groups bus barrier length j).map (List.map f) := by
  rw [pipelineStep, macRound_map, mvsbRound_map]
  refine bind_map_map fun mac => bind_map_map fun mvsb => ?_
  split_ifs
  · simp [pure, Except.pure, Except.map]
  · simp [pure, Except.pure, Except.map]

theorem pipeline_map :
    pipeline (fun j => (rows j).map (List.map f)) (groups.map (List.map f))
        (fun j => (bus j).map f) (barrier.map f) length =
      (pipeline rows groups bus barrier length).map (List.map f) := by
  have hstep : pipelineStep (fun j => (rows j).map (List.map f)) (groups.map (List.map f))
      (fun j => (bus j).map f) (barrier.map f) length =
      fun j => (pipelineStep rows groups bus barrier length j).map (List.map f) :=
    funext pipelineStep_map
  rw [pipeline, hstep, mapM_map_result]
  refine bind_map_map fun rounds => ?_
  simp [pure, Except.pure, Except.map, List.map_flatten]

/-- The same for a loop with nothing else on the bus. -/
theorem pipeline_map_nil :
    pipeline (fun j => (rows j).map (List.map f)) (groups.map (List.map f)) (fun _ => [])
        (barrier.map f) length =
      (pipeline rows groups (fun _ => []) barrier length).map (List.map f) := by
  have hbus : (fun _ : ℕ => ([] : List β)) = fun _ => ([] : List α).map f := rfl
  rw [hbus]
  exact pipeline_map

namespace Iteration

variable (it : Iteration α)

theorem scoreRound_map :
    (it.map f).scoreRound = fun j => (it.scoreRound j).map (List.map f) := by
  funext j
  rw [scoreRound, scoreRound, map, window_map, ← List.map_flatten]
  rfl

theorem contextRound_map :
    (it.map f).contextRound = fun j => (it.contextRound j).map (List.map f) := by
  funext j
  exact index_map _ _ _

theorem sfmRound_map (j : ℕ) : (it.map f).sfmRound j = (it.sfmRound j).map f := by
  rw [sfmRound, sfmRound]
  split_ifs
  · rfl
  · rfl

theorem wrgbRound_map (cmds : ℕ) :
    (it.map f).wrgbRound cmds length = fun j => (it.wrgbRound cmds length j).map f := by
  funext j
  rw [wrgbRound, wrgbRound]
  split_ifs
  · rfl
  · exact window_map _ _ _ _

theorem mvgbRound_map (cmds j : ℕ) :
    (it.map f).mvgbRound cmds length j = (it.mvgbRound cmds length j).map f := by
  rw [mvgbRound, mvgbRound]
  split_ifs
  · rfl
  · exact window_map _ _ _ _

theorem firstMacs_map : (it.map f).firstMacs = it.firstMacs.map (List.map f) := by
  rw [firstMacs, firstMacs, ← mapM_map_result]
  refine congrArg (fun step => List.mapM step (List.range it.validChannel)) (funext fun j => ?_)
  rw [map, index_map]
  exact bind_map_map fun row => index_map _ _ _

theorem dummyMacs_map (i : ℕ) : (it.map f).dummyMacs i = (it.dummyMacs i).map (List.map f) := by
  rw [dummyMacs, dummyMacs]
  split_ifs
  · exact it.firstMacs_map
  · rfl

end Iteration

namespace Generator

variable {g : Generator} {a : Args} {head0 head1 : Iteration α} {cmds : List (Iteration α)}

theorem emitPair_map (i : ℕ) :
    g.emitPair a (barrier.map f) (cmds.map (Iteration.map f)) i =
      (g.emitPair a barrier cmds i).map (List.map f) := by
  rw [emitPair, index_map, index_map]
  refine bind_map_map fun head0 => bind_map_map fun head1 => ?_
  have hscore0 : g.score0 a (barrier.map f) (head0.map f) (head1.map f) =
      (g.score0 a barrier head0 head1).map (List.map f) := by
    rw [score0, head0.scoreRound_map, head1.wrgbRound_map]
    exact pipeline_map
  have hscore1 : g.score1 a (barrier.map f) (head0.map f) (head1.map f) =
      (g.score1 a barrier head0 head1).map (List.map f) := by
    rw [score1, head1.scoreRound_map]
    simp only [head0.sfmRound_map, head0.mvgbRound_map, ← List.map_append]
    exact pipeline_map
  have hcontext0 : g.context0 a (barrier.map f) (head0.map f) (head1.map f) =
      (g.context0 a barrier head0 head1).map (List.map f) := by
    rw [context0, head0.contextRound_map]
    simp only [head1.sfmRound_map, head1.mvgbRound_map, ← List.map_append]
    exact pipeline_map
  have hcontext1 : g.context1 a (barrier.map f) (head0.map f) =
      (g.context1 a barrier head0).map (List.map f) := by
    rw [context1, head0.contextRound_map]
    exact pipeline_map_nil
  rw [head0.dummyMacs_map, hscore0, hscore1, hcontext0, hcontext1]
  refine bind_map_map fun dummies => bind_map_map fun score0 => bind_map_map fun score1 =>
    bind_map_map fun context0 => bind_map_map fun context1 => ?_
  simp [pure, Except.pure, Except.map, Iteration.map]

theorem emitLast_map (i : ℕ) :
    g.emitLast a (barrier.map f) (cmds.map (Iteration.map f)) i =
      (g.emitLast a barrier cmds i).map (List.map f) := by
  rw [emitLast, index_map]
  refine bind_map_map fun head => ?_
  have hscore : pipeline (head.map f).scoreRound (head.map f).scoreMvsb (fun _ => [])
      (barrier.map f) (g.scoreLength a) =
      (pipeline head.scoreRound head.scoreMvsb (fun _ => []) barrier (g.scoreLength a)).map
        (List.map f) := by
    rw [head.scoreRound_map]
    exact pipeline_map_nil
  have hcontext : pipeline (head.map f).contextRound (head.map f).contextMvsb (fun _ => [])
      (barrier.map f) (g.contextLength a) =
      (pipeline head.contextRound head.contextMvsb (fun _ => []) barrier
        (g.contextLength a)).map (List.map f) := by
    rw [head.contextRound_map]
    exact pipeline_map_nil
  rw [hscore, hcontext]
  refine bind_map_map fun score => bind_map_map fun context => ?_
  simp [pure, Except.pure, Except.map, Iteration.map]

theorem emitTail_map :
    g.emitTail a (barrier.map f) (cmds.map (Iteration.map f)) =
      (g.emitTail a barrier cmds).map (List.map f) := by
  rw [emitTail, emitTail]
  split_ifs
  · exact emitLast_map _
  · rfl

/-- **Emission does not look at commands**: renaming them before or after it is the same. -/
theorem emit_map :
    g.emit a (barrier.map f) (cmds.map (Iteration.map f)) =
      (g.emit a barrier cmds).map (List.map f) := by
  rw [emit]
  simp only [emitPair_map]
  rw [mapM_map_result]
  refine bind_map_map fun pairs => ?_
  rw [emitTail_map]
  refine bind_map_map fun tail => ?_
  simp [pure, Except.pure, Except.map, List.map_flatten]

end Generator

end Map

end AttAcc.Trace
