import DaqStream.Record.Kind

/-!
# One run over several producers

When the records of several producers are merged into one stream, a run is over once every
producer has ended it. A barrier counts run transitions: it waits for a first begin, then
follows that run until it has seen as many ends as there are producers. Before the first
begin nothing belongs to the run; after the last end nothing may follow until the barrier
is reset.
-/

namespace DaqStream

/-- The ways in which run transitions can contradict each other. -/
inductive TransitionError where
  /-- A transition after the run was complete. -/
  | extraTransition (kind : RecordKind) (runNumber : UInt32)
  /-- More begins than producers. -/
  | tooManyBegins (expected : Nat) (runNumber : UInt32)
  /-- A transition of another run than the one in progress. -/
  | runNumberMismatch (kind : RecordKind) (expected found : UInt32)
  deriving DecidableEq, Repr

namespace TransitionError

/-- What is said about an error. -/
def message : TransitionError → String
  | extraTransition kind runNumber =>
    s!"{kind.name} for run {runNumber.toNat} received after the run completed"
  | tooManyBegins expected runNumber =>
    s!"Too many begin-run records: already saw {expected} for run {runNumber.toNat}"
  | runNumberMismatch kind expected found =>
    s!"{kind.name} carries run {found.toNat} while run {expected.toNat} is in progress"

end TransitionError

/-- Counts the transitions of one run over several producers. -/
structure RunBarrier where
  /-- How many producers have to end the run. -/
  expected : Nat
  beginKind : RecordKind
  endKind : RecordKind
  /-- The kinds that are counted, each once, and how often each was seen. -/
  counts : List (RecordKind × Nat)
  /-- The run in progress. -/
  runNumber : Option UInt32 := none
  /-- Whether every producer has ended the run. -/
  complete : Bool := false
  deriving DecidableEq, Repr

namespace RunBarrier

/-- Every kind of a list once, in order of first appearance. -/
def distinct : List RecordKind → List RecordKind
  | [] => []
  | k :: ks => k :: (distinct ks).filter (· ≠ k)

/-- A barrier for at least one producer that counts the given kinds. -/
def new (sources : Nat) (beginKind endKind : RecordKind) (others : List RecordKind) : RunBarrier where
  expected := max sources 1
  beginKind := beginKind
  endKind := endKind
  counts := (distinct (beginKind :: endKind :: others)).map fun k => (k, 0)

/-- A barrier that counts begin, end, pause and resume. -/
def ofRunTransitions (sources : Nat) : RunBarrier :=
  new sources .beginRun .endRun [.pauseRun, .resumeRun]

/-- Whether a kind is counted. -/
def tracks (b : RunBarrier) (kind : RecordKind) : Bool :=
  (b.counts.lookup kind).isSome

/-- How often a kind was seen; kinds that are not counted were never seen. -/
def count (b : RunBarrier) (kind : RecordKind) : Nat :=
  (b.counts.lookup kind).getD 0

/-- Whether no begin has been seen yet. -/
def waiting (b : RunBarrier) : Bool :=
  b.count b.beginKind == 0

/-- The counts with every count at zero. -/
def cleared (b : RunBarrier) : List (RecordKind × Nat) :=
  b.counts.map fun c => (c.1, 0)

/-- Counts in which one kind was seen once more. -/
def bump (kind : RecordKind) (counts : List (RecordKind × Nat)) : List (RecordKind × Nat) :=
  counts.map fun c => if c.1 = kind then (c.1, c.2 + 1) else c

/-- Forget the run and wait for a begin. -/
def reset (b : RunBarrier) : RunBarrier :=
  { b with counts := b.cleared, runNumber := none, complete := false }

/-- Set the completion mark if every producer has ended the run. -/
def settle (b : RunBarrier) : RunBarrier :=
  { b with complete := b.count b.endKind == b.expected }

/-- Account for one transition. Kinds that are not counted change nothing, and so does
    everything but a begin before the first begin. -/
def update (b : RunBarrier) (kind : RecordKind) (runNumber : UInt32) :
    Except TransitionError RunBarrier :=
  if b.complete then .error (.extraTransition kind runNumber)
  else if !b.tracks kind then .ok b
  else if b.waiting then
    if kind = b.beginKind then
      .ok (settle { b with counts := bump kind b.cleared, runNumber := some runNumber })
    else .ok b.settle
  else match b.runNumber with
    | some current =>
      if current ≠ runNumber then .error (.runNumberMismatch kind current runNumber)
      else advance b kind runNumber
    | none => advance b kind runNumber
where
  /-- Count a transition of the run in progress. -/
  advance (b : RunBarrier) (kind : RecordKind) (runNumber : UInt32) :
      Except TransitionError RunBarrier :=
    if kind = b.beginKind ∧ b.expected ≤ b.count kind then
      .error (.tooManyBegins b.expected runNumber)
    else .ok (settle { b with counts := bump kind b.counts })

end RunBarrier

end DaqStream
