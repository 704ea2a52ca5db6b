import DaqStream.Record.Kind

/-!
# Predicates

A predicate steers a pipeline. It is asked at up to four checkpoints of every cycle, and says
at each of them to go on, to skip the record, or to stop. Its state is part of its value. A
group of predicates asks its members in order: a stop ends the asking at once, and a skip is
remembered while the other members are still asked.

`π` are predicates of the caller's own, which may do anything a predicate can do; `ω` is
whatever the parts of a pipeline share and may change.
-/

namespace DaqStream

/-- What a predicate says. -/
inductive Verdict where
  | proceed
  | skip
  | abort
  deriving DecidableEq, Repr

namespace Verdict

/-- The name of a verdict. -/
def name : Verdict → String
  | proceed => "CONTINUE"
  | skip => "SKIP"
  | abort => "ABORT"

end Verdict

/-- A point of a cycle at which predicates are asked. -/
inductive Checkpoint where
  /-- Before a record is read. -/
  | preInput
  /-- After a record was read. -/
  | postInput (kind : RecordKind)
  /-- Before a record is written. -/
  | preOutput (kind : RecordKind)
  /-- Last. -/
  | postOutput (kind : RecordKind)
  deriving DecidableEq, Repr

/-- What predicates of the caller's own do. -/
class CustomPredicate (ω π : Type) where
  /-- What the predicate says at a checkpoint. -/
  judge : π → Checkpoint → ω → Verdict × π × ω
  /-- Go back to the beginning of all counting. -/
  reset : π → ω → π × ω

instance (ω : Type) : CustomPredicate ω Empty where
  judge p := nomatch p
  reset p := nomatch p

/-- Skips the first records that are read, lets a number of them through, then stops. -/
structure CountWindow where
  toSkip : Nat
  /-- How many are let through; zero means no limit. -/
  toProcess : Nat
  skipped : Nat := 0
  /-- How many were let through; not counted without a limit. -/
  processed : Nat := 0
  deriving DecidableEq, Repr

namespace CountWindow

/-- What a window says of one more record. -/
def judge (c : CountWindow) : Verdict × CountWindow :=
  if c.skipped < c.toSkip then (.skip, { c with skipped := c.skipped + 1 })
  else if c.toProcess = 0 then (.proceed, c)
  else if c.processed < c.toProcess then (.proceed, { c with processed := c.processed + 1 })
  else (.abort, c)

/-- A window that has counted nothing. -/
def reset (c : CountWindow) : CountWindow := { c with skipped := 0, processed := 0 }

end CountWindow

/-- Lets the first of every so many records of some kinds through. -/
structure Sampling where
  kinds : List RecordKind
  /-- One record in this many passes; zero counts as one. -/
  every : Nat
  /-- How often each of the kinds was seen. -/
  seen : List (RecordKind × Nat) := []
  deriving DecidableEq, Repr

namespace Sampling

/-- How often a kind was seen. -/
def count (s : Sampling) (kind : RecordKind) : Nat := (s.seen.lookup kind).getD 0

/-- Counts in which one kind was seen once more. -/
def bump (kind : RecordKind) : List (RecordKind × Nat) → List (RecordKind × Nat)
  | [] => [(kind, 1)]
  | (k, n) :: seen => if k = kind then (k, n + 1) :: seen else (k, n) :: bump kind seen

/-- What a sampling says of one more record. -/
def judge (s : Sampling) (kind : RecordKind) : Verdict × Sampling :=
  if kind ∈ s.kinds then
    (if s.count kind % max s.every 1 = 0 then .proceed else .skip,
      { s with seen := bump kind s.seen })
  else (.proceed, s)

/-- A sampling that has seen nothing. -/
def reset (s : Sampling) : Sampling := { s with seen := [] }

end Sampling

/-- A predicate, together with its state. -/
inductive Predicate (π : Type) where
  | countWindow (window : CountWindow)
  /-- Skips every record of some kinds. -/
  | exclude (kinds : List RecordKind)
  | sample (sampling : Sampling)
  /-- Several predicates, asked in order. -/
  | group (members : List (Predicate π))
  /-- A predicate of the caller's own. -/
  | custom (p : π)

namespace Predicate

variable {ω π : Type} [CustomPredicate ω π]

/-- What the predicates that look only at the kind of a record that was read say of it; at
    the other checkpoints they say nothing and count nothing. -/
def afterReading {α : Type} (judge : α → RecordKind → Verdict × α) (a : α) :
    Checkpoint → Verdict × α
  | .postInput kind => judge a kind
  | _ => (.proceed, a)

/-- What an exclusion says of a record. -/
def judgeExcluded (kinds : List RecordKind) (kind : RecordKind) : Verdict × List RecordKind :=
  (if kind ∈ kinds then .skip else .proceed, kinds)

mutual
/-- What a predicate says at a checkpoint. -/
def judge : Predicate π → Checkpoint → ω → Verdict × Predicate π × ω
  | countWindow window, point, w =>
    let (verdict, window') := afterReading (fun c _ => CountWindow.judge c) window point
    (verdict, countWindow window', w)
  | exclude kinds, point, w => ((afterReading judgeExcluded kinds point).1, exclude kinds, w)
  | sample sampling, point, w =>
    let (verdict, sampling') := afterReading Sampling.judge sampling point
    (verdict, sample sampling', w)
  | group members, point, w =>
    match judgeAll members point w with
    | (verdict, members', w') => (verdict, group members', w')
  | custom p, point, w =>
    match CustomPredicate.judge p point w with
    | (verdict, p', w') => (verdict, custom p', w')

/-- What predicates in order say at a checkpoint. -/
def judgeAll : List (Predicate π) → Checkpoint → ω → Verdict × List (Predicate π) × ω
  | [], _, w => (.proceed, [], w)
  | p :: ps, point, w =>
    match judge p point w with
    | (.abort, p', w') => (.abort, p' :: ps, w')
    | (.skip, p', w') =>
      match judgeAll ps point w' with
      | (.abort, ps', w'') => (.abort, p' :: ps', w'')
      | (_, ps', w'') => (.skip, p' :: ps', w'')
    | (.proceed, p', w') =>
      match judgeAll ps point w' with
      | (verdict, ps', w'') => (verdict, p' :: ps', w'')
end

mutual
/-- Go back to the beginning of all counting; the limits stay. -/
def reset : Predicate π → ω → Predicate π × ω
  | countWindow window, w => (countWindow window.reset, w)
  | exclude kinds, w => (exclude kinds, w)
  | sample sampling, w => (sample sampling.reset, w)
  | group members, w =>
    match resetAll members w with
    | (members', w') => (group members', w')
  | custom p, w =>
    match CustomPredicate.reset p w with
    | (p', w') => (custom p', w')

/-- Take several predicates back to the beginning. -/
def resetAll : List (Predicate π) → ω → List (Predicate π) × ω
  | [], w => ([], w)
  | p :: ps, w =>
    match reset p w with
    | (p', w') =>
      match resetAll ps w' with
      | (ps', w'') => (p' :: ps', w'')
end

mutual
/-- All windows in a predicate, in order. -/
def windows : Predicate π → List CountWindow
  | countWindow window => [window]
  | group members => allWindows members
  | _ => []

/-- All windows in several predicates. -/
def allWindows : List (Predicate π) → List CountWindow
  | [] => []
  | p :: ps => windows p ++ allWindows ps
end

end Predicate

end DaqStream
