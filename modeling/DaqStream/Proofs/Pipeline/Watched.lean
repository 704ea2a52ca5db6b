import DaqStream.Proofs.Pipeline.Cycle

/-!
# Watching filters

To say which filters a run prepares and closes, and when, the filters of a mediator are
wrapped so that each notes what is called. A wrapped filter does what the filter in it does,
so a watched run is the run of the mediator itself with a log beside it
(`runWithin_unwatch`).
-/

namespace DaqStream

/-- What a run can call of a filter. -/
inductive Hook where
  | start
  | handle
  | finish
  deriving DecidableEq, Repr

/-- One call of a filter, by the position of the filter, and whether it succeeded. -/
structure Call where
  label : Nat
  hook : Hook
  ok : Bool
  deriving DecidableEq, Repr

/-- What the parts of a pipeline share, with the calls that were made so far. -/
structure Logged (ω : Type) where
  shared : ω
  calls : List Call

/-- A filter at a position. -/
structure Watched (χ : Type) where
  label : Nat
  inner : Filter χ

namespace Logged

variable {ω σ κ χ π : Type}

/-- The log with one more call, after a step that shared something. -/
def note {α : Type} (w : Logged ω) (label : Nat) (hook : Hook)
    (result : Except PipelineError α) (shared : ω) : Logged ω :=
  ⟨shared, w.calls ++ [⟨label, hook, result.isOk⟩]⟩

/-- A watched filter notes every call and leaves it to the filter in it. -/
instance [CustomFilter ω χ] : CustomFilter (Logged ω) (Watched χ) where
  start f w :=
    match f.inner.start w.shared with
    | (result, inner, shared) => (result, { f with inner }, w.note f.label .start result shared)
  handle f r w :=
    match f.inner.handle r w.shared with
    | (result, inner, shared) => (result, { f with inner }, w.note f.label .handle result shared)
  finish f w :=
    match f.inner.finish w.shared with
    | (result, inner, shared) => (result, { f with inner }, w.note f.label .finish result shared)
  isComplete f w := f.inner.isComplete w.shared

/-- Sources do not look at the log. -/
instance [RecordSource ω σ] : RecordSource (Logged ω) σ where
  readOne s w :=
    match RecordSource.readOne s w.shared with
    | (result, s', shared) => (result, s', { w with shared })

/-- Sinks do not look at the log. -/
instance [RecordSink ω κ] : RecordSink (Logged ω) κ where
  put k block w :=
    match RecordSink.put k block w.shared with
    | (result, k', shared) => (result, k', { w with shared })
  putParts k parts w :=
    match RecordSink.putParts k parts w.shared with
    | (result, k', shared) => (result, k', { w with shared })
  flush k w :=
    match RecordSink.flush k w.shared with
    | (result, k', shared) => (result, k', { w with shared })

/-- Predicates do not look at the log. -/
instance [CustomPredicate ω π] : CustomPredicate (Logged ω) π where
  judge p point w :=
    match CustomPredicate.judge p point w.shared with
    | (verdict, p', shared) => (verdict, p', { w with shared })
  reset p w :=
    match CustomPredicate.reset p w.shared with
    | (p', shared) => (p', { w with shared })

end Logged

namespace Predicate

variable {ω π : Type} [CustomPredicate ω π]

mutual
theorem judge_logged : ∀ (p : Predicate π) (point : Checkpoint) (w : Logged ω),
    p.judge point w =
      ((p.judge point w.shared).1, (p.judge point w.shared).2.1,
        { w with shared := (p.judge point w.shared).2.2 })
  | .countWindow _, _, _ => rfl
  | .exclude _, _, _ => rfl
  | .sample _, _, _ => rfl
  | .custom _, _, _ => rfl
  | .group members, point, w => by
    simp only [judge, judgeAll_logged members point w]

theorem judgeAll_logged : ∀ (ps : List (Predicate π)) (point : Checkpoint) (w : Logged ω),
    judgeAll ps point w =
      ((judgeAll ps point w.shared).1, (judgeAll ps point w.shared).2.1,
        { w with shared := (judgeAll ps point w.shared).2.2 })
  | [], _, _ => rfl
  | p :: ps, point, w => by
    unfold judgeAll
    rw [judge_logged p point w]
    obtain ⟨verdict, p', shared⟩ := p.judge point w.shared
    cases verdict with
    | abort => rfl
    | skip =>
      dsimp only
      rw [judgeAll_logged ps point { w with shared }]
      obtain ⟨verdict', ps', shared'⟩ := judgeAll ps point shared
      cases verdict' <;> rfl
    | proceed =>
      dsimp only
      rw [judgeAll_logged ps point { w with shared }]
end

mutual
theorem reset_logged : ∀ (p : Predicate π) (w : Logged ω),
    p.reset w = ((p.reset w.shared).1, { w with shared := (p.reset w.shared).2 })
  | .countWindow _, _ => rfl
  | .exclude _, _ => rfl
  | .sample _, _ => rfl
  | .custom _, _ => rfl
  | .group members, w => by
    simp only [reset, resetAll_logged members w]

theorem resetAll_logged : ∀ (ps : List (Predicate π)) (w : Logged ω),
    resetAll ps w = ((resetAll ps w.shared).1, { w with shared := (resetAll ps w.shared).2 })
  | [], _ => rfl
  | p :: ps, w => by
    simp only [resetAll, reset_logged p w, resetAll_logged ps]
end

end Predicate

namespace Filter

variable {ω χ : Type}

mutual
/-- A filter with every filter wrapped that is not made of others, under consecutive positions.
    A chain without members is one filter. -/
def watch : Nat → Filter χ → Filter (Watched χ)
  | label, chain members =>
    if members.isEmpty then custom ⟨label, chain members⟩ else chain (watchAll label members)
  | label, f => custom ⟨label, f⟩

/-- Filters with their members wrapped, in the order in which they stand in the chain. -/
def watchAll : Nat → List (Filter χ) → List (Filter (Watched χ))
  | _, [] => []
  | label, f :: fs => watch label f :: watchAll (label + leaves f) fs

/-- How many filters that are not made of others there are in a filter. -/
def leaves : Filter χ → Nat
  | chain members => if members.isEmpty then 1 else leavesOfAll members
  | _ => 1

/-- How many filters that are not made of others there are in several filters. -/
def leavesOfAll : List (Filter χ) → Nat
  | [] => 0
  | f :: fs => leaves f + leavesOfAll fs
end

mutual
/-- The filter without its wrappings. -/
def unwatch : Filter (Watched χ) → Filter χ
  | transparent => transparent
  | abnormalEnd => abnormalEnd
  | kindCount counts => kindCount counts
  | oneShot barrier => oneShot barrier
  | chain members => chain (unwatchAll members)
  | custom f => f.inner

/-- Filters without their wrappings. -/
def unwatchAll : List (Filter (Watched χ)) → List (Filter χ)
  | [] => []
  | f :: fs => unwatch f :: unwatchAll fs
end

mutual
/-- The positions in a filter, in order. -/
def labels : Filter (Watched χ) → List Nat
  | custom f => [f.label]
  | chain members => labelsOfAll members
  | _ => []

/-- The positions in several filters, in order. -/
def labelsOfAll : List (Filter (Watched χ)) → List Nat
  | [] => []
  | f :: fs => labels f ++ labelsOfAll fs
end

mutual
theorem unwatch_watch : ∀ (label : Nat) (f : Filter χ), (f.watch label).unwatch = f
  | label, chain members => by
    rw [watch]
    split
    · rfl
    · rw [unwatch, unwatchAll_watchAll label members]
  | _, transparent | _, abnormalEnd | _, kindCount _ | _, oneShot _ | _, custom _ => rfl

theorem unwatchAll_watchAll : ∀ (label : Nat) (fs : List (Filter χ)),
    unwatchAll (watchAll label fs) = fs
  | _, [] => rfl
  | label, f :: fs => by
    rw [watchAll, unwatchAll, unwatch_watch label f, unwatchAll_watchAll (label + leaves f) fs]
end

mutual
theorem labels_watch : ∀ (label : Nat) (f : Filter χ),
    (f.watch label).labels = List.range' label f.leaves
  | label, chain members => by
    rw [watch, leaves]
    split
    · rfl
    · rw [labels, labelsOfAll_watchAll label members]
  | _, transparent | _, abnormalEnd | _, kindCount _ | _, oneShot _ | _, custom _ => rfl

theorem labelsOfAll_watchAll : ∀ (label : Nat) (fs : List (Filter χ)),
    labelsOfAll (watchAll label fs) = List.range' label (leavesOfAll fs)
  | _, [] => rfl
  | label, f :: fs => by
    rw [watchAll, labelsOfAll, labels_watch label f, labelsOfAll_watchAll (label + leaves f) fs,
      leavesOfAll, List.range'_append_1]
end

/-- The calls of one hook on filters in order, up to the first that fails. -/
inductive Broadcast (hook : Hook) : List Nat → List Call → Bool → Prop
  | done : Broadcast hook [] [] true
  | stop (label : Nat) (rest : List Nat) :
      Broadcast hook (label :: rest) [⟨label, hook, false⟩] false
  | next (label : Nat) {labels : List Nat} {calls : List Call} {ok : Bool} :
      Broadcast hook labels calls ok →
      Broadcast hook (label :: labels) (⟨label, hook, true⟩ :: calls) ok

theorem Broadcast.one (hook : Hook) (label : Nat) (ok : Bool) :
    Broadcast hook [label] [⟨label, hook, ok⟩] ok := by
  cases ok with
  | false => exact .stop label []
  | true => exact .next label .done

theorem Broadcast.append {hook : Hook} {labels labels' : List Nat} {calls calls' : List Call}
    {ok : Bool} (h : Broadcast hook labels calls true) (h' : Broadcast hook labels' calls' ok) :
    Broadcast hook (labels ++ labels') (calls ++ calls') ok := by
  generalize hok : true = first at h
  induction h with
  | done => exact h'
  | stop => cases hok
  | next label _ ih => exact .next label (ih hok)

theorem Broadcast.stopped {hook : Hook} {labels : List Nat} {calls : List Call}
    (h : Broadcast hook labels calls false) (labels' : List Nat) :
    Broadcast hook (labels ++ labels') calls false := by
  generalize hok : false = last at h
  induction h with
  | done => cases hok
  | stop label rest => exact .stop label (rest ++ labels')
  | next label _ ih => exact .next label (ih hok)

variable [CustomFilter ω χ]

mutual
/-- Preparing watched filters prepares the filters in them, and notes it in order. -/
theorem start_watched : ∀ (f : Filter (Watched χ)) (w : Logged ω),
    ∃ result f' shared calls,
      f.start w = (result, f', ⟨shared, w.calls ++ calls⟩) ∧
      f.unwatch.start w.shared = (result, f'.unwatch, shared) ∧ f'.labels = f.labels ∧
      Broadcast .start f.labels calls result.isOk
  | transparent, w => ⟨_, transparent, w.shared, [], by rw [List.append_nil]; rfl, rfl, rfl, .done⟩
  | abnormalEnd, w => ⟨_, abnormalEnd, w.shared, [], by rw [List.append_nil]; rfl, rfl, rfl, .done⟩
  | kindCount _, w =>
    ⟨_, kindCount {}, w.shared, [], by rw [List.append_nil]; rfl, rfl, rfl, .done⟩
  | oneShot b, w =>
    ⟨_, oneShot b.reset, w.shared, [], by rw [List.append_nil]; rfl, rfl, rfl, .done⟩
  | custom f, w =>
    ⟨_, custom { f with inner := (f.inner.start w.shared).2.1 }, _, [⟨f.label, .start, _⟩], rfl, rfl,
      rfl, .one .start f.label _⟩
  | chain members, w => by
    obtain ⟨result, members', shared, calls, hlogged, hplain, hlabels, hcalls⟩ :=
      startAll_watched members w
    refine ⟨result, chain members', shared, calls, ?_, ?_, hlabels, hcalls⟩
    · rw [start, hlogged]
    · rw [unwatch, start, hplain, unwatch]

theorem startAll_watched : ∀ (fs : List (Filter (Watched χ))) (w : Logged ω),
    ∃ result fs' shared calls,
      startAll fs w = (result, fs', ⟨shared, w.calls ++ calls⟩) ∧
      startAll (unwatchAll fs) w.shared = (result, unwatchAll fs', shared) ∧
      labelsOfAll fs' = labelsOfAll fs ∧ Broadcast .start (labelsOfAll fs) calls result.isOk
  | [], w => ⟨_, [], w.shared, [], by rw [List.append_nil]; rfl, rfl, rfl, .done⟩
  | f :: fs, w => by
    obtain ⟨result, f', shared, calls, hlogged, hplain, hlabels, hcalls⟩ := start_watched f w
    rw [startAll, hlogged, unwatchAll, startAll, hplain, labelsOfAll]
    cases result with
    | error e =>
      exact ⟨.error e, f' :: fs, shared, calls, rfl, rfl, by rw [labelsOfAll, hlabels],
        hcalls.stopped _⟩
    | ok _ =>
      obtain ⟨result', fs', shared', calls', hlogged', hplain', hlabels', hcalls'⟩ :=
        startAll_watched fs ⟨shared, w.calls ++ calls⟩
      dsimp only at hlogged' hplain' ⊢
      rw [hlogged', hplain']
      exact ⟨result', f' :: fs', shared', calls ++ calls', by rw [List.append_assoc], rfl,
        by rw [labelsOfAll, hlabels, hlabels'], hcalls.append hcalls'⟩
end

mutual
/-- Closing watched filters closes the filters in them, and notes it in order. -/
theorem finish_watched : ∀ (f : Filter (Watched χ)) (w : Logged ω),
    ∃ result f' shared calls,
      f.finish w = (result, f', ⟨shared, w.calls ++ calls⟩) ∧
      f.unwatch.finish w.shared = (result, f'.unwatch, shared) ∧
      Broadcast .finish f.labels calls result.isOk
  | transparent, w => ⟨_, transparent, w.shared, [], by rw [List.append_nil]; rfl, rfl, .done⟩
  | abnormalEnd, w => ⟨_, abnormalEnd, w.shared, [], by rw [List.append_nil]; rfl, rfl, .done⟩
  | kindCount counts, w =>
    ⟨_, kindCount counts, w.shared, [], by rw [List.append_nil]; rfl, rfl, .done⟩
  | oneShot b, w => ⟨_, oneShot b, w.shared, [], by rw [List.append_nil]; rfl, rfl, .done⟩
  | custom f, w =>
    ⟨_, custom { f with inner := (f.inner.finish w.shared).2.1 }, _, [⟨f.label, .finish, _⟩], rfl,
      rfl, .one .finish f.label _⟩
  | chain members, w => by
    obtain ⟨result, members', shared, calls, hlogged, hplain, hcalls⟩ :=
      finishAll_watched members w
    refine ⟨result, chain members', shared, calls, ?_, ?_, hcalls⟩
    · rw [finish, hlogged]
    · rw [unwatch, finish, hplain, unwatch]

theorem finishAll_watched : ∀ (fs : List (Filter (Watched χ))) (w : Logged ω),
    ∃ result fs' shared calls,
      finishAll fs w = (result, fs', ⟨shared, w.calls ++ calls⟩) ∧
      finishAll (unwatchAll fs) w.shared = (result, unwatchAll fs', shared) ∧
      Broadcast .finish (labelsOfAll fs) calls result.isOk
  | [], w => ⟨_, [], w.shared, [], by rw [List.append_nil]; rfl, rfl, .done⟩
  | f :: fs, w => by
    obtain ⟨result, f', shared, calls, hlogged, hplain, hcalls⟩ := finish_watched f w
    rw [finishAll, hlogged, unwatchAll, finishAll, hplain, labelsOfAll]
    cases result with
    | error e => exact ⟨.error e, f' :: fs, shared, calls, rfl, rfl, hcalls.stopped _⟩
    | ok _ =>
      obtain ⟨result', fs', shared', calls', hlogged', hplain', hcalls'⟩ :=
        finishAll_watched fs ⟨shared, w.calls ++ calls⟩
      dsimp only at hlogged' hplain' ⊢
      rw [hlogged', hplain']
      exact ⟨result', f' :: fs', shared', calls ++ calls', by rw [List.append_assoc], rfl,
        hcalls.append hcalls'⟩
end

mutual
/-- Watched filters decide what the filters in them do, and note only that they were asked. -/
theorem handle_watched : ∀ (f : Filter (Watched χ)) (r : Record) (w : Logged ω),
    ∃ result f' shared calls,
      f.handle r w = (result, f', ⟨shared, w.calls ++ calls⟩) ∧
      f.unwatch.handle r w.shared = (result, f'.unwatch, shared) ∧ f'.labels = f.labels ∧
      ∀ c ∈ calls, c.hook = .handle
  | transparent, r, w =>
    ⟨_, transparent, w.shared, [], by rw [List.append_nil]; rfl, rfl, rfl, by simp⟩
  | abnormalEnd, r, w =>
    ⟨_, abnormalEnd, w.shared, [], by rw [List.append_nil]; rfl, rfl, rfl, by simp⟩
  | kindCount counts, r, w =>
    ⟨_, kindCount (counts.add r), w.shared, [], by rw [List.append_nil]; rfl, rfl, rfl, by simp⟩
  | oneShot b, r, w =>
    ⟨_, oneShot (b.handle r).2, w.shared, [], by rw [List.append_nil]; rfl, rfl, rfl, by simp⟩
  | custom f, r, w =>
    ⟨_, custom { f with inner := (f.inner.handle r w.shared).2.1 }, _, [⟨f.label, .handle, _⟩], rfl,
      rfl, rfl, by simp⟩
  | chain members, r, w => by
    obtain ⟨result, members', shared, calls, hlogged, hplain, hlabels, hcalls⟩ :=
      handleAll_watched members r w
    refine ⟨result, chain members', shared, calls, ?_, ?_, hlabels, hcalls⟩
    · rw [handle, hlogged]
    · rw [unwatch, handle, hplain, unwatch]

theorem handleAll_watched : ∀ (fs : List (Filter (Watched χ))) (r : Record) (w : Logged ω),
    ∃ result fs' shared calls,
      handleAll fs r w = (result, fs', ⟨shared, w.calls ++ calls⟩) ∧
      handleAll (unwatchAll fs) r w.shared = (result, unwatchAll fs', shared) ∧
      labelsOfAll fs' = labelsOfAll fs ∧ ∀ c ∈ calls, c.hook = .handle
  | [], r, w => ⟨_, [], w.shared, [], by rw [List.append_nil]; rfl, rfl, rfl, by simp⟩
  | f :: fs, r, w => by
    obtain ⟨result, f', shared, calls, hlogged, hplain, hlabels, hcalls⟩ := handle_watched f r w
    rw [handleAll, hlogged, unwatchAll, handleAll, hplain, labelsOfAll]
    have hkept : labelsOfAll (f' :: fs) = f.labels ++ labelsOfAll fs := by rw [labelsOfAll, hlabels]
    cases result with
    | error e => exact ⟨.error e, f' :: fs, shared, calls, rfl, rfl, hkept, hcalls⟩
    | ok out =>
      cases out with
      | drop => exact ⟨.ok .drop, f' :: fs, shared, calls, rfl, rfl, hkept, hcalls⟩
      | flush r' => exact ⟨.ok (.flush r'), f' :: fs, shared, calls, rfl, rfl, hkept, hcalls⟩
      | emit r' =>
        obtain ⟨result', fs', shared', calls', hlogged', hplain', hlabels', hcalls'⟩ :=
          handleAll_watched fs r' ⟨shared, w.calls ++ calls⟩
        dsimp only at hlogged' hplain' ⊢
        rw [hlogged', hplain']
        exact ⟨result', f' :: fs', shared', calls ++ calls', by rw [List.append_assoc], rfl,
          by rw [labelsOfAll, hlabels, hlabels'], List.forall_mem_append.2 ⟨hcalls, hcalls'⟩⟩
end

mutual
theorem isComplete_watched : ∀ (f : Filter (Watched χ)) (w : Logged ω),
    f.isComplete w = f.unwatch.isComplete w.shared
  | transparent, _ | abnormalEnd, _ | kindCount _, _ | oneShot _, _ | custom _, _ => rfl
  | chain members, w => by rw [isComplete, unwatch, isComplete, anyComplete_watched members w]

theorem anyComplete_watched : ∀ (fs : List (Filter (Watched χ))) (w : Logged ω),
    anyComplete w fs = anyComplete w.shared (unwatchAll fs)
  | [], _ => rfl
  | f :: fs, w => by
    rw [anyComplete, unwatchAll, anyComplete, isComplete_watched f w, anyComplete_watched fs w]
end

end Filter

namespace Mediator

variable {ω σ κ χ π : Type}

/-- The mediator with all of its filters wrapped, in the order in which they were registered. -/
def watch (m : Mediator σ κ χ π) : Mediator σ κ (Watched χ) π where
  source := m.source
  sink := m.sink
  filters := Filter.watchAll 0 m.filters
  predicates := m.predicates
  state := m.state

/-- The mediator without the wrappings. -/
def unwatch (m : Mediator σ κ (Watched χ) π) : Mediator σ κ χ π where
  source := m.source
  sink := m.sink
  filters := Filter.unwatchAll m.filters
  predicates := m.predicates
  state := m.state

theorem unwatch_watch (m : Mediator σ κ χ π) : m.watch.unwatch = m := by
  obtain ⟨source, sink, filters, predicates, state⟩ := m
  rw [watch, unwatch, Filter.unwatchAll_watchAll]

end Mediator

namespace Running

variable {ω σ κ χ π : Type}

/-- The pipeline without the wrappings and without the log. -/
def unwatch (p : Running (Logged ω) σ κ (Watched χ) π) : Running ω σ κ χ π where
  mediator := p.mediator.unwatch
  shared := p.shared.shared
  tally := p.tally

variable [RecordSource ω σ] [RecordSink ω κ] [CustomFilter ω χ] [CustomPredicate ω π]

/-- The log changes nothing in what a cycle does. -/
theorem simulation_unwatch :
    Simulation fun p : Running (Logged ω) σ κ (Watched χ) π => p.unwatch where
  ask p point := by
    unfold ask
    rw [Predicate.judgeAll_logged]
    rfl
  read p := rfl
  filter p r := by
    obtain ⟨result, fs, shared, calls, hlogged, hplain, -, -⟩ :=
      Filter.handleAll_watched p.mediator.filters r p.shared
    rw [filter_eq hlogged]
    exact filter_eq hplain
  write p r := by
    have hlogged : RecordSink.put p.mediator.sink r.encode p.shared =
        ((RecordSink.put p.mediator.sink r.encode p.shared.shared).1,
          (RecordSink.put p.mediator.sink r.encode p.shared.shared).2.1,
          { p.shared with
            shared := (RecordSink.put p.mediator.sink r.encode p.shared.shared).2.2 }) := rfl
    rcases hput : RecordSink.put p.mediator.sink r.encode p.shared.shared with ⟨result, sink, shared⟩
    rw [hput] at hlogged
    cases result with
    | error e =>
      rw [write_eq_of_error hlogged]
      exact write_eq_of_error hput
    | ok _ =>
      rw [write_eq_of_ok hlogged]
      exact write_eq_of_ok hput
  afterWrite p := by
    unfold afterWrite
    rw [Filter.anyComplete_watched]
    rfl
  tally p := rfl
  count p tally := rfl

omit [RecordSource ω σ] [CustomPredicate ω π] in
theorem close_unwatch (p : Running (Logged ω) σ κ (Watched χ) π) :
    p.unwatch.close = (p.close.1, p.close.2.unwatch) := by
  obtain ⟨closed, fs, shared, calls, hlogged, hplain, -⟩ :=
    Filter.finishAll_watched p.mediator.filters p.shared
  rw [close_eq hlogged rfl]
  exact close_eq hplain rfl

end Running

namespace Mediator

variable {ω σ κ χ π : Type} [RecordSource ω σ] [RecordSink ω κ] [CustomFilter ω χ]
  [CustomPredicate ω π]

omit [RecordSource ω σ] [RecordSink ω κ] in
theorem start_unwatch (m : Mediator σ κ (Watched χ) π) (w : Logged ω) :
    m.unwatch.start w.shared = ((m.start w).1, (m.start w).2.unwatch) := by
  have hreset := Predicate.resetAll_logged m.predicates w
  obtain ⟨result, fs, shared, calls, hlogged, hplain, -, -⟩ := Filter.startAll_watched m.filters
    { w with shared := (Predicate.resetAll m.predicates w.shared).2 }
  rw [Running.start_eq hreset hlogged]
  exact Running.start_eq rfl hplain

omit [RecordSource ω σ] [CustomPredicate ω π] in
theorem conclude_unwatch (outcome : Except PipelineError MediatorState)
    (p : Running (Logged ω) σ κ (Watched χ) π) :
    conclude outcome p.unwatch =
      ((conclude outcome p).1, (conclude outcome p).2.1.unwatch, (conclude outcome p).2.2.shared) := by
  have hclose := p.close_unwatch
  cases outcome with
  | error e =>
    rw [conclude_error, conclude_error, hclose]
    rfl
  | ok state =>
    cases hok : p.close.1 with
    | error e =>
      rw [conclude_ok_of_close_error hok, conclude_ok_of_close_error (by rw [hclose, hok]), hclose]
      rfl
    | ok _ =>
      rw [conclude_ok_of_close_ok hok, conclude_ok_of_close_ok (by rw [hclose, hok]), hclose]
      rfl

/-- A watched run is the run of the mediator itself. -/
theorem runWithin_unwatch (limit : Nat) (m : Mediator σ κ (Watched χ) π) (w : Logged ω) :
    m.unwatch.runWithin limit w.shared =
      (m.runWithin limit w).map fun out => (out.1, out.2.1.unwatch, out.2.2.shared) := by
  unfold runWithin
  rw [start_unwatch]
  obtain ⟨result, p⟩ := m.start w
  cases result with
  | error e => rfl
  | ok _ =>
    dsimp only
    rw [Running.simulation_unwatch.cycles limit p, Option.map_map, Option.map_map]
    congr 1
    funext ended
    exact conclude_unwatch ended.1 ended.2

end Mediator

end DaqStream
