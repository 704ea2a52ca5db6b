import DaqStream.Proofs.Pipeline.Course
import DaqStream.Proofs.Pipeline.Cycle

/-!
# A journal of a run

To say what a run read, what its filters let through, what its predicates said and what was
put into its sink, the four parts of a mediator are made to write down every call and its
answer. The filters and the predicates each become one part, so that the journal has what the
chain answered and what the predicates said together. Keeping the journal changes nothing else
(`runWithin_journaled`).
-/

namespace DaqStream

/-- One call of a part of a pipeline, and its answer. -/
inductive Entry where
  /-- The predicates were asked. -/
  | asked (point : Checkpoint) (verdict : Verdict)
  /-- The source was asked for a record. -/
  | read (result : Except PipelineError (Option Record))
  /-- The filters were handed a record. -/
  | filtered (r : Record) (result : Except PipelineError FilterOutput)
  /-- The sink was given a block. -/
  | put (block : Bytes) (result : Except PipelineError Unit)

/-- What the parts of a pipeline share, with a journal of the calls so far. -/
structure Journaled (ω : Type) where
  shared : ω
  entries : List Entry

/-- All filters of a mediator as one. -/
structure WholeChain (χ : Type) where
  members : List (Filter χ)

/-- All predicates of a mediator as one. -/
structure WholeGroup (π : Type) where
  members : List (Predicate π)

namespace Journaled

variable {ω σ κ χ π : Type}

/-- The journal with one more entry, after a step that shared something. -/
def note (w : Journaled ω) (entry : Entry) (shared : ω) : Journaled ω :=
  ⟨shared, w.entries ++ [entry]⟩

instance [RecordSource ω σ] : RecordSource (Journaled ω) σ where
  readOne s w :=
    match RecordSource.readOne s w.shared with
    | (result, s', shared) => (result, s', w.note (.read result) shared)

/-- Passing on what was written is no block. -/
instance [RecordSink ω κ] : RecordSink (Journaled ω) κ where
  put k block w :=
    match RecordSink.put k block w.shared with
    | (result, k', shared) => (result, k', w.note (.put block result) shared)
  putParts k parts w :=
    match RecordSink.putParts k parts w.shared with
    | (result, k', shared) => (result, k', w.note (.put parts.flatten result) shared)
  flush k w :=
    match RecordSink.flush k w.shared with
    | (result, k', shared) => (result, k', { w with shared })

instance [CustomFilter ω χ] : CustomFilter (Journaled ω) (WholeChain χ) where
  start f w :=
    match Filter.startAll f.members w.shared with
    | (result, members, shared) => (result, { members }, { w with shared })
  handle f r w :=
    match Filter.handleAll f.members r w.shared with
    | (result, members, shared) => (result, { members }, w.note (.filtered r result) shared)
  finish f w :=
    match Filter.finishAll f.members w.shared with
    | (result, members, shared) => (result, { members }, { w with shared })
  isComplete f w := Filter.anyComplete w.shared f.members

instance [CustomPredicate ω π] : CustomPredicate (Journaled ω) (WholeGroup π) where
  judge p point w :=
    match Predicate.judgeAll p.members point w.shared with
    | (verdict, members, shared) => (verdict, { members }, w.note (.asked point verdict) shared)
  reset p w :=
    match Predicate.resetAll p.members w.shared with
    | (members, shared) => ({ members }, { w with shared })

end Journaled

theorem RecordSink.put_journaled {ω κ : Type} [RecordSink ω κ] {k k' : κ} {block : Bytes}
    {shared shared' : ω} {result : Except PipelineError Unit} (entries : List Entry)
    (h : RecordSink.put k block shared = (result, k', shared')) :
    RecordSink.put k block (⟨shared, entries⟩ : Journaled ω) =
      (result, k', ⟨shared', entries ++ [.put block result]⟩) := by
  show (match RecordSink.put k block shared with
    | (result, k', shared) => (result, k', Journaled.note _ (.put block result) shared)) = _
  rw [h]
  rfl

namespace Mediator

variable {ω σ κ χ π : Type}

/-- The mediator with parts that keep a journal. -/
def journaled (m : Mediator σ κ χ π) : Mediator σ κ (WholeChain χ) (WholeGroup π) where
  source := m.source
  sink := m.sink
  filters := [.custom ⟨m.filters⟩]
  predicates := [.custom ⟨m.predicates⟩]
  state := m.state

end Mediator

namespace Running

variable {ω σ κ χ π : Type}

/-- The pipeline with parts that keep a journal, in which these entries stand. -/
def journaled (entries : List Entry) (p : Running ω σ κ χ π) :
    Running (Journaled ω) σ κ (WholeChain χ) (WholeGroup π) where
  mediator := p.mediator.journaled
  shared := ⟨p.shared, entries⟩
  tally := p.tally

variable [RecordSource ω σ] [RecordSink ω κ] [CustomFilter ω χ] [CustomPredicate ω π]
  {p q : Running ω σ κ χ π} {entries : List Entry} {r : Record}

section Steps

omit [RecordSource ω σ] [RecordSink ω κ] [CustomFilter ω χ] in
theorem ask_journaled {point : Checkpoint} {verdict : Verdict} (h : p.ask point = (verdict, q)) :
    (p.journaled entries).ask point =
      (verdict, q.journaled (entries ++ [.asked point verdict])) := by
  cases h
  unfold ask
  rcases hjudge : Predicate.judgeAll p.mediator.predicates point p.shared with
    ⟨verdict, predicates, shared⟩
  have hwhole : Predicate.judgeAll (p.journaled entries).mediator.predicates point
      (p.journaled entries).shared =
      (verdict, [.custom ⟨predicates⟩], ⟨shared, entries ++ [.asked point verdict]⟩) := by
    simp only [journaled, Mediator.journaled, Predicate.judgeAll, Predicate.judge,
      CustomPredicate.judge, hjudge, Journaled.note]
    cases verdict <;> rfl
  rw [hwhole]
  rfl

omit [RecordSink ω κ] [CustomFilter ω χ] [CustomPredicate ω π] in
theorem read_journaled {result : Except PipelineError (Option Record)} (h : p.read = (result, q)) :
    (p.journaled entries).read = (result, q.journaled (entries ++ [.read result])) := by
  cases h
  rfl

omit [RecordSource ω σ] [RecordSink ω κ] [CustomPredicate ω π] in
theorem filter_journaled {result : Except PipelineError FilterOutput} (h : p.filter r = (result, q)) :
    (p.journaled entries).filter r =
      (result, q.journaled (entries ++ [.filtered r result])) := by
  cases h
  unfold filter
  rcases hhandle : Filter.handleAll p.mediator.filters r p.shared with ⟨result, filters, shared⟩
  have hwhole : Filter.handleAll (p.journaled entries).mediator.filters r
      (p.journaled entries).shared =
      (result, [.custom ⟨filters⟩], ⟨shared, entries ++ [.filtered r result]⟩) := by
    simp only [journaled, Mediator.journaled, Filter.handleAll, Filter.handle,
      CustomFilter.handle, hhandle, Journaled.note]
    rcases result with _ | _ | _ | _ <;> rfl
  rw [hwhole]
  rfl

omit [RecordSource ω σ] [CustomFilter ω χ] [CustomPredicate ω π] in
theorem write_journaled {result : Except PipelineError Unit} (h : p.write r = (result, q)) :
    (p.journaled entries).write r = (result, q.journaled (entries ++ [.put r.encode result])) := by
  rcases hput : RecordSink.put p.mediator.sink r.encode p.shared with ⟨result', sink, shared⟩
  have hnoted := RecordSink.put_journaled entries hput
  cases result' with
  | error e =>
    rw [write_eq_of_error hput] at h
    cases h
    exact write_eq_of_error hnoted
  | ok _ =>
    rw [write_eq_of_ok hput] at h
    cases h
    exact write_eq_of_ok hnoted

/-! The same behind a page that has been begun. -/

variable {page : List Entry}

omit [RecordSource ω σ] [RecordSink ω κ] [CustomFilter ω χ] in
theorem ask_noted {point : Checkpoint} {verdict : Verdict} (h : p.ask point = (verdict, q)) :
    (p.journaled (entries ++ page)).ask point =
      (verdict, q.journaled (entries ++ (page ++ [.asked point verdict]))) := by
  rw [← List.append_assoc]
  exact ask_journaled h

omit [RecordSink ω κ] [CustomFilter ω χ] [CustomPredicate ω π] in
theorem read_noted {result : Except PipelineError (Option Record)} (h : p.read = (result, q)) :
    (p.journaled (entries ++ page)).read =
      (result, q.journaled (entries ++ (page ++ [.read result]))) := by
  rw [← List.append_assoc]
  exact read_journaled h

omit [RecordSource ω σ] [RecordSink ω κ] [CustomPredicate ω π] in
theorem filter_noted {result : Except PipelineError FilterOutput} (h : p.filter r = (result, q)) :
    (p.journaled (entries ++ page)).filter r =
      (result, q.journaled (entries ++ (page ++ [.filtered r result]))) := by
  rw [← List.append_assoc]
  exact filter_journaled h

omit [RecordSource ω σ] [CustomFilter ω χ] [CustomPredicate ω π] in
theorem write_noted {result : Except PipelineError Unit} (h : p.write r = (result, q)) :
    (p.journaled (entries ++ page)).write r =
      (result, q.journaled (entries ++ (page ++ [.put r.encode result]))) := by
  rw [← List.append_assoc]
  exact write_journaled h

omit [RecordSource ω σ] [RecordSink ω κ] [CustomPredicate ω π] in
theorem anyComplete_journaled (entries : List Entry) (p : Running ω σ κ χ π) :
    Filter.anyComplete (p.journaled entries).shared (p.journaled entries).mediator.filters =
      Filter.anyComplete p.shared p.mediator.filters := by
  show (Filter.anyComplete p.shared p.mediator.filters || false) = _
  rw [Bool.or_false]

omit [RecordSource ω σ] [RecordSink ω κ] [CustomPredicate ω π] in
theorem afterWrite_journaled (entries : List Entry) (p : Running ω σ κ χ π) :
    (p.journaled entries).afterWrite = p.afterWrite := by
  rw [afterWrite, afterWrite, anyComplete_journaled]

omit [RecordSource ω σ] [RecordSink ω κ] [CustomPredicate ω π] in
theorem conclude_journaled (entries : List Entry) (p : Running ω σ κ χ π) (last : Verdict) :
    (p.journaled entries).conclude last = p.conclude last := by
  rw [conclude, conclude, afterWrite_journaled]

end Steps

section Tally

omit [RecordSource ω σ] [RecordSink ω κ] [CustomFilter ω χ] in
theorem tally_of_ask {point : Checkpoint} {verdict : Verdict} (h : p.ask point = (verdict, q)) :
    q.tally = p.tally := by
  cases h
  rfl

omit [RecordSource ω σ] [RecordSink ω κ] [CustomFilter ω χ] in
theorem Opens.tally (h : Opens p q) : q.tally = p.tally := by
  rcases h with ⟨hask, -⟩
  exact tally_of_ask hask

omit [RecordSink ω κ] [CustomFilter ω χ] [CustomPredicate ω π] in
theorem tally_of_read {result : Except PipelineError (Option Record)} (h : p.read = (result, q)) :
    q.tally = p.tally := by
  cases h
  rfl

omit [RecordSink ω κ] [CustomFilter ω χ] in
theorem Takes.tally {verdict : Verdict} (h : Takes p r verdict q) :
    q.tally = { p.tally with read := p.tally.read + 1 } := by
  rcases h with ⟨hopens, hread, hask⟩
  rw [tally_of_ask hask, tally_of_read hread, hopens.tally]

omit [RecordSink ω κ] in
theorem Offers.tally {result : Except PipelineError FilterOutput} (h : Offers p r result q) :
    q.tally = { p.tally with read := p.tally.read + 1 } := by
  rcases h with ⟨htakes, hfilter⟩
  cases hfilter
  exact htakes.tally

omit [RecordSink ω κ] in
theorem Judges.tally {r' : Record} {before last : Verdict} (h : Judges p r r' before last q) :
    q.tally = { p.tally with read := p.tally.read + 1 } := by
  rcases h with ⟨hoffers, hbefore, -, hlast⟩
  rw [tally_of_ask hlast, tally_of_ask hbefore, hoffers.tally]

omit [RecordSource ω σ] [CustomFilter ω χ] [CustomPredicate ω π] in
theorem tally_of_write_ok (h : p.write r = (.ok (), q)) :
    q.tally = { p.tally with written := p.tally.written + 1 } := by
  rcases hput : RecordSink.put p.mediator.sink r.encode p.shared with ⟨_ | _, sink, shared⟩
  · rw [write_eq_of_error hput] at h
    cases h
  · rw [write_eq_of_ok hput] at h
    cases h
    rfl

omit [RecordSource ω σ] [CustomFilter ω χ] [CustomPredicate ω π] in
theorem tally_of_write_error {e : PipelineError} (h : p.write r = (.error e, q)) :
    q.tally = p.tally := by
  rcases hput : RecordSink.put p.mediator.sink r.encode p.shared with ⟨_ | _, sink, shared⟩
  · rw [write_eq_of_error hput] at h
    cases h
    rfl
  · rw [write_eq_of_ok hput] at h
    cases h

end Tally

section Prefixes

omit [RecordSource ω σ] [RecordSink ω κ] [CustomFilter ω χ] in
theorem Opens.journaled (h : Opens p q) (entries : List Entry) :
    ∃ first, Opens (p.journaled entries) (q.journaled (entries ++ [.asked .preInput first])) := by
  rcases h with ⟨hask, habort⟩
  exact ⟨_, .intro (ask_journaled hask) habort⟩

/-- The entries of a cycle up to what the predicates say of the record that was read. -/
def taking (first : Verdict) (r : Record) (verdict : Verdict) : List Entry :=
  [.asked .preInput first, .read (.ok (some r)), .asked (.postInput r.kind) verdict]

omit [RecordSink ω κ] [CustomFilter ω χ] in
theorem Takes.journaled {verdict : Verdict} (h : Takes p r verdict q) (entries : List Entry) :
    ∃ first, Takes (p.journaled entries) r verdict
      (q.journaled (entries ++ taking first r verdict)) := by
  rcases h with ⟨hopens, hread, hask⟩
  obtain ⟨first, hfirst⟩ := hopens.journaled entries
  exact ⟨first, .intro hfirst (read_noted hread) (ask_noted hask)⟩

/-- The entries of a cycle up to what the filters make of the record that was read. -/
def offering (first : Verdict) (r : Record) (result : Except PipelineError FilterOutput) :
    List Entry :=
  taking first r .proceed ++ [.filtered r result]

omit [RecordSink ω κ] in
theorem Offers.journaled {result : Except PipelineError FilterOutput} (h : Offers p r result q)
    (entries : List Entry) :
    ∃ first, Offers (p.journaled entries) r result
      (q.journaled (entries ++ offering first r result)) := by
  rcases h with ⟨htakes, hfilter⟩
  obtain ⟨first, hfirst⟩ := htakes.journaled entries
  exact ⟨first, .intro hfirst (filter_noted hfilter)⟩

/-- The entries of a cycle up to what the predicates say last. -/
def judging (first : Verdict) (r r' : Record) (before last : Verdict) : List Entry :=
  offering first r (.ok (.emit r')) ++
    [.asked (.preOutput r'.kind) before, .asked (.postOutput r'.kind) last]

omit [RecordSink ω κ] in
theorem Judges.journaled {r' : Record} {before last : Verdict} (h : Judges p r r' before last q)
    (entries : List Entry) :
    ∃ first, Judges (p.journaled entries) r r' before last
      (q.journaled (entries ++ judging first r r' before last)) := by
  rcases h with ⟨hoffers, hbefore, habort, hlast⟩
  obtain ⟨first, hfirst⟩ := hoffers.journaled entries
  have hjudges := Judges.intro hfirst (ask_noted hbefore) habort (ask_noted hlast)
  rw [List.append_assoc (offering _ _ _)] at hjudges
  exact ⟨first, hjudges⟩

end Prefixes

end Running

/-- How a cycle ends that nothing has stopped before the last checkpoint, when the filters
    have seen all they need or not. -/
def CycleEnd.after (complete : Bool) (last : Verdict) : CycleEnd :=
  if last = .abort then .stop .aborted else if complete then .stop .finished else .next

open Running in
/-- What a cycle writes into the journal: how it ends, with filters that are `complete` after
    it or not, the counts after it when they were `t` before, and its entries. -/
inductive Page (t : Tally) (complete : Bool) : CycleEnd → Tally → List Entry → Prop
  | closed : Page t complete (.stop .aborted) t [.asked .preInput .abort]
  | unreadable {first : Verdict} {e : PipelineError} :
      Page t complete (.fail e) t [.asked .preInput first, .read (.error e)]
  | exhausted {first : Verdict} :
      Page t complete (.stop .finished) t [.asked .preInput first, .read (.ok none)]
  | refused {first : Verdict} {r : Record} :
      Page t complete (.stop .aborted) { t with read := t.read + 1 } (taking first r .abort)
  | skipped {first : Verdict} {r : Record} :
      Page t complete .next { t with read := t.read + 1, skipped := t.skipped + 1 }
        (taking first r .skip)
  | failed {first : Verdict} {r : Record} {e : PipelineError} :
      Page t complete (.fail e) { t with read := t.read + 1 } (offering first r (.error e))
  | dropped {first : Verdict} {r : Record} :
      Page t complete (.after complete .proceed)
        { t with read := t.read + 1, dropped := t.dropped + 1 } (offering first r (.ok .drop))
  | flushed {first : Verdict} {r r' : Record} :
      Page t complete (.fail .abnormalEnd)
        { t with read := t.read + 1, written := t.written + 1 }
        (offering first r (.ok (.flush r')) ++ [.put r'.encode (.ok ())])
  | unflushed {first : Verdict} {r r' : Record} {e : PipelineError} :
      Page t complete (.fail e) { t with read := t.read + 1 }
        (offering first r (.ok (.flush r')) ++ [.put r'.encode (.error e)])
  | withheld {first : Verdict} {r r' : Record} :
      Page t complete (.stop .aborted) { t with read := t.read + 1 }
        (offering first r (.ok (.emit r')) ++ [.asked (.preOutput r'.kind) .abort])
  | passedOver {first before last : Verdict} {r r' : Record} :
      before ≠ .abort → before = .skip ∨ last = .skip →
      Page t complete (.after complete last)
        { t with read := t.read + 1, skipped := t.skipped + 1 } (judging first r r' before last)
  | written {first before last : Verdict} {r r' : Record} :
      before ≠ .abort → ¬ (before = .skip ∨ last = .skip) →
      Page t complete (.after complete last)
        { t with read := t.read + 1, written := t.written + 1 }
        (judging first r r' before last ++ [.put r'.encode (.ok ())])
  | unwritten {first before last : Verdict} {r r' : Record} {e : PipelineError} :
      before ≠ .abort → ¬ (before = .skip ∨ last = .skip) →
      Page t complete (.fail e) { t with read := t.read + 1 }
        (judging first r r' before last ++ [.put r'.encode (.error e)])

/-- What the cycles of a run write into the journal, page after page: how they end, and the
    counts at their end. -/
inductive Pages : Tally → Except PipelineError MediatorState → Tally → List Entry → Prop
  | stop {t t' : Tally} {complete : Bool} {state : MediatorState} {page : List Entry} :
      Page t complete (.stop state) t' page → Pages t (.ok state) t' page
  | fail {t t' : Tally} {complete : Bool} {e : PipelineError} {page : List Entry} :
      Page t complete (.fail e) t' page → Pages t (.error e) t' page
  | turn {t t' t'' : Tally} {complete : Bool} {outcome : Except PipelineError MediatorState}
      {page rest : List Entry} :
      Page t complete .next t' page → Pages t' outcome t'' rest →
      Pages t outcome t'' (page ++ rest)

/-- What a run with this result writes into the journal. -/
inductive RunJournal : Except PipelineError RunSummary → List Entry → Prop
  /-- The filters could not be prepared. -/
  | unprepared {e : PipelineError} : RunJournal (.error e) []
  | done {state : MediatorState} {t : Tally} {journal : List Entry} :
      Pages {} (.ok state) t journal → RunJournal (.ok { toTally := t, state }) journal
  | unclosed {state : MediatorState} {t : Tally} {journal : List Entry} {e : PipelineError} :
      Pages {} (.ok state) t journal → RunJournal (.error e) journal
  | broken {t : Tally} {journal : List Entry} {e : PipelineError} :
      Pages {} (.error e) t journal → RunJournal (.error e) journal

namespace Running

variable {ω σ κ χ π : Type} [RecordSource ω σ] [RecordSink ω κ] [CustomFilter ω χ]
  [CustomPredicate ω π] {p q : Running ω σ κ χ π}

/-- Whether a filter has seen all it needs. -/
def complete (p : Running ω σ κ χ π) : Bool :=
  Filter.anyComplete p.shared p.mediator.filters

omit [RecordSink ω κ] in
theorem Judges.ne_abort {r r' : Record} {before last : Verdict}
    (h : Judges p r r' before last q) : before ≠ .abort := by
  rcases h with ⟨-, -, habort, -⟩
  exact habort

/-- A cycle of the mediator that keeps a journal takes the same course, and writes a page of
    that course. -/
theorem Course.journaled {ending : CycleEnd} (h : Course p ending q) (entries : List Entry) :
    ∃ page, Course (p.journaled entries) ending (q.journaled (entries ++ page)) ∧
      Page p.tally q.complete ending q.tally page := by
  cases h with
  | closed hask =>
    refine ⟨_, .closed (ask_journaled hask), ?_⟩
    rw [tally_of_ask hask]
    exact .closed
  | unreadable hopens hread =>
    obtain ⟨first, hfirst⟩ := hopens.journaled entries
    refine ⟨_, .unreadable hfirst (read_noted hread), ?_⟩
    rw [tally_of_read hread, hopens.tally]
    exact .unreadable
  | exhausted hopens hread =>
    obtain ⟨first, hfirst⟩ := hopens.journaled entries
    refine ⟨_, .exhausted hfirst (read_noted hread), ?_⟩
    rw [tally_of_read hread, hopens.tally]
    exact .exhausted
  | refused htakes =>
    obtain ⟨first, hfirst⟩ := htakes.journaled entries
    refine ⟨_, .refused hfirst, ?_⟩
    rw [htakes.tally]
    exact .refused
  | skipped htakes =>
    obtain ⟨first, hfirst⟩ := htakes.journaled entries
    refine ⟨_, .skipped hfirst, ?_⟩
    rw [htakes.tally]
    exact .skipped
  | failed hoffers =>
    obtain ⟨first, hfirst⟩ := hoffers.journaled entries
    refine ⟨_, .failed hfirst, ?_⟩
    rw [hoffers.tally]
    exact .failed
  | @dropped r q hoffers =>
    obtain ⟨first, hfirst⟩ := hoffers.journaled entries
    have hcourse := Course.dropped hfirst
    rw [afterWrite_journaled] at hcourse
    refine ⟨_, hcourse, ?_⟩
    rw [hoffers.tally]
    exact .dropped
  | flushed hoffers hwrite =>
    obtain ⟨first, hfirst⟩ := hoffers.journaled entries
    refine ⟨_, .flushed hfirst (write_noted hwrite), ?_⟩
    rw [tally_of_write_ok hwrite, hoffers.tally]
    exact .flushed
  | unflushed hoffers hwrite =>
    obtain ⟨first, hfirst⟩ := hoffers.journaled entries
    refine ⟨_, .unflushed hfirst (write_noted hwrite), ?_⟩
    rw [tally_of_write_error hwrite, hoffers.tally]
    exact .unflushed
  | withheld hoffers hask =>
    obtain ⟨first, hfirst⟩ := hoffers.journaled entries
    refine ⟨_, .withheld hfirst (ask_noted hask), ?_⟩
    rw [tally_of_ask hask, hoffers.tally]
    exact .withheld
  | passedOver hjudges hskip =>
    obtain ⟨first, hfirst⟩ := hjudges.journaled entries
    have hcourse := Course.passedOver hfirst hskip
    rw [conclude_journaled] at hcourse
    refine ⟨_, hcourse, ?_⟩
    rw [hjudges.tally]
    exact .passedOver hjudges.ne_abort hskip
  | written hjudges hskip hwrite =>
    obtain ⟨first, hfirst⟩ := hjudges.journaled entries
    have hcourse := Course.written hfirst hskip (write_noted hwrite)
    rw [conclude_journaled] at hcourse
    refine ⟨_, hcourse, ?_⟩
    rw [tally_of_write_ok hwrite, hjudges.tally]
    exact .written hjudges.ne_abort hskip
  | unwritten hjudges hskip hwrite =>
    obtain ⟨first, hfirst⟩ := hjudges.journaled entries
    refine ⟨_, .unwritten hfirst hskip (write_noted hwrite), ?_⟩
    rw [tally_of_write_error hwrite, hjudges.tally]
    exact .unwritten hjudges.ne_abort hskip

theorem cycle_journaled {ending : CycleEnd} (h : p.cycle = (ending, q)) (entries : List Entry) :
    ∃ page, (p.journaled entries).cycle = (ending, q.journaled (entries ++ page)) ∧
      Page p.tally q.complete ending q.tally page := by
  obtain ⟨page, hcourse, hpage⟩ := (course_iff.2 h).journaled entries
  exact ⟨page, hcourse.cycle_eq, hpage⟩

theorem cycles_journaled {limit : Nat} {outcome : Except PipelineError MediatorState}
    (h : p.cycles limit = some (outcome, q)) (entries : List Entry) :
    ∃ pages, (p.journaled entries).cycles limit =
        some (outcome, q.journaled (entries ++ pages)) ∧
      Pages p.tally outcome q.tally pages := by
  induction limit generalizing p entries with
  | zero => cases h
  | succ limit ih =>
    unfold cycles at h ⊢
    rcases hcycle : p.cycle with ⟨ending, p₁⟩
    rw [hcycle] at h
    obtain ⟨page, hnoted, hpage⟩ := cycle_journaled hcycle entries
    rw [hnoted]
    cases ending with
    | next =>
      obtain ⟨rest, hrest, hpages⟩ := ih h (entries ++ page)
      rw [List.append_assoc] at hrest
      exact ⟨page ++ rest, hrest, .turn hpage hpages⟩
    | stop state =>
      cases h
      exact ⟨page, rfl, .stop hpage⟩
    | fail e =>
      cases h
      exact ⟨page, rfl, .fail hpage⟩

omit [RecordSource ω σ] [CustomPredicate ω π] in
theorem close_journaled (entries : List Entry) (p : Running ω σ κ χ π) :
    (p.journaled entries).close = (p.close.1, p.close.2.journaled entries) := by
  rcases hfinish : Filter.finishAll p.mediator.filters p.shared with ⟨closed, filters, shared⟩
  rcases hflush : RecordSink.flush p.mediator.sink shared with ⟨flushed, sink, shared'⟩
  have hwhole : Filter.finishAll (p.journaled entries).mediator.filters
      (p.journaled entries).shared = (closed, [.custom ⟨filters⟩], ⟨shared, entries⟩) := by
    simp only [journaled, Mediator.journaled, Filter.finishAll, Filter.finish,
      CustomFilter.finish, hfinish]
    cases closed <;> rfl
  have hpassed : RecordSink.flush (p.journaled entries).mediator.sink
      (⟨shared, entries⟩ : Journaled ω) = (flushed, sink, ⟨shared', entries⟩) := by
    show (match RecordSink.flush p.mediator.sink shared with
      | (result, k', shared) => (result, k', (⟨shared, entries⟩ : Journaled ω))) = _
    rw [hflush]
  rw [close_eq hfinish hflush, close_eq hwhole hpassed]
  rfl

end Running

namespace Mediator

variable {ω σ κ χ π : Type} [RecordSource ω σ] [RecordSink ω κ] [CustomFilter ω χ]
  [CustomPredicate ω π]

omit [RecordSource ω σ] [RecordSink ω κ] in
theorem start_journaled (m : Mediator σ κ χ π) (shared : ω) :
    m.journaled.start (⟨shared, []⟩ : Journaled ω) =
      ((m.start shared).1, (m.start shared).2.journaled []) := by
  rcases hreset : Predicate.resetAll m.predicates shared with ⟨predicates, shared₁⟩
  rcases hstart : Filter.startAll m.filters shared₁ with ⟨result, filters, shared₂⟩
  have hgroup : Predicate.resetAll m.journaled.predicates (⟨shared, []⟩ : Journaled ω) =
      ([.custom ⟨predicates⟩], ⟨shared₁, []⟩) := by
    simp only [journaled, Predicate.resetAll, Predicate.reset, CustomPredicate.reset, hreset]
  have hchain : Filter.startAll m.journaled.filters (⟨shared₁, []⟩ : Journaled ω) =
      (result, [.custom ⟨filters⟩], ⟨shared₂, []⟩) := by
    simp only [journaled, Filter.startAll, Filter.start, CustomFilter.start, hstart]
    cases result <;> rfl
  rw [Running.start_eq hreset hstart, Running.start_eq hgroup hchain]
  rfl

omit [RecordSource ω σ] [CustomPredicate ω π] in
theorem conclude_journaled (entries : List Entry) (outcome : Except PipelineError MediatorState)
    (p : Running ω σ κ χ π) :
    conclude outcome (p.journaled entries) =
      ((conclude outcome p).1, (conclude outcome p).2.1.journaled,
        ⟨(conclude outcome p).2.2, entries⟩) := by
  unfold conclude
  rw [Running.close_journaled]
  obtain ⟨closed, q⟩ := p.close
  cases closed <;> cases outcome <;> rfl

omit [RecordSource ω σ] [RecordSink ω κ] in
theorem tally_start (m : Mediator σ κ χ π) (shared : ω) : (m.start shared).2.tally = {} := by
  unfold start
  rfl

omit [RecordSource ω σ] [CustomPredicate ω π] in
theorem runJournal_conclude {outcome : Except PipelineError MediatorState}
    {p : Running ω σ κ χ π} {journal : List Entry} (h : Pages {} outcome p.tally journal) :
    RunJournal (conclude outcome p).1 journal := by
  cases outcome with
  | error e =>
    rw [conclude_error]
    exact .broken h
  | ok state =>
    have htally : p.close.2.tally = p.tally := by
      unfold Running.close
      rfl
    rcases hclose : p.close.1 with e | _
    · rw [conclude_ok_of_close_error hclose]
      exact .unclosed h
    · rw [conclude_ok_of_close_ok hclose, htally]
      exact .done h

section Runs

variable {m m' : Mediator σ κ χ π} {shared shared' : ω} {limit : Nat} {p q : Running ω σ κ χ π}

/-- A run whose filters cannot be prepared writes nothing into the journal. -/
theorem runWithin_journaled_unprepared {e : PipelineError} (h : m.start shared = (.error e, p)) :
    m.journaled.runWithin limit (⟨shared, []⟩ : Journaled ω) =
      some (.error e, { p.mediator with state := .aborted }.journaled, ⟨p.shared, []⟩) := by
  unfold runWithin
  rw [start_journaled, h]
  rfl

theorem runWithin_journaled_of_cycles {outcome : Except PipelineError MediatorState}
    (hstart : m.start shared = (.ok (), p)) (hcycles : p.cycles limit = some (outcome, q)) :
    ∃ journal, m.journaled.runWithin limit (⟨shared, []⟩ : Journaled ω) =
        some ((conclude outcome q).1, (conclude outcome q).2.1.journaled,
          ⟨(conclude outcome q).2.2, journal⟩) ∧
      Pages {} outcome q.tally journal := by
  obtain ⟨journal, hnoted, hpages⟩ := Running.cycles_journaled hcycles []
  have htally : p.tally = {} := by
    rw [← tally_start m shared, hstart]
  rw [htally] at hpages
  refine ⟨journal, ?_, hpages⟩
  unfold runWithin
  rw [start_journaled, hstart]
  dsimp only
  rw [hnoted]
  show some (conclude outcome (q.journaled ([] ++ journal))) = _
  rw [conclude_journaled]
  rfl

/-- A run of the mediator that keeps a journal is the run of the mediator itself, with the
    journal beside it. -/
theorem runWithin_journaled {result : Except PipelineError RunSummary}
    (h : m.runWithin limit shared = some (result, m', shared')) :
    ∃ journal, m.journaled.runWithin limit (⟨shared, []⟩ : Journaled ω) =
        some (result, m'.journaled, ⟨shared', journal⟩) ∧
      RunJournal result journal := by
  rcases runWithin_eq_some.1 h with ⟨e, p, hstart, hout⟩ | ⟨p, outcome, q, hstart, hcycles, hout⟩
  · cases hout
    exact ⟨[], runWithin_journaled_unprepared hstart, .unprepared⟩
  · obtain ⟨journal, hrun, hpages⟩ := runWithin_journaled_of_cycles hstart hcycles
    have hjournal := runJournal_conclude hpages
    rw [← hout] at hrun hjournal
    exact ⟨journal, hrun, hjournal⟩

end Runs

end Mediator

end DaqStream
