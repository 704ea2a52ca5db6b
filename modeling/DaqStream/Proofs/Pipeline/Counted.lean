import DaqStream.Proofs.Filter.KindCounts
import DaqStream.Proofs.Pipeline.Accounts

/-!
# What a counter in front of the sink has counted

A counter that is the last filter counts what the filters emit. Predicates that are built in say
nothing between the filters and the sink, so all of that is written, unless the run fails; and
after a run that ends well the table of the counter is the histogram of what was written
(`counts_handled_and_written`).
-/

namespace DaqStream

namespace KindCounts

/-- The table of a counter behind filters with this result. -/
def behind (t : KindCounts) : Except PipelineError FilterOutput → KindCounts
  | .ok (.emit r) => t.add r
  | _ => t

theorem behind_of_ne {result : Except PipelineError FilterOutput}
    (h : ∀ r, result ≠ .ok (.emit r)) (t : KindCounts) : t.behind result = t := by
  rcases result with _ | r | _ | _
  · rfl
  · exact absurd rfl (h r)
  · rfl
  · rfl

end KindCounts

namespace Filter

variable {ω χ : Type} [CustomFilter ω χ] {fs fs' : List (Filter χ)} {r : Record} {w w' : ω}
  {t : KindCounts} {result : Except PipelineError FilterOutput}

theorem exists_of_startAll_concat (h : startAll (fs ++ [kindCount t]) w = (.ok (), fs', w')) :
    ∃ front : List (Filter χ), fs' = front ++ [kindCount {}] := by
  rw [startAll_eq_passAlong] at h
  rcases hfront : passAlong (inTurn start) fs () w with ⟨_ | _, front, v⟩
  · rw [passAlong_append_of_error hfront] at h
    cases h
  · have hlast : passAlong (inTurn start) [(kindCount t : Filter χ)] () v =
        (.ok (), [kindCount {}], v) := rfl
    rw [passAlong_append_of_ok hfront hlast] at h
    cases h
    exact ⟨front, rfl⟩

/-- Closing leaves a table as it is, whether the filters in front of it can be closed or not. -/
theorem exists_finishAll_concat (fs : List (Filter χ)) (t : KindCounts) (w : ω) :
    ∃ front, (finishAll (fs ++ [kindCount t]) w).2.1 = front ++ [kindCount t] := by
  rw [finishAll_eq_passAlong]
  rcases hfront : passAlong (inTurn finish) fs () w with ⟨_ | _, front, v⟩
  · rw [passAlong_append_of_error hfront]
    exact ⟨front, rfl⟩
  · have hlast : passAlong (inTurn finish) [(kindCount t : Filter χ)] () v =
        (.ok (), [kindCount t], v) := rfl
    rw [passAlong_append_of_ok hfront hlast]
    exact ⟨front, rfl⟩

theorem Handed.handleAll_concat (h : Handed fs r w result fs' w') (t : KindCounts) :
    Filter.handleAll (fs ++ [kindCount t]) r w =
      (result, fs' ++ [kindCount (t.behind result)], w') := by
  cases h with
  | emitted h => exact h.handleAll_append rfl
  | decided hbefore h hresult =>
    rw [KindCounts.behind_of_ne hresult, List.append_assoc, List.append_assoc, List.cons_append,
      List.cons_append]
    exact hbefore.handleAll_append (handleAll_cons_of_ne h hresult _)

end Filter

namespace Predicate

variable {ω : Type} {point : Checkpoint}

theorem fst_afterReading_of_ne {α : Type} (h : ∀ kind, point ≠ .postInput kind)
    (judge : α → RecordKind → Verdict × α) (a : α) :
    (afterReading judge a point).1 = .proceed := by
  cases point with
  | postInput kind => exact absurd rfl (h kind)
  | _ => rfl

mutual
/-- A predicate that is built in says something only of a record that was just read. -/
theorem fst_judge_of_ne (h : ∀ kind, point ≠ .postInput kind) :
    ∀ (p : Predicate Empty) (w : ω), (judge p point w).1 = .proceed
  | .countWindow window, _ => fst_afterReading_of_ne h (fun c _ => CountWindow.judge c) window
  | .exclude kinds, _ => fst_afterReading_of_ne h judgeExcluded kinds
  | .sample sampling, _ => fst_afterReading_of_ne h Sampling.judge sampling
  | .group members, w => fst_judgeAll_of_ne h members w
  | .custom p, _ => nomatch p

theorem fst_judgeAll_of_ne (h : ∀ kind, point ≠ .postInput kind) :
    ∀ (ps : List (Predicate Empty)) (w : ω), (judgeAll ps point w).1 = .proceed
  | [], _ => rfl
  | p :: ps, w => by
    have hhead := fst_judge_of_ne h p w
    rw [judgeAll]
    rcases hjudge : judge p point w with ⟨verdict, p', w'⟩
    rw [hjudge] at hhead
    cases hhead
    exact fst_judgeAll_of_ne h ps w'
end

end Predicate

namespace Entry

/-- The record that the filters emitted. -/
def emitted? : Entry → Option Record
  | .filtered _ (.ok (.emit r)) => some r
  | _ => none

/-- Whether the predicates have said nothing, except of a record that was just read. -/
def LetsPass : Entry → Prop
  | .asked (.postInput _) _ => True
  | .asked _ verdict => verdict = .proceed
  | _ => True

end Entry

/-- The records that the filters emitted. -/
def emitted (journal : List Entry) : List Record := journal.filterMap Entry.emitted?

theorem emitted_append (entries entries' : List Entry) :
    emitted (entries ++ entries') = emitted entries ++ emitted entries' :=
  List.filterMap_append

theorem emitted_concat_of_none {entry : Entry} (h : entry.emitted? = none) (entries : List Entry) :
    emitted (entries ++ [entry]) = emitted entries := by
  rw [emitted_append, emitted, emitted, List.filterMap_cons_none h, List.filterMap_nil,
    List.append_nil]

theorem ofRecords_emitted_concat (entries : List Entry) (r : Record)
    (result : Except PipelineError FilterOutput) :
    KindCounts.ofRecords (emitted (entries ++ [.filtered r result])) =
      (KindCounts.ofRecords (emitted entries)).behind result := by
  rcases result with _ | r' | _ | _
  · rw [emitted_concat_of_none rfl]
    rfl
  · rw [emitted_append]
    exact KindCounts.ofRecords_concat (emitted entries) r'
  · rw [emitted_concat_of_none rfl]
    rfl
  · rw [emitted_concat_of_none rfl]
    rfl

section Pages

open Running

variable {t t' : Tally} {complete : Bool} {ending : CycleEnd} {state : MediatorState}
  {outcome : Except PipelineError MediatorState} {page journal : List Entry}

theorem Page.emitted_eq_cleared (h : Page t complete ending t' page)
    (hgoes : ∀ e, ending ≠ .fail e) (hpass : ∀ entry ∈ page, entry.LetsPass) :
    emitted page = cleared page := by
  cases h with
  | closed => rfl
  | unreadable => exact absurd rfl (hgoes _)
  | exhausted => rfl
  | refused => rfl
  | skipped => rfl
  | failed => exact absurd rfl (hgoes _)
  | dropped => rfl
  | flushed => exact absurd rfl (hgoes _)
  | unflushed => exact absurd rfl (hgoes _)
  | @withheld first r r' =>
    have hproceed : Verdict.abort = .proceed :=
      hpass (.asked (.preOutput r'.kind) .abort) (List.mem_append_right _ List.mem_cons_self)
    cases hproceed
  | @passedOver first before last r r' habort hskip =>
    have hbefore : before = .proceed :=
      hpass (.asked (.preOutput r'.kind) before) (List.mem_append_right _ List.mem_cons_self)
    have hlast : last = .proceed :=
      hpass (.asked (.postOutput r'.kind) last) (List.mem_append_right _
        (List.mem_cons_of_mem _ List.mem_cons_self))
    rw [hbefore, hlast] at hskip
    simp at hskip
  | @written first before last r r' habort hskip =>
    rw [cleared_judging habort, if_neg hskip]
    rfl
  | unwritten => exact absurd rfl (hgoes _)

theorem Pages.emitted_eq_cleared (h : Pages t outcome t' journal) (hends : outcome = .ok state)
    (hpass : ∀ entry ∈ journal, entry.LetsPass) : emitted journal = cleared journal := by
  induction h with
  | stop hpage => exact hpage.emitted_eq_cleared (by simp) hpass
  | fail => cases hends
  | turn hpage _ ih =>
    obtain ⟨hfirst, hrest⟩ := List.forall_mem_append.1 hpass
    rw [emitted_append, hpage.cleared_append rfl, ih hends hrest,
      hpage.emitted_eq_cleared (by simp) hfirst]

end Pages

namespace Running

variable {ω σ κ χ : Type} {p : Running ω σ κ χ Empty} {entries : List Entry}
  {front : List (Filter χ)}

/-- The last filter is a counter of what the filters emitted since the journal was begun, and no
    predicate has said anything between the filters and the sink. -/
def CountsEmitted (q : Running (Journaled ω) σ κ (WholeChain χ) (WholeGroup Empty)) : Prop :=
  ∃ (p : Running ω σ κ χ Empty) (entries : List Entry) (front : List (Filter χ)),
    q = p.journaled entries ∧
      p.mediator.filters = front ++ [.kindCount (.ofRecords (emitted entries))] ∧
      ∀ entry ∈ entries, entry.LetsPass

/-- An entry of which the filters know nothing. -/
theorem countsEmitted_of_none {entry : Entry}
    (hfilters : p.mediator.filters = front ++ [.kindCount (.ofRecords (emitted entries))])
    (hpass : ∀ entry ∈ entries, entry.LetsPass) (hnone : entry.emitted? = none)
    (hentry : entry.LetsPass) : CountsEmitted (p.journaled (entries ++ [entry])) := by
  refine ⟨p, _, front, rfl, ?_, List.forall_mem_append.2 ⟨hpass, List.forall_mem_singleton.2 hentry⟩⟩
  rw [emitted_concat_of_none hnone]
  exact hfilters

theorem letsPass_ask (p : Running ω σ κ χ Empty) (point : Checkpoint) :
    Entry.LetsPass (.asked point (p.ask point).1) := by
  have hproceed (hpoint : ∀ kind, point ≠ .postInput kind) : (p.ask point).1 = .proceed :=
    Predicate.fst_judgeAll_of_ne hpoint p.mediator.predicates p.shared
  cases point with
  | postInput kind => trivial
  | preInput => exact hproceed (by simp)
  | preOutput kind => exact hproceed (by simp)
  | postOutput kind => exact hproceed (by simp)

variable [RecordSource ω σ] [RecordSink ω κ] [CustomFilter ω χ]

theorem preserved_countsEmitted :
    Preserved (CountsEmitted (ω := ω) (σ := σ) (κ := κ) (χ := χ)) where
  ask point := by
    rintro ⟨p, entries, front, rfl, hfilters, hpass⟩
    rw [ask_journaled (q := (p.ask point).2) rfl]
    exact countsEmitted_of_none hfilters hpass rfl (letsPass_ask p point)
  read := by
    rintro _ ⟨p, entries, front, rfl, hfilters, hpass⟩
    rw [read_journaled (q := p.read.2) rfl]
    exact countsEmitted_of_none hfilters hpass rfl trivial
  filter r := by
    rintro ⟨p, entries, front, rfl, hfilters, hpass⟩
    rcases hfront : Filter.handleAll front r p.shared with ⟨result, front', shared⟩
    have hhandle := (Filter.handleAll_eq_iff.1 hfront).handleAll_concat (.ofRecords (emitted entries))
    rw [← hfilters] at hhandle
    rw [filter_journaled (filter_eq hhandle)]
    refine ⟨_, _, front', rfl, ?_,
      List.forall_mem_append.2 ⟨hpass, List.forall_mem_singleton.2 trivial⟩⟩
    rw [ofRecords_emitted_concat]
  write r := by
    rintro ⟨p, entries, front, rfl, hfilters, hpass⟩
    rw [write_journaled (q := (p.write r).2) rfl]
    have hsame : (p.write r).2.mediator.filters = p.mediator.filters := by
      rw [write]
      split <;> rfl
    exact countsEmitted_of_none (hsame.trans hfilters) hpass rfl trivial
  count tally := by
    rintro ⟨p, entries, front, rfl, hfilters, hpass⟩
    exact ⟨{ p with tally }, entries, front, rfl, hfilters, hpass⟩

end Running

namespace Mediator

open Running

variable {ω σ κ χ : Type} [RecordSource ω σ] [RecordSink ω κ] [CustomFilter ω χ]
  {m m' : Mediator σ κ χ Empty} {shared shared' : ω} {front : List (Filter χ)} {t : KindCounts}

omit [RecordSource ω σ] [RecordSink ω κ] in
theorem countsEmitted_start (hfilters : m.filters = front ++ [.kindCount t])
    (hstarts : (m.start shared).1 = .ok ()) :
    CountsEmitted ((m.start shared).2.journaled []) := by
  rcases hreset : Predicate.resetAll m.predicates shared with ⟨predicates, shared₁⟩
  rcases hprepared : Filter.startAll m.filters shared₁ with ⟨result, filters, shared₂⟩
  rw [start_eq hreset hprepared] at hstarts ⊢
  cases hstarts
  rw [hfilters] at hprepared
  obtain ⟨front', rfl⟩ := Filter.exists_of_startAll_concat hprepared
  exact ⟨_, [], front', rfl, rfl, by simp⟩

omit [RecordSource ω σ] in
theorem exists_filters_conclude {p : Running ω σ κ χ Empty}
    (hfilters : p.mediator.filters = front ++ [.kindCount t])
    (outcome : Except PipelineError MediatorState) :
    ∃ front', (conclude outcome p).2.1.filters = front' ++ [.kindCount t] := by
  obtain ⟨front', hfinish⟩ := Filter.exists_finishAll_concat front t p.shared
  rw [← hfilters] at hfinish
  have hclose : p.close.2.mediator.filters = front' ++ [.kindCount t] := hfinish
  refine ⟨front', ?_⟩
  unfold conclude
  generalize p.close = ended at hclose
  obtain ⟨closed, q⟩ := ended
  cases closed <;> cases outcome <;> exact hclose

/-- After a run that ends well, the counter behind all other filters has counted what was
    written. -/
theorem counts_cleared (hfilters : m.filters = front ++ [.kindCount t]) {limit : Nat}
    {summary : RunSummary} (hrun : m.runWithin limit shared = some (.ok summary, m', shared')) :
    ∃ (journal : List Entry) (front' : List (Filter χ)),
      m.journaled.runWithin limit (⟨shared, []⟩ : Journaled ω) =
        some (.ok summary, m'.journaled, ⟨shared', journal⟩) ∧
      summary.Accounted journal ∧
      m'.filters = front' ++ [.kindCount (.ofRecords (cleared journal))] := by
  obtain ⟨journal, hjournaled, hjournal⟩ := runWithin_journaled hrun
  cases hjournal with
  | @done state tally journal hpages =>
    rcases runWithin_eq_some.1 hjournaled with ⟨e, q₁, -, hout⟩ |
      ⟨q₁, outcome, q₂, hstart, hcycles, hout⟩
    · cases hout
    rw [start_journaled] at hstart
    obtain ⟨hstarts, rfl⟩ := Prod.mk.inj hstart
    obtain ⟨q, entries, front', rfl, hlast, hpass⟩ :=
      preserved_countsEmitted.cycles (countsEmitted_start hfilters hstarts) hcycles
    rw [conclude_journaled] at hout
    simp only [Prod.mk.injEq, Journaled.mk.injEq] at hout
    obtain ⟨-, hmediator, -, rfl⟩ := hout
    have hsame : m'.filters = (conclude outcome q).2.1.filters := by
      have hwhole := congrArg Mediator.filters hmediator
      simpa [journaled] using hwhole
    obtain ⟨front'', hconclude⟩ := exists_filters_conclude hlast outcome
    rw [hpages.emitted_eq_cleared rfl hpass] at hconclude
    exact ⟨journal, front'', hjournaled, hpages.accounted, hsame.trans hconclude⟩

/-- A counter counts. Since it was started last, its table is the histogram of the records that it
    was handed, in whatever order, and if there are less than 2^64 of them no count needs more than
    64 bits. When it is the last filter of a mediator whose predicates are built in, and a run ends
    well, that are the records which were written in the run. -/
theorem counts_handled_and_written :
    (∀ (t : KindCounts) (requests : List Filter.Request) (w : ω), .start ∉ requests →
      (Filter.handled requests).length < 2 ^ 64 →
      ∃ (replies : List Filter.Reply) (t' : KindCounts),
        calls Filter.call (.kindCount t : Filter χ) (.start :: requests) w =
          (replies, .kindCount t', w) ∧
        t'.Histogram (Filter.handled requests) ∧
        (∀ a ∈ t'.cells, a.2 < 2 ^ 64) ∧ (∀ kind, t'.total kind < 2 ^ 64) ∧
        ∀ requests' : List Filter.Request, .start ∉ requests' →
          (Filter.handled requests').Perm (Filter.handled requests) →
          ∃ replies' : List Filter.Reply,
            calls Filter.call (.kindCount t : Filter χ) (.start :: requests') w =
              (replies', .kindCount t', w)) ∧
    (∀ (m m' : Mediator σ κ χ Empty) (shared shared' : ω) (front : List (Filter χ))
      (t : KindCounts) (limit : Nat) (summary : RunSummary),
      m.filters = front ++ [.kindCount t] →
      m.runWithin limit shared = some (.ok summary, m', shared') →
      ∃ (journal : List Entry) (front' : List (Filter χ)) (t' : KindCounts),
        m.journaled.runWithin limit (⟨shared, []⟩ : Journaled ω) =
          some (.ok summary, m'.journaled, ⟨shared', journal⟩) ∧
        blocks journal = (cleared journal).map Record.encode ∧
        summary.written = (cleared journal).length ∧
        m'.filters = front' ++ [.kindCount t'] ∧
        t'.Histogram (cleared journal)) := by
  constructor
  · intro t requests w hstart hlength
    have hhistogram := KindCounts.histogram_ofRecords (Filter.handled requests)
    obtain ⟨hcells, htotals⟩ := hhistogram.le_length
    obtain ⟨replies, hcalls⟩ := Filter.calls_kindCount_of_start (χ := χ) hstart t w
    refine ⟨replies, _, hcalls, hhistogram, ?_, ?_, ?_⟩
    · intro a ha
      exact Nat.lt_of_le_of_lt (hcells a ha) hlength
    · intro kind
      exact Nat.lt_of_le_of_lt (htotals kind) hlength
    · intro requests' hstart' hperm
      rw [← KindCounts.ofRecords_perm hperm]
      exact Filter.calls_kindCount_of_start hstart' t w
  · intro m m' shared shared' front t limit summary hfilters hrun
    obtain ⟨journal, front', hjournaled, haccounted, hlast⟩ := counts_cleared hfilters hrun
    refine ⟨journal, front', _, hjournaled, haccounted.cleared, ?_, hlast,
      KindCounts.histogram_ofRecords (cleared journal)⟩
    rw [haccounted.written, haccounted.cleared, List.length_map]

/-- A run of two events, with a pause and an event that are not written, and a counter behind the
    barrier. -/
def counted : Mediator MemorySource MemorySink Empty Empty where
  source := { records := [
    .physicsEvent .v12 none [1],
    .assemble .v12 none (.stateChange { kind := .beginRun, runNumber := 7 }),
    .physicsEvent .v12 (some ⟨0, 3, 0⟩) [1, 2],
    .assemble .v12 none (.stateChange { kind := .pauseRun, runNumber := 7 }),
    .physicsEvent .v12 (some ⟨1, 3, 0⟩) [3, 4],
    .assemble .v12 none (.stateChange { kind := .endRun, runNumber := 7 })] }
  sink := {}
  filters := [.oneShot (.ofRunTransitions 1), .kindCount {}]
  predicates := [.group [.exclude [.pauseRun]]]

/-- What the run of `counted` reports. -/
def countedSummary : RunSummary where
  read := 6
  written := 4
  dropped := 1
  skipped := 1
  state := .finished

theorem counts_handled_and_written_counted :
    (∃ (replies : List Filter.Reply) (t' : KindCounts),
      calls Filter.call (.kindCount {} : Filter Empty)
        (.start :: counted.source.records.map .handle) () = (replies, .kindCount t', ()) ∧
      t'.Histogram counted.source.records ∧ t'.count (some 3) .physicsEvent = 2) ∧
    ∃ (m' : Mediator MemorySource MemorySink Empty Empty) (journal : List Entry)
      (front' : List (Filter Empty)) (t' : KindCounts),
      counted.runWithin 7 () = some (.ok countedSummary, m', ()) ∧
      (cleared journal).length = 4 ∧ m'.filters = front' ++ [.kindCount t'] ∧
      t'.Histogram (cleared journal) := by
  obtain ⟨hhandled, hwritten⟩ :=
    counts_handled_and_written (ω := Unit) (σ := MemorySource) (κ := MemorySink) (χ := Empty)
  constructor
  · obtain ⟨replies, t', hcalls, hhistogram, -, -, -⟩ :=
      hhandled {} (counted.source.records.map .handle) () (by simp) (by decide)
    exact ⟨replies, t', hcalls, hhistogram, (hhistogram.count (some 3) .physicsEvent).trans rfl⟩
  · have hresult : (counted.runWithin 7 ()).map (fun out => out.1.toOption) =
        some (some countedSummary) := by
      decide +kernel
    obtain ⟨⟨result, m', shared'⟩, hrun, hsummary⟩ := Option.map_eq_some_iff.1 hresult
    cases result with
    | error e => cases hsummary
    | ok summary =>
      cases hsummary
      obtain ⟨journal, front', t', -, -, hlength, hlast, hhistogram⟩ :=
        hwritten counted m' () shared' [.oneShot (.ofRunTransitions 1)] {} 7 _ rfl hrun
      exact ⟨m', journal, front', t', hrun, hlength.symm, hlast, hhistogram⟩

end Mediator

end DaqStream
