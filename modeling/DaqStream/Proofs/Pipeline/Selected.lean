import DaqStream.Proofs.Pipeline.Course
import DaqStream.Proofs.Pipeline.Cycle
import DaqStream.Proofs.Pipeline.Passive
import DaqStream.Proofs.Predicate.Selection

/-!
# Selecting records

A pipeline between memory and memory whose predicates are an exclusion, a sampling and a
window writes the records that the three select, if its filters let everything through. At
every position the pipeline has written what is selected of the records before it
(`SelectedTo`); the run ends at the end of the records or where the window closes.
-/

namespace DaqStream

variable {ω χ π : Type}

namespace Filter

variable [CustomFilter ω χ]

/-- Filters, and what is shared, after they were handed these records. -/
def afterAll (rs : List Record) (s : List (Filter χ) × ω) : List (Filter χ) × ω :=
  rs.foldl (fun s r => (handleAll s.1 r s.2).2) s

theorem afterAll_append (rs rs' : List Record) (s : List (Filter χ) × ω) :
    afterAll (rs ++ rs') s = afterAll rs' (afterAll rs s) :=
  List.foldl_append

/-- The filters emit every record unchanged, whatever they were handed before. -/
def EmitsAll (s : List (Filter χ) × ω) : Prop :=
  ∀ (rs : List Record) (r : Record),
    (handleAll (afterAll rs s).1 r (afterAll rs s).2).1 = .ok (.emit r)

/-- The filters never report that they have seen all they need. -/
def NeverComplete (s : List (Filter χ) × ω) : Prop :=
  ∀ rs : List Record, anyComplete (afterAll rs s).2 (afterAll rs s).1 = false

/-- The filters can be closed, whatever they were handed. -/
def Finishes (s : List (Filter χ) × ω) : Prop :=
  ∀ rs : List Record, (finishAll (afterAll rs s).1 (afterAll rs s).2).1 = .ok ()

/-- Onlookers stay onlookers, and share nothing. -/
theorem afterAll_of_passive {fs : List (Filter χ)} (h : ∀ f ∈ fs, f.Passive) (rs : List Record)
    (w : ω) : ∃ fs', afterAll rs (fs, w) = (fs', w) ∧ ∀ f ∈ fs', f.Passive := by
  induction rs generalizing fs with
  | nil => exact ⟨fs, rfl, h⟩
  | cons r rs ih =>
    obtain ⟨fs₁, hhandle, hpassive⟩ := handleAll_of_forall fun f hf => (h f hf).handle r w
    obtain ⟨fs₂, hrest, hlast⟩ := ih hpassive
    refine ⟨fs₂, ?_, hlast⟩
    show afterAll rs (handleAll fs r w).2 = _
    rw [hhandle]
    exact hrest

theorem emitsAll_of_passive {fs : List (Filter χ)} (h : ∀ f ∈ fs, f.Passive) (w : ω) :
    EmitsAll (fs, w) := by
  intro rs r
  obtain ⟨fs', hafter, hpassive⟩ := afterAll_of_passive h rs w
  obtain ⟨_, hhandle, -⟩ := handleAll_of_forall fun f hf => (hpassive f hf).handle r w
  rw [hafter, hhandle]

theorem neverComplete_of_passive {fs : List (Filter χ)} (h : ∀ f ∈ fs, f.Passive) (w : ω) :
    NeverComplete (fs, w) := by
  intro rs
  obtain ⟨fs', hafter, hpassive⟩ := afterAll_of_passive h rs w
  rw [hafter]
  exact anyComplete_of_forall fun f hf => (hpassive f hf).isComplete w

theorem finishes_of_passive {fs : List (Filter χ)} (h : ∀ f ∈ fs, f.Passive) (w : ω) :
    Finishes (fs, w) := by
  intro rs
  obtain ⟨fs', hafter, hpassive⟩ := afterAll_of_passive h rs w
  obtain ⟨_, hfinish, -⟩ := finishAll_of_forall fun f hf => (hpassive f hf).finish w
  rw [hafter, hfinish]

end Filter

namespace Selection

/-- The state in which a run ends. -/
def endState (c : Selection) (rs : List Record) : MediatorState :=
  if 0 < c.window.toProcess ∧ c.window.toSkip + c.window.toProcess < rs.length then .aborted
  else .finished

variable {c : Selection} {rs : List Record} {n : Nat}

/-- A window that does not close lets the run go on to the end of the records. -/
theorem reads_of_open (h : ∀ j < rs.length, ¬ c.window.Closes j) :
    c.reads rs = rs.length ∧ c.endState rs = .finished := by
  have hopen : c.window.toProcess = 0 ∨ rs.length ≤ c.window.toSkip + c.window.toProcess := by
    by_cases hlt : c.window.toSkip + c.window.toProcess < rs.length
    · have hnot := h _ hlt
      unfold CountWindow.Closes at hnot
      omega
    · omega
  have hnever : ¬ (0 < c.window.toProcess ∧
      c.window.toSkip + c.window.toProcess < rs.length) := by
    omega
  unfold reads endState
  rw [if_neg hnever]
  refine ⟨?_, rfl⟩
  split
  · rfl
  · omega

/-- The record at which a window closes is the last that is read. -/
theorem reads_of_closes (h : c.window.Closes n) (hlt : n < rs.length)
    (hfirst : ∀ j < n, ¬ c.window.Closes j) :
    c.reads rs = n + 1 ∧ c.endState rs = .aborted := by
  rcases h with ⟨hpos, hle⟩
  have hexact : c.window.toSkip + c.window.toProcess = n := by
    apply Nat.le_antisymm hle
    apply Nat.le_of_not_lt
    intro hbefore
    exact hfirst _ hbefore ⟨hpos, Nat.le_refl _⟩
  unfold reads endState
  rw [if_neg (by omega), if_pos (by omega)]
  exact ⟨by omega, rfl⟩

end Selection

namespace Running

/-- The pipeline has read `n` records and written what is selected of them. -/
structure SelectedTo [CustomFilter ω χ] (c : Selection) (rs : List Record)
    (s : List (Filter χ) × ω) (blocks : List Bytes) (n : Nat)
    (p : Running ω MemorySource MemorySink χ π) : Prop where
  source : p.mediator.source.records = rs.drop n
  predicates : c.Stands rs n p.mediator.predicates
  filters : (p.mediator.filters, p.shared) = Filter.afterAll (c.keptOf rs n) s
  sink : p.mediator.sink.blocks.toList = blocks ++ (c.keptOf rs n).map Record.encode
  read : p.tally.read = n
  written : p.tally.written = (c.keptOf rs n).length
  dropped : p.tally.dropped = 0

variable [CustomFilter ω χ] [CustomPredicate ω π] {p q : Running ω MemorySource MemorySink χ π}
  {c : Selection} {rs : List Record} {s : List (Filter χ) × ω} {blocks : List Bytes} {n : Nat}
  {r : Record}

namespace SelectedTo

theorem opens (h : SelectedTo c rs s blocks n p) : Opens p p :=
  .intro (ask_eq (h.predicates.judgeAll_of_ne (by simp) p.shared)) (by simp)

theorem cycle_at_end (h : SelectedTo c rs s blocks rs.length p) :
    ∃ q, p.cycle = (.stop .finished, q) ∧ SelectedTo c rs s blocks rs.length q := by
  have hread := MemorySource.recordSource_readOne_of_nil
    (h.source.trans List.drop_length) p.shared
  have hcourse := Course.exhausted h.opens (read_eq hread)
  exact ⟨_, hcourse.cycle_eq, h.source, h.predicates, h.filters, h.sink, h.read, h.written,
    h.dropped⟩

/-- The next record is read, and the predicates say this of it. -/
theorem takes {verdict : Verdict} {predicates : List (Predicate π)}
    (h : SelectedTo c rs s blocks n p) (hr : rs[n]? = some r)
    (hjudge : Predicate.judgeAll p.mediator.predicates (.postInput r.kind) p.shared =
      (verdict, predicates, p.shared)) :
    Takes p r verdict
      { p with
        mediator := { p.mediator with
          source := { p.mediator.source with records := rs.drop (n + 1) }, predicates }
        tally := { p.tally with read := p.tally.read + 1 } } := by
  have hread := MemorySource.recordSource_readOne_of_getElem? h.source hr p.shared
  exact .intro h.opens (read_eq hread) (ask_eq hjudge)

/-- Where the window closes, one record more is read. -/
theorem cycle_of_closes (h : SelectedTo c rs s blocks n p) (hr : rs[n]? = some r)
    (hcloses : c.window.Closes n) :
    ∃ q, p.cycle = (.stop .aborted, q) ∧
      (q.mediator.filters, q.shared) = Filter.afterAll (c.keptOf rs n) s ∧
      q.mediator.sink = p.mediator.sink ∧
      q.tally = { p.tally with read := p.tally.read + 1 } := by
  obtain ⟨ps, hjudge⟩ := h.predicates.judgeAll_of_closes hcloses r.kind p.shared
  exact ⟨_, (h.takes hr hjudge).cycle_eq, h.filters, rfl, rfl⟩

/-- A record that is not selected is read and counted, and no more. -/
theorem cycle_of_not_keeps (h : SelectedTo c rs s blocks n p) (hr : rs[n]? = some r)
    (hopen : ¬ c.window.Closes n) (hkeeps : ¬ c.Keeps rs n r) :
    ∃ q, p.cycle = (.next, q) ∧ SelectedTo c rs s blocks (n + 1) q := by
  obtain ⟨ps, hjudge, hstands⟩ := h.predicates.judgeAll hopen hr p.shared
  rw [if_neg hkeeps] at hjudge
  have hkept : c.keptOf rs (n + 1) = c.keptOf rs n := by
    rw [Selection.keptOf_succ hr, if_neg hkeeps, List.append_nil]
  refine ⟨_, (h.takes hr hjudge).cycle_eq, rfl, hstands, ?_, ?_, congrArg (· + 1) h.read, ?_,
    h.dropped⟩
  · rw [hkept]
    exact h.filters
  · rw [hkept]
    exact h.sink
  · rw [hkept]
    exact h.written

/-- A record that is selected goes through the filters and is written. -/
theorem cycle_of_keeps (h : SelectedTo c rs s blocks n p) (hr : rs[n]? = some r)
    (hopen : ¬ c.window.Closes n) (hkeeps : c.Keeps rs n r) (hemits : Filter.EmitsAll s)
    (hcomplete : Filter.NeverComplete s) :
    ∃ q, p.cycle = (.next, q) ∧ SelectedTo c rs s blocks (n + 1) q := by
  obtain ⟨ps, hjudge, hstands⟩ := h.predicates.judgeAll hopen hr p.shared
  rw [if_pos hkeeps] at hjudge
  have hkept : c.keptOf rs (n + 1) = c.keptOf rs n ++ [r] := by
    rw [Selection.keptOf_succ hr, if_pos hkeeps]
  -- The filters handle the record as they do after all that was selected before it.
  rcases hall : Filter.handleAll p.mediator.filters r p.shared with ⟨result, filters, shared⟩
  have hresult : result = .ok (.emit r) := by
    have hemit := hemits (c.keptOf rs n) r
    rw [← h.filters, hall] at hemit
    exact hemit
  have hafter : (filters, shared) = Filter.afterAll (c.keptOf rs (n + 1)) s := by
    rw [hkept, Filter.afterAll_append, ← h.filters]
    show _ = (Filter.handleAll p.mediator.filters r p.shared).2
    rw [hall]
  have hincomplete := hcomplete (c.keptOf rs (n + 1))
  rw [← hafter] at hincomplete
  subst hresult
  have hoffers := Offers.intro (h.takes hr hjudge) (filter_eq hall)
  have hquiet : ∀ {p' : Running ω MemorySource MemorySink χ π} {point : Checkpoint},
      c.Stands rs (n + 1) p'.mediator.predicates → (∀ kind, point ≠ .postInput kind) →
      p'.ask point = (.proceed, p') := by
    intro p' point hp hpoint
    exact ask_eq (hp.judgeAll_of_ne hpoint p'.shared)
  have hjudges := Judges.intro hoffers (hquiet hstands (by simp)) (by simp)
    (hquiet hstands (by simp))
  have hcycle := (Course.written hjudges (by simp) (write_eq_of_ok rfl)).cycle_eq
  simp only [conclude, afterWrite, hincomplete, reduceCtorEq, Bool.false_eq_true, if_false]
    at hcycle
  refine ⟨_, hcycle, rfl, hstands, hafter, ?_, congrArg (· + 1) h.read, ?_, h.dropped⟩
  · show (p.mediator.sink.blocks.push r.encode).toList = _
    rw [Array.toList_push, h.sink, hkept, List.map_append, List.append_assoc]
    rfl
  · show p.tally.written + 1 = _
    rw [h.written, hkept, List.length_append]
    rfl

end SelectedTo

/-- The pipeline has written what is selected of all records. -/
structure Selected (c : Selection) (rs : List Record) (s : List (Filter χ) × ω)
    (blocks : List Bytes) (p : Running ω MemorySource MemorySink χ π) : Prop where
  filters : (p.mediator.filters, p.shared) = Filter.afterAll (c.kept rs) s
  sink : p.mediator.sink.blocks.toList = blocks ++ (c.kept rs).map Record.encode
  read : p.tally.read = c.reads rs
  written : p.tally.written = (c.kept rs).length
  dropped : p.tally.dropped = 0

/-- From every position the cycles go on to the end of the records, or to where the window
    closes. -/
theorem SelectedTo.cycles {limit : Nat} (hemits : Filter.EmitsAll s)
    (hcomplete : Filter.NeverComplete s) (h : SelectedTo c rs s blocks n p)
    (hlength : n ≤ rs.length) (hwindow : ∀ j < n, ¬ c.window.Closes j)
    (hlimit : rs.length < n + limit) :
    ∃ q, p.cycles limit = some (.ok (c.endState rs), q) ∧ Selected c rs s blocks q := by
  induction limit generalizing n p with
  | zero => omega
  | succ limit ih =>
    rcases Nat.eq_or_lt_of_le hlength with hend | hlt
    · subst hend
      obtain ⟨q, hcycle, hq⟩ := h.cycle_at_end
      obtain ⟨hreads, hstate⟩ := Selection.reads_of_open hwindow
      have hkept : c.keptOf rs rs.length = c.kept rs :=
        Selection.keptOf_eq_kept (.inl (Nat.le_refl _))
      rw [Running.cycles, hcycle, hstate]
      refine ⟨q, rfl, ?_, ?_, hq.read.trans hreads.symm, ?_, hq.dropped⟩
      · exact hkept ▸ hq.filters
      · exact hkept ▸ hq.sink
      · exact hkept ▸ hq.written
    · have hr : rs[n]? = some rs[n] := List.getElem?_eq_getElem hlt
      by_cases hcloses : c.window.Closes n
      · obtain ⟨q, hcycle, hfilters, hsink, htally⟩ := h.cycle_of_closes hr hcloses
        obtain ⟨hreads, hstate⟩ := Selection.reads_of_closes hcloses hlt hwindow
        have hkept : c.keptOf rs n = c.kept rs := Selection.keptOf_eq_kept (.inr hcloses)
        rw [hkept] at hfilters
        rw [Running.cycles, hcycle, hstate]
        refine ⟨q, rfl, hfilters, ?_, ?_, ?_, ?_⟩
        · rw [hsink, h.sink, hkept]
        · rw [htally, hreads, ← h.read]
        · rw [htally, ← hkept]
          exact h.written
        · rw [htally]
          exact h.dropped
      · have hstep : ∃ q, p.cycle = (.next, q) ∧ SelectedTo c rs s blocks (n + 1) q := by
          by_cases hkeeps : c.Keeps rs n rs[n]
          · exact h.cycle_of_keeps hr hcloses hkeeps hemits hcomplete
          · exact h.cycle_of_not_keeps hr hcloses hkeeps
        obtain ⟨q, hcycle, hq⟩ := hstep
        rw [cycles_succ_of_next hcycle]
        apply ih hq hlt
        · intro j hj
          rcases Nat.lt_succ_iff_lt_or_eq.1 hj with hbefore | rfl
          · exact hwindow j hbefore
          · exact hcloses
        · omega

end Running

namespace Mediator

variable [CustomFilter ω χ] [CustomPredicate ω π] {c : Selection}
  {m : Mediator MemorySource MemorySink χ π} {shared : ω}

/-- A run reads up to where the window closes, or everything, and puts the encodings of the
    selected records into the sink. -/
def Selects (c : Selection) (m : Mediator MemorySource MemorySink χ π) (shared : ω) : Prop :=
  ∃ summary m' shared', m.run shared = (.ok summary, m', shared') ∧
    m'.sink.blocks.toList =
      m.sink.blocks.toList ++ (c.kept m.source.records).map Record.encode ∧
    summary.read = c.reads m.source.records ∧
    summary.written = (c.kept m.source.records).length ∧ summary.dropped = 0 ∧
    summary.state = c.endState m.source.records ∧ m'.state = c.endState m.source.records

theorem selectedTo_start (hpredicates : m.predicates.Perm (c.predicates π))
    (hstarts : (Filter.startAll m.filters shared).1 = .ok ()) :
    ∃ p, m.start shared = (.ok (), p) ∧
      Running.SelectedTo c m.source.records (Filter.startAll m.filters shared).2
        m.sink.blocks.toList 0 p := by
  obtain ⟨predicates, hreset, hstands⟩ :=
    Selection.stands_resetAll hpredicates m.source.records shared
  rcases hprepared : Filter.startAll m.filters shared with ⟨result, filters, shared'⟩
  rw [hprepared] at hstarts
  subst hstarts
  refine ⟨_, Running.start_eq hreset hprepared, rfl, hstands, rfl, ?_, rfl, rfl, rfl⟩
  exact (List.append_nil _).symm

/-- An exclusion, a sampling and a window select the records that are written, in whatever
    order they stand, when the filters are not noticed: they are prepared and closed, they emit
    every record as it is, and they never report that they have seen all they need. -/
theorem run_selects (hpredicates : m.predicates.Perm (c.predicates π))
    (hstarts : (Filter.startAll m.filters shared).1 = .ok ())
    (hemits : Filter.EmitsAll (Filter.startAll m.filters shared).2)
    (hcomplete : Filter.NeverComplete (Filter.startAll m.filters shared).2)
    (hfinishes : Filter.Finishes (Filter.startAll m.filters shared).2) :
    m.Selects c shared := by
  obtain ⟨p, hstart, hbegin⟩ := selectedTo_start hpredicates hstarts
  have hlimit : m.source.records.length < 0 + (m.source.records.length + 1) := by omega
  obtain ⟨q, hcycles, hq⟩ := hbegin.cycles hemits hcomplete (Nat.zero_le _) (by simp) hlimit
  have hclosed : (Filter.finishAll q.mediator.filters q.shared).1 = .ok () := by
    have hall := hfinishes (c.kept m.source.records)
    rw [← hq.filters] at hall
    exact hall
  rcases hfinish : Filter.finishAll q.mediator.filters q.shared with ⟨closed, filters, shared'⟩
  rw [hfinish] at hclosed
  subst hclosed
  have hflush : RecordSink.flush q.mediator.sink shared' = (.ok (), q.mediator.sink, shared') :=
    rfl
  have hclose := Running.close_eq hfinish hflush
  have hrun := runWithin_eq_some.2 (.inr ⟨p, _, q, hstart, hcycles, rfl⟩)
  rw [conclude_ok_of_close_ok (by rw [hclose]; rfl), hclose] at hrun
  have hwhole := (runWithin_supply m shared).symm.trans hrun
  refine ⟨_, _, _, Option.some.inj hwhole, ?_, ?_, ?_, ?_, rfl, rfl⟩
  · exact hq.sink
  · exact hq.read
  · exact hq.written
  · exact hq.dropped

/-- Six records of two kinds, of which one kind is thinned out and the first is passed over,
    behind two counters. -/
def thinnedOut : Mediator MemorySource MemorySink Empty Empty where
  source := { records := [
    .physicsEvent .v12 none [1], .physicsEvent .v12 none [2],
    .assemble .v12 none (.stateChange { kind := .beginRun, runNumber := 7 }),
    .physicsEvent .v12 none [3], .physicsEvent .v12 none [4], .physicsEvent .v12 none [5]] }
  sink := {}
  filters := [.kindCount {}, .chain [.transparent]]
  predicates := [
    .countWindow { toSkip := 1, toProcess := 4 },
    .sample { kinds := [.physicsEvent], every := 2 },
    .exclude [.beginRun]]

/-- What `thinnedOut` selects. -/
def thinning : Selection where
  excluded := [.beginRun]
  sampling := { kinds := [.physicsEvent], every := 2 }
  window := { toSkip := 1, toProcess := 4 }

theorem run_selects_thinnedOut :
    thinnedOut.predicates.Perm (thinning.predicates Empty) ∧
      (Filter.startAll thinnedOut.filters ()).1 = .ok () ∧
      thinnedOut.Selects thinning () ∧
      thinning.kept thinnedOut.source.records = [.physicsEvent .v12 none [3]] ∧
      thinning.reads thinnedOut.source.records = 6 ∧
      thinning.endState thinnedOut.source.records = .aborted := by
  have hperm : thinnedOut.predicates.Perm (thinning.predicates Empty) :=
    List.reverse_perm (thinning.predicates Empty)
  have hpassive : ∀ f ∈ (Filter.startAll thinnedOut.filters ()).2.1, f.Passive := by
    have hgroup : ∀ f ∈ ([.transparent] : List (Filter Empty)), f.Passive := by
      simp [Filter.Passive.transparent]
    show ∀ f ∈ ([.kindCount {}, .chain [.transparent]] : List (Filter Empty)), f.Passive
    simp only [List.forall_mem_cons]
    exact ⟨.kindCount {}, .chain hgroup, by simp⟩
  exact ⟨hperm, rfl, run_selects hperm rfl (Filter.emitsAll_of_passive hpassive ())
    (Filter.neverComplete_of_passive hpassive ()) (Filter.finishes_of_passive hpassive ()),
    rfl, rfl, rfl⟩

/-- A filter of the caller's own that emits every record, but can be in the way of a run. -/
structure Meddler where
  starts : Bool := true
  finishes : Bool := true
  complete : Bool := false

instance (ω : Type) : CustomFilter ω Meddler where
  start f w := (if f.starts then .ok () else .error (.filter "meddler" "no start"), f, w)
  handle f r w := (.ok (.emit r), f, w)
  finish f w := (if f.finishes then .ok () else .error (.filter "meddler" "no finish"), f, w)
  isComplete f _ := f.complete

/-- Two records behind a meddler. -/
def meddled (f : Meddler) : Mediator MemorySource MemorySink Meddler Empty where
  source := { records := [.physicsEvent .v12 none [0], .physicsEvent .v12 none [1]] }
  sink := {}
  filters := [.custom f]
  predicates := [.exclude [], .sample { kinds := [], every := 1 }, .countWindow ⟨0, 0, 0, 0⟩]

/-- A selection of everything. -/
def everything : Selection where
  excluded := []
  sampling := { kinds := [], every := 1 }
  window := ⟨0, 0, 0, 0⟩

theorem emitsAll_meddled (f : Meddler) :
    Filter.EmitsAll (Filter.startAll (meddled f).filters ()).2 := by
  have hstart : (Filter.startAll (meddled f).filters ()).2 = ([.custom f], ()) := by
    rcases f with ⟨_ | _, finishes, complete⟩ <;> rfl
  have hafter : ∀ rs, Filter.afterAll rs (([.custom f], ()) : List (Filter Meddler) × Unit) =
      ([.custom f], ()) := by
    intro rs
    induction rs with
    | nil => rfl
    | cons r rs ih => exact ih
  intro rs r
  rw [hstart, hafter]
  rfl

/-- A run that ends with an error, or reads too little, does not select. -/
theorem not_selects_of_runWithin (f : Meddler) {summary? : Option RunSummary}
    (hrun : ((meddled f).runWithin 3 ()).map (fun out => out.1.toOption) = some summary?)
    (hread : ∀ summary, summary? = some summary → summary.read ≠ 2) :
    ¬ (meddled f).Selects everything () := by
  intro hselects
  obtain ⟨summary, m', shared', hwhole, -, hcount, -⟩ := hselects
  have hsupply : (meddled f).runWithin 3 () = some (.ok summary, m', shared') :=
    hwhole ▸ runWithin_supply (meddled f) ()
  rw [hsupply] at hrun
  cases hrun
  exact hread summary rfl hcount

/-- A filter that emits everything is in the way of a run all the same when it cannot be
    prepared, cannot be closed, or has seen all it needs before the records are at an end. -/
theorem not_selects_meddled :
    ((meddled { complete := true }).predicates.Perm (everything.predicates Empty) ∧
      Filter.EmitsAll (Filter.startAll (meddled { complete := true }).filters ()).2 ∧
      ¬ (meddled { complete := true }).Selects everything ()) ∧
    (Filter.EmitsAll (Filter.startAll (meddled { starts := false }).filters ()).2 ∧
      ¬ (meddled { starts := false }).Selects everything ()) ∧
    (Filter.EmitsAll (Filter.startAll (meddled { finishes := false }).filters ()).2 ∧
      ¬ (meddled { finishes := false }).Selects everything ()) := by
  refine ⟨⟨.refl _, emitsAll_meddled _, ?_⟩, ⟨emitsAll_meddled _, ?_⟩, emitsAll_meddled _, ?_⟩
  · have hrun : ((meddled { complete := true }).runWithin 3 ()).map (fun out => out.1.toOption) =
        some (some { read := 1, written := 1, state := .finished }) := by
      decide +kernel
    exact not_selects_of_runWithin _ hrun (by simp)
  · have hrun : ((meddled { starts := false }).runWithin 3 ()).map (fun out => out.1.toOption) =
        some none := by
      decide +kernel
    exact not_selects_of_runWithin _ hrun (by simp)
  · have hrun : ((meddled { finishes := false }).runWithin 3 ()).map
        (fun out => out.1.toOption) = some none := by
      decide +kernel
    exact not_selects_of_runWithin _ hrun (by simp)

end Mediator

end DaqStream
