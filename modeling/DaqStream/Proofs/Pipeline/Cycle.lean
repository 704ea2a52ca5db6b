import DaqStream.Proofs.Pipeline.Course

/-!
# What a cycle and a run can do

A cycle is made of four kinds of step: it asks the predicates, reads, runs the filters and
writes, and it counts. So what all of these preserve is preserved by every number of cycles
(`Preserved.cycles`), and a map between pipelines that agrees with all of them agrees with
whole runs (`Simulation.cycles`). Without predicates a cycle has few ways to go, with a lemma
for each (`cycle_of_emit` and its siblings). The ways out of a run are gone through here and
nowhere else (`runWithin_eq_some`).
-/

namespace DaqStream

/-- A cycle that ends a run in good order ends it in one of the two last states. -/
def CycleEnd.Final : CycleEnd → Prop
  | .stop state => state = .finished ∨ state = .aborted
  | _ => True

namespace MemorySource

variable {ω : Type}

theorem recordSource_readOne_of_getElem? {s : MemorySource} {rs : List Record} {j : Nat}
    {r : Record} (hs : s.records = rs.drop j) (hr : rs[j]? = some r) (w : ω) :
    RecordSource.readOne s w = (.ok (some r), { s with records := rs.drop (j + 1) }, w) := by
  obtain ⟨hlt, rfl⟩ := List.getElem?_eq_some_iff.1 hr
  rw [List.drop_eq_getElem_cons hlt] at hs
  show (Except.ok s.readOne.1, s.readOne.2, w) = _
  rw [readOne, hs]

theorem recordSource_readOne_of_nil {s : MemorySource} (hs : s.records = []) (w : ω) :
    RecordSource.readOne s w = (.ok none, { s with atEnd := true }, w) := by
  show (Except.ok s.readOne.1, s.readOne.2, w) = _
  rw [readOne, hs]

end MemorySource

namespace Running

variable {ω σ κ χ π : Type} [RecordSource ω σ] [RecordSink ω κ] [CustomFilter ω χ]
  [CustomPredicate ω π]

section Steps

omit [RecordSource ω σ] [RecordSink ω κ] [CustomFilter ω χ] in
theorem ask_eq {p : Running ω σ κ χ π} {point : Checkpoint} {verdict : Verdict}
    {predicates : List (Predicate π)} {shared : ω}
    (h : Predicate.judgeAll p.mediator.predicates point p.shared = (verdict, predicates, shared)) :
    p.ask point = (verdict, { p with mediator := { p.mediator with predicates }, shared }) := by
  rw [ask, h]

omit [RecordSink ω κ] [CustomFilter ω χ] [CustomPredicate ω π] in
theorem read_eq {p : Running ω σ κ χ π} {result : Except PipelineError (Option Record)}
    {source : σ} {shared : ω}
    (h : RecordSource.readOne p.mediator.source p.shared = (result, source, shared)) :
    p.read = (result, { p with mediator := { p.mediator with source }, shared }) := by
  rw [Running.read, h]

omit [RecordSource ω σ] [RecordSink ω κ] [CustomPredicate ω π] in
theorem filter_eq {p : Running ω σ κ χ π} {r : Record} {result : Except PipelineError FilterOutput}
    {filters : List (Filter χ)} {shared : ω}
    (h : Filter.handleAll p.mediator.filters r p.shared = (result, filters, shared)) :
    p.filter r = (result, { p with mediator := { p.mediator with filters }, shared }) := by
  rw [filter, h]

omit [RecordSource ω σ] [CustomFilter ω χ] [CustomPredicate ω π] in
theorem write_eq_of_ok {p : Running ω σ κ χ π} {r : Record} {sink : κ} {shared : ω}
    (h : RecordSink.put p.mediator.sink r.encode p.shared = (.ok (), sink, shared)) :
    p.write r =
      (.ok (), { p with mediator := { p.mediator with sink }, shared,
                        tally := { p.tally with written := p.tally.written + 1 } }) := by
  rw [write, h]

omit [RecordSource ω σ] [CustomFilter ω χ] [CustomPredicate ω π] in
theorem write_eq_of_error {p : Running ω σ κ χ π} {r : Record} {e : PipelineError} {sink : κ}
    {shared : ω} (h : RecordSink.put p.mediator.sink r.encode p.shared = (.error e, sink, shared)) :
    p.write r = (.error e, { p with mediator := { p.mediator with sink }, shared }) := by
  rw [write, h]

omit [RecordSource ω σ] [CustomPredicate ω π] in
theorem close_eq {p : Running ω σ κ χ π} {closed flushed : Except PipelineError Unit}
    {filters : List (Filter χ)} {sink : κ} {shared shared' : ω}
    (hclosed : Filter.finishAll p.mediator.filters p.shared = (closed, filters, shared))
    (hflushed : RecordSink.flush p.mediator.sink shared = (flushed, sink, shared')) :
    p.close =
      (closed >>= fun _ => flushed,
        { p with mediator := { p.mediator with filters, sink }, shared := shared' }) := by
  rw [close, hclosed]
  dsimp only
  rw [hflushed]
  cases closed <;> rfl

omit [RecordSource ω σ] [RecordSink ω κ] in
theorem start_eq {m : Mediator σ κ χ π} {result : Except PipelineError Unit}
    {predicates : List (Predicate π)} {filters : List (Filter χ)} {shared shared₁ shared₂ : ω}
    (hreset : Predicate.resetAll m.predicates shared = (predicates, shared₁))
    (hstart : Filter.startAll m.filters shared₁ = (result, filters, shared₂)) :
    m.start shared =
      (result, { mediator := { m with predicates, filters, state := .running },
                 shared := shared₂ }) := by
  rw [Mediator.start, hreset]
  dsimp only
  rw [hstart]

end Steps

section Final

omit [RecordSource ω σ] [RecordSink ω κ] [CustomPredicate ω π] in
theorem final_afterWrite (p : Running ω σ κ χ π) : p.afterWrite.Final := by
  unfold afterWrite
  split
  · exact .inl rfl
  · trivial

omit [RecordSource ω σ] [RecordSink ω κ] [CustomPredicate ω π] in
theorem final_conclude (p : Running ω σ κ χ π) (last : Verdict) : (p.conclude last).Final := by
  unfold conclude
  split
  · exact .inr rfl
  · exact final_afterWrite p

theorem Course.final {p q : Running ω σ κ χ π} {ending : CycleEnd} (h : Course p ending q) :
    ending.Final := by
  cases h with
  | closed | refused | withheld => exact .inr rfl
  | exhausted => exact .inl rfl
  | dropped => exact final_afterWrite _
  | passedOver | written => exact final_conclude _ _
  | _ => trivial

/-- Cycles end a run in one of the two last states, if they end it in good order. -/
theorem final_cycles {limit : Nat} {p q : Running ω σ κ χ π} {state : MediatorState}
    (h : p.cycles limit = some (.ok state, q)) : state = .finished ∨ state = .aborted := by
  induction limit generalizing p with
  | zero => simp [cycles] at h
  | succ limit ih =>
    have hfinal := (course_cycle p).final
    unfold cycles at h
    split at h
    · exact ih h
    · rename_i state' p' hcycle
      cases h
      rw [hcycle] at hfinal
      exact hfinal
    · cases h

end Final

section Unsteered

/-! Without predicates, a cycle is a read, the filters and a write. There is one lemma for each
way in which these can go. -/

variable {p : Running ω σ κ χ π} {r r' : Record} {e : PipelineError} {source : σ} {sink : κ}
  {filters : List (Filter χ)} {w₁ w₂ w₃ : ω}

omit [RecordSource ω σ] [RecordSink ω κ] [CustomFilter ω χ] in
theorem ask_of_unsteered (h : p.mediator.predicates = []) (point : Checkpoint) :
    p.ask point = (.proceed, p) := by
  have hjudge : Predicate.judgeAll p.mediator.predicates point p.shared =
      (.proceed, p.mediator.predicates, p.shared) := by
    rw [h]
    rfl
  rw [ask, hjudge]

omit [RecordSource ω σ] [RecordSink ω κ] [CustomFilter ω χ] in
theorem opens_of_unsteered (h : p.mediator.predicates = []) : Opens p p :=
  .intro (ask_of_unsteered h .preInput) (by simp)

theorem cycle_of_read_error (h : p.mediator.predicates = [])
    (hread : RecordSource.readOne p.mediator.source p.shared = (.error e, source, w₁)) :
    p.cycle = (.fail e, { p with mediator.source := source, shared := w₁ }) :=
  (Course.unreadable (opens_of_unsteered h) (read_eq hread)).cycle_eq

theorem cycle_of_read_end (h : p.mediator.predicates = [])
    (hread : RecordSource.readOne p.mediator.source p.shared = (.ok none, source, w₁)) :
    p.cycle = (.stop .finished, { p with mediator.source := source, shared := w₁ }) :=
  (Course.exhausted (opens_of_unsteered h) (read_eq hread)).cycle_eq

omit [RecordSink ω κ] in
theorem offers_of_unsteered {result : Except PipelineError FilterOutput}
    (h : p.mediator.predicates = [])
    (hread : RecordSource.readOne p.mediator.source p.shared = (.ok (some r), source, w₁))
    (hfilter : Filter.handleAll p.mediator.filters r w₁ = (result, filters, w₂)) :
    Offers p r result { p with
      mediator.source := source, mediator.filters := filters, shared := w₂
      tally.read := p.tally.read + 1 } := by
  have htakes : Takes p r .proceed { p with
      mediator.source := source, shared := w₁, tally.read := p.tally.read + 1 } := by
    refine .intro (opens_of_unsteered h) (read_eq hread) ?_
    apply ask_of_unsteered
    exact h
  exact .intro htakes (filter_eq hfilter)

theorem cycle_of_filter_error (h : p.mediator.predicates = [])
    (hread : RecordSource.readOne p.mediator.source p.shared = (.ok (some r), source, w₁))
    (hfilter : Filter.handleAll p.mediator.filters r w₁ = (.error e, filters, w₂)) :
    p.cycle = (.fail e, { p with
      mediator.source := source, mediator.filters := filters, shared := w₂
      tally.read := p.tally.read + 1 }) :=
  (Course.failed (offers_of_unsteered h hread hfilter)).cycle_eq

theorem cycle_of_drop (h : p.mediator.predicates = [])
    (hread : RecordSource.readOne p.mediator.source p.shared = (.ok (some r), source, w₁))
    (hfilter : Filter.handleAll p.mediator.filters r w₁ = (.ok .drop, filters, w₂)) :
    p.cycle = (if Filter.anyComplete w₂ filters then .stop .finished else .next, { p with
      mediator.source := source, mediator.filters := filters, shared := w₂
      tally.read := p.tally.read + 1, tally.dropped := p.tally.dropped + 1 }) :=
  (Course.dropped (offers_of_unsteered h hread hfilter)).cycle_eq

theorem cycle_of_flush (h : p.mediator.predicates = [])
    (hread : RecordSource.readOne p.mediator.source p.shared = (.ok (some r), source, w₁))
    (hfilter : Filter.handleAll p.mediator.filters r w₁ = (.ok (.flush r'), filters, w₂))
    (hput : RecordSink.put p.mediator.sink r'.encode w₂ = (.ok (), sink, w₃)) :
    p.cycle = (.fail .abnormalEnd, { p with
      mediator.source := source, mediator.filters := filters, mediator.sink := sink, shared := w₃
      tally.read := p.tally.read + 1, tally.written := p.tally.written + 1 }) :=
  (Course.flushed (offers_of_unsteered h hread hfilter) (write_eq_of_ok hput)).cycle_eq

theorem cycle_of_emit (h : p.mediator.predicates = [])
    (hread : RecordSource.readOne p.mediator.source p.shared = (.ok (some r), source, w₁))
    (hfilter : Filter.handleAll p.mediator.filters r w₁ = (.ok (.emit r'), filters, w₂))
    (hput : RecordSink.put p.mediator.sink r'.encode w₂ = (.ok (), sink, w₃)) :
    p.cycle = (if Filter.anyComplete w₃ filters then .stop .finished else .next, { p with
      mediator.source := source, mediator.filters := filters, mediator.sink := sink, shared := w₃
      tally.read := p.tally.read + 1, tally.written := p.tally.written + 1 }) := by
  have hoffers := offers_of_unsteered h hread hfilter
  have hjudges : Judges p r r' .proceed .proceed _ :=
    .intro hoffers (ask_of_unsteered (by exact h) _) (by simp) (ask_of_unsteered (by exact h) _)
  exact (Course.written hjudges (by simp) (write_eq_of_ok hput)).cycle_eq

end Unsteered

/-- What none of the steps of a cycle changes. -/
structure Preserved (I : Running ω σ κ χ π → Prop) : Prop where
  ask {p : Running ω σ κ χ π} (point : Checkpoint) : I p → I (p.ask point).2
  read {p : Running ω σ κ χ π} : I p → I p.read.2
  filter {p : Running ω σ κ χ π} (r : Record) : I p → I (p.filter r).2
  write {p : Running ω σ κ χ π} (r : Record) : I p → I (p.write r).2
  count {p : Running ω σ κ χ π} (tally : Tally) : I p → I { p with tally }

namespace Preserved

variable {I : Running ω σ κ χ π → Prop} {p q : Running ω σ κ χ π}

theorem of_ask (h : Preserved I) {point : Checkpoint} {verdict : Verdict}
    (hask : p.ask point = (verdict, q)) (hp : I p) : I q := by
  have hnext := h.ask point hp
  rw [hask] at hnext
  exact hnext

theorem of_read (h : Preserved I) {result : Except PipelineError (Option Record)}
    (hread : p.read = (result, q)) (hp : I p) : I q := by
  have hnext := h.read hp
  rw [hread] at hnext
  exact hnext

theorem of_filter (h : Preserved I) {r : Record} {result : Except PipelineError FilterOutput}
    (hfilter : p.filter r = (result, q)) (hp : I p) : I q := by
  have hnext := h.filter r hp
  rw [hfilter] at hnext
  exact hnext

theorem of_write (h : Preserved I) {r : Record} {result : Except PipelineError Unit}
    (hwrite : p.write r = (result, q)) (hp : I p) : I q := by
  have hnext := h.write r hp
  rw [hwrite] at hnext
  exact hnext

theorem opens (h : Preserved I) (hopens : Opens p q) (hp : I p) : I q := by
  rcases hopens with ⟨hask, -⟩
  exact h.of_ask hask hp

theorem takes (h : Preserved I) {r : Record} {verdict : Verdict} (htakes : Takes p r verdict q)
    (hp : I p) : I q := by
  rcases htakes with ⟨hopens, hread, hask⟩
  exact h.of_ask hask (h.count _ (h.of_read hread (h.opens hopens hp)))

theorem offers (h : Preserved I) {r : Record} {result : Except PipelineError FilterOutput}
    (hoffers : Offers p r result q) (hp : I p) : I q := by
  rcases hoffers with ⟨htakes, hfilter⟩
  exact h.of_filter hfilter (h.takes htakes hp)

theorem judges (h : Preserved I) {r r' : Record} {before last : Verdict}
    (hjudges : Judges p r r' before last q) (hp : I p) : I q := by
  rcases hjudges with ⟨hoffers, hbefore, -, hlast⟩
  exact h.of_ask hlast (h.of_ask hbefore (h.offers hoffers hp))

theorem course (h : Preserved I) {ending : CycleEnd} (hcourse : Course p ending q) (hp : I p) :
    I q := by
  cases hcourse with
  | closed hask => exact h.of_ask hask hp
  | unreadable hopens hread | exhausted hopens hread => exact h.of_read hread (h.opens hopens hp)
  | refused htakes => exact h.takes htakes hp
  | skipped htakes => exact h.count _ (h.takes htakes hp)
  | failed hoffers => exact h.offers hoffers hp
  | dropped hoffers => exact h.count _ (h.offers hoffers hp)
  | flushed hoffers hwrite | unflushed hoffers hwrite =>
    exact h.of_write hwrite (h.offers hoffers hp)
  | withheld hoffers hask => exact h.of_ask hask (h.offers hoffers hp)
  | passedOver hjudges => exact h.count _ (h.judges hjudges hp)
  | written hjudges _ hwrite | unwritten hjudges _ hwrite =>
    exact h.of_write hwrite (h.judges hjudges hp)

/-- What the steps preserve holds after any number of cycles. -/
theorem cycles (h : Preserved I) (hp : I p) {limit : Nat}
    {outcome : Except PipelineError MediatorState} (hrun : p.cycles limit = some (outcome, q)) :
    I q := by
  induction limit generalizing p with
  | zero => simp [Running.cycles] at hrun
  | succ limit ih =>
    have h₁ := h.course (course_cycle p) hp
    unfold Running.cycles at hrun
    split at hrun
    all_goals
      rename_i hcycle
      rw [hcycle] at h₁
    · exact ih h₁ hrun
    · cases hrun
      exact h₁
    · cases hrun
      exact h₁

end Preserved

/-- Inside a run the mediator is always running. -/
theorem preserved_state :
    Preserved fun p : Running ω σ κ χ π => p.mediator.state = .running where
  ask _ h := h
  read h := h
  filter _ h := h
  write r h := by
    unfold Running.write
    split <;> exact h
  count _ h := h

section Simulation

variable {ω' σ' κ' χ' π' : Type} [RecordSource ω' σ'] [RecordSink ω' κ'] [CustomFilter ω' χ']
  [CustomPredicate ω' π']

/-- A map between pipelines that agrees with all of the steps of a cycle. -/
structure Simulation (φ : Running ω σ κ χ π → Running ω' σ' κ' χ' π') : Prop where
  ask (p : Running ω σ κ χ π) (point : Checkpoint) :
    (φ p).ask point = ((p.ask point).1, φ (p.ask point).2)
  read (p : Running ω σ κ χ π) : (φ p).read = (p.read.1, φ p.read.2)
  filter (p : Running ω σ κ χ π) (r : Record) :
    (φ p).filter r = ((p.filter r).1, φ (p.filter r).2)
  write (p : Running ω σ κ χ π) (r : Record) :
    (φ p).write r = ((p.write r).1, φ (p.write r).2)
  afterWrite (p : Running ω σ κ χ π) : (φ p).afterWrite = p.afterWrite
  tally (p : Running ω σ κ χ π) : (φ p).tally = p.tally
  count (p : Running ω σ κ χ π) (tally : Tally) : { φ p with tally } = φ { p with tally }

namespace Simulation

variable {φ : Running ω σ κ χ π → Running ω' σ' κ' χ' π'}

theorem conclude (h : Simulation φ) (p : Running ω σ κ χ π) (last : Verdict) :
    (φ p).conclude last = p.conclude last := by
  rw [Running.conclude, Running.conclude, h.afterWrite]

variable {p q : Running ω σ κ χ π} {r r' : Record}

theorem opens (h : Simulation φ) (hopens : Opens p q) : Opens (φ p) (φ q) := by
  rcases hopens with ⟨hask, habort⟩
  exact .intro (by rw [h.ask, hask]) habort

theorem takes (h : Simulation φ) {verdict : Verdict} (htakes : Takes p r verdict q) :
    Takes (φ p) r verdict (φ q) := by
  rcases htakes with ⟨hopens, hread, hask⟩
  exact .intro (h.opens hopens) (by rw [h.read, hread]) (by rw [h.tally, h.count, h.ask, hask])

theorem offers (h : Simulation φ) {result : Except PipelineError FilterOutput}
    (hoffers : Offers p r result q) : Offers (φ p) r result (φ q) := by
  rcases hoffers with ⟨htakes, hfilter⟩
  exact .intro (h.takes htakes) (by rw [h.filter, hfilter])

theorem judges (h : Simulation φ) {before last : Verdict}
    (hjudges : Judges p r r' before last q) : Judges (φ p) r r' before last (φ q) := by
  rcases hjudges with ⟨hoffers, hbefore, habort, hlast⟩
  exact .intro (h.offers hoffers) (by rw [h.ask, hbefore]) habort (by rw [h.ask, hlast])

/-- Pipelines whose steps agree take the same course. -/
theorem course (h : Simulation φ) {ending : CycleEnd} (hcourse : Course p ending q) :
    Course (φ p) ending (φ q) := by
  cases hcourse with
  | closed hask => exact .closed (by rw [h.ask, hask])
  | unreadable hopens hread => exact .unreadable (h.opens hopens) (by rw [h.read, hread])
  | exhausted hopens hread => exact .exhausted (h.opens hopens) (by rw [h.read, hread])
  | refused htakes => exact .refused (h.takes htakes)
  | skipped htakes =>
    have hskipped := Course.skipped (h.takes htakes)
    rw [h.tally, h.count] at hskipped
    exact hskipped
  | failed hoffers => exact .failed (h.offers hoffers)
  | dropped hoffers =>
    have hdropped := Course.dropped (h.offers hoffers)
    rw [h.tally, h.count, h.afterWrite] at hdropped
    exact hdropped
  | flushed hoffers hwrite => exact .flushed (h.offers hoffers) (by rw [h.write, hwrite])
  | unflushed hoffers hwrite => exact .unflushed (h.offers hoffers) (by rw [h.write, hwrite])
  | withheld hoffers hask => exact .withheld (h.offers hoffers) (by rw [h.ask, hask])
  | passedOver hjudges hskip =>
    have hpassed := Course.passedOver (h.judges hjudges) hskip
    rw [h.tally, h.count, h.conclude] at hpassed
    exact hpassed
  | written hjudges hskip hwrite =>
    rw [← h.conclude]
    exact .written (h.judges hjudges) hskip (by rw [h.write, hwrite])
  | unwritten hjudges hskip hwrite =>
    exact .unwritten (h.judges hjudges) hskip (by rw [h.write, hwrite])

/-- Pipelines whose steps agree make the same cycles. -/
theorem cycles (h : Simulation φ) (limit : Nat) (p : Running ω σ κ χ π) :
    (φ p).cycles limit = (p.cycles limit).map fun ended => (ended.1, φ ended.2) := by
  induction limit generalizing p with
  | zero => rfl
  | succ limit ih =>
    have hcycle := (h.course (course_cycle p)).cycle_eq
    unfold Running.cycles
    rw [hcycle]
    obtain ⟨ending, p₁⟩ := p.cycle
    cases ending with
    | next => exact ih p₁
    | stop state => rfl
    | fail e => rfl

end Simulation

end Simulation

end Running

namespace Mediator

variable {ω σ κ χ π : Type} [RecordSource ω σ] [RecordSink ω κ] [CustomFilter ω χ]
  [CustomPredicate ω π] {p : Running ω σ κ χ π}

/-- A run ends because the filters cannot be prepared, or after its cycles have ended. -/
theorem runWithin_eq_some {limit : Nat} {m : Mediator σ κ χ π} {shared : ω}
    {out : Except PipelineError RunSummary × Mediator σ κ χ π × ω} :
    m.runWithin limit shared = some out ↔
      (∃ e p, m.start shared = (.error e, p) ∧
        out = (.error e, { p.mediator with state := .aborted }, p.shared)) ∨
      (∃ p outcome q, m.start shared = (.ok (), p) ∧ p.cycles limit = some (outcome, q) ∧
        out = conclude outcome q) := by
  unfold runWithin
  constructor
  · intro h
    split at h
    · rename_i e p hstart
      cases h
      exact .inl ⟨e, p, hstart, rfl⟩
    · rename_i p hstart
      obtain ⟨⟨outcome, q⟩, hcycles, hend⟩ := Option.map_eq_some_iff.1 h
      exact .inr ⟨p, outcome, q, hstart, hcycles, hend.symm⟩
  · rintro (⟨e, p, hstart, rfl⟩ | ⟨p, outcome, q, hstart, hcycles, rfl⟩)
    · rw [hstart]
    · rw [hstart]
      dsimp only
      rw [hcycles]
      rfl

omit [RecordSource ω σ] [CustomPredicate ω π] in
theorem conclude_error (e : PipelineError) :
    conclude (.error e) p =
      (.error e, { p.close.2.mediator with state := .aborted }, p.close.2.shared) := by
  unfold conclude
  obtain ⟨closed, q⟩ := p.close
  cases closed <;> rfl

omit [RecordSource ω σ] [CustomPredicate ω π] in
theorem conclude_ok_of_close_ok {state : MediatorState} (h : p.close.1 = .ok ()) :
    conclude (.ok state) p =
      (.ok { toTally := p.close.2.tally, state }, { p.close.2.mediator with state },
        p.close.2.shared) := by
  unfold conclude
  generalize p.close = ended at h ⊢
  obtain ⟨closed, q⟩ := ended
  cases h
  rfl

omit [RecordSource ω σ] [CustomPredicate ω π] in
theorem conclude_ok_of_close_error {state : MediatorState} {e : PipelineError}
    (h : p.close.1 = .error e) :
    conclude (.ok state) p = (.error e, p.close.2.mediator, p.close.2.shared) := by
  unfold conclude
  generalize p.close = ended at h ⊢
  obtain ⟨closed, q⟩ := ended
  cases h
  rfl

end Mediator

/-- For a source that cannot hand out records for ever, its supply is a limit that is enough. -/
theorem Mediator.runWithin_supply {ω σ κ χ π : Type} [FiniteSource ω σ] [RecordSink ω κ]
    [CustomFilter ω χ] [CustomPredicate ω π] (m : Mediator σ κ χ π) (shared : ω) :
    m.runWithin (FiniteSource.supply ω m.source + 1) shared = some (m.run shared) :=
  (Option.some_get (isSome_runWithin m shared)).symm

end DaqStream
