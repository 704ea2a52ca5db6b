import DaqStream.Proofs.Pipeline.Journal
import DaqStream.Proofs.Pipeline.Parts
import DaqStream.Proofs.Record.Kind

/-!
# The mark of an abnormal end

The filter for abnormal ends asks for a flush: the mark is written at once, past the predicates
in front of the sink and past the filters behind it, and the run fails after that. The mark is
the last block of the run, and no other record ends a run in this way (`run_flushes_mark`).
-/

namespace DaqStream

/-- A source that never gives this error, whatever it becomes. -/
def RecordSource.Spares (ω : Type) {σ : Type} [RecordSource ω σ] (e : PipelineError) (s : σ) :
    Prop :=
  ∀ s', Becomes ω s s' → ∀ w : ω, (readOne s' w).1 ≠ .error e

/-- A sink that never gives this error, whatever it becomes. -/
structure RecordSink.Spares (ω : Type) {κ : Type} [RecordSink ω κ] (e : PipelineError) (k : κ) :
    Prop where
  put {k' : κ} : Becomes ω k k' → ∀ (block : Bytes) (w : ω),
    (RecordSink.put k' block w).1 ≠ .error e
  flush {k' : κ} : Becomes ω k k' → ∀ w : ω, (RecordSink.flush k' w).1 ≠ .error e

namespace Filter

/-- The filter lets marks of an abnormal end through as they are, whatever it becomes. -/
def PassesMarks (ω : Type) {χ : Type} [CustomFilter ω χ] (f : Filter χ) : Prop :=
  ∀ g, Becomes ω f g → ∀ (r : Record) (w : ω), r.kind = .abnormalEnd →
    (g.handle r w).1 = .ok (.emit r)

/-- A filter that never gives this error, whatever it becomes. -/
structure Spares (ω : Type) {χ : Type} [CustomFilter ω χ] (e : PipelineError) (f : Filter χ) :
    Prop where
  start {g : Filter χ} : Becomes ω f g → ∀ w : ω, (g.start w).1 ≠ .error e
  handle {g : Filter χ} : Becomes ω f g → ∀ (r : Record) (w : ω), (g.handle r w).1 ≠ .error e
  finish {g : Filter χ} : Becomes ω f g → ∀ w : ω, (g.finish w).1 ≠ .error e

/-- A filter that never asks for a flush, whatever it becomes. -/
def NeverFlushes (ω : Type) {χ : Type} [CustomFilter ω χ] (f : Filter χ) : Prop :=
  ∀ g, Becomes ω f g → ∀ (r r' : Record) (w : ω), (g.handle r w).1 ≠ .ok (.flush r')

variable {ω χ : Type} [CustomFilter ω χ] {fs gs : List (Filter χ)} {f g : Filter χ}
  {r r' : Record} {w : ω} {e : PipelineError}

theorem Passive.passesMarks (h : f.Passive) : f.PassesMarks ω := by
  intro g hbecomes r w _
  obtain ⟨f', hhandle, -⟩ := (hbecomes.passive h).handle r w
  rw [hhandle]

theorem Passive.spares (h : f.Passive) (e : PipelineError) : f.Spares ω e where
  start hbecomes w := by
    obtain ⟨f', hstart, -⟩ := (hbecomes.passive h).start w
    rw [hstart]
    simp
  handle hbecomes r w := by
    obtain ⟨f', hhandle, -⟩ := (hbecomes.passive h).handle r w
    rw [hhandle]
    simp
  finish hbecomes w := by
    obtain ⟨f', hfinish, -⟩ := (hbecomes.passive h).finish w
    rw [hfinish]
    simp

theorem Passive.neverFlushes (h : f.Passive) : f.NeverFlushes ω := by
  intro g hbecomes r r' w
  obtain ⟨f', hhandle, -⟩ := (hbecomes.passive h).handle r w
  rw [hhandle]
  simp

theorem spares_abnormalEnd (e : PipelineError) : (abnormalEnd : Filter χ).Spares ω e where
  start hbecomes w := by
    rw [hbecomes.abnormalEnd, Filter.start]
    simp
  handle hbecomes r w := by
    rw [hbecomes.abnormalEnd, Filter.handle]
    simp
  finish hbecomes w := by
    rw [hbecomes.abnormalEnd, Filter.finish]
    simp

theorem handle_abnormalEnd_eq_flush
    (h : ((abnormalEnd : Filter χ).handle r w).1 = .ok (.flush r')) :
    r' = r ∧ r.kind = .abnormalEnd := by
  rw [Filter.handle] at h
  by_cases hkind : r.kind.family = .abnormalEnd
  · simp only [hkind, if_true, Except.ok.injEq, FilterOutput.flush.injEq] at h
    exact ⟨h.symm, RecordKind.family_eq_abnormalEnd.1 hkind⟩
  · simp [hkind] at h

/-- In front of the filter for abnormal ends a mark goes from member to member. Behind it
    nothing is called. -/
theorem handleAll_of_passesMarks (hkind : r.kind = .abnormalEnd)
    (h : ∀ f ∈ fs, ∀ w : ω, (f.handle r w).1 = .ok (.emit r)) (w : ω) :
    ∃ gs w', gs.length = fs.length ∧ ∀ others,
      handleAll (fs ++ abnormalEnd :: others) r w =
        (.ok (.flush r), gs ++ abnormalEnd :: others, w') := by
  induction fs generalizing w with
  | nil =>
    refine ⟨[], w, rfl, ?_⟩
    intro others
    have hfamily := RecordKind.family_eq_abnormalEnd.2 hkind
    simp [handleAll, Filter.handle, hfamily]
  | cons f fs ih =>
    obtain ⟨hfirst, hrest⟩ := List.forall_mem_cons.1 h
    have hemits := hfirst w
    rcases hhandle : f.handle r w with ⟨result, f', w'⟩
    rw [hhandle] at hemits
    dsimp only at hemits
    subst hemits
    obtain ⟨gs, w'', hlength, hall⟩ := ih hrest w'
    refine ⟨f' :: gs, w'', by rw [List.length_cons, List.length_cons, hlength], ?_⟩
    intro others
    rw [List.cons_append, handleAll, hhandle]
    dsimp only
    rw [hall others]
    rfl

/-- The members around the filter for abnormal ends, wherever they have got to. -/
theorem forall₂_around {before behind : List (Filter χ)}
    (h : List.Forall₂ (Becomes ω) (before ++ abnormalEnd :: behind) gs) :
    ∃ before' behind', gs = before' ++ abnormalEnd :: behind' ∧
      List.Forall₂ (Becomes ω) before before' ∧ List.Forall₂ (Becomes ω) behind behind' := by
  induction before generalizing gs with
  | nil =>
    cases h with
    | cons hfirst hrest =>
      rw [hfirst.abnormalEnd]
      exact ⟨[], _, rfl, .nil, hrest⟩
  | cons f before ih =>
    cases h with
    | cons hfirst hrest =>
      obtain ⟨before', behind', rfl, hbefore, hbehind⟩ := ih hrest
      exact ⟨_ :: before', behind', rfl, .cons hfirst hbefore, hbehind⟩

end Filter

namespace Running

variable {ω σ κ χ π : Type} [RecordSource ω σ] [RecordSink ω κ] [CustomFilter ω χ]
  [CustomPredicate ω π] {m : Mediator σ κ χ π} {p q q₁ q₂ : Running ω σ κ χ π} {r r' : Record}
  {k limit : Nat} {e : PipelineError}

/-- Cycles that end in a failure are so many that do not end, and one that fails. -/
theorem exists_after_of_cycles_error (h : p.cycles limit = some (.error e, q)) :
    ∃ k q₀, k < limit ∧ p.after k = some q₀ ∧ Course q₀ (.fail e) q := by
  induction limit generalizing p with
  | zero => cases h
  | succ limit ih =>
    rcases hcycle : p.cycle with ⟨ending, p₁⟩
    rw [cycles, hcycle] at h
    cases ending with
    | next =>
      obtain ⟨k, q₀, hk, hafter, hcourse⟩ := ih h
      refine ⟨k + 1, q₀, Nat.succ_lt_succ hk, ?_, hcourse⟩
      rw [after, hcycle]
      exact hafter
    | stop state => cases h
    | fail e' =>
      cases h
      exact ⟨0, p, Nat.zero_lt_succ limit, rfl, course_iff.2 hcycle⟩

/-- A pipeline that keeps a journal gets as far as the pipeline itself. -/
theorem after_noted (h : p.after k = some q) (entries : List Entry) :
    ∃ pages, (p.journaled entries).after k = some (q.journaled (entries ++ pages)) := by
  induction k generalizing p entries with
  | zero =>
    cases h
    exact ⟨[], by rw [List.append_nil]; rfl⟩
  | succ k ih =>
    obtain ⟨p₁, hcycle, hrest⟩ := after_succ h
    obtain ⟨page, hnoted, -⟩ := cycle_journaled hcycle entries
    obtain ⟨pages, hpages⟩ := ih hrest (entries ++ page)
    refine ⟨page ++ pages, ?_⟩
    rw [after, hnoted, ← List.append_assoc]
    exact hpages

omit [RecordSource ω σ] [RecordSink ω κ] [CustomPredicate ω π] in
theorem afterWrite_ne_fail (p : Running ω σ κ χ π) (e : PipelineError) :
    p.afterWrite ≠ .fail e := by
  unfold afterWrite
  split <;> simp

omit [RecordSource ω σ] [RecordSink ω κ] [CustomPredicate ω π] in
theorem conclude_ne_fail (p : Running ω σ κ χ π) (last : Verdict) (e : PipelineError) :
    p.conclude last ≠ .fail e := by
  unfold conclude
  split
  · simp
  · exact afterWrite_ne_fail p e

/-- The entries of a cycle that writes `r'` at once. -/
def flushing (first : Verdict) (r r' : Record) : List Entry :=
  offering first r (.ok (.flush r')) ++ [.put r'.encode (.ok ())]

theorem cycle_journaled_of_flush (hoffers : Offers p r (.ok (.flush r')) q₁)
    (hwrite : q₁.write r' = (.ok (), q₂)) (entries : List Entry) :
    ∃ first, (p.journaled entries).cycle =
      (.fail .abnormalEnd, q₂.journaled (entries ++ flushing first r r')) := by
  obtain ⟨first, hnoted⟩ := hoffers.journaled entries
  exact ⟨first, (Course.flushed hnoted (write_noted hwrite)).cycle_eq⟩

end Running

namespace Mediator

open Running

variable {ω σ κ χ π : Type} [RecordSource ω σ] [RecordSink ω κ] [CustomFilter ω χ]
  [CustomPredicate ω π] {m m' : Mediator σ κ χ π} {p q q₁ q₂ : Running ω σ κ χ π}
  {r r' : Record} {shared shared' : ω} {k limit : Nat} {e : PipelineError}

theorem runWithin_of_fail (hstart : m.start shared = (.ok (), p)) (hafter : p.after k = some q)
    (hcycle : q.cycle = (.fail e, q₁)) (hlimit : k < limit) :
    m.runWithin limit shared = some (conclude (.error e) q₁) := by
  obtain ⟨left, rfl⟩ := Nat.exists_eq_add_of_lt hlimit
  have hcycles : p.cycles (k + left + 1) = some (.error e, q₁) := by
    rw [Nat.add_assoc, cycles_of_after hafter, cycles, hcycle]
  rw [runWithin, hstart]
  dsimp only
  rw [hcycles]
  rfl

/-- A run that writes a record at once ends there, and so does its journal. -/
theorem runWithin_of_flush (hstart : m.start shared = (.ok (), p)) (hafter : p.after k = some q)
    (hoffers : Offers q r (.ok (.flush r')) q₁) (hwrite : q₁.write r' = (.ok (), q₂)) :
    ∃ earlier first, ∀ limit, k < limit →
      m.runWithin limit shared = some (conclude (.error .abnormalEnd) q₂) ∧
      m.journaled.runWithin limit (⟨shared, []⟩ : Journaled ω) =
        some (.error .abnormalEnd, (conclude (.error .abnormalEnd) q₂).2.1.journaled,
          ⟨(conclude (.error .abnormalEnd) q₂).2.2, earlier ++ flushing first r r'⟩) := by
  obtain ⟨earlier, hnoted⟩ := after_noted hafter []
  obtain ⟨first, hcycle⟩ := cycle_journaled_of_flush hoffers hwrite ([] ++ earlier)
  have hbegun : m.journaled.start (⟨shared, []⟩ : Journaled ω) = (.ok (), p.journaled []) := by
    rw [start_journaled, hstart]
  refine ⟨earlier, first, ?_⟩
  intro limit hlimit
  refine ⟨runWithin_of_fail hstart hafter (Course.flushed hoffers hwrite).cycle_eq hlimit, ?_⟩
  rw [runWithin_of_fail hbegun hnoted hcycle hlimit, conclude_journaled, conclude_error]
  rfl

/-- The run fails as one that ended abnormally. Its last cycle reads `r`, asks no predicate in
    front of the sink, and puts `r'` into the sink, which is the last block. After that there are
    `m'` and what it shares. -/
structure EndsInFlush (m : Mediator σ κ χ π) (shared : ω) (limit : Nat) (r r' : Record)
    (m' : Mediator σ κ χ π) (shared' : ω) : Prop where
  run : m.runWithin limit shared = some (.error .abnormalEnd, m', shared')
  journal : ∃ earlier first, m.journaled.runWithin limit (⟨shared, []⟩ : Journaled ω) =
    some (.error .abnormalEnd, m'.journaled, ⟨shared', earlier ++
      [.asked .preInput first, .read (.ok (some r)), .asked (.postInput r.kind) .proceed,
        .filtered r (.ok (.flush r')), .put r'.encode (.ok ())]⟩)

theorem endsInFlush_of_write (hstart : m.start shared = (.ok (), p))
    (hafter : p.after k = some q) (hoffers : Offers q r (.ok (.flush r')) q₁)
    (hwrite : q₁.write r' = (.ok (), q₂))
    (hend : conclude (.error .abnormalEnd) q₂ = (.error .abnormalEnd, m', shared'))
    (hlimit : k < limit) : EndsInFlush m shared limit r r' m' shared' := by
  obtain ⟨earlier, first, hruns⟩ := runWithin_of_flush hstart hafter hoffers hwrite
  obtain ⟨hrun, hjournal⟩ := hruns limit hlimit
  rw [hend] at hrun hjournal
  exact ⟨hrun, earlier, first, hjournal⟩

theorem cameFrom_of_takes {verdict : Verdict} (hstart : m.start shared = (.ok (), p))
    (hafter : p.after k = some q) (htakes : Takes q r verdict q₁) : CameFrom m q₁ := by
  have hbegun := cameFrom_start m shared
  rw [hstart] at hbegun
  exact (preserved_cameFrom m).takes htakes ((preserved_cameFrom m).after hbegun hafter)

section Failing

/-! What does not give an error itself makes no run fail with it. -/

variable (hfilters : ∀ f ∈ m.filters, f.Spares ω e) (hsource : RecordSource.Spares ω e m.source)
  (hsink : RecordSink.Spares ω e m.sink)

include hfilters

omit [RecordSource ω σ] [RecordSink ω κ] in
theorem start_ne_error (shared : ω) : (m.start shared).1 ≠ .error e := by
  intro h
  obtain ⟨f, hmem, w, hstart⟩ := @Filter.exists_of_startAll ω χ _ m.filters _ _ h
  exact (hfilters f hmem).start .self w hstart

omit [CustomPredicate ω π] in
theorem filter_ne_error (hcame : CameFrom m p) (r : Record) : (p.filter r).1 ≠ .error e := by
  intro h
  obtain ⟨f, hf, g, hbecomes, r', w, hhandle⟩ := hcame.exists_of_filter h (by simp)
  exact (hfilters f hf).handle hbecomes r' w hhandle

include hsink

omit [CustomPredicate ω π] in
theorem close_ne_error (hcame : CameFrom m p) : p.close.1 ≠ .error e := by
  rcases hclosed : Filter.finishAll p.mediator.filters p.shared with ⟨closed, filters, w₁⟩
  rcases hflushed : RecordSink.flush p.mediator.sink w₁ with ⟨flushed, sink, w₂⟩
  rw [close_eq hclosed hflushed]
  intro h
  cases closed with
  | error e' =>
    cases h
    obtain ⟨g, hmem, w, hfinish⟩ := Filter.exists_of_finishAll (congrArg Prod.fst hclosed)
    obtain ⟨f, hf, hbecomes⟩ := Filter.exists_of_forall₂_becomes hcame.filters hmem
    exact (hfilters f hf).finish hbecomes w hfinish
  | ok _ =>
    change flushed = .error e at h
    apply hsink.flush hcame.sink w₁
    rw [hflushed, h]

include hsource

/-- A cycle can only fail with an error that no part gives by flushing a record. -/
theorem flushed_of_fail (hcame : CameFrom m p) (h : Course p (.fail e) q) :
    ∃ r r' p₁, Offers p r (.ok (.flush r')) p₁ ∧ p₁.write r' = (.ok (), q) := by
  have hpreserved := preserved_cameFrom (ω := ω) m
  have hread {p₁ : Running ω σ κ χ π} (hp₁ : CameFrom m p₁) : p₁.read.1 ≠ .error e :=
    hsource _ hp₁.source _
  have hwrite {p₁ : Running ω σ κ χ π} (hp₁ : CameFrom m p₁) (r : Record) :
      (p₁.write r).1 ≠ .error e := by
    have hput := hsink.put hp₁.sink r.encode p₁.shared
    unfold Running.write
    split
    · simp
    · rename_i hfails
      rw [hfails] at hput
      exact hput
  -- A flush fails of its own accord. Any other failure is the answer of a part.
  generalize hending : CycleEnd.fail e = ending at h
  cases h with
  | flushed hoffers hwritten => exact ⟨_, _, _, hoffers, hwritten⟩
  | closed | exhausted | refused | skipped | withheld => cases hending
  | dropped => exact absurd hending.symm (afterWrite_ne_fail _ e)
  | passedOver | written => exact absurd hending.symm (conclude_ne_fail _ _ e)
  | unreadable hopens hfails =>
    cases hending
    exact absurd (congrArg Prod.fst hfails) (hread (hpreserved.opens hopens hcame))
  | failed hoffers =>
    cases hending
    rcases hoffers with ⟨htakes, hfails⟩
    exact absurd (congrArg Prod.fst hfails)
      (filter_ne_error hfilters (hpreserved.takes htakes hcame) _)
  | unflushed hoffers hfails =>
    cases hending
    exact absurd (congrArg Prod.fst hfails) (hwrite (hpreserved.offers hoffers hcame) _)
  | unwritten hjudges _ hfails =>
    cases hending
    exact absurd (congrArg Prod.fst hfails) (hwrite (hpreserved.judges hjudges hcame) _)

/-- A run can only fail with an error that no part gives by flushing a record in its last
    cycle. -/
theorem flushed_of_runWithin (h : m.runWithin limit shared = some (.error e, m', shared')) :
    ∃ k p q r r' q₁ q₂, k < limit ∧ m.start shared = (.ok (), p) ∧ p.after k = some q ∧
      CameFrom m q ∧ Offers q r (.ok (.flush r')) q₁ ∧ q₁.write r' = (.ok (), q₂) ∧
      conclude (.error e) q₂ = (.error e, m', shared') := by
  rcases runWithin_eq_some.1 h with ⟨e', p, hstart, hout⟩ | ⟨p, outcome, q₂, hstart, hcycles, hout⟩
  · cases hout
    exact absurd (congrArg Prod.fst hstart) (start_ne_error hfilters shared)
  · have hbegun := cameFrom_start m shared
    rw [hstart] at hbegun
    have hpreserved := preserved_cameFrom (ω := ω) m
    cases outcome with
    | ok state =>
      rcases hclose : q₂.close.1 with e' | _
      · rw [conclude_ok_of_close_error hclose] at hout
        cases hout
        exact absurd hclose
          (close_ne_error hfilters hsink (hpreserved.cycles hbegun hcycles))
      · rw [conclude_ok_of_close_ok hclose] at hout
        cases hout
    | error e' =>
      obtain ⟨k, q, hk, hafter, hcourse⟩ := exists_after_of_cycles_error hcycles
      have hcame := hpreserved.after hbegun hafter
      have hsame : e' = e := by
        rw [conclude_error] at hout
        cases hout
        rfl
      subst hsame
      obtain ⟨r, r', q₁, hoffers, hwrite⟩ :=
        flushed_of_fail hfilters hsource hsink hcame hcourse
      exact ⟨k, p, q, r, r', q₁, q₂, hk, hstart, hafter, hcame, hoffers, hwrite, hout.symm⟩

end Failing

section Marks

variable {before behind : List (Filter χ)}

/-- A mark that the predicates let go on after it was read is flushed. -/
theorem endsInFlush_of_mark (hfilters : m.filters = before ++ .abnormalEnd :: behind)
    (hbefore : ∀ f ∈ before, f.PassesMarks ω) (hkind : r.kind = .abnormalEnd)
    (hstart : m.start shared = (.ok (), p)) (hafter : p.after k = some q)
    (htakes : Takes q r .proceed q₁) :
    ∃ before₁ before₂ behind₁ w₁,
      q₁.mediator.filters = before₁ ++ .abnormalEnd :: behind₁ ∧
      before₁.length = before.length ∧
      (∀ others, Filter.handleAll (before₁ ++ .abnormalEnd :: others) r q₁.shared =
        (.ok (.flush r), before₂ ++ .abnormalEnd :: others, w₁)) ∧
      ∀ sink₁ w₂ closed filters w₃ flushed sink₂ w₄,
        RecordSink.put q₁.mediator.sink r.encode w₁ = (.ok (), sink₁, w₂) →
        Filter.finishAll (before₂ ++ .abnormalEnd :: behind₁) w₂ = (closed, filters, w₃) →
        RecordSink.flush sink₁ w₃ = (flushed, sink₂, w₄) →
        ∀ limit, k < limit → EndsInFlush m shared limit r r
          { q₁.mediator with filters, sink := sink₂, state := .aborted } w₄ := by
  have hcame := cameFrom_of_takes hstart hafter htakes
  have haround := hcame.filters
  rw [hfilters] at haround
  obtain ⟨before₁, behind₁, hnow, hmembers, -⟩ := Filter.forall₂_around haround
  have hpasses : ∀ g ∈ before₁, ∀ w : ω, (g.handle r w).1 = .ok (.emit r) := by
    intro g hg w
    obtain ⟨f, hf, hbecomes⟩ := Filter.exists_of_forall₂_becomes hmembers hg
    exact hbefore f hf g hbecomes r w hkind
  obtain ⟨before₂, w₁, -, hall⟩ := Filter.handleAll_of_passesMarks hkind hpasses q₁.shared
  refine ⟨before₁, before₂, behind₁, w₁, hnow, hmembers.length_eq.symm, hall, ?_⟩
  intro sink₁ w₂ closed filters w₃ flushed sink₂ w₄ hput hclosed hflushed limit hlimit
  -- The answer is the same with anything behind, so also with what is behind now.
  have hhandled := hall behind₁
  rw [← hnow] at hhandled
  have hoffers := Offers.intro htakes (filter_eq hhandled)
  apply endsInFlush_of_write hstart hafter hoffers (write_eq_of_ok hput) _ hlimit
  rw [conclude_error, close_eq hclosed hflushed]

/-- Only the filter for abnormal ends flushes, and only a mark. -/
theorem mark_of_flush (hfilters : m.filters = before ++ .abnormalEnd :: behind)
    (hothers : ∀ f ∈ before ++ behind, f.NeverFlushes ω) (hcame : CameFrom m q)
    (hoffers : Offers q r (.ok (.flush r')) q₁) : r'.kind = .abnormalEnd := by
  rcases hoffers with ⟨htakes, hfilter⟩
  have htaken := (preserved_cameFrom m).takes htakes hcame
  obtain ⟨f, hf, g, hbecomes, r₀, w, hhandle⟩ :=
    htaken.exists_of_filter (congrArg Prod.fst hfilter) (by simp)
  rw [hfilters, List.mem_append, List.mem_cons] at hf
  rcases hf with hf | rfl | hf
  · exact absurd hhandle (hothers f (List.mem_append_left behind hf) g hbecomes r₀ r' w)
  · rw [hbecomes.abnormalEnd] at hhandle
    obtain ⟨hsame, hkind⟩ := Filter.handle_abnormalEnd_eq_flush hhandle
    rw [hsame, hkind]
  · exact absurd hhandle (hothers f (List.mem_append_right before hf) g hbecomes r₀ r' w)

end Marks

/-- A mark of an abnormal end that was read, and that neither a predicate nor a member in front
    of the filter for abnormal ends keeps back, is the last block of the run. Nothing behind that
    filter is called for it, no predicate in front of the sink is asked, and nothing more is
    read. Once it has been put into the sink the filters are closed and the sink is flushed, each
    once, and the run fails with the mediator aborted. Unless something else asks for a flush or
    fails in the same way, a run fails so only after it has written a mark. -/
theorem run_flushes_mark (m : Mediator σ κ χ π) (shared : ω) (before behind : List (Filter χ))
    (hfilters : m.filters = before ++ .abnormalEnd :: behind) :
    (∀ (k : Nat) (r : Record) (p q q₁ : Running ω σ κ χ π),
      (∀ f ∈ before, f.PassesMarks ω) → r.kind = .abnormalEnd →
      m.start shared = (.ok (), p) → p.after k = some q → Takes q r .proceed q₁ →
      ∃ before₁ before₂ behind₁ w₁,
        q₁.mediator.filters = before₁ ++ .abnormalEnd :: behind₁ ∧
        before₁.length = before.length ∧
        (∀ others, Filter.handleAll (before₁ ++ .abnormalEnd :: others) r q₁.shared =
          (.ok (.flush r), before₂ ++ .abnormalEnd :: others, w₁)) ∧
        ∀ sink₁ w₂ closed filters w₃ flushed sink₂ w₄,
          RecordSink.put q₁.mediator.sink r.encode w₁ = (.ok (), sink₁, w₂) →
          Filter.finishAll (before₂ ++ .abnormalEnd :: behind₁) w₂ = (closed, filters, w₃) →
          RecordSink.flush sink₁ w₃ = (flushed, sink₂, w₄) →
          ∀ limit, k < limit → EndsInFlush m shared limit r r
            { q₁.mediator with filters, sink := sink₂, state := .aborted } w₄) ∧
    ((∀ f ∈ before ++ behind, f.Spares ω .abnormalEnd ∧ f.NeverFlushes ω) →
      RecordSource.Spares ω .abnormalEnd m.source → RecordSink.Spares ω .abnormalEnd m.sink →
      ∀ (limit : Nat) (m' : Mediator σ κ χ π) (shared' : ω),
        m.runWithin limit shared = some (.error .abnormalEnd, m', shared') →
        ∃ r r', r'.kind = .abnormalEnd ∧ EndsInFlush m shared limit r r' m' shared') := by
  constructor
  · intro k r p q q₁ hbefore hkind hstart hafter htakes
    exact endsInFlush_of_mark hfilters hbefore hkind hstart hafter htakes
  · intro hothers hsource hsink limit m' shared' hrun
    have hspares : ∀ f ∈ m.filters, f.Spares ω .abnormalEnd := by
      intro f hf
      rw [hfilters, List.mem_append, List.mem_cons] at hf
      rcases hf with hf | rfl | hf
      · exact (hothers f (List.mem_append_left behind hf)).1
      · exact Filter.spares_abnormalEnd .abnormalEnd
      · exact (hothers f (List.mem_append_right before hf)).1
    obtain ⟨k, p, q, r, r', q₁, q₂, hlimit, hstart, hafter, hcame, hoffers, hwrite, hend⟩ :=
      flushed_of_runWithin hspares hsource hsink hrun
    refine ⟨r, r', ?_, endsInFlush_of_write hstart hafter hoffers hwrite hend hlimit⟩
    exact mark_of_flush hfilters (fun f hf => (hothers f hf).2) hcame hoffers

/-- A predicate that keeps every record from the sink. -/
structure Withholding where

instance : CustomPredicate Unit Withholding where
  judge p point w :=
    match point with
    | .preOutput _ => (.skip, p, w)
    | _ => (.proceed, p, w)
  reset p w := (p, w)

def eventBefore : Record := .physicsEvent .v12 none [1]

def mark : Record := .assemble .v12 none .abnormalEnd

def eventBehind : Record := .physicsEvent .v12 none [2]

/-- A mark between two events, with counters around the filter for abnormal ends. -/
def marked : Mediator MemorySource MemorySink Empty Withholding where
  source := { records := [eventBefore, mark, eventBehind] }
  sink := {}
  filters := [.kindCount {}, .abnormalEnd, .kindCount {}]
  predicates := [.custom {}]

/-- The event in front of the mark is withheld, the mark is not. The event behind it is not read,
    and only the first counter has seen the mark. -/
theorem run_flushes_mark_marked :
    marked.filters = [.kindCount {}] ++ .abnormalEnd :: [.kindCount {}] ∧
    ∃ m', EndsInFlush marked () 2 mark mark m' () ∧
      m'.state = .aborted ∧ m'.sink.blocks = #[mark.encode] ∧
      m'.source.records.length = 1 ∧
      (Filter.allTables m'.filters).map (fun t => t.total .abnormalEnd) = [1, 0] ∧
      ∃ r r', r'.kind = .abnormalEnd ∧ EndsInFlush marked () 2 r r' m' () := by
  have hpassive : (Filter.kindCount {} : Filter Empty).Passive := .kindCount {}
  obtain ⟨hflush, honly⟩ := run_flushes_mark marked () [.kindCount {}] [.kindCount {}] rfl
  have hbefore : ∀ f ∈ ([.kindCount {}] : List (Filter Empty)), f.PassesMarks Unit := by
    intro f hf
    rw [List.mem_singleton.1 hf]
    exact hpassive.passesMarks
  have hstart : marked.start () = (.ok (), (marked.start ()).2) := rfl
  have hafter : (marked.start ()).2.after 1 = some (marked.start ()).2.cycle.2 := rfl
  have htakes : Takes (marked.start ()).2.cycle.2 mark .proceed
      { (marked.start ()).2.cycle.2 with
        mediator.source := { records := [eventBehind] }
        tally.read := 2 } := by
    refine .intro (.intro rfl ?_) rfl rfl
    decide
  obtain ⟨_, _, _, _, -, -, -, hend⟩ := hflush 1 mark _ _ _ hbefore rfl hstart hafter htakes
  have hflushed := hend _ _ _ _ _ _ _ _ rfl rfl rfl 2 (by decide)
  refine ⟨rfl, _, hflushed, rfl, rfl, rfl, ?_, ?_⟩
  · have hcounts : (marked.runWithin 2 ()).map (fun out =>
        (Filter.allTables out.2.1.filters).map (fun t => t.total .abnormalEnd)) =
          some [1, 0] := by
      decide +kernel
    rw [hflushed.run] at hcounts
    exact Option.some_inj.1 hcounts
  · refine honly ?_ ?_ ?_ 2 _ _ hflushed.run
    · intro f hf
      have hcounts : f = .kindCount {} := by simpa using hf
      rw [hcounts]
      exact ⟨hpassive.spares .abnormalEnd, hpassive.neverFlushes⟩
    · intro s _ w
      simp [RecordSource.readOne]
    · exact ⟨fun _ _ _ => by simp [RecordSink.put], fun _ _ => by simp [RecordSink.flush]⟩

end Mediator

end DaqStream
