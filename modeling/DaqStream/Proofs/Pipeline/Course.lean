import DaqStream.Pipeline.Mediator

/-!
# The courses of a cycle

A cycle gets as far as the predicates, the source, the filters and the sink let it. `Opens`,
`Takes`, `Offers` and `Judges` say how far it has got, and `Course` what becomes of it there:
there is one constructor for each way in which a cycle can end, and no other (`course_cycle`).
The cases of a cycle are gone through here; later proofs go by the course.
-/

namespace DaqStream

namespace Running

variable {ω σ κ χ π : Type} [RecordSource ω σ] [RecordSink ω κ] [CustomFilter ω χ]
  [CustomPredicate ω π]

/-- The predicates let the cycle begin. -/
inductive Opens (p : Running ω σ κ χ π) : Running ω σ κ χ π → Prop
  | intro {verdict : Verdict} {q : Running ω σ κ χ π} :
      p.ask .preInput = (verdict, q) → verdict ≠ .abort → Opens p q

/-- The cycle read a record and counted it, and the predicates said something of it. -/
inductive Takes (p : Running ω σ κ χ π) (r : Record) (verdict : Verdict) :
    Running ω σ κ χ π → Prop
  | intro {p₁ p₂ q : Running ω σ κ χ π} :
      Opens p p₁ → p₁.read = (.ok (some r), p₂) →
      ask { p₂ with tally.read := p₂.tally.read + 1 } (.postInput r.kind) = (verdict, q) →
      Takes p r verdict q

/-- The filters were handed the record, with this result. -/
inductive Offers (p : Running ω σ κ χ π) (r : Record)
    (result : Except PipelineError FilterOutput) : Running ω σ κ χ π → Prop
  | intro {p₁ q : Running ω σ κ χ π} :
      Takes p r .proceed p₁ → p₁.filter r = (result, q) → Offers p r result q

/-- The filters let `r'` through, and no predicate stopped it in front of the sink. -/
inductive Judges (p : Running ω σ κ χ π) (r r' : Record) (before last : Verdict) :
    Running ω σ κ χ π → Prop
  | intro {p₁ p₂ q : Running ω σ κ χ π} :
      Offers p r (.ok (.emit r')) p₁ → p₁.ask (.preOutput r'.kind) = (before, p₂) →
      before ≠ .abort → p₂.ask (.postOutput r'.kind) = (last, q) → Judges p r r' before last q

/-- How a cycle goes, and the pipeline as it is afterwards. -/
inductive Course (p : Running ω σ κ χ π) : CycleEnd → Running ω σ κ χ π → Prop
  | closed {q : Running ω σ κ χ π} :
      p.ask .preInput = (.abort, q) → Course p (.stop .aborted) q
  | unreadable {e : PipelineError} {p₁ q : Running ω σ κ χ π} :
      Opens p p₁ → p₁.read = (.error e, q) → Course p (.fail e) q
  | exhausted {p₁ q : Running ω σ κ χ π} :
      Opens p p₁ → p₁.read = (.ok none, q) → Course p (.stop .finished) q
  | refused {r : Record} {q : Running ω σ κ χ π} :
      Takes p r .abort q → Course p (.stop .aborted) q
  | skipped {r : Record} {q : Running ω σ κ χ π} :
      Takes p r .skip q → Course p .next { q with tally.skipped := q.tally.skipped + 1 }
  | failed {r : Record} {e : PipelineError} {q : Running ω σ κ χ π} :
      Offers p r (.error e) q → Course p (.fail e) q
  | dropped {r : Record} {q : Running ω σ κ χ π} :
      Offers p r (.ok .drop) q →
      Course p q.afterWrite { q with tally.dropped := q.tally.dropped + 1 }
  | flushed {r r' : Record} {p₁ q : Running ω σ κ χ π} :
      Offers p r (.ok (.flush r')) p₁ → p₁.write r' = (.ok (), q) →
      Course p (.fail .abnormalEnd) q
  | unflushed {r r' : Record} {e : PipelineError} {p₁ q : Running ω σ κ χ π} :
      Offers p r (.ok (.flush r')) p₁ → p₁.write r' = (.error e, q) → Course p (.fail e) q
  | withheld {r r' : Record} {p₁ q : Running ω σ κ χ π} :
      Offers p r (.ok (.emit r')) p₁ → p₁.ask (.preOutput r'.kind) = (.abort, q) →
      Course p (.stop .aborted) q
  | passedOver {r r' : Record} {before last : Verdict} {q : Running ω σ κ χ π} :
      Judges p r r' before last q → before = .skip ∨ last = .skip →
      Course p (q.conclude last) { q with tally.skipped := q.tally.skipped + 1 }
  | written {r r' : Record} {before last : Verdict} {p₁ q : Running ω σ κ χ π} :
      Judges p r r' before last p₁ → ¬ (before = .skip ∨ last = .skip) →
      p₁.write r' = (.ok (), q) → Course p (q.conclude last) q
  | unwritten {r r' : Record} {before last : Verdict} {e : PipelineError}
      {p₁ q : Running ω σ κ χ π} :
      Judges p r r' before last p₁ → ¬ (before = .skip ∨ last = .skip) →
      p₁.write r' = (.error e, q) → Course p (.fail e) q

variable {p q : Running ω σ κ χ π} {r r' : Record} {ending : CycleEnd}

theorem course_output {p₁ : Running ω σ κ χ π} (h : Offers p r (.ok (.emit r')) p₁) :
    Course p (p₁.output r').1 (p₁.output r').2 := by
  unfold output
  rcases hbefore : p₁.ask (.preOutput r'.kind) with ⟨before, p₂⟩
  by_cases habort : before = .abort
  · subst habort
    exact .withheld h hbefore
  · rcases hlast : p₂.ask (.postOutput r'.kind) with ⟨last, p₃⟩
    have hjudges := Judges.intro h hbefore habort hlast
    split
    · rename_i hpair
      cases hpair
      exact absurd rfl habort
    · rename_i hpair
      cases hpair
      dsimp only
      rw [hlast]
      dsimp only
      by_cases hskip : before = .skip ∨ last = .skip
      · rw [if_pos hskip]
        exact .passedOver hjudges hskip
      · rw [if_neg hskip]
        rcases hwrite : p₃.write r' with ⟨_ | _, p₄⟩
        · exact .unwritten hjudges hskip hwrite
        · exact .written hjudges hskip hwrite

theorem course_transform {p₁ : Running ω σ κ χ π} (h : Takes p r .proceed p₁) :
    Course p (p₁.transform r).1 (p₁.transform r).2 := by
  unfold transform
  rcases hfilter : p₁.filter r with ⟨_ | out, p₂⟩
  · exact .failed (.intro h hfilter)
  · have hoffers := Offers.intro h hfilter
    cases out with
    | emit r' => exact course_output hoffers
    | drop => exact .dropped hoffers
    | flush r' =>
      dsimp only
      rcases hwrite : p₂.write r' with ⟨_ | _, p₃⟩
      · exact .unflushed hoffers hwrite
      · exact .flushed hoffers hwrite

theorem course_input {p₁ : Running ω σ κ χ π} (h : Opens p p₁) :
    Course p p₁.input.1 p₁.input.2 := by
  unfold input
  rcases hread : p₁.read with ⟨_ | _ | r, p₂⟩
  · exact .unreadable h hread
  · exact .exhausted h hread
  · dsimp only
    rcases hask : ask { p₂ with tally.read := p₂.tally.read + 1 } (.postInput r.kind) with
      ⟨verdict, p₃⟩
    have htakes := Takes.intro h hread hask
    cases verdict with
    | abort => exact .refused htakes
    | skip => exact .skipped htakes
    | proceed => exact course_transform htakes

/-- Every cycle takes one of the courses. -/
theorem course_cycle (p : Running ω σ κ χ π) : Course p p.cycle.1 p.cycle.2 := by
  unfold cycle
  rcases hask : p.ask .preInput with ⟨verdict, p₁⟩
  cases verdict with
  | abort => exact .closed hask
  | proceed => exact course_input (.intro hask (by simp))
  | skip => exact course_input (.intro hask (by simp))

theorem Opens.cycle_eq (h : Opens p q) : p.cycle = q.input := by
  rcases h with ⟨hask, habort⟩
  rename_i verdict
  rw [cycle, hask]
  cases verdict with
  | abort => exact absurd rfl habort
  | proceed => rfl
  | skip => rfl

theorem Takes.cycle_eq {verdict : Verdict} (h : Takes p r verdict q) :
    p.cycle = match verdict with
      | .abort => (.stop .aborted, q)
      | .skip => (.next, { q with tally.skipped := q.tally.skipped + 1 })
      | .proceed => q.transform r := by
  rcases h with ⟨hopens, hread, hask⟩
  rw [hopens.cycle_eq, input, hread]
  dsimp only
  rw [hask]
  cases verdict <;> rfl

theorem Offers.cycle_eq {result : Except PipelineError FilterOutput} (h : Offers p r result q) :
    p.cycle = match result with
      | .error e => (.fail e, q)
      | .ok (.emit r') => q.output r'
      | .ok .drop => (q.afterWrite, { q with tally.dropped := q.tally.dropped + 1 })
      | .ok (.flush r') =>
        match q.write r' with
        | (.error e, q) => (.fail e, q)
        | (.ok (), q) => (.fail .abnormalEnd, q) := by
  rcases h with ⟨htakes, hfilter⟩
  rw [htakes.cycle_eq]
  dsimp only
  rw [transform, hfilter]
  rcases result with _ | _ | _ | _ <;> rfl

theorem Judges.cycle_eq {before last : Verdict} (h : Judges p r r' before last q) :
    p.cycle =
      if before = .skip ∨ last = .skip then
        (q.conclude last, { q with tally.skipped := q.tally.skipped + 1 })
      else match q.write r' with
        | (.error e, q) => (.fail e, q)
        | (.ok (), q) => (q.conclude last, q) := by
  rcases h with ⟨hoffers, hbefore, habort, hlast⟩
  rw [hoffers.cycle_eq]
  dsimp only
  rw [output, hbefore]
  cases before with
  | abort => exact absurd rfl habort
  | proceed =>
    dsimp only
    rw [hlast]
    rfl
  | skip =>
    dsimp only
    rw [hlast]
    rfl

/-- A cycle takes no other course than the one that it takes. -/
theorem Course.cycle_eq (h : Course p ending q) : p.cycle = (ending, q) := by
  cases h with
  | closed hask => rw [cycle, hask]
  | unreadable hopens hread => rw [hopens.cycle_eq, input, hread]
  | exhausted hopens hread => rw [hopens.cycle_eq, input, hread]
  | refused htakes => exact htakes.cycle_eq
  | skipped htakes => exact htakes.cycle_eq
  | failed hoffers => exact hoffers.cycle_eq
  | dropped hoffers => exact hoffers.cycle_eq
  | flushed hoffers hwrite =>
    rw [hoffers.cycle_eq]
    dsimp only
    rw [hwrite]
  | unflushed hoffers hwrite =>
    rw [hoffers.cycle_eq]
    dsimp only
    rw [hwrite]
  | withheld hoffers hask =>
    rw [hoffers.cycle_eq]
    dsimp only
    rw [output, hask]
  | passedOver hjudges hskip => rw [hjudges.cycle_eq, if_pos hskip]
  | written hjudges hskip hwrite => rw [hjudges.cycle_eq, if_neg hskip, hwrite]
  | unwritten hjudges hskip hwrite => rw [hjudges.cycle_eq, if_neg hskip, hwrite]

theorem course_iff : Course p ending q ↔ p.cycle = (ending, q) := by
  constructor
  · intro h
    exact h.cycle_eq
  · intro h
    have hcourse := course_cycle p
    rw [h] at hcourse
    exact hcourse

section Cycles

variable {limit limit' : Nat} {outcome : Except PipelineError MediatorState}

theorem cycles_succ_of_next (h : p.cycle = (.next, q)) : p.cycles (limit + 1) = q.cycles limit := by
  rw [cycles, h]

theorem cycles_succ_of_ne_next {ending : CycleEnd} (h : p.cycle = (ending, q))
    (hends : ending ≠ .next) :
    ∃ outcome, ∀ limit : Nat, p.cycles (limit + 1) = some (outcome, q) := by
  cases ending with
  | next => exact absurd rfl hends
  | stop state => exact ⟨.ok state, fun limit => by rw [cycles, h]⟩
  | fail e => exact ⟨.error e, fun limit => by rw [cycles, h]⟩

/-- More cycles than a run needs change nothing. -/
theorem cycles_mono (h : p.cycles limit = some (outcome, q)) (hle : limit ≤ limit') :
    p.cycles limit' = some (outcome, q) := by
  induction limit generalizing p limit' with
  | zero => cases h
  | succ limit ih =>
    cases limit' with
    | zero => cases hle
    | succ limit' =>
      rcases hcycle : p.cycle with ⟨ending, p₁⟩
      by_cases hnext : ending = .next
      · subst hnext
        rw [cycles_succ_of_next hcycle] at h ⊢
        exact ih h (Nat.le_of_succ_le_succ hle)
      · obtain ⟨outcome', hends⟩ := cycles_succ_of_ne_next hcycle hnext
        rw [hends] at h ⊢
        exact h

/-- The pipeline after so many cycles, if none of them ends the run. -/
def after : Nat → Running ω σ κ χ π → Option (Running ω σ κ χ π)
  | 0, p => some p
  | k + 1, p =>
    match p.cycle with
    | (.next, q) => after k q
    | _ => none

theorem after_succ {k : Nat} (h : p.after (k + 1) = some q) :
    ∃ p₁, p.cycle = (.next, p₁) ∧ p₁.after k = some q := by
  unfold after at h
  rcases hcycle : p.cycle with ⟨ending, p₁⟩
  rw [hcycle] at h
  cases ending with
  | next => exact ⟨p₁, rfl, h⟩
  | stop state => cases h
  | fail e => cases h

theorem cycles_of_after {k : Nat} (h : p.after k = some q) :
    p.cycles (k + limit) = q.cycles limit := by
  induction k generalizing p with
  | zero =>
    cases h
    rw [Nat.zero_add]
  | succ k ih =>
    obtain ⟨p₁, hcycle, hrest⟩ := after_succ h
    rw [Nat.succ_add, cycles_succ_of_next hcycle]
    exact ih hrest

/-- A run ends with the cycle that ends it. -/
theorem eq_of_after {k : Nat} {ending : CycleEnd} {q' last : Running ω σ κ χ π}
    (hafter : p.after k = some q) (hcycle : q.cycle = (ending, q')) (hends : ending ≠ .next)
    (h : p.cycles limit = some (outcome, last)) : last = q' := by
  obtain ⟨outcome', hstop⟩ := cycles_succ_of_ne_next hcycle hends
  have hone : p.cycles (k + 1) = some (outcome', q') := (cycles_of_after hafter).trans (hstop 0)
  have hleft := cycles_mono h (Nat.le_max_left limit (k + 1))
  have hright := cycles_mono hone (Nat.le_max_right limit (k + 1))
  rw [hleft] at hright
  cases hright
  rfl

end Cycles

end Running

end DaqStream
