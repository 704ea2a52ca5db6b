import DaqStream.Proofs.Pipeline.Cycle

/-!
# The state of a mediator after a run

A run writes the state of its mediator on each of its ways out, except one: when the cycles
ended in good order and closing fails, the run reports the failure and the mediator is left
running. `settled_iff` says that this is the only way in which the state can disagree with
what the run reports.
-/

namespace DaqStream

namespace Mediator

variable {ω σ κ χ π : Type} [RecordSource ω σ] [RecordSink ω κ] [CustomFilter ω χ]
  [CustomPredicate ω π]

/-- The state of a mediator agrees with what its run reported. -/
def Settled (result : Except PipelineError RunSummary) (state : MediatorState) : Prop :=
  state ≠ .running ∧ match result with
    | .ok summary => state = summary.state ∧ (state = .finished ∨ state = .aborted)
    | .error _ => state = .aborted

/-- The cycles end in good order, and then a filter cannot be closed or the sink cannot be
    flushed. -/
def ClosingFails (limit : Nat) (m : Mediator σ κ χ π) (shared : ω) : Prop :=
  ∃ p q state e, m.start shared = (.ok (), p) ∧ p.cycles limit = some (.ok state, q) ∧
    q.close.1 = .error e

/-- Only a failure to close after cycles that ended in good order leaves the state of the
    mediator at odds with what the run reports: it is still running, and an error is reported. -/
theorem settled_iff {limit : Nat} {m m' : Mediator σ κ χ π} {shared shared' : ω}
    {result : Except PipelineError RunSummary}
    (h : m.runWithin limit shared = some (result, m', shared')) :
    (Settled result m'.state ↔ ¬ ClosingFails limit m shared) ∧
      (ClosingFails limit m shared → m'.state = .running ∧ ∃ e, result = .error e) := by
  rcases runWithin_eq_some.1 h with ⟨e, p, hstart, hout⟩ | ⟨p, outcome, q, hstart, hcycles, hout⟩
  · cases hout
    have hnot : ¬ ClosingFails limit m shared := by
      rintro ⟨_, _, _, _, hok, -⟩
      rw [hstart] at hok
      cases hok
    exact ⟨iff_of_true ⟨by simp, rfl⟩ hnot, fun hfails => absurd hfails hnot⟩
  · have hrunning : q.mediator.state = .running := by
      refine Running.preserved_state.cycles ?_ hcycles
      have hstate : (m.start shared).2.mediator.state = .running := rfl
      rw [hstart] at hstate
      exact hstate
    -- A run goes one way, so whether closing fails is a question about where its cycles end.
    have hfails : ClosingFails limit m shared ↔
        ∃ state e, outcome = .ok state ∧ q.close.1 = .error e := by
      constructor
      · rintro ⟨_, _, state, e, hok, hcycles', hclose⟩
        rw [hstart] at hok
        cases hok
        rw [hcycles] at hcycles'
        cases hcycles'
        exact ⟨state, e, rfl, hclose⟩
      · rintro ⟨state, e, rfl, hclose⟩
        exact ⟨p, q, state, e, hstart, hcycles, hclose⟩
    rw [hfails]
    cases outcome with
    | error e =>
      rw [conclude_error] at hout
      cases hout
      have hnot : ¬ ∃ state e', (.error e : Except PipelineError MediatorState) = .ok state ∧
          q.close.1 = .error e' := by
        rintro ⟨_, _, hok, -⟩
        cases hok
      exact ⟨iff_of_true ⟨by simp, rfl⟩ hnot, fun hfails => absurd hfails hnot⟩
    | ok state =>
      cases hclose : q.close.1 with
      | ok _ =>
        rw [conclude_ok_of_close_ok hclose] at hout
        cases hout
        have hfinal := Running.final_cycles hcycles
        have hne : state ≠ .running := by
          rcases hfinal with rfl | rfl <;> simp
        exact ⟨iff_of_true ⟨hne, rfl, hfinal⟩ (by simp), by simp⟩
      | error e =>
        rw [conclude_ok_of_close_error hclose] at hout
        cases hout
        have hkept : q.close.2.mediator.state = .running := hrunning
        have hnot : ¬ Settled (.error e) q.close.2.mediator.state := fun hsettled =>
          hsettled.1 hkept
        exact ⟨iff_of_false hnot (by simp), fun _ => ⟨hkept, e, rfl⟩⟩

/-- Nothing to read, and a writer that cannot pass on what it was given. -/
def brokenAtFlush : Mediator MemorySource StreamSink Empty Empty where
  source := { records := [] }
  sink := { flushes := [some ⟨.brokenPipe, "broken pipe"⟩] }

theorem not_settled_brokenAtFlush :
    ∃ result m', brokenAtFlush.runWithin 1 () = some (result, m', ()) ∧
      ¬ Settled result m'.state ∧ m'.state = .running := by
  have hrun : brokenAtFlush.runWithin 1 () =
      some (.error (.transport ⟨.brokenPipe, "broken pipe"⟩),
        { brokenAtFlush with
          source := { records := [], atEnd := true }, sink := {}, state := .running }, ()) := by
    rfl
  have hfails : ClosingFails 1 brokenAtFlush () :=
    ⟨_, _, .finished, .transport ⟨.brokenPipe, "broken pipe"⟩, rfl, rfl, rfl⟩
  obtain ⟨hiff, hrunning⟩ := settled_iff hrun
  exact ⟨_, _, hrun, fun hsettled => hiff.1 hsettled hfails, (hrunning hfails).1⟩

end Mediator

end DaqStream
