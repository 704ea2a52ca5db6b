import DaqStream.Pipeline.Unglom
import DaqStream.Proofs.Pipeline.AbnormalEnd

/-!
# What a pipeline fails with

A run of a mediator fails with what one of its parts fails with, or because a record was flushed
(`Mediator.run_ne_error`). A decomposition fails with what its source or its sink fails with, or
because a record is damaged (`Unglom.run_ne_error`). The streams of this library never fail with a
bad URI, which was read before they were there.
-/

namespace DaqStream

namespace Filter

variable {ω χ : Type} [CustomFilter ω χ] {b : RunBarrier} {g : Filter χ} {e : PipelineError}

theorem Becomes.oneShot (h : Becomes ω (oneShot b) g) : ∃ b', g = oneShot b' := by
  induction h with
  | self => exact ⟨b, rfl⟩
  | start w _ ih =>
    obtain ⟨b', rfl⟩ := ih
    exact ⟨b'.reset, by rw [Filter.start]⟩
  | handle r w _ ih =>
    obtain ⟨b', rfl⟩ := ih
    exact ⟨(b'.handle r).2, by rw [Filter.handle]⟩

/-- All that a barrier complains about are transitions. -/
theorem spares_oneShot (b : RunBarrier) (he : ∀ cause, e ≠ .unexpectedTransition cause) :
    (oneShot b : Filter χ).Spares ω e where
  start hbecomes w := by
    obtain ⟨b', rfl⟩ := hbecomes.oneShot
    rw [Filter.start]
    simp
  handle hbecomes r w := by
    obtain ⟨b', rfl⟩ := hbecomes.oneShot
    rw [Filter.handle]
    intro h
    dsimp only at h
    unfold RunBarrier.handle at h
    split at h
    · split at h
      · cases h
      · cases h
        exact he _ rfl
    · cases h
  finish hbecomes w := by
    obtain ⟨b', rfl⟩ := hbecomes.oneShot
    rw [Filter.finish]
    simp

end Filter

/-- A run fails with what one of its parts fails with, or after a flush. -/
theorem Mediator.run_ne_error {ω σ κ χ π : Type} [FiniteSource ω σ] [RecordSink ω κ]
    [CustomFilter ω χ] [CustomPredicate ω π] {m : Mediator σ κ χ π} {e : PipelineError}
    (hfilters : ∀ f ∈ m.filters, f.Spares ω e) (hsource : RecordSource.Spares ω e m.source)
    (hsink : RecordSink.Spares ω e m.sink) (he : e ≠ .abnormalEnd) (shared : ω) :
    (m.run shared).1 ≠ .error e := by
  intro h
  rcases hrun : m.run shared with ⟨result, m', shared'⟩
  rw [hrun] at h
  dsimp only at h
  subst h
  have hwithin := Mediator.runWithin_supply m shared
  rw [hrun] at hwithin
  obtain ⟨k, p, q, r, r', q₁, q₂, hk, hstart, hafter, -, hoffers, hwrite, -⟩ :=
    flushed_of_runWithin hfilters hsource hsink hwithin
  obtain ⟨_, _, hflushes⟩ := runWithin_of_flush hstart hafter hoffers hwrite
  obtain ⟨hflushed, -⟩ := hflushes _ hk
  rw [hwithin, conclude_error] at hflushed
  cases hflushed
  exact he rfl

namespace Unglom

variable {ω σ κ : Type} [RecordSink ω κ] {e : PipelineError}

section Failing

/-! A decomposition fails with what its source or its sink fails with, or with a damaged built
event. -/

variable (hput : ∀ (k : κ) (parts : List Bytes) (w : ω),
    (RecordSink.putParts k parts w).1 ≠ .error e)

include hput

theorem emit_ne_error (u : Unglom σ κ) (shared : ω) (blocks : List (FragmentHeader × Bytes)) :
    (u.emit shared blocks).1 ≠ .error e := by
  induction blocks generalizing u shared with
  | nil => simp [emit]
  | cons block blocks ih =>
    intro h
    unfold emit at h
    split at h
    · exact ih _ _ h
    · rename_i hfails
      cases h
      exact hput _ _ _ (congrArg Prod.fst hfails)

variable [FiniteSource ω σ] (hmalformed : ∀ cause, e ≠ .malformedRecord cause)
  (hread : ∀ (s : σ) (w : ω), (RecordSource.readOne s w).1 ≠ .error e)

include hmalformed hread

theorem processOne_ne_error (u : Unglom σ κ) (shared : ω) :
    (u.processOne shared).1 ≠ .error e := by
  intro h
  unfold processOne at h
  split at h
  · rename_i hfails
    cases h
    exact hread _ _ (congrArg Prod.fst hfails)
  · cases h
  · dsimp only at h
    split at h
    · rename_i hfails
      cases h
      exact emit_ne_error hput _ _ _ (congrArg Prod.fst hfails)
    · split at h
      · cases h
        exact hmalformed _ rfl
      · cases h

theorem fst_ne_error_of_steps {limit : Nat} {u : Unglom σ κ} {shared : ω}
    {out : Except PipelineError Unit × Unglom σ κ × ω} (h : u.steps limit shared = some out) :
    out.1 ≠ .error e := by
  induction limit generalizing u shared with
  | zero => cases h
  | succ limit ih =>
    unfold steps at h
    split at h
    · exact ih h
    · cases h
      simp
    · rename_i hfails
      cases h
      intro hsame
      cases hsame
      exact processOne_ne_error hput hmalformed hread u shared (congrArg Prod.fst hfails)

theorem run_ne_error (hflush : ∀ (k : κ) (w : ω), (RecordSink.flush k w).1 ≠ .error e)
    (u : Unglom σ κ) (shared : ω) : (u.run shared).1 ≠ .error e := by
  have hrun : u.runWithin _ shared = some (u.run shared) :=
    (Option.some_get (isSome_runWithin u shared)).symm
  obtain ⟨out, hsteps, hout⟩ := Option.map_eq_some_iff.1 hrun
  have hended := fst_ne_error_of_steps hput hmalformed hread hsteps
  rw [← hout]
  intro h
  obtain ⟨_ | _, u', shared'⟩ := out
  · cases h
    exact hended rfl
  · unfold conclude at h
    split at h
    · rename_i heq
      cases heq
    · split at h
      · cases h
      · rename_i hfails
        cases h
        exact hflush _ _ (congrArg Prod.fst hfails)

end Failing

end Unglom

namespace StreamSource

variable {s : StreamSource} {cause : EndpointError}

theorem readRest_ne_configuration (word : Bytes) (declared : Nat) :
    (s.readRest word declared).1 ≠ .error (.configuration cause) := by
  unfold readRest
  split
  · simp
  · split
    · simp
    · split <;> simp

theorem readOne_ne_configuration : s.readOne.1 ≠ .error (.configuration cause) := by
  unfold readOne
  split
  · simp
  · split
    · simp
    · split
      · simp
      · split
        · simp
        · dsimp only
          split
          · simp
          · split
            · simp
            · exact readRest_ne_configuration _ _

end StreamSource

theorem exists_of_mapError {ε ε' α : Type} {x : Except ε α} {f : ε → ε'} {e' : ε'}
    (h : x.mapError f = .error e') : ∃ e, x = .error e ∧ f e = e' := by
  cases x with
  | error e =>
    cases h
    exact ⟨e, rfl, rfl⟩
  | ok a => cases h

theorem mapError_transport_ne_configuration {α : Type} {x : Except IoError α}
    {cause : EndpointError} :
    x.mapError PipelineError.transport ≠ .error (.configuration cause) := by
  intro h
  obtain ⟨_, -, ⟨⟩⟩ := exists_of_mapError h

end DaqStream
