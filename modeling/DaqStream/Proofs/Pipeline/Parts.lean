import DaqStream.Proofs.Pipeline.Cycle
import DaqStream.Proofs.Pipeline.Passive
import Mathlib.Data.List.Forall2

/-!
# What the parts of a pipeline become

A run calls its filters, its source and its sink over and over, and every call may change the
part that is called. `Becomes` says what a part can be after such calls. Throughout a run its
parts are what those of the mediator can become, and the filters stay in their order
(`preserved_cameFrom`). So what holds of a part in whatever state it gets into holds at every
point of a run.
-/

namespace DaqStream

/-- What a source can be after it was asked for records. -/
inductive RecordSource.Becomes (ω : Type) {σ : Type} [RecordSource ω σ] (s : σ) : σ → Prop
  | self : RecordSource.Becomes ω s s
  | readOne {s' : σ} (w : ω) :
      RecordSource.Becomes ω s s' → RecordSource.Becomes ω s (RecordSource.readOne s' w).2.1

/-- What a sink can be after it was given blocks. -/
inductive RecordSink.Becomes (ω : Type) {κ : Type} [RecordSink ω κ] (k : κ) : κ → Prop
  | self : RecordSink.Becomes ω k k
  | put {k' : κ} (block : Bytes) (w : ω) :
      RecordSink.Becomes ω k k' → RecordSink.Becomes ω k (RecordSink.put k' block w).2.1

namespace Filter

/-- What a filter can be after it was prepared and handed records. -/
inductive Becomes (ω : Type) {χ : Type} [CustomFilter ω χ] (f : Filter χ) : Filter χ → Prop
  | self : Becomes ω f f
  | start {g : Filter χ} (w : ω) : Becomes ω f g → Becomes ω f (g.start w).2.1
  | handle {g : Filter χ} (r : Record) (w : ω) : Becomes ω f g → Becomes ω f (g.handle r w).2.1

variable {ω χ : Type} [CustomFilter ω χ] {f g : Filter χ} {fs gs : List (Filter χ)}

theorem Becomes.abnormalEnd (h : Becomes ω abnormalEnd g) : g = abnormalEnd := by
  induction h with
  | self => rfl
  | start w _ ih => rw [ih, Filter.start]
  | handle r w _ ih => rw [ih, Filter.handle]

/-- A filter that only looks on keeps looking on. -/
theorem Becomes.passive (h : Becomes ω f g) (hf : f.Passive) : g.Passive := by
  induction h with
  | self => exact hf
  | start w _ ih =>
    obtain ⟨f', hstart, hpassive⟩ := ih.start w
    rw [hstart]
    exact hpassive
  | handle r w _ ih =>
    obtain ⟨f', hhandle, hpassive⟩ := ih.handle r w
    rw [hhandle]
    exact hpassive

theorem forall₂_startAll (h : List.Forall₂ (Becomes ω) fs gs) (w : ω) :
    List.Forall₂ (Becomes ω) fs (startAll gs w).2.1 := by
  induction h generalizing w with
  | nil => exact .nil
  | @cons f g fs gs hfirst hrest ih =>
    have hnext := hfirst.start w
    rw [startAll]
    rcases hstart : g.start w with ⟨_ | _, g', w'⟩
    all_goals rw [hstart] at hnext
    · exact .cons hnext hrest
    · exact .cons hnext (ih w')

theorem forall₂_handleAll (h : List.Forall₂ (Becomes ω) fs gs) (r : Record) (w : ω) :
    List.Forall₂ (Becomes ω) fs (handleAll gs r w).2.1 := by
  induction h generalizing r w with
  | nil => exact .nil
  | @cons f g fs gs hfirst hrest ih =>
    have hnext := hfirst.handle r w
    rw [handleAll]
    rcases hhandle : g.handle r w with ⟨_ | _ | _ | _, g', w'⟩
    all_goals rw [hhandle] at hnext
    · exact .cons hnext hrest
    · exact .cons hnext (ih _ w')
    · exact .cons hnext hrest
    · exact .cons hnext hrest

theorem exists_of_forall₂_becomes (h : List.Forall₂ (Becomes ω) fs gs) (hmem : g ∈ gs) :
    ∃ f ∈ fs, Becomes ω f g := by
  induction h with
  | nil => cases hmem
  | @cons f g' fs gs hfirst _ ih =>
    rcases List.mem_cons.1 hmem with rfl | hmem
    · exact ⟨f, List.mem_cons_self, hfirst⟩
    · obtain ⟨f', hf', hbecomes⟩ := ih hmem
      exact ⟨f', List.mem_cons_of_mem f hf', hbecomes⟩

section Answers

/-! A chain answers what its members let through, or what one of them answers. -/

variable {r : Record} {w : ω}

theorem exists_of_handleAll {result : Except PipelineError FilterOutput}
    (h : (handleAll fs r w).1 = result) (hresult : ∀ r', result ≠ .ok (.emit r')) :
    ∃ f ∈ fs, ∃ (r' : Record) (w' : ω), (f.handle r' w').1 = result := by
  induction fs generalizing r w with
  | nil => exact absurd h.symm (hresult r)
  | cons f fs ih =>
    rw [handleAll] at h
    rcases hhandle : f.handle r w with ⟨_ | _ | _ | _, f', w'⟩
    all_goals rw [hhandle] at h
    · exact ⟨f, List.mem_cons_self, r, w, by rw [hhandle]; exact h⟩
    · obtain ⟨g, hmem, hg⟩ := ih h
      exact ⟨g, List.mem_cons_of_mem f hmem, hg⟩
    · exact ⟨f, List.mem_cons_self, r, w, by rw [hhandle]; exact h⟩
    · exact ⟨f, List.mem_cons_self, r, w, by rw [hhandle]; exact h⟩

theorem exists_of_startAll {e : PipelineError} (h : (startAll fs w).1 = .error e) :
    ∃ f ∈ fs, ∃ w' : ω, (f.start w').1 = .error e := by
  induction fs generalizing w with
  | nil => cases h
  | cons f fs ih =>
    rw [startAll] at h
    rcases hstart : f.start w with ⟨_ | _, f', w'⟩
    all_goals rw [hstart] at h
    · exact ⟨f, List.mem_cons_self, w, by rw [hstart]; exact h⟩
    · obtain ⟨g, hmem, hg⟩ := ih h
      exact ⟨g, List.mem_cons_of_mem f hmem, hg⟩

theorem exists_of_finishAll {e : PipelineError} (h : (finishAll fs w).1 = .error e) :
    ∃ f ∈ fs, ∃ w' : ω, (f.finish w').1 = .error e := by
  induction fs generalizing w with
  | nil => cases h
  | cons f fs ih =>
    rw [finishAll] at h
    rcases hfinish : f.finish w with ⟨_ | _, f', w'⟩
    all_goals rw [hfinish] at h
    · exact ⟨f, List.mem_cons_self, w, by rw [hfinish]; exact h⟩
    · obtain ⟨g, hmem, hg⟩ := ih h
      exact ⟨g, List.mem_cons_of_mem f hmem, hg⟩

end Answers

end Filter

namespace Running

variable {ω σ κ χ π : Type} [RecordSource ω σ] [RecordSink ω κ] [CustomFilter ω χ]
  [CustomPredicate ω π] {m : Mediator σ κ χ π} {p q : Running ω σ κ χ π}

/-- The parts of a pipeline are what the parts of `m` can become. -/
structure CameFrom (m : Mediator σ κ χ π) (p : Running ω σ κ χ π) : Prop where
  source : RecordSource.Becomes ω m.source p.mediator.source
  sink : RecordSink.Becomes ω m.sink p.mediator.sink
  filters : List.Forall₂ (Filter.Becomes ω) m.filters p.mediator.filters

omit [CustomPredicate ω π] in
/-- What the filters answer, unless they let a record through, is what one of them answers. -/
theorem CameFrom.exists_of_filter (h : CameFrom m p) {r : Record}
    {result : Except PipelineError FilterOutput} (hfilter : (p.filter r).1 = result)
    (hresult : ∀ r', result ≠ .ok (.emit r')) :
    ∃ f ∈ m.filters, ∃ g, Filter.Becomes ω f g ∧
      ∃ (r' : Record) (w : ω), (g.handle r' w).1 = result := by
  obtain ⟨g, hmem, r', w, hhandle⟩ :=
    @Filter.exists_of_handleAll ω χ _ p.mediator.filters _ _ _ hfilter hresult
  obtain ⟨f, hf, hbecomes⟩ := Filter.exists_of_forall₂_becomes h.filters hmem
  exact ⟨f, hf, g, hbecomes, r', w, hhandle⟩

theorem cameFrom_start (m : Mediator σ κ χ π) (shared : ω) :
    CameFrom m (m.start shared).2 where
  source := .self
  sink := .self
  filters := Filter.forall₂_startAll (List.forall₂_same.2 fun _ _ => .self) _

theorem preserved_cameFrom (m : Mediator σ κ χ π) :
    Preserved (CameFrom m : Running ω σ κ χ π → Prop) where
  ask _ h := ⟨h.source, h.sink, h.filters⟩
  read h := ⟨h.source.readOne _, h.sink, h.filters⟩
  filter r h := ⟨h.source, h.sink, Filter.forall₂_handleAll h.filters r _⟩
  write {p} r h := by
    have hnext := h.sink.put r.encode p.shared
    unfold Running.write
    split
    all_goals
      rename_i hput
      rw [hput] at hnext
      exact ⟨h.source, hnext, h.filters⟩
  count _ h := ⟨h.source, h.sink, h.filters⟩

/-- What the steps preserve holds after cycles that do not end the run. -/
theorem Preserved.after {I : Running ω σ κ χ π → Prop} (h : Preserved I) {k : Nat} (hp : I p)
    (hafter : p.after k = some q) : I q := by
  induction k generalizing p with
  | zero =>
    cases hafter
    exact hp
  | succ k ih =>
    obtain ⟨p₁, hcycle, hrest⟩ := after_succ hafter
    exact ih (h.course (course_iff.2 hcycle) hp) hrest

end Running

end DaqStream
