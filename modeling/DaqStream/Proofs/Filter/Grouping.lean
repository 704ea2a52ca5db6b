import DaqStream.Filter.Basic
import DaqStream.Proofs.Grouping

/-!
# Chains in chains

A chain hands every record along its members, up to the first that does not emit one. That is
stated twice: as the relation `Handed` between the members before and after, and as
`passAlong`, by which chains inside a chain make no difference to any sequence of requests.
-/

namespace DaqStream

namespace Filter

variable {ω χ : Type} [CustomFilter ω χ]

section Handing

/-- Every filter emits a record, for what the filter before it emitted. -/
inductive Emits : List (Filter χ) → Record → ω → Record → List (Filter χ) → ω → Prop where
  | nil {r : Record} {w : ω} : Emits [] r w r [] w
  | cons {f f' : Filter χ} {fs fs' : List (Filter χ)} {r r₁ r' : Record} {w w₁ w' : ω}
      (head : handle f r w = (.ok (.emit r₁), f', w₁)) (rest : Emits fs r₁ w₁ r' fs' w') :
      Emits (f :: fs) r w r' (f' :: fs') w'

/-- What comes of a record, and of the filters it is handed along. -/
inductive Handed : List (Filter χ) → Record → ω →
    Except PipelineError FilterOutput → List (Filter χ) → ω → Prop where
  /-- The last record that was emitted comes out. -/
  | emitted {fs fs' : List (Filter χ)} {r r' : Record} {w w' : ω} (h : Emits fs r w r' fs' w') :
      Handed fs r w (.ok (.emit r')) fs' w'
  /-- One filter does not emit; the filters after it are left as they are. -/
  | decided {before before' after : List (Filter χ)} {f f' : Filter χ} {r r₁ : Record}
      {w w₁ w' : ω} {result : Except PipelineError FilterOutput}
      (hbefore : Emits before r w r₁ before' w₁) (h : handle f r₁ w₁ = (result, f', w'))
      (hresult : ∀ r', result ≠ .ok (.emit r')) :
      Handed (before ++ f :: after) r w result (before' ++ f' :: after) w'

variable {f f' : Filter χ} {fs fs' : List (Filter χ)} {r r' : Record} {w v w' : ω}
  {result : Except PipelineError FilterOutput}

theorem handleAll_cons_of_emit (h : handle f r w = (.ok (.emit r'), f', v))
    (hrest : handleAll fs r' v = (result, fs', w')) :
    handleAll (f :: fs) r w = (result, f' :: fs', w') := by
  rw [handleAll, h]
  dsimp only
  rw [hrest]

theorem handleAll_cons_of_ne (h : handle f r w = (result, f', w'))
    (hresult : ∀ r', result ≠ .ok (.emit r')) (fs : List (Filter χ)) :
    handleAll (f :: fs) r w = (result, f' :: fs, w') := by
  rw [handleAll, h]
  split <;> simp_all

theorem Emits.handleAll_append (h : Emits fs r w r' fs' v) {gs gs' : List (Filter χ)}
    (hrest : handleAll gs r' v = (result, gs', w')) :
    handleAll (fs ++ gs) r w = (result, fs' ++ gs', w') := by
  induction h with
  | nil => exact hrest
  | cons head _ ih => exact handleAll_cons_of_emit head (ih hrest)

theorem Emits.handleAll (h : Emits fs r w r' fs' w') :
    handleAll fs r w = (.ok (.emit r'), fs', w') := by
  simpa using h.handleAll_append (rfl : Filter.handleAll [] r' w' = _)

theorem Handed.handleAll (h : Handed fs r w result fs' w') :
    handleAll fs r w = (result, fs', w') := by
  cases h with
  | emitted h => exact h.handleAll
  | decided hbefore h hresult =>
    exact hbefore.handleAll_append (handleAll_cons_of_ne h hresult _)

theorem Handed.cons (head : handle f r w = (.ok (.emit r'), f', v))
    (h : Handed fs r' v result fs' w') : Handed (f :: fs) r w result (f' :: fs') w' := by
  cases h with
  | emitted h => exact .emitted (.cons head h)
  | decided hbefore h hresult => exact .decided (.cons head hbefore) h hresult

theorem handed_handleAll (fs : List (Filter χ)) (r : Record) (w : ω) :
    Handed fs r w (handleAll fs r w).1 (handleAll fs r w).2.1 (handleAll fs r w).2.2 := by
  induction fs generalizing r w with
  | nil => exact .emitted .nil
  | cons f fs ih =>
    rcases hhead : handle f r w with ⟨result, f', v⟩
    by_cases hemit : ∃ r', result = .ok (.emit r')
    · obtain ⟨r', rfl⟩ := hemit
      rw [handleAll_cons_of_emit hhead rfl]
      exact .cons hhead (ih r' v)
    · have hresult : ∀ r', result ≠ .ok (.emit r') := fun r' h => hemit ⟨r', h⟩
      rw [handleAll_cons_of_ne hhead hresult]
      exact .decided .nil hhead hresult

theorem handleAll_eq_iff : handleAll fs r w = (result, fs', w') ↔ Handed fs r w result fs' w' := by
  constructor
  · intro h
    have hall := handed_handleAll fs r w
    rwa [h] at hall
  · exact Handed.handleAll

theorem handle_chain_eq_iff :
    handle (chain fs) r w = (result, chain fs', w') ↔ Handed fs r w result fs' w' := by
  rw [← handleAll_eq_iff, handle]
  rcases handleAll fs r w with ⟨result', gs, v⟩
  simp

end Handing

section PassAlong

/-- Why a record is not handed on. -/
inductive Stop where
  | drop
  | flush (r : Record)
  | fail (e : PipelineError)

/-- The record to hand on, if there is one. -/
def passedOn : Except PipelineError FilterOutput → Except Stop Record
  | .ok (.emit r) => .ok r
  | .ok .drop => .error .drop
  | .ok (.flush r) => .error (.flush r)
  | .error e => .error (.fail e)

/-- What a chain answers with the record that was handed on last, or why there is none. -/
def answer : Except Stop Record → Except PipelineError FilterOutput
  | .ok r => .ok (.emit r)
  | .error .drop => .ok .drop
  | .error (.flush r) => .ok (.flush r)
  | .error (.fail e) => .error e

theorem passedOn_answer (out : Except Stop Record) : passedOn (answer out) = out := by
  rcases out with (_ | _ | _) | _ <;> rfl

/-- A filter as a place that a record is handed along. -/
def handOn (f : Filter χ) (r : Record) (w : ω) : Except Stop Record × Filter χ × ω :=
  match handle f r w with
  | (result, f', w') => (passedOn result, f', w')

/-- A hook that is not given anything, as a place that nothing is handed along. -/
def inTurn (hook : Filter χ → ω → Except PipelineError Unit × Filter χ × ω) (f : Filter χ)
    (_ : Unit) (w : ω) : Except PipelineError Unit × Filter χ × ω :=
  hook f w

omit [CustomFilter ω χ] in
/-- Calling a hook of filters in order, up to the first that fails, is to hand nothing along. -/
theorem eq_passAlong {hook : Filter χ → ω → Except PipelineError Unit × Filter χ × ω}
    {hookAll : List (Filter χ) → ω → Except PipelineError Unit × List (Filter χ) × ω}
    (hnil : ∀ w, hookAll [] w = (.ok (), [], w))
    (hcons : ∀ f fs w, hookAll (f :: fs) w =
      match hook f w with
      | (.ok (), f', w') =>
        match hookAll fs w' with
        | (result, fs', w'') => (result, f' :: fs', w'')
      | (.error e, f', w') => (.error e, f' :: fs, w'))
    (fs : List (Filter χ)) (w : ω) : hookAll fs w = passAlong (inTurn hook) fs () w := by
  induction fs generalizing w with
  | nil => exact hnil w
  | cons f fs ih =>
    rw [hcons, passAlong, inTurn]
    rcases hook f w with ⟨_ | _, f', w'⟩
    · rfl
    · dsimp only
      rw [ih]

theorem startAll_eq_passAlong (fs : List (Filter χ)) (w : ω) :
    startAll fs w = passAlong (inTurn start) fs () w :=
  eq_passAlong (fun _ => rfl) (fun _ _ _ => rfl) fs w

theorem finishAll_eq_passAlong (fs : List (Filter χ)) (w : ω) :
    finishAll fs w = passAlong (inTurn finish) fs () w :=
  eq_passAlong (fun _ => rfl) (fun _ _ _ => rfl) fs w

theorem handleAll_eq_passAlong (fs : List (Filter χ)) (r : Record) (w : ω) :
    handleAll fs r w =
      match passAlong handOn fs r w with
      | (out, fs', w') => (answer out, fs', w') := by
  induction fs generalizing r w with
  | nil => rfl
  | cons f fs ih =>
    rw [handleAll, passAlong, handOn]
    rcases handle f r w with ⟨_ | (_ | _ | _), f', w'⟩ <;> try rfl
    dsimp only [passedOn]
    rw [ih]

theorem start_chain (fs : List (Filter χ)) (i : Unit) (w : ω) :
    inTurn start (chain fs) i w =
      match passAlong (inTurn start) fs i w with
      | (result, fs', w') => (result, chain fs', w') := by
  rw [inTurn, start, startAll_eq_passAlong]

theorem finish_chain (fs : List (Filter χ)) (i : Unit) (w : ω) :
    inTurn finish (chain fs) i w =
      match passAlong (inTurn finish) fs i w with
      | (result, fs', w') => (result, chain fs', w') := by
  rw [inTurn, finish, finishAll_eq_passAlong]

theorem handOn_chain (fs : List (Filter χ)) (r : Record) (w : ω) :
    handOn (chain fs) r w =
      match passAlong handOn fs r w with
      | (out, fs', w') => (out, chain fs', w') := by
  rw [handOn, handle, handleAll_eq_passAlong]
  dsimp only
  rw [passedOn_answer]

end PassAlong

section Requests

/-- What is asked of a filter in the course of its runs. -/
inductive Request where
  | start
  | handle (r : Record)
  | finish

/-- What a filter answers. -/
inductive Reply where
  | done (result : Except PipelineError Unit)
  | decided (result : Except PipelineError FilterOutput)

/-- One request, and the filter as it is afterwards. -/
def call (f : Filter χ) : Request → ω → Reply × Filter χ × ω
  | .start, w => ((.done (start f w).1), (start f w).2)
  | .handle r, w => ((.decided (handle f r w).1), (handle f r w).2)
  | .finish, w => ((.done (finish f w).1), (finish f w).2)

theorem seesThrough_call (q : Request) :
    SeesThrough chain (fun (f : Filter χ) (w : ω) => call f q w) := by
  cases q with
  | start =>
    have hcall (fs : List (Filter χ)) (w : ω) :
        call (chain fs) .start w =
          match passAlong (inTurn start) fs () w with
          | (result, fs', w') => (.done result, chain fs', w') := by
      rw [call, start, startAll_eq_passAlong]
    exact seesThrough_of_passAlong Reply.done start_chain hcall
  | handle r =>
    have hcall (fs : List (Filter χ)) (w : ω) :
        call (chain fs) (.handle r) w =
          match passAlong handOn fs r w with
          | (out, fs', w') => (.decided (answer out), chain fs', w') := by
      rw [call, handle, handleAll_eq_passAlong]
    exact seesThrough_of_passAlong (Reply.decided ∘ answer) handOn_chain hcall
  | finish =>
    have hcall (fs : List (Filter χ)) (w : ω) :
        call (chain fs) .finish w =
          match passAlong (inTurn finish) fs () w with
          | (result, fs', w') => (.done result, chain fs', w') := by
      rw [call, finish, finishAll_eq_passAlong]
    exact seesThrough_of_passAlong Reply.done finish_chain hcall

theorem anyComplete_append (w : ω) (fs gs : List (Filter χ)) :
    anyComplete w (fs ++ gs) = (anyComplete w fs || anyComplete w gs) := by
  induction fs with
  | nil => rfl
  | cons f fs ih => rw [List.cons_append, anyComplete, anyComplete, ih, Bool.or_assoc]

theorem anyComplete_wrapped (w : ω) (g : Grouping (Filter χ)) :
    anyComplete w (g.wrapped chain) = anyComplete w g.items := by
  induction g with
  | nil => rfl
  | item f rest ih => rw [Grouping.wrapped, Grouping.items, anyComplete, anyComplete, ih]
  | group inner rest ihinner ihrest =>
    rw [Grouping.wrapped, Grouping.items, anyComplete, isComplete, ihinner, ihrest,
      anyComplete_append]

theorem isComplete_wrapped (w : ω) (g : Grouping (Filter χ)) :
    isComplete w (chain (g.wrapped chain)) = isComplete w (chain g.items) := by
  rw [isComplete, isComplete, anyComplete_wrapped]

/-- Chains inside a chain make no difference: whatever is asked of it, the same answers come
    and the same members remain, in the same groups. What a chain does with a record is to hand
    it along its members. -/
theorem chain_wrapped_and_handle_iff :
    (∀ (g : Grouping (Filter χ)) (requests : List Request) (w : ω),
      ∃ (replies : List Reply) (g' : Grouping (Filter χ)) (w' : ω),
        g'.shape = g.shape ∧
        calls call (chain g.items) requests w = (replies, chain g'.items, w') ∧
        calls call (chain (g.wrapped chain)) requests w = (replies, chain (g'.wrapped chain), w') ∧
        ∀ w'' : ω, isComplete w'' (chain (g'.wrapped chain)) = isComplete w'' (chain g'.items)) ∧
    (∀ (fs fs' : List (Filter χ)) (r : Record) (w w' : ω)
      (result : Except PipelineError FilterOutput),
      handle (chain fs) r w = (result, chain fs', w') ↔ Handed fs r w result fs' w') := by
  refine ⟨fun g requests w => ?_, fun _ _ _ _ _ _ => handle_chain_eq_iff⟩
  obtain ⟨replies, g', w', hshape, hflat, hwrapped⟩ :=
    seesThrough_calls seesThrough_call requests g w
  exact ⟨replies, g', w', hshape, hflat, hwrapped, fun w'' => isComplete_wrapped w'' g'⟩

end Requests

end Filter

end DaqStream
