import DaqStream.Proofs.Pipeline.Cycle
import DaqStream.Proofs.Run.Barrier

/-!
# Running again

A run begins by taking every predicate back to the beginning and by preparing every filter. The
predicates and filters that are not the caller's own bring nothing of their past through that,
whatever they were asked and handed before (`resetAll_judgeAll`, `startAll_handleAll`). So a
mediator may be run as often as one likes: each time it does what a new one would do with the
source and the sink as they are by then (`runWithin_again`).
-/

namespace DaqStream

section Parts

theorem CountWindow.reset_judge (c : CountWindow) : c.judge.2.reset = c.reset := by
  unfold CountWindow.judge
  split
  · rfl
  · split
    · rfl
    · split <;> rfl

theorem Sampling.reset_judge (s : Sampling) (kind : RecordKind) :
    (s.judge kind).2.reset = s.reset := by
  unfold Sampling.judge
  split <;> rfl

theorem RunBarrier.reset_reset (b : RunBarrier) : b.reset.reset = b.reset := by
  apply reset_eq_of_keys
  · rfl
  · rfl
  · rfl
  · exact keys_cleared b

theorem RunBarrier.reset_handle (b : RunBarrier) (r : Record) :
    (b.handle r).2.reset = b.reset := by
  unfold RunBarrier.handle
  cases r.body with
  | stateChange change =>
    dsimp only
    cases hupdate : b.update change.kind change.runNumber with
    | ok b' => exact reset_of_update hupdate
    | error e => rfl
  | _ => rfl

end Parts

namespace Predicate

variable {ω : Type}

mutual
/-- What a predicate has counted is forgotten when it goes back to the beginning. -/
theorem reset_judge : ∀ (p : Predicate Empty) (point : Checkpoint) (w w' : ω),
    (p.judge point w).2.1.reset w' = p.reset w'
  | countWindow window, point, w, w' => by
    have hsame : (afterReading (fun c _ => CountWindow.judge c) window point).2.reset =
        window.reset := by
      cases point with
      | postInput kind => exact window.reset_judge
      | _ => rfl
    simp only [judge, reset, hsame]
  | exclude kinds, point, w, w' => by simp only [judge]
  | sample sampling, point, w, w' => by
    have hsame : (afterReading Sampling.judge sampling point).2.reset = sampling.reset := by
      cases point with
      | postInput kind => exact sampling.reset_judge kind
      | _ => rfl
    simp only [judge, reset, hsame]
  | group members, point, w, w' => by
    simp only [judge, reset, resetAll_judgeAll members point w w']

theorem resetAll_judgeAll : ∀ (ps : List (Predicate Empty)) (point : Checkpoint) (w w' : ω),
    resetAll (judgeAll ps point w).2.1 w' = resetAll ps w'
  | [], _, _, _ => by simp only [judgeAll]
  | p :: ps, point, w, w' => by
    have hfirst := reset_judge p point w
    have hrest := resetAll_judgeAll ps point
    rw [judgeAll]
    rcases hjudge : p.judge point w with ⟨_ | _ | _, p', w₁⟩
    all_goals
      rw [hjudge] at hfirst
      dsimp only at hfirst ⊢
    · simp only [resetAll, hfirst, hrest]
    · split
      all_goals
        rename_i hjudges
        have hlater := hrest w₁
        rw [hjudges] at hlater
        simp only [resetAll, hfirst, hlater]
    · simp only [resetAll, hfirst]
end

mutual
theorem reset_reset : ∀ (p : Predicate Empty) (w w' : ω), (p.reset w).1.reset w' = p.reset w'
  | countWindow _, _, _ => rfl
  | exclude _, _, _ => rfl
  | sample _, _, _ => rfl
  | group members, w, w' => by simp only [reset, resetAll_resetAll members w w']

theorem resetAll_resetAll : ∀ (ps : List (Predicate Empty)) (w w' : ω),
    resetAll (resetAll ps w).1 w' = resetAll ps w'
  | [], _, _ => rfl
  | p :: ps, w, w' => by
    simp only [resetAll, reset_reset p w, resetAll_resetAll ps]
end

end Predicate

namespace Filter

variable {ω : Type}

mutual
/-- A filter that is not the caller's own can always be prepared. -/
theorem start_ok : ∀ (f : Filter Empty) (w : ω), (f.start w).1 = .ok ()
  | transparent, _ | abnormalEnd, _ | kindCount _, _ | oneShot _, _ => rfl
  | chain members, w => by simp only [start, startAll_ok members w]

theorem startAll_ok : ∀ (fs : List (Filter Empty)) (w : ω), (startAll fs w).1 = .ok ()
  | [], _ => rfl
  | f :: fs, w => by
    have hfirst := start_ok f w
    rw [startAll]
    rcases hstart : f.start w with ⟨_ | _, f', w₁⟩
    all_goals rw [hstart] at hfirst
    · cases hfirst
    · exact startAll_ok fs w₁
end

/-- So each of several filters is prepared, whatever the others do. -/
theorem startAll_cons (f : Filter Empty) (fs : List (Filter Empty)) (w : ω) :
    startAll (f :: fs) w =
      (.ok (), (f.start w).2.1 :: (startAll fs (f.start w).2.2).2.1,
        (startAll fs (f.start w).2.2).2.2) := by
  have hfirst := start_ok f w
  rw [startAll]
  rcases hstart : f.start w with ⟨_ | _, f', w₁⟩
  all_goals rw [hstart] at hfirst
  · cases hfirst
  · dsimp only
    rw [← startAll_ok fs w₁]

mutual
/-- A filter is prepared in the same way a second time. -/
theorem start_start : ∀ (f : Filter Empty) (w w' : ω), (f.start w).2.1.start w' = f.start w'
  | transparent, _, _ | abnormalEnd, _, _ | kindCount _, _, _ => rfl
  | oneShot b, _, _ => by simp only [start, b.reset_reset]
  | chain members, w, w' => by simp only [start, startAll_startAll members w w']

theorem startAll_startAll : ∀ (fs : List (Filter Empty)) (w w' : ω),
    startAll (startAll fs w).2.1 w' = startAll fs w'
  | [], _, _ => rfl
  | f :: fs, w, w' => by
    rw [startAll_cons f fs w, startAll_cons, startAll_cons f fs w', start_start f,
      startAll_startAll fs]
end

mutual
/-- What a filter has seen is forgotten when it is prepared. -/
theorem start_handle : ∀ (f : Filter Empty) (r : Record) (w w' : ω),
    (f.handle r w).2.1.start w' = f.start w'
  | transparent, _, _, _ | abnormalEnd, _, _, _ | kindCount _, _, _, _ => rfl
  | oneShot b, r, w, w' => by simp only [handle, start, b.reset_handle]
  | chain members, r, w, w' => by
    simp only [handle, start, startAll_handleAll members r w w']

theorem startAll_handleAll : ∀ (fs : List (Filter Empty)) (r : Record) (w w' : ω),
    startAll (handleAll fs r w).2.1 w' = startAll fs w'
  | [], _, _, _ => rfl
  | f :: fs, r, w, w' => by
    have hfirst := start_handle f r w w'
    rw [handleAll, startAll_cons f]
    rcases hhandle : f.handle r w with ⟨_ | _ | _ | _, f', w₁⟩
    all_goals
      rw [hhandle] at hfirst
      dsimp only at hfirst ⊢
      rw [startAll_cons, hfirst]
    -- The members after the one that did not let the record through were not handed it.
    rw [startAll_handleAll fs]
end

mutual
/-- A filter that is not the caller's own does nothing when it is closed. -/
theorem finish_eq : ∀ (f : Filter Empty) (w : ω), f.finish w = (.ok (), f, w)
  | transparent, _ | abnormalEnd, _ | kindCount _, _ | oneShot _, _ => rfl
  | chain members, w => by simp only [finish, finishAll_eq members w]

theorem finishAll_eq : ∀ (fs : List (Filter Empty)) (w : ω), finishAll fs w = (.ok (), fs, w)
  | [], _ => rfl
  | f :: fs, w => by simp only [finishAll, finish_eq f w, finishAll_eq fs w]
end

end Filter

namespace Mediator

variable {ω σ κ : Type} {m m' m'' : Mediator σ κ Empty Empty}

/-- Two mediators whose predicates and filters are the same once a run has begun. -/
structure Alike (ω : Type) (m m' : Mediator σ κ Empty Empty) : Prop where
  predicates : ∀ w : ω, Predicate.resetAll m'.predicates w = Predicate.resetAll m.predicates w
  filters : ∀ w : ω, Filter.startAll m'.filters w = Filter.startAll m.filters w

theorem Alike.refl (m : Mediator σ κ Empty Empty) : Alike ω m m := ⟨fun _ => rfl, fun _ => rfl⟩

/-- Then they begin a run in the same way. -/
theorem Alike.start_eq (h : Alike ω m m') (state : MediatorState) (shared : ω) :
    m'.start shared =
      Mediator.start { m with source := m'.source, sink := m'.sink, state } shared := by
  rw [start, start, h.predicates]
  dsimp only
  rw [h.filters]

variable [RecordSource ω σ] [RecordSink ω κ]

theorem Alike.runWithin_eq (h : Alike ω m m') (state : MediatorState) (limit : Nat) (shared : ω) :
    m'.runWithin limit shared =
      Mediator.runWithin limit { m with source := m'.source, sink := m'.sink, state } shared := by
  rw [runWithin, runWithin, h.start_eq state]

/-- Whatever is done to a mediator inside a run, it stays the mediator that it is. -/
theorem preserved_alike (m : Mediator σ κ Empty Empty) :
    Running.Preserved fun p : Running ω σ κ Empty Empty => Alike ω m p.mediator where
  ask point h := ⟨fun w => (Predicate.resetAll_judgeAll _ point _ w).trans (h.predicates w),
    h.filters⟩
  read h := ⟨h.predicates, h.filters⟩
  filter r h := ⟨h.predicates, fun w => (Filter.startAll_handleAll _ r _ w).trans (h.filters w)⟩
  write r h := by
    unfold Running.write
    split <;> exact ⟨h.predicates, h.filters⟩
  count _ h := ⟨h.predicates, h.filters⟩

omit [RecordSource ω σ] [RecordSink ω κ] in
theorem alike_start (m : Mediator σ κ Empty Empty) (shared : ω) :
    Alike ω m (m.start shared).2.mediator where
  predicates w := Predicate.resetAll_resetAll m.predicates shared w
  filters w := Filter.startAll_startAll m.filters _ w

omit [RecordSource ω σ] in
theorem Alike.close {p : Running ω σ κ Empty Empty} (h : Alike ω m p.mediator) :
    Alike ω m p.close.2.mediator := by
  rw [Running.close_eq (Filter.finishAll_eq _ _) rfl]
  exact ⟨h.predicates, h.filters⟩

omit [RecordSource ω σ] in
theorem Alike.conclude {p : Running ω σ κ Empty Empty} (h : Alike ω m p.mediator)
    (outcome : Except PipelineError MediatorState) :
    Alike ω m (Mediator.conclude outcome p).2.1 := by
  have hclosed := h.close
  cases outcome with
  | error e =>
    rw [conclude_error]
    exact ⟨hclosed.predicates, hclosed.filters⟩
  | ok state =>
    cases hclose : p.close.1 with
    | error e =>
      rw [conclude_ok_of_close_error hclose]
      exact hclosed
    | ok _ =>
      rw [conclude_ok_of_close_ok hclose]
      exact ⟨hclosed.predicates, hclosed.filters⟩

/-- A run leaves the mediator as it was set up, however it ends. -/
theorem alike_of_runWithin {limit : Nat} {shared shared' : ω}
    {result : Except PipelineError RunSummary}
    (h : m.runWithin limit shared = some (result, m', shared')) : Alike ω m m' := by
  have hstarted := alike_start m shared
  rcases runWithin_eq_some.1 h with ⟨e, p, hstart, hout⟩ | ⟨p, outcome, q, hstart, hcycles, hout⟩
  all_goals rw [hstart] at hstarted
  · cases hout
    exact ⟨hstarted.predicates, hstarted.filters⟩
  · have hended := ((preserved_alike m).cycles hstarted hcycles).conclude outcome
    rw [← hout] at hended
    exact hended

/-- A mediator and what it shares after any number of runs, however they ended. -/
inductive Ran (m : Mediator σ κ Empty Empty) (shared : ω) : Mediator σ κ Empty Empty → ω → Prop
  | never : Ran m shared m shared
  | again {m' m'' : Mediator σ κ Empty Empty} {shared' shared'' : ω} {limit : Nat}
      {result : Except PipelineError RunSummary} :
      Ran m shared m' shared' → m'.runWithin limit shared' = some (result, m'', shared'') →
      Ran m shared m'' shared''

theorem Ran.alike {shared shared' : ω} (h : Ran m shared m' shared') : Alike ω m m' := by
  induction h with
  | never => exact .refl m
  | again _ hrun ih =>
    have hlast := alike_of_runWithin hrun
    exact ⟨fun w => (hlast.predicates w).trans (ih.predicates w),
      fun w => (hlast.filters w).trans (ih.filters w)⟩

/-- A mediator that has run before, any number of times and with any outcome, runs as one that was
    just made with the same filters and predicates: the same result, and the same mediator, source
    and sink afterwards. -/
theorem runWithin_again {shared shared' : ω} (h : Ran m shared m' shared') (limit : Nat) :
    m'.runWithin limit shared' =
      Mediator.runWithin limit
        { source := m'.source, sink := m'.sink, filters := m.filters, predicates := m.predicates }
        shared' :=
  h.alike.runWithin_eq .idle limit shared'

/-- A run that is contradicted after its begin, and the whole run after that. The sampling and the
    window have counted records by the time the first run breaks off. -/
def brokenOff : Mediator MemorySource MemorySink Empty Empty where
  source := { records :=
    let change (kind : RecordKind) (runNumber : UInt32) :=
      Record.assemble .v11 none (.stateChange { kind, runNumber })
    [change .beginRun 7, change .pauseRun 8, change .beginRun 8, change .endRun 8] }
  sink := {}
  filters := [.chain [.oneShot (.ofRunTransitions 1)], .kindCount {}]
  predicates := [.group [.sample { kinds := [.beginRun], every := 2 }],
    .countWindow { toSkip := 0, toProcess := 2 }]

/-- The second run is none the worse for what the first one left behind. -/
theorem runWithin_again_brokenOff :
    ∃ m, Ran brokenOff () m () ∧ (∃ e, brokenOff.runWithin 2 () = some (.error e, m, ())) ∧
      (Filter.allBarriers m.filters).map RunBarrier.runNumber = [some 7] ∧
      (Predicate.allWindows m.predicates).map CountWindow.processed = [2] ∧
      m.runWithin 2 () =
        Mediator.runWithin 2
          { source := m.source, sink := m.sink, filters := brokenOff.filters,
            predicates := brokenOff.predicates } () ∧
      ∃ m', m.runWithin 2 () = some (.ok { read := 2, written := 2, state := .finished }, m', ()) := by
  have hfirst : (brokenOff.runWithin 2 ()).map (fun out =>
      (out.1.toOption, (Filter.allBarriers out.2.1.filters).map RunBarrier.runNumber,
        (Predicate.allWindows out.2.1.predicates).map CountWindow.processed)) =
      some (none, [some 7], [2]) := by
    decide +kernel
  have hsecond : ((brokenOff.runWithin 2 ()).bind fun out => out.2.1.runWithin 2 ()).map
      (fun out => out.1.toOption) = some (some { read := 2, written := 2, state := .finished }) := by
    decide +kernel
  obtain ⟨⟨result, m, _⟩, hrun, hleft⟩ := Option.map_eq_some_iff.1 hfirst
  have hran : Ran brokenOff () m () := .again .never hrun
  rw [hrun] at hsecond
  obtain ⟨⟨again, m', _⟩, hagain, hsummary⟩ := Option.map_eq_some_iff.1 hsecond
  simp only [Prod.mk.injEq] at hleft
  obtain ⟨herror, hbarriers, hwindows⟩ := hleft
  refine ⟨m, hran, ?_, hbarriers, hwindows, runWithin_again hran 2, m', ?_⟩
  · cases result with
    | error e => exact ⟨e, hrun⟩
    | ok summary => cases herror
  · cases again with
    | error e => cases hsummary
    | ok summary =>
      cases hsummary
      exact hagain

end Mediator

end DaqStream
