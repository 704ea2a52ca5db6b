import DaqStream.Proofs.Pipeline.Watched

/-!
# Preparing and closing filters

A run prepares its filters in order up to the first that fails. If none does, it hands them
records, and closes them in order up to the first that fails. `bracketed_iff` says when that
is enough: a filter that was prepared stays open exactly when a filter other than the first
cannot be prepared, or a filter other than the last cannot be closed.
-/

namespace DaqStream

namespace Filter

/-- A call of a filter that succeeded. -/
def good (hook : Hook) (label : Nat) : Call := ⟨label, hook, true⟩

theorem Broadcast.eq_map {hook : Hook} {labels : List Nat} {calls : List Call}
    (h : Broadcast hook labels calls true) : calls = labels.map (good hook) := by
  generalize hok : true = ok at h
  induction h with
  | done => rfl
  | stop => cases hok
  | next label _ ih => rw [List.map_cons, ← ih hok]; rfl

theorem Broadcast.hook_eq {hook : Hook} {labels : List Nat} {calls : List Call} {ok : Bool}
    (h : Broadcast hook labels calls ok) : ∀ call ∈ calls, call.hook = hook := by
  induction h with
  | done => simp
  | stop label rest => simp
  | next label _ ih => exact List.forall_mem_cons.2 ⟨rfl, ih⟩

theorem Broadcast.eq_range' {hook : Hook} {first count : Nat} {calls : List Call}
    (h : Broadcast hook (List.range' first count) calls false) :
    ∃ failed < count, calls =
      (List.range' first failed).map (good hook) ++ [⟨first + failed, hook, false⟩] := by
  induction count generalizing first calls with
  | zero => cases h
  | succ count ih =>
    rw [List.range'_succ] at h
    cases h with
    | stop => exact ⟨0, by omega, rfl⟩
    | next label h =>
      obtain ⟨failed, hlt, rfl⟩ := ih h
      refine ⟨failed + 1, by omega, ?_⟩
      rw [List.range'_succ, List.map_cons, Nat.add_right_comm]
      rfl

end Filter

open DaqStream.Filter

/-- The calls of a whole run on filters at these positions. -/
inductive RunLog (labels : List Nat) : List Call → Prop
  /-- The filters cannot be prepared, and nothing else is done. -/
  | unprepared {calls : List Call} : Broadcast .start labels calls false → RunLog labels calls
  | prepared {handled closing : List Call} {ok : Bool} :
      (∀ call ∈ handled, call.hook = .handle) → Broadcast .finish labels closing ok →
      RunLog labels (labels.map (good .start) ++ handled ++ closing)

/-- The positions of the filters that are closed, in the order in which they are. -/
def closings (calls : List Call) : List Nat :=
  (calls.filter fun call => call.hook = .finish).map Call.label

/-- Filters are closed in the order in which they were registered, each at most once and after
    its last record, and only if they were prepared. -/
structure Orderly (calls : List Call) : Prop where
  inOrder : (closings calls).Pairwise (· < ·)
  last : ∀ before closing after, calls = before ++ closing :: after → closing.hook = .finish →
    ∀ call ∈ after, call.hook ≠ .handle
  prepared : ∀ label ∈ closings calls, good .start label ∈ calls

/-- Besides, every filter that was prepared is closed. -/
structure Bracketed (calls : List Call) : Prop extends Orderly calls where
  closed : ∀ label, good .start label ∈ calls → (closings calls).count label = 1

theorem closings_append (calls calls' : List Call) :
    closings (calls ++ calls') = closings calls ++ closings calls' := by
  rw [closings, List.filter_append, List.map_append]
  rfl

theorem closings_eq_nil {calls : List Call} (h : ∀ call ∈ calls, call.hook ≠ .finish) :
    closings calls = [] := by
  have hnone : calls.filter (fun call => call.hook = .finish) = [] := by
    simpa [List.filter_eq_nil_iff] using h
  rw [closings, hnone]
  rfl

theorem closings_map_good (labels : List Nat) : closings (labels.map (good .finish)) = labels := by
  induction labels with
  | nil => rfl
  | cons label labels ih =>
    rw [List.map_cons, ← List.singleton_append, closings_append, ih]
    rfl

/-- Once closing has begun, nothing else follows. -/
theorem hook_of_mem_after {opening closing before after : List Call} {call : Call}
    (hopening : ∀ c ∈ opening, c.hook ≠ .finish) (hclosing : ∀ c ∈ closing, c.hook = .finish)
    (h : opening ++ closing = before ++ call :: after) (hcall : call.hook = .finish) :
    ∀ c ∈ after, c.hook = .finish := by
  rcases List.append_eq_append_iff.1 h with ⟨more, hbefore, hrest⟩ | ⟨more, hbefore, hrest⟩
  · intro c hc
    exact hclosing c (hrest ▸ by simp [hc])
  · cases more with
    | nil =>
      intro c hc
      rw [List.nil_append] at hrest
      exact hclosing c (hrest ▸ by simp [hc])
    | cons c' more =>
      rw [List.cons_append] at hrest
      obtain ⟨rfl, -⟩ := List.cons.inj hrest
      exact absurd hcall (hopening call (hbefore ▸ by simp))

/-- What can be read off the calls: the filters that were prepared and those that were closed
    are each a beginning of all filters. -/
theorem bracketed_iff_of_calls {opening closing : List Call} {started closed : Nat}
    (hopening : ∀ c ∈ opening, c.hook ≠ .finish) (hclosing : ∀ c ∈ closing, c.hook = .finish)
    (hstarted : ∀ label, good .start label ∈ opening ↔ label < started)
    (hclosed : closings closing = List.range closed) (hle : closed ≤ started) :
    Orderly (opening ++ closing) ∧ (Bracketed (opening ++ closing) ↔ closed = started) := by
  have hclosings : closings (opening ++ closing) = List.range closed := by
    rw [closings_append, closings_eq_nil hopening, hclosed, List.nil_append]
  have hprepared : ∀ label, good .start label ∈ opening ++ closing ↔ label < started := by
    intro label
    rw [List.mem_append, hstarted]
    refine or_iff_left fun hmem => ?_
    have := hclosing _ hmem
    cases this
  have horderly : Orderly (opening ++ closing) := by
    constructor
    · rw [hclosings]
      exact List.pairwise_lt_range
    · intro before call after hsplit hcall c hc hhandle
      have hfinish := hook_of_mem_after hopening hclosing hsplit hcall c hc
      rw [hfinish] at hhandle
      cases hhandle
    · intro label hlabel
      rw [hclosings, List.mem_range] at hlabel
      exact (hprepared label).2 (by omega)
  refine ⟨horderly, ?_⟩
  constructor
  · intro hbracketed
    rcases Nat.lt_or_eq_of_le hle with hlt | heq
    · have hcount := hbracketed.closed closed ((hprepared closed).2 hlt)
      rw [hclosings, List.count_eq_zero.2 (by simp)] at hcount
      cases hcount
    · exact heq
  · rintro rfl
    refine ⟨horderly, fun label hlabel => ?_⟩
    rw [hclosings]
    have hmem : label ∈ List.range closed := List.mem_range.2 ((hprepared label).1 hlabel)
    rw [List.nodup_range.count, if_pos hmem]

/-- Failures that leave no filter open: to prepare the first of all, or to close the last. -/
def FailsAtEnds (count : Nat) (calls : List Call) : Prop :=
  ∀ call ∈ calls, call.ok = false →
    (call.hook = .start → call.label = 0) ∧ (call.hook = .finish → call.label + 1 = count)

theorem failsAtEnds_append {count : Nat} {calls calls' : List Call} :
    FailsAtEnds count (calls ++ calls') ↔ FailsAtEnds count calls ∧ FailsAtEnds count calls' :=
  List.forall_mem_append

theorem failsAtEnds_map_good (count : Nat) (hook : Hook) (labels : List Nat) :
    FailsAtEnds count (labels.map (good hook)) := by
  intro call hcall hfailed
  obtain ⟨label, -, rfl⟩ := List.mem_map.1 hcall
  cases hfailed

theorem good_mem_map_range' {hook : Hook} {label count : Nat} :
    good hook label ∈ (List.range' 0 count).map (good hook) ↔ label < count := by
  simp [good]

theorem RunLog.bracketed_iff_failsAtEnds {count : Nat} {calls : List Call}
    (h : RunLog (List.range' 0 count) calls) :
    Orderly calls ∧ (Bracketed calls ↔ FailsAtEnds count calls) := by
  cases h with
  | unprepared hstart =>
    have hopening : ∀ c ∈ calls, c.hook ≠ .finish := by
      intro c hc
      rw [hstart.hook_eq c hc]
      simp
    obtain ⟨failed, hlt, rfl⟩ := hstart.eq_range'
    have hcalls := @bracketed_iff_of_calls _ [] failed 0 hopening (by simp) (by simp [good]) rfl
      (Nat.zero_le _)
    rw [List.append_nil] at hcalls
    refine ⟨hcalls.1, hcalls.2.trans ?_⟩
    rw [failsAtEnds_append, and_iff_right (failsAtEnds_map_good _ _ _), eq_comm]
    simp [FailsAtEnds]
  | @prepared handled closing ok hhandled hfinish =>
    have hopening : ∀ c ∈ (List.range' 0 count).map (good .start) ++ handled, c.hook ≠ .finish := by
      refine List.forall_mem_append.2 ⟨by simp [good], fun c hc => ?_⟩
      rw [hhandled c hc]
      simp
    have hstarted : ∀ label, good .start label ∈
        (List.range' 0 count).map (good .start) ++ handled ↔ label < count := by
      intro label
      rw [List.mem_append, good_mem_map_range']
      refine or_iff_left fun hmem => ?_
      have := hhandled _ hmem
      cases this
    have hfails : FailsAtEnds count ((List.range' 0 count).map (good .start) ++ handled) := by
      refine failsAtEnds_append.2 ⟨failsAtEnds_map_good _ _ _, fun c hc _ => ?_⟩
      rw [hhandled c hc]
      simp
    have hhook := hfinish.hook_eq
    cases ok with
    | true =>
      obtain rfl := hfinish.eq_map
      have hcalls := bracketed_iff_of_calls hopening hhook hstarted
        ((closings_map_good _).trans List.range_eq_range'.symm) (Nat.le_refl count)
      refine ⟨hcalls.1, hcalls.2.trans (iff_of_true rfl ?_)⟩
      exact failsAtEnds_append.2 ⟨hfails, failsAtEnds_map_good _ _ _⟩
    | false =>
      obtain ⟨failed, hlt, rfl⟩ := hfinish.eq_range'
      have hclosed : closings ((List.range' 0 failed).map (good .finish) ++
          [⟨0 + failed, .finish, false⟩]) = List.range (failed + 1) := by
        rw [closings_append, closings_map_good, List.range_succ, List.range_eq_range', Nat.zero_add]
        rfl
      have hcalls := bracketed_iff_of_calls hopening hhook hstarted hclosed hlt
      refine ⟨hcalls.1, hcalls.2.trans ?_⟩
      rw [failsAtEnds_append, and_iff_right hfails, failsAtEnds_append,
        and_iff_right (failsAtEnds_map_good _ _ _)]
      simp [FailsAtEnds]

namespace Running

variable {ω σ κ χ π : Type} [RecordSource ω σ] [RecordSink ω κ] [CustomFilter ω χ]
  [CustomPredicate ω π]

/-- While a run makes cycles, its filters keep their positions, and all they are called for is
    to handle records. -/
def Handling (labels : List Nat) (opening : List Call) (p : Running (Logged ω) σ κ (Watched χ) π) :
    Prop :=
  labelsOfAll p.mediator.filters = labels ∧
    ∃ handled, p.shared.calls = opening ++ handled ∧ ∀ call ∈ handled, call.hook = .handle

theorem preserved_handling (labels : List Nat) (opening : List Call) :
    Preserved fun p : Running (Logged ω) σ κ (Watched χ) π => p.Handling labels opening where
  ask {p} point h := by
    have hcalls : (p.ask point).2.shared.calls = p.shared.calls := by
      show (Predicate.judgeAll p.mediator.predicates point p.shared).2.2.calls = _
      rw [Predicate.judgeAll_logged]
    rw [Handling, hcalls]
    exact h
  read h := h
  filter {p} r h := by
    obtain ⟨hlabels, handled, hcalls, hhandled⟩ := h
    obtain ⟨result, fs, shared, calls, hlogged, -, hkept, hmore⟩ :=
      handleAll_watched p.mediator.filters r p.shared
    rw [filter_eq hlogged]
    refine ⟨hkept.trans hlabels, handled ++ calls, ?_, List.forall_mem_append.2 ⟨hhandled, hmore⟩⟩
    rw [← List.append_assoc, ← hcalls]
  write {p} r h := by
    have hcalls : (RecordSink.put p.mediator.sink r.encode p.shared).2.2.calls = p.shared.calls :=
      rfl
    rcases hput : RecordSink.put p.mediator.sink r.encode p.shared with ⟨_ | _, sink, w⟩
    all_goals rw [hput] at hcalls
    · rw [write_eq_of_error hput, Handling, hcalls]
      exact h
    · rw [write_eq_of_ok hput, Handling, hcalls]
      exact h
  count _ h := h

end Running

namespace Mediator

variable {ω σ κ χ π : Type} [RecordSource ω σ] [RecordSink ω κ] [CustomFilter ω χ]
  [CustomPredicate ω π] {limit : Nat} {shared shared' : ω}
  {result : Except PipelineError RunSummary}

omit [RecordSource ω σ] [CustomPredicate ω π] in
theorem shared_conclude (outcome : Except PipelineError MediatorState) (p : Running ω σ κ χ π) :
    (conclude outcome p).2.2 = p.close.2.shared := by
  cases outcome with
  | error e => rw [conclude_error]
  | ok state =>
    cases hclose : p.close.1 with
    | error e => rw [conclude_ok_of_close_error hclose]
    | ok _ => rw [conclude_ok_of_close_ok hclose]

/-- Whatever ends a run, it has called its filters in one of two patterns. -/
theorem runLog_of_runWithin {m m' : Mediator σ κ (Watched χ) π} {calls : List Call}
    (h : m.runWithin limit (⟨shared, []⟩ : Logged ω) = some (result, m', ⟨shared', calls⟩)) :
    RunLog (labelsOfAll m.filters) calls := by
  have hreset := Predicate.resetAll_logged m.predicates (⟨shared, []⟩ : Logged ω)
  obtain ⟨prepared, fs, shared₁, opening, hlogged, -, hlabels, hopening⟩ :=
    startAll_watched m.filters (⟨(Predicate.resetAll m.predicates shared).2, []⟩ : Logged ω)
  have hbegin := Running.start_eq hreset hlogged
  rcases runWithin_eq_some.1 h with ⟨e, p, hstart, hout⟩ | ⟨p, outcome, q, hstart, hcycles, hout⟩
  · rw [hbegin] at hstart
    cases hstart
    cases hout
    exact .unprepared hopening
  · rw [hbegin] at hstart
    cases hstart
    obtain ⟨hkept, handled, hcalls, hhandled⟩ :=
      (Running.preserved_handling (labelsOfAll m.filters) opening).cycles
        ⟨hlabels, [], by simp, by simp⟩ hcycles
    obtain ⟨closed, fs', shared₂, closing, hclosing, -, hbroadcast⟩ :=
      finishAll_watched q.mediator.filters q.shared
    have hshared := shared_conclude outcome q
    rw [← hout, Running.close_eq hclosing rfl] at hshared
    have hend : calls = opening ++ handled ++ closing := by
      rw [← hcalls]
      exact congrArg Logged.calls hshared
    rw [hend, hopening.eq_map]
    rw [hkept] at hbroadcast
    exact .prepared hhandled hbroadcast

/-- Watch any run. Its filters are closed in order, after the last record, and only if they
    were prepared. All of those that were prepared are closed unless a filter other than the
    first cannot be prepared, or a filter other than the last cannot be closed. -/
theorem bracketed_iff {m m' : Mediator σ κ χ π}
    (h : m.runWithin limit shared = some (result, m', shared')) :
    ∃ watched calls,
      m.watch.runWithin limit (⟨shared, []⟩ : Logged ω) = some (result, watched, ⟨shared', calls⟩) ∧
      watched.unwatch = m' ∧ Orderly calls ∧
      (Bracketed calls ↔ FailsAtEnds (leavesOfAll m.filters) calls) := by
  have hplain := runWithin_unwatch limit m.watch (⟨shared, []⟩ : Logged ω)
  rw [unwatch_watch, h, eq_comm, Option.map_eq_some_iff] at hplain
  obtain ⟨⟨_, watched, w⟩, hrun, hout⟩ := hplain
  cases hout
  have hlog := runLog_of_runWithin hrun
  rw [watch, labelsOfAll_watchAll] at hlog
  obtain ⟨horderly, hiff⟩ := hlog.bracketed_iff_failsAtEnds
  exact ⟨watched, w.calls, hrun, rfl, horderly, hiff⟩

/-- A filter that may be told not to start, or not to finish. -/
structure Reluctant where
  starts : Bool := true
  finishes : Bool := true

instance : CustomFilter Unit Reluctant where
  start f w := (if f.starts then .ok () else .error (.filter "reluctant" "no start"), f, w)
  handle f r w := (.ok (.emit r), f, w)
  finish f w := (if f.finishes then .ok () else .error (.filter "reluctant" "no finish"), f, w)
  isComplete _ _ := false

/-- The second of two filters cannot be prepared. -/
def secondReluctant : Mediator MemorySource MemorySink Reluctant Empty where
  source := { records := [] }
  sink := {}
  filters := [.custom {}, .custom { starts := false }]

theorem not_bracketed_secondReluctant :
    ∃ watched calls e,
      secondReluctant.watch.runWithin 1 (⟨(), []⟩ : Logged Unit) =
        some (.error e, watched, ⟨(), calls⟩) ∧
      good .start 0 ∈ calls ∧ closings calls = [] ∧ ¬ Bracketed calls := by
  have hplain : secondReluctant.runWithin 1 () =
      some (.error (.filter "reluctant" "no start"), { secondReluctant with state := .aborted }, ()) :=
    rfl
  obtain ⟨watched, calls, hrun, -, -, hiff⟩ := bracketed_iff hplain
  have hcalls : calls = [good .start 0, ⟨1, .start, false⟩] :=
    (Option.some.inj (congrArg (Option.map fun out => out.2.2.calls) hrun)).symm
  refine ⟨watched, calls, _, hrun, ?_, ?_, ?_⟩
  · simp [hcalls]
  · rw [hcalls]
    rfl
  · rw [hiff, hcalls]
    intro hfails
    have hlabel := (hfails ⟨1, .start, false⟩ (by simp) rfl).1 rfl
    cases hlabel

end Mediator

end DaqStream
