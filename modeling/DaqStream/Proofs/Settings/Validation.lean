import DaqStream.CommandLine.Host
import DaqStream.Proofs.Pipeline.Failures

/-!
# Settings that can be used

`Settings.validate` goes through the texts of the settings before anything is done with them, by
lists of its own. What it accepts is what is read later, by other means: the logging options, both
ends of the stream, and the kinds (`Readable`). So no command with settings that were accepted ends
because one of them cannot be read, whatever the system around it is like
(`accepted_iff_readable`).
-/

namespace DaqStream

namespace Settings

section Checks

variable {ε ε' α β : Type} {x : Except ε α} {e : ε}

theorem bind_eq_ok {f : α → Except ε β} {b : β} :
    (x >>= f) = .ok b ↔ ∃ a, x = .ok a ∧ f a = .ok b := by
  cases x <;> simp [bind, Except.bind]

theorem throw_ne_ok {a : α} : (throw e : Except ε α) ≠ .ok a := by
  simp [throw, throwThe, MonadExceptOf.throw]

theorem pure_eq_ok {a b : α} : (pure a : Except ε α) = .ok b ↔ a = b := by
  simp [pure, Except.pure]

theorem mapError_eq_ok {f : ε → ε'} {a : α} : x.mapError f = .ok a ↔ x = .ok a := by
  cases x <;> simp [Except.mapError]

/-- A check stands in front of everything after it. -/
theorem check_eq_ok {p : Prop} [Decidable p] {f : β → Except ε α} {a : α} :
    (if p then throw e >>= f else x) = .ok a ↔ ¬ p ∧ x = .ok a := by
  by_cases hp : p
  · simp [hp, throw, throwThe, MonadExceptOf.throw, bind, Except.bind]
  · simp [hp]

end Checks

section Names

variable {α : Type} {names : List String} {all : List α} {name : α → String}

/-- Whether a list has a name is what a search among the things with these names finds. -/
theorem isOneOf_iff_find? (hnames : all.map name = names) (text : String) :
    isOneOf names text = true ↔
      ∃ a, (all.find? fun a => name a = String.ofList (text.toList.map Char.toLower)) = some a := by
  subst hnames
  rw [← Option.isSome_iff_exists, List.find?_isSome]
  simp [isOneOf]

theorem isOneOf_levelNames_iff {text : String} :
    isOneOf levelNames text = true ↔ ∃ level, LogLevel.parse? text = some level :=
  isOneOf_iff_find? (show LogLevel.all.map LogLevel.name = levelNames from rfl) text

theorem isOneOf_formatNames_iff {text : String} :
    isOneOf formatNames text = true ↔ ∃ format, LogFormat.parse? text = some format :=
  isOneOf_iff_find? (show LogFormat.all.map LogFormat.name = formatNames from rfl) text

end Names

/-- Everything that a command reads in the settings can be read, and the numbers make sense. -/
structure Readable (s : Settings) : Prop where
  logging : ∃ options, s.logOptions = .ok options
  source : ∃ endpoint, Endpoint.parse s.pipeline.source = .ok endpoint
  sink : ∃ endpoint, Endpoint.parse s.pipeline.sink = .ok endpoint
  exclude : ∃ kinds, s.excludeKinds = .ok kinds
  sample : ∃ sampled, s.sampleKinds = .ok sampled
  sources : s.pipeline.oneShotSources ≠ some 0
  period : ∀ sample, s.pipeline.sample = some sample → sample.every ≠ 0

variable {s : Settings}

theorem exists_logOptions_iff : (∃ options, s.logOptions = .ok options) ↔
    isOneOf levelNames s.application.logLevel = true ∧
      isOneOf formatNames s.application.logFormat = true := by
  rw [isOneOf_levelNames_iff, isOneOf_formatNames_iff, logOptions, LogOptions.ofNames]
  cases LogLevel.parse? s.application.logLevel with
  | none => simp [throw_ne_ok]
  | some level =>
    cases LogFormat.parse? s.application.logFormat with
    | none => simp [throw_ne_ok]
    | some format => simp [pure_eq_ok]

theorem exists_sampleKinds_iff : (∃ sampled, s.sampleKinds = .ok sampled) ↔
    ∀ sample, s.pipeline.sample = some sample → ∃ kinds, parseKinds sample.kinds = .ok kinds := by
  rw [sampleKinds]
  cases s.pipeline.sample with
  | none => simp
  | some sample => cases hkinds : parseKinds sample.kinds <;> simp [Except.map, hkinds]

/-- The checks that are made, in their order. -/
theorem validate_eq_ok_iff : s.validate = .ok () ↔
    isOneOf levelNames s.application.logLevel = true ∧
      isOneOf formatNames s.application.logFormat = true ∧
      (∃ endpoint, Endpoint.parse s.pipeline.source = .ok endpoint) ∧
      (∃ endpoint, Endpoint.parse s.pipeline.sink = .ok endpoint) ∧
      s.pipeline.oneShotSources ≠ some 0 ∧
      (∃ kinds, s.excludeKinds = .ok kinds) ∧
      ∀ sample, s.pipeline.sample = some sample →
        sample.every ≠ 0 ∧ ∃ kinds, parseKinds sample.kinds = .ok kinds := by
  simp only [validate, check_eq_ok, bind_eq_ok, mapError_eq_ok, Bool.not_eq_true,
    Bool.not_eq_false', exists_and_right]
  cases s.pipeline.sample with
  | none => simp [pure_eq_ok]
  | some sample =>
    simp only [check_eq_ok, bind_eq_ok, pure_eq_ok, and_true, Option.some.injEq, forall_eq', ne_eq]

/-- What is accepted is what can be read. -/
theorem validate_eq_ok_iff_readable : s.validate = .ok () ↔ s.Readable := by
  rw [validate_eq_ok_iff]
  constructor
  · rintro ⟨hlevel, hformat, hsource, hsink, hsources, hexclude, hsample⟩
    exact {
      logging := exists_logOptions_iff.2 ⟨hlevel, hformat⟩
      source := hsource
      sink := hsink
      exclude := hexclude
      sample := exists_sampleKinds_iff.2 fun sample h => (hsample sample h).2
      sources := hsources
      period := fun sample h => (hsample sample h).1 }
  · intro h
    obtain ⟨hlevel, hformat⟩ := exists_logOptions_iff.1 h.logging
    have hkinds := exists_sampleKinds_iff.1 h.sample
    exact ⟨hlevel, hformat, h.source, h.sink, h.sources, h.exclude,
      fun sample hsample => ⟨h.period sample hsample, hkinds sample hsample⟩⟩

end Settings

namespace CommandLine

/-- A text or a number of the settings could not be read. -/
inductive CommandError.Misreading : CommandError → Prop
  | settings (cause : SettingsError) : Misreading (.badSettings cause)
  | logging (cause : LoggingError) : Misreading (.badLogging cause)
  | source (uri : String) (cause : EndpointError) : Misreading (.noSource uri (.configuration cause))
  | sink (uri : String) (cause : EndpointError) : Misreading (.noSink uri (.configuration cause))
  | filter (cause : EndpointError) : Misreading (.filterFailed (.configuration cause))
  | unglom (cause : EndpointError) : Misreading (.unglomFailed (.configuration cause))

/-- What a step ends with when it does not end in one of these errors. -/
abbrev Spared (bad : CommandError → Prop) (α : Type) :=
  {result : Except CommandError α // ∀ e, result = .error e → ¬ bad e}

/-- However the system answers, a step does not end in one of these errors. -/
def Step.Spares {m : Type → Type} [Monad m] {α : Type} (bad : CommandError → Prop)
    (step : Step m α) : Prop :=
  ∃ spared : m (Spared bad α), Subtype.val <$> spared = step.run

namespace Step

variable {m : Type → Type} [Monad m] [LawfulMonad m] {α β : Type} {bad : CommandError → Prop}

theorem spares_mk_pure {result : Except CommandError α} (h : ∀ e, result = .error e → ¬ bad e) :
    Step.Spares (m := m) bad (ExceptT.mk (pure result)) :=
  ⟨pure ⟨result, h⟩, by rw [map_pure]; rfl⟩

theorem spares_pure (a : α) : (pure a : Step m α).Spares bad := by
  apply spares_mk_pure
  simp

theorem spares_throw {e : CommandError} (h : ¬ bad e) : (throw e : Step m α).Spares bad := by
  apply spares_mk_pure
  intro e' he
  cases he
  exact h

theorem spares_lift (x : m α) : Step.Spares bad (ExceptT.lift x) :=
  ⟨(fun a => ⟨.ok a, by simp⟩) <$> x, by rw [Functor.map_map]; rfl⟩

theorem Spares.bind {step : Step m α} {next : α → Step m β} (h : step.Spares bad)
    (hnext : ∀ a, (next a).Spares bad) : (step >>= next).Spares bad := by
  obtain ⟨spared, hspared⟩ := h
  choose after hafter using hnext
  refine ⟨spared >>= fun
    | ⟨.ok a, _⟩ => after a
    | ⟨.error e, h⟩ => pure ⟨.error e, fun e' he => h e' (by cases he; rfl)⟩, ?_⟩
  rw [ExceptT.run_bind, ← hspared, bind_map_left, map_bind]
  apply bind_congr
  rintro ⟨_ | a, h⟩
  · simp
  · exact hafter a

theorem Spares.discard {step : Step m α} (h : step.Spares bad) :
    (Functor.discard step : Step m Unit).Spares bad := by
  have heq : Functor.discard step = step >>= fun _ => pure () := by
    rw [bind_pure_comp]
    rfl
  rw [heq]
  exact h.bind fun _ => spares_pure ()

/-- In a system in memory, on every machine. -/
theorem Spares.run_ne_error {step : Step (StateM Machine) α} (h : step.Spares bad)
    (machine : Machine) {e : CommandError} (he : (step.run machine).1 = .error e) : ¬ bad e := by
  obtain ⟨spared, hspared⟩ := h
  rw [← hspared] at he
  exact (spared machine).1.2 e he

end Step

open CommandError (Misreading)

theorem spares_filtersFor (s : Settings) (cause : EndpointError) :
    ∀ f ∈ filtersFor s, f.Spares Unit (.configuration cause) := by
  intro f hf
  have hcases : f = .abnormalEnd ∨ (∃ b, f = .oneShot b) ∨ f = .kindCount {} := by
    cases hsources : s.pipeline.oneShotSources with
    | none =>
      simp only [filtersFor, hsources, List.append_nil, List.cons_append, List.nil_append,
        List.mem_cons, List.not_mem_nil, or_false] at hf
      exact hf.imp_right .inr
    | some sources =>
      simp only [filtersFor, hsources, List.cons_append, List.nil_append, List.mem_cons,
        List.not_mem_nil, or_false] at hf
      exact hf.imp_right (Or.imp_left fun h => ⟨_, h⟩)
  rcases hcases with rfl | ⟨b, rfl⟩ | rfl
  · exact Filter.spares_abnormalEnd _
  · exact Filter.spares_oneShot b (by simp)
  · exact (Filter.Passive.kindCount {}).spares _

section Jobs

variable {s : Settings}

/-- What was read beforehand is read again, for the predicates. -/
theorem exists_predicatesFor (h : s.Readable) : ∃ predicates, predicatesFor s = .ok predicates := by
  obtain ⟨excluded, hexcluded⟩ := h.exclude
  obtain ⟨sampled, hsampled⟩ := h.sample
  unfold predicatesFor
  rw [hexcluded, hsampled]
  exact ⟨_, rfl⟩

theorem not_misreading_filterStream (h : s.Readable) (source : StreamSource) {e : CommandError}
    (he : (filterStream s source).1 = .error e) : ¬ Misreading e := by
  obtain ⟨predicates, hpredicates⟩ := exists_predicatesFor h
  simp only [filterStream, hpredicates] at he
  obtain ⟨failure, hrun, rfl⟩ := exists_of_mapError he
  rintro ⟨⟩
  rename_i cause
  refine Mediator.run_ne_error (spares_filtersFor s cause) ?_ ?_ (by simp) () hrun
  · intro source' _ w
    exact StreamSource.readOne_ne_configuration
  · exact ⟨fun _ _ _ => mapError_transport_ne_configuration,
      fun _ _ => mapError_transport_ne_configuration⟩

theorem not_misreading_unglomStream (source : StreamSource) {e : CommandError}
    (he : (unglomStream s source).1 = .error e) : ¬ Misreading e := by
  simp only [unglomStream] at he
  obtain ⟨failure, hrun, rfl⟩ := exists_of_mapError he
  rintro ⟨⟩
  exact Unglom.run_ne_error (fun _ _ _ => mapError_transport_ne_configuration) (by simp)
    (fun _ _ => StreamSource.readOne_ne_configuration)
    (fun _ _ => mapError_transport_ne_configuration) _ () hrun

end Jobs

section Steps

variable {m : Type → Type} [Monad m] [LawfulMonad m] [Host m] {s : Settings}

omit [Host m] in
theorem spares_openEnd {uri : String} {failure : PipelineError → CommandError}
    {opening : Endpoint → m (Except IoError Unit)}
    (huri : ∃ endpoint, Endpoint.parse uri = .ok endpoint)
    (hfailure : ∀ cause, ¬ Misreading (failure (.transport cause))) :
    (openEnd uri failure opening).Spares Misreading := by
  obtain ⟨endpoint, hparse⟩ := huri
  rw [openEnd, hparse]
  refine (Step.spares_lift _).bind ?_
  rintro (cause | _)
  · exact Step.spares_throw (hfailure cause)
  · exact Step.spares_pure endpoint

theorem spares_stream {α : Type} {job : StreamSource → Except CommandError α × StreamSink}
    (h : s.Readable) (hjob : ∀ source e, (job source).1 = .error e → ¬ Misreading e) :
    (stream (m := m) s job).Spares Misreading := by
  unfold stream
  refine (spares_openEnd h.source fun cause => by rintro ⟨⟩).bind fun source => ?_
  refine (spares_openEnd h.sink fun cause => by rintro ⟨⟩).bind fun sink => ?_
  refine (Step.spares_lift _).bind fun pending => ?_
  refine (Step.spares_lift _).bind fun _ => ?_
  exact Step.spares_mk_pure (hjob _)

/-- No command ends because of settings that can be read. -/
theorem spares_carryOut (h : s.Readable) (command : CommandName) :
    (carryOut (m := m) command s).Spares Misreading := by
  obtain ⟨options, hoptions⟩ := h.logging
  unfold carryOut
  rw [hoptions]
  cases command with
  | filter => exact (spares_stream h fun source _ => not_misreading_filterStream h source).discard
  | unglom => exact (spares_stream h fun source _ => not_misreading_unglomStream source).discard
  | config =>
    cases s.document? with
    | none => exact Step.spares_throw (by rintro ⟨⟩)
    | some text => exact Step.spares_lift _

end Steps

/-- What is accepted is what can be read: all that a command reads in the settings later is read
    without complaint, and neither number is zero. So no command ends because of settings that were
    accepted, whatever it finds in the system. -/
theorem accepted_iff_readable (s : Settings) :
    (s.validate = .ok () ↔ s.Readable) ∧
      (s.validate = .ok () → ∀ {m : Type → Type} [Monad m] [LawfulMonad m] [Host m]
        (command : CommandName), (carryOut (m := m) command s).Spares Misreading) := by
  refine ⟨Settings.validate_eq_ok_iff_readable, ?_⟩
  intro h m _ _ _ command
  exact spares_carryOut (Settings.validate_eq_ok_iff_readable.1 h) command

/-- Settings with names in mixed case, kinds as tags and as names with white space around them, and
    files as URI and as path. -/
def oddlySpelt : Settings where
  application := { logLevel := "WaRn", logFormat := "JSON" }
  pipeline :=
    { source := "file://runs/one.evt"
      sink := "out:put"
      oneShotSources := some 1
      exclude := [" +007 ", "evb_GLOM_info", "32798"]
      sample := some { kinds := ["\u00a0Physics_Event\n"], every := 3 } }

theorem accepted_iff_readable_oddlySpelt :
    oddlySpelt.validate = .ok () ∧ oddlySpelt.Readable ∧
      ∀ (command : CommandName) (machine : Machine) (e : CommandError),
        ((carryOut (m := StateM Machine) command oddlySpelt).run machine).1 = .error e →
          ¬ Misreading e := by
  have hvalid : oddlySpelt.validate = .ok () := by decide +kernel
  obtain ⟨hreadable, hspares⟩ := accepted_iff_readable oddlySpelt
  refine ⟨hvalid, hreadable.1 hvalid, ?_⟩
  intro command machine e he
  exact (hspares hvalid (m := StateM Machine) command).run_ne_error machine he

end CommandLine

end DaqStream
