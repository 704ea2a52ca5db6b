import DaqStream.Proofs.Fragment.Walk
import DaqStream.Proofs.Pipeline.Accounts
import DaqStream.Proofs.Pipeline.Splitting

/-!
# The accounts of a decomposition

A decomposition that has met an error can be asked for the next record again. The source may fail
at any read, the sink at any block, and a built event may be damaged anywhere; the calls go on
regardless. With a journal kept of them, each call enters a page of its own, whatever became of
the calls before it: a read, and after it the blocks of the record that was read, up to what stops
the call (`Call`). Which blocks a record has is said by its body: all of them (`Yields`), or those
in front of the damage (`BreaksOff`). The counts are those of the journal (`calls_accounted`).
-/

namespace DaqStream

namespace Entry

/-- The block that the sink took. -/
def taken? : Entry → Option Bytes
  | .put block (.ok ()) => some block
  | _ => none

end Entry

/-- The glom parameters that a record carries. -/
def Record.glomParameters? (r : Record) : Option GlomParameters :=
  match r.body with
  | .glomParameters parameters => some parameters
  | _ => none

theorem Record.length_glomParameters? (r : Record) :
    ([r].filterMap Record.glomParameters?).length = if r.isGlomParameters then 1 else 0 := by
  obtain ⟨version, header, extension, body, wire⟩ := r
  cases body <;> rfl

/-- The blocks that the sink took. -/
def taken (journal : List Entry) : List Bytes :=
  journal.filterMap Entry.taken?

/-- The entries of blocks that the sink takes one after the other. -/
def takes (blocks : List (FragmentHeader × Bytes)) : List Entry :=
  blocks.map fun block => .put (flatBytes block) (.ok ())

section Entries

variable {entries entries' : List Entry} {block : FragmentHeader × Bytes}
  {blocks : List (FragmentHeader × Bytes)}

theorem taken_append : taken (entries ++ entries') = taken entries ++ taken entries' :=
  List.filterMap_append

@[simp] theorem takes_cons :
    takes (block :: blocks) = .put (flatBytes block) (.ok ()) :: takes blocks := rfl

@[simp] theorem taken_takes : taken (takes blocks) = blocks.map flatBytes := by
  induction blocks with
  | nil => rfl
  | cons block blocks ih => exact congrArg (flatBytes block :: ·) ih

/-- The sink took each of these blocks. -/
theorem put_error_not_mem_takes {bytes : Bytes} {e : PipelineError} :
    .put bytes (.error e) ∉ takes blocks := by
  intro hmem
  obtain ⟨block, -, hput⟩ := List.mem_map.1 hmem
  cases hput

@[simp] theorem handedOut_takes : handedOut (takes blocks) = [] := by
  induction blocks with
  | nil => rfl
  | cons block blocks ih => exact ih

end Entries

/-- The blocks of a record that is not damaged. -/
inductive Yields (options : UnglomOptions) (r : Record) : List (FragmentHeader × Bytes) → Prop
  /-- Glom parameters are consumed. -/
  | glomParameters {parameters : GlomParameters} :
      r.body = .glomParameters parameters → Yields options r []
  /-- A composite record gives a block for each of its children. -/
  | composite {base : UInt32} {children : List Record} : r.body = .composite base children →
      Yields options r (children.map fun child => child.flatten options.defaultSourceId)
  /-- A built event gives the fragments in it, if all of them can be read. -/
  | builtEvent {own : BodyHeader} {payload : Bytes} {event : BuiltEvent}
      {blocks : List (FragmentHeader × Bytes)} :
      options.splitBuiltEvents = true → r.header = some own → r.body = .physicsEvent payload →
      BuiltEvent.ofPayload payload = .ok event → event.items = blocks.map .ok →
      Yields options r blocks
  /-- Any other record gives a block for itself. -/
  | whole : (∀ parameters, r.body ≠ .glomParameters parameters) →
      (∀ base children, r.body ≠ .composite base children) →
      (∀ payload, r.body = .physicsEvent payload →
        options.splitBuiltEvents = false ∨ r.header = none) →
      Yields options r [r.flatten options.defaultSourceId]

/-- A record from which no more can be written than `blocks`, because of `e`. It is taken for a
    built event, and is damaged. -/
inductive BreaksOff (options : UnglomOptions) (r : Record) (e : RecordError) :
    List (FragmentHeader × Bytes) → Prop
  /-- Nothing is known of the fragments if their count is damaged. -/
  | inCount {own : BodyHeader} {payload : Bytes} :
      options.splitBuiltEvents = true → r.header = some own → r.body = .physicsEvent payload →
      BuiltEvent.ofPayload payload = .error e → BreaksOff options r e []
  /-- The fragments are those in front of the damaged one, which is the last item. -/
  | inFragment {own : BodyHeader} {payload : Bytes} {event : BuiltEvent}
      {blocks : List (FragmentHeader × Bytes)} :
      options.splitBuiltEvents = true → r.header = some own → r.body = .physicsEvent payload →
      BuiltEvent.ofPayload payload = .ok event →
      event.items = blocks.map .ok ++ [.error e] → BreaksOff options r e blocks

section Expansion

variable {options : UnglomOptions} {r : Record} {e : RecordError}

theorem Expansion.ofItems_append_error (fragments : List (FragmentHeader × Bytes))
    (e : RecordError) :
    Expansion.ofItems (fragments.map .ok ++ [.error e]) =
      { blocks := fragments, failure := some e } := by
  induction fragments with
  | nil => rfl
  | cons fragment fragments ih =>
    rw [List.map_cons, List.cons_append, Expansion.ofItems, ih]

/-- What is given for a built event: all its fragments, or those in front of the damage. -/
theorem Record.yields_or_breaksOff_builtEvent {own : BodyHeader} {payload : Bytes}
    (hsplit : options.splitBuiltEvents = true) (hheader : r.header = some own)
    (hbody : r.body = .physicsEvent payload) :
    ((Expansion.ofBuiltEvent payload).failure = none ∧
        Yields options r (Expansion.ofBuiltEvent payload).blocks) ∨
      ∃ e, (Expansion.ofBuiltEvent payload).failure = some e ∧
        BreaksOff options r e (Expansion.ofBuiltEvent payload).blocks := by
  unfold Expansion.ofBuiltEvent
  cases hpayload : BuiltEvent.ofPayload payload with
  | error e => exact .inr ⟨e, rfl, .inCount hsplit hheader hbody hpayload⟩
  | ok event =>
    dsimp only
    obtain ⟨fragments, tail, -, -, hitems⟩ := (BuiltEvent.walk_items event).exists_fragments
    rcases hitems with ⟨hitems, -⟩ | ⟨e, hitems, -⟩
    · rw [hitems, Record.ofItems_map_ok]
      exact .inl ⟨rfl, .builtEvent hsplit hheader hbody hpayload hitems⟩
    · rw [hitems, Expansion.ofItems_append_error]
      exact .inr ⟨e, rfl, .inFragment hsplit hheader hbody hpayload hitems⟩

/-- A record gives all its blocks unless it is damaged. -/
theorem Record.yields_or_breaksOff (options : UnglomOptions) (r : Record) :
    ((r.expand options).failure = none ∧ Yields options r (r.expand options).blocks) ∨
      ∃ e, (r.expand options).failure = some e ∧
        BreaksOff options r e (r.expand options).blocks := by
  unfold Record.expand
  cases hbody : r.body with
  | glomParameters parameters => exact .inl ⟨rfl, .glomParameters hbody⟩
  | composite base children => exact .inl ⟨rfl, .composite hbody⟩
  | physicsEvent payload =>
    dsimp only
    by_cases hsplit : options.splitBuiltEvents && r.header.isSome
    · rw [if_pos hsplit]
      obtain ⟨hoption, hheader⟩ := Bool.and_eq_true_iff.1 hsplit
      obtain ⟨own, hown⟩ := Option.isSome_iff_exists.1 hheader
      exact Record.yields_or_breaksOff_builtEvent hoption hown hbody
    · rw [if_neg hsplit]
      have hwhole : options.splitBuiltEvents = false ∨ r.header = none := by
        cases hoption : options.splitBuiltEvents with
        | false => exact .inl rfl
        | true => exact .inr (by simpa [hoption] using hsplit)
      exact .inl ⟨rfl, .whole (by simp [hbody]) (by simp [hbody]) fun _ _ => hwhole⟩
  | _ => exact .inl ⟨rfl, .whole (by simp [hbody]) (by simp [hbody]) (by simp [hbody])⟩

section Damage

variable {own : BodyHeader} {payload : Bytes} {blocks blocks' : List (FragmentHeader × Bytes)}
  {e' : RecordError}

/-- A built event that gives all its blocks has a count and fragments that can be read. -/
theorem Yields.exists_event (h : Yields options r blocks)
    (hsplit : options.splitBuiltEvents = true) (hheader : r.header = some own)
    (hbody : r.body = .physicsEvent payload) :
    ∃ event, BuiltEvent.ofPayload payload = .ok event ∧ event.items = blocks.map .ok := by
  cases h with
  | glomParameters hother | composite hother =>
    rw [hbody] at hother
    cases hother
  | builtEvent _ _ hsame hevent hitems =>
    rw [hbody] at hsame
    cases hsame
    exact ⟨_, hevent, hitems⟩
  | whole _ _ hwhole =>
    rcases hwhole payload hbody with hoption | hnone
    · rw [hsplit] at hoption
      cases hoption
    · rw [hheader] at hnone
      cases hnone

/-- A damaged record does not give all its blocks. -/
theorem BreaksOff.not_yields (h : BreaksOff options r e blocks) : ¬ Yields options r blocks' := by
  intro hyields
  cases h with
  | inCount hsplit hheader hbody hpayload =>
    obtain ⟨event, hevent, -⟩ := hyields.exists_event hsplit hheader hbody
    rw [hpayload] at hevent
    cases hevent
  | inFragment hsplit hheader hbody hpayload hitems =>
    obtain ⟨event, hevent, hall⟩ := hyields.exists_event hsplit hheader hbody
    rw [hpayload] at hevent
    cases hevent
    have hmem : Except.error e ∈ blocks'.map Except.ok := by
      rw [← hall, hitems]
      exact List.mem_concat_self
    obtain ⟨block, -, hblock⟩ := List.mem_map.1 hmem
    cases hblock

/-- Only one thing is said to be wrong with a damaged record. -/
theorem BreaksOff.unique (h : BreaksOff options r e blocks) (h' : BreaksOff options r e' blocks') :
    e = e' := by
  cases h with
  | inCount _ _ hbody hpayload =>
    cases h' with
    | inCount _ _ hbody' hpayload' =>
      rw [hbody] at hbody'
      cases hbody'
      rw [hpayload] at hpayload'
      cases hpayload'
      rfl
    | inFragment _ _ hbody' hpayload' _ =>
      rw [hbody] at hbody'
      cases hbody'
      rw [hpayload] at hpayload'
      cases hpayload'
  | inFragment _ _ hbody hpayload hitems =>
    cases h' with
    | inCount _ _ hbody' hpayload' =>
      rw [hbody] at hbody'
      cases hbody'
      rw [hpayload] at hpayload'
      cases hpayload'
    | inFragment _ _ hbody' hpayload' hitems' =>
      rw [hbody] at hbody'
      cases hbody'
      rw [hpayload] at hpayload'
      cases hpayload'
      have hlast := congrArg List.getLast? (hitems.symm.trans hitems')
      rw [List.getLast?_concat, List.getLast?_concat] at hlast
      cases hlast
      rfl

end Damage

end Expansion

theorem RecordSink.putParts_journaled {ω κ : Type} [RecordSink ω κ] {k k' : κ} {parts : List Bytes}
    {shared shared' : ω} {result : Except PipelineError Unit} (entries : List Entry)
    (h : RecordSink.putParts k parts shared = (result, k', shared')) :
    RecordSink.putParts k parts (⟨shared, entries⟩ : Journaled ω) =
      (result, k', ⟨shared', entries ++ [.put parts.flatten result]⟩) := by
  simp only [RecordSink.putParts]
  rw [h]
  rfl

theorem RecordSource.readOne_journaled {ω σ : Type} [RecordSource ω σ] {s s' : σ}
    {shared shared' : ω} {result : Except PipelineError (Option Record)} (entries : List Entry)
    (h : RecordSource.readOne s shared = (result, s', shared')) :
    RecordSource.readOne s (⟨shared, entries⟩ : Journaled ω) =
      (result, s', ⟨shared', entries ++ [.read result]⟩) := by
  simp only [RecordSource.readOne]
  rw [h]
  rfl

/-- The counts go from `t` to `t'` by the records that were handed out and the blocks that were
    taken. -/
structure UnglomTally.Counts (t t' : UnglomTally) (entries : List Entry) : Prop where
  records : t'.records = t.records + (handedOut entries).length
  fragments : t'.fragments = t.fragments + (taken entries).length
  consumed : t'.consumed =
    t.consumed + ((handedOut entries).filterMap Record.glomParameters?).length

namespace UnglomTally.Counts

variable {t t' t'' : UnglomTally} {entries entries' : List Entry}

theorem nil (t : UnglomTally) : Counts t t [] := ⟨rfl, rfl, rfl⟩

theorem append (h : Counts t t' entries) (h' : Counts t' t'' entries') :
    Counts t t'' (entries ++ entries') where
  records := by
    rw [h'.records, h.records, handedOut_append, List.length_append, Nat.add_assoc]
  fragments := by
    rw [h'.fragments, h.fragments, taken_append, List.length_append, Nat.add_assoc]
  consumed := by
    rw [h'.consumed, h.consumed, handedOut_append, List.filterMap_append, List.length_append,
      Nat.add_assoc]

end UnglomTally.Counts

namespace Unglom

open UnglomTally

/-- What the writing of blocks enters into the journal, by its result. -/
inductive Writes (blocks : List (FragmentHeader × Bytes)) :
    Except PipelineError Unit → List Entry → Prop
  | all : Writes blocks (.ok ()) (takes blocks)
  | upTo {before behind : List (FragmentHeader × Bytes)} {block : FragmentHeader × Bytes}
      {e : PipelineError} : blocks = before ++ block :: behind →
      Writes blocks (.error e) (takes before ++ [.put (flatBytes block) (.error e)])

/-- What a call for the next record enters into the journal, by its result. -/
inductive Call (options : UnglomOptions) : Except PipelineError Bool → List Entry → Prop
  /-- The source failed. -/
  | unread {e : PipelineError} : Call options (.error e) [.read (.error e)]
  /-- The source has come to its end. -/
  | atEnd : Call options (.ok false) [.read (.ok none)]
  /-- All blocks of the record were taken. -/
  | whole {r : Record} {blocks : List (FragmentHeader × Bytes)} : Yields options r blocks →
      Call options (.ok true) (.read (.ok (some r)) :: takes blocks)
  /-- The sink failed at one of the blocks and took those before it. -/
  | unwritten {r : Record} {before behind : List (FragmentHeader × Bytes)}
      {block : FragmentHeader × Bytes} {e : PipelineError} :
      Yields options r (before ++ block :: behind) ∨
        (∃ damage, BreaksOff options r damage (before ++ block :: behind)) →
      Call options (.error e)
        (.read (.ok (some r)) :: (takes before ++ [.put (flatBytes block) (.error e)]))
  /-- The record is damaged, and what is in front of the damage was taken. -/
  | malformed {r : Record} {blocks : List (FragmentHeader × Bytes)} {e : RecordError} :
      BreaksOff options r e blocks →
      Call options (.error (.malformedRecord e)) (.read (.ok (some r)) :: takes blocks)

/-- A call that wrote all that a damaged record has left ends with the damage. -/
theorem Call.eq_malformed {options : UnglomOptions} {result : Except PipelineError Bool}
    {r : Record} {blocks : List (FragmentHeader × Bytes)} {e : RecordError}
    (h : Call options result (.read (.ok (some r)) :: takes blocks))
    (hbreaks : BreaksOff options r e blocks) : result = .error (.malformedRecord e) := by
  generalize hpage : Entry.read (.ok (some r)) :: takes blocks = page at h
  cases h with
  | unread | atEnd => cases hpage
  | whole hyields =>
    cases (List.cons.inj hpage).1
    exact absurd hyields hbreaks.not_yields
  | @unwritten r' before behind block e' _ =>
    have hmem : Entry.put (flatBytes block) (.error e') ∈ takes blocks := by
      rw [(List.cons.inj hpage).2]
      exact List.mem_concat_self
    exact absurd hmem put_error_not_mem_takes
  | malformed hbreaks' =>
    cases (List.cons.inj hpage).1
    rw [hbreaks.unique hbreaks']

variable {ω σ κ : Type} {u u' : Unglom σ κ} {shared shared' : ω}

/-- Call for the next record a number of times, however the calls end. -/
def calls [RecordSource ω σ] [RecordSink ω κ] : (count : Nat) → Unglom σ κ → ω →
    List (Except PipelineError Bool) × Unglom σ κ × ω
  | 0, u, shared => ([], u, shared)
  | count + 1, u, shared =>
    match u.processOne shared with
    | (result, u', shared') =>
      match calls count u' shared' with
      | (results, u'', shared'') => (result :: results, u'', shared'')

section Steps

variable [RecordSink ω κ]

/-- Writing blocks changes the sink, and counts those that it takes. -/
theorem emit_journaled {blocks : List (FragmentHeader × Bytes)} {result : Except PipelineError Unit}
    (h : u.emit shared blocks = (result, u', shared')) (entries : List Entry) :
    ∃ page, u.emit (⟨shared, entries⟩ : Journaled ω) blocks =
        (result, u', ⟨shared', entries ++ page⟩) ∧
      Writes blocks result page ∧ u'.options = u.options ∧ Counts u.tally u'.tally page := by
  induction blocks generalizing u shared entries with
  | nil =>
    cases h
    refine ⟨[], ?_, .all, rfl, .nil _⟩
    rw [List.append_nil]
    rfl
  | cons block blocks ih =>
    obtain ⟨header, payload⟩ := block
    rw [emit] at h ⊢
    rcases hput : RecordSink.putParts u.sink [header.encode, payload] shared with
      ⟨answer, sink, shared₁⟩
    have hflat : [header.encode, payload].flatten = flatBytes (header, payload) := by
      simp [flatBytes]
    have hnoted := RecordSink.putParts_journaled entries hput
    rw [hflat] at hnoted
    rw [hput] at h
    rw [hnoted]
    cases answer with
    | error e =>
      cases h
      have hnone : (header, payload) :: blocks = [] ++ (header, payload) :: blocks := rfl
      exact ⟨_, rfl, .upTo hnone, rfl, ⟨rfl, rfl, rfl⟩⟩
    | ok _ =>
      obtain ⟨page, hrest, hwrites, hoptions, hcounts⟩ :=
        ih h (entries ++ [.put (flatBytes (header, payload)) (.ok ())])
      rw [List.append_assoc] at hrest
      have hfirst : Counts u.tally { u.tally with fragments := u.tally.fragments + 1 }
          [.put (flatBytes (header, payload)) (.ok ())] := ⟨rfl, rfl, rfl⟩
      refine ⟨_, hrest, ?_, hoptions, hfirst.append hcounts⟩
      cases hwrites with
      | all => exact .all
      | @upTo before behind block e hblocks =>
        have hall : (header, payload) :: blocks =
            ((header, payload) :: before) ++ block :: behind := congrArg _ hblocks
        exact .upTo hall

variable [RecordSource ω σ]

/-- A call enters one page, and counts what is on it. -/
theorem processOne_journaled {result : Except PipelineError Bool}
    (h : u.processOne shared = (result, u', shared')) (entries : List Entry) :
    ∃ page, u.processOne (⟨shared, entries⟩ : Journaled ω) =
        (result, u', ⟨shared', entries ++ page⟩) ∧
      Call u.options result page ∧ u'.options = u.options ∧ Counts u.tally u'.tally page := by
  unfold processOne at h ⊢
  rcases hread : RecordSource.readOne u.source shared with ⟨answer, source, shared₁⟩
  rw [hread] at h
  rw [RecordSource.readOne_journaled entries hread]
  rcases answer with e | _ | r
  · cases h
    exact ⟨_, rfl, .unread, rfl, ⟨rfl, rfl, rfl⟩⟩
  · cases h
    exact ⟨_, rfl, .atEnd, rfl, ⟨rfl, rfl, rfl⟩⟩
  · dsimp only at h ⊢
    rcases hemit : emit { u with
        source
        tally := { u.tally with
          records := u.tally.records + 1
          consumed := u.tally.consumed + if r.isGlomParameters then 1 else 0 } }
      shared₁ (r.expand u.options).blocks with ⟨written, u₁, shared₂⟩
    obtain ⟨page, hnoted, hwrites, hoptions, hcounts⟩ :=
      emit_journaled hemit (entries ++ [.read (.ok (some r))])
    rw [List.append_assoc] at hnoted
    rw [hemit] at h
    rw [hnoted]
    have hfirst : Counts u.tally { u.tally with
        records := u.tally.records + 1
        consumed := u.tally.consumed + if r.isGlomParameters then 1 else 0 }
        [.read (.ok (some r))] :=
      ⟨rfl, rfl, congrArg (u.tally.consumed + ·) (Record.length_glomParameters? r).symm⟩
    have hall := hfirst.append hcounts
    have hexpand := Record.yields_or_breaksOff u.options r
    cases hwrites with
    | upTo hblocks =>
      cases h
      rw [hblocks] at hexpand
      refine ⟨_, rfl, .unwritten (hexpand.imp And.right ?_), hoptions, hall⟩
      exact fun hdamage => hdamage.imp fun _ => And.right
    | all =>
      dsimp only at h ⊢
      rcases hexpand with ⟨hfailure, hyields⟩ | ⟨e, hfailure, hbreaks⟩
      · rw [hfailure] at h
        cases h
        rw [hfailure]
        exact ⟨_, rfl, .whole hyields, hoptions, hall⟩
      · rw [hfailure] at h
        cases h
        rw [hfailure]
        exact ⟨_, rfl, .malformed hbreaks, hoptions, hall⟩

theorem calls_journaled {count : Nat} {results : List (Except PipelineError Bool)}
    (h : calls count u shared = (results, u', shared')) (entries : List Entry) :
    ∃ pages, calls count u (⟨shared, entries⟩ : Journaled ω) =
        (results, u', ⟨shared', entries ++ pages.flatten⟩) ∧
      List.Forall₂ (Call u.options) results pages ∧ Counts u.tally u'.tally pages.flatten := by
  induction count generalizing u shared entries results with
  | zero =>
    cases h
    refine ⟨[], ?_, .nil, .nil _⟩
    rw [List.flatten_nil, List.append_nil]
    rfl
  | succ count ih =>
    rw [calls] at h ⊢
    rcases hfirst : u.processOne shared with ⟨result, u₁, shared₁⟩
    rcases hrest : calls count u₁ shared₁ with ⟨rest, u₂, shared₂⟩
    rw [hfirst] at h
    dsimp only at h
    rw [hrest] at h
    cases h
    obtain ⟨page, hnoted, hcall, hoptions, hcounts⟩ := processOne_journaled hfirst entries
    obtain ⟨pages, hpages, hcalls, hcounted⟩ := ih hrest (entries ++ page)
    rw [hoptions] at hcalls
    rw [List.append_assoc] at hpages
    refine ⟨page :: pages, ?_, .cons hcall hcalls, hcounts.append hcounted⟩
    rw [hnoted]
    dsimp only
    rw [hpages]
    rfl

/-- The accounts of a decomposition after any number of calls, however they ended. The journal has
    a page for each call, in order, and the blocks of a record are on the page of the call that read
    it and on no other. So a record whose call ended well gave all its blocks, any other record
    those in front of the block that the sink refused or of the damage, and the records after it
    were treated like any others. A call that got as far as the damage says what it is. The counts
    are those of the records that were handed out, of the blocks that were taken and of the glom
    parameters. -/
theorem calls_accounted (u : Unglom σ κ) (shared : ω) (count : Nat) :
    ∃ results u' shared' pages,
      u.calls count shared = (results, u', shared') ∧
      u.calls count (⟨shared, []⟩ : Journaled ω) = (results, u', ⟨shared', pages.flatten⟩) ∧
      List.Forall₂ (Call u.options) results pages ∧
      (∀ result r blocks, (result, .read (.ok (some r)) :: takes blocks) ∈ results.zip pages →
        ∀ e, BreaksOff u.options r e blocks → result = .error (.malformedRecord e)) ∧
      u'.tally.records = u.tally.records + (handedOut pages.flatten).length ∧
      u'.tally.fragments = u.tally.fragments + (taken pages.flatten).length ∧
      u'.tally.consumed = u.tally.consumed +
        ((handedOut pages.flatten).filterMap Record.glomParameters?).length := by
  rcases hcalls : u.calls count shared with ⟨results, u', shared'⟩
  obtain ⟨pages, hnoted, hpages, hcounts⟩ := calls_journaled hcalls []
  refine ⟨results, u', shared', pages, rfl, hnoted, hpages, ?_, hcounts.records,
    hcounts.fragments, hcounts.consumed⟩
  intro result r blocks hmem e hbreaks
  have hcall := (List.forall₂_iff_zip.1 hpages).2 hmem
  exact hcall.eq_malformed hbreaks

end Steps

/-- The sink fails within the first block of three, and takes the next record. -/
example :
    let u : Unglom MemorySource StreamSink :=
      { source := { records := [mixedExample, eventExample] }
        sink := { acceptances := [.upTo 20, .failure .writeZero] }
        options := {} }
    (u.calls 2 ()).2.1.tally = { records := 2, fragments := 1, consumed := 0 } := by
  decide +kernel

end Unglom

end DaqStream
