import DaqStream.Proofs.Fragment.BuiltEvent
import DaqStream.Proofs.Pipeline.Decomposition

/-!
# Splitting what an event builder joined

An event builder joins records into one physics event. A decomposition that splits built events
takes them apart again, and it makes no difference whether the event was built here or was
written and read in between (`split_of_compose`).
-/

namespace DaqStream

namespace Record

open BuiltEvent

variable {version : FormatVersion} {d other : UInt32} {rs : List Record} {own : BodyHeader}
  {payload : Bytes} {r event : Record}

section Event

/-- The event that an event builder sends. -/
def builtEvent (version : FormatVersion) (own : BodyHeader) (rs : List Record) (d : UInt32) :
    Record :=
  physicsEvent version (some own) (compose rs d)

theorem size_physicsEvent (hversion : version ≠ .v10) :
    (physicsEvent version (some own) payload).size = 28 + payload.length := by
  have hheader : (physicsEvent version (some own) payload) =
      ⟨version, some own, [], .physicsEvent payload, none⟩ := by
    simp [physicsEvent, assemble, hversion]
  rw [hheader, size, Body.payloadSize, BodyHeader.sectionSize]
  cases version with
  | v10 => exact absurd rfl hversion
  | v11 | v12 => rfl

/-- A physics event is read back with the body header and the payload that it was built with. -/
theorem decode_physicsEvent (hversion : version ≠ .v10) (hsize : 28 + payload.length < 2 ^ 32) :
    ∃ q, decode version (physicsEvent version (some own) payload).encode = .ok q ∧
      q.header = some own ∧ q.body = .physicsEvent payload := by
  have hmade : Made (physicsEvent version (some own) payload) := .physicsEvent _ _ _
  rw [← @size_physicsEvent version own payload hversion] at hsize
  obtain ⟨hblock, hread⟩ := hmade.readsBack hsize
  have hwire := (hread maxDepth _).2 ⟨by simp [physicsEvent, assemble, texts, Body.texts],
    Nat.zero_le _, rfl⟩
  refine ⟨_, (decode_block hblock).2 hwire, ?_, ?_⟩
  · rw [header_norm (.inr (.inl hversion))]
    simp [physicsEvent, assemble, hversion]
  · rfl

end Event

section Expansion

theorem ofItems_map_ok (fragments : List (FragmentHeader × Bytes)) :
    Expansion.ofItems (fragments.map .ok) = { blocks := fragments } := by
  induction fragments with
  | nil => rfl
  | cons fragment fragments ih => rw [List.map_cons, Expansion.ofItems, ih]

theorem ofBuiltEvent_compose (h : (compose rs d).length < 2 ^ 32) :
    Expansion.ofBuiltEvent (compose rs d) = { blocks := rs.map fun r => r.flatten d } := by
  have hpayload := ofPayload_compose h []
  rw [List.append_nil] at hpayload
  rw [length_compose] at h
  obtain ⟨hitems, -⟩ := @items_fragments d rs (by omega)
  have hmap : (rs.map fun r => r.flatten d).map Except.ok =
      rs.map fun r => (.ok (r.flatten d) : Except RecordError (FragmentHeader × Bytes)) := by
    rw [List.map_map]
    rfl
  unfold Expansion.ofBuiltEvent
  rw [hpayload]
  dsimp only
  rw [hitems, ← hmap, ofItems_map_ok]

/-- An event with a body header is split into the fragments of the records that were joined,
    whatever source id the decomposition has for other records. -/
theorem expand_split (hheader : event.header = some own)
    (hbody : event.body = .physicsEvent (compose rs d)) (h : (compose rs d).length < 2 ^ 32) :
    event.expand { defaultSourceId := other, splitBuiltEvents := true } =
      { blocks := rs.map fun r => r.flatten d } := by
  unfold expand
  rw [hbody]
  dsimp only
  rw [hheader]
  simp only [Option.isSome_some, Bool.and_self, if_true]
  exact ofBuiltEvent_compose h

theorem isGlomParameters_eq_false (hglom : ∀ parameters, r.body ≠ .glomParameters parameters) :
    r.isGlomParameters = false := by
  unfold isGlomParameters
  split
  · rename_i parameters hbody
    exact absurd hbody (hglom parameters)
  · rfl

end Expansion

end Record

namespace Unglom

open Record BuiltEvent

variable {ω : Type}

theorem run_split {event : Record} {own : BodyHeader} {rs : List Record} {d : UInt32}
    (hheader : event.header = some own) (hbody : event.body = .physicsEvent (compose rs d))
    (h : (compose rs d).length < 2 ^ 32) (other : UInt32) (shared : ω) :
    ∃ u : Unglom MemorySource MemorySink,
      (ofRecords [event] { defaultSourceId := other, splitBuiltEvents := true }).run shared =
        (.ok { records := 1, fragments := rs.length, consumed := 0 }, u, shared) ∧
      u.sink.blocks.toList = rs.map (flatBlock d) := by
  have hsplit := @expand_split d other rs own event hheader hbody h
  have hexpand : ∀ r ∈ [event],
      (r.expand { defaultSourceId := other, splitBuiltEvents := true }).failure = none := by
    intro r hr
    rw [List.mem_singleton.1 hr, hsplit]
  obtain ⟨u, hrun, hblocks⟩ := run_ofRecords [event] hexpand shared
  rw [blocksOf_cons, hsplit, blocksOf_nil, List.append_nil, List.map_map] at hblocks
  have hsize : u.sink.blocks.size = rs.length := by
    rw [← Array.length_toList, hblocks, List.length_map]
  have hplain : [event].countP isGlomParameters = 0 := by
    simp [isGlomParameters, hbody]
  rw [hsize, hplain] at hrun
  exact ⟨u, hrun, hblocks⟩

theorem run_whole {rs : List Record}
    (hcomposite : ∀ r ∈ rs, ∀ base children, r.body ≠ .composite base children)
    (hglom : ∀ r ∈ rs, ∀ parameters, r.body ≠ .glomParameters parameters) (d : UInt32)
    (shared : ω) :
    ∃ u : Unglom MemorySource MemorySink,
      (ofRecords rs { defaultSourceId := d, splitBuiltEvents := false }).run shared =
        (.ok { records := rs.length, fragments := rs.length, consumed := 0 }, u, shared) ∧
      u.sink.blocks.toList = rs.map (flatBlock d) := by
  have hexpand : ∀ r ∈ rs, (r.expand { defaultSourceId := d }).failure = none := by
    intro r _
    rw [expand_whole]
  obtain ⟨u, hrun, hblocks⟩ := run_ofRecords rs hexpand shared
  have hparts : rs.flatMap parts = rs := by
    calc rs.flatMap parts = rs.flatMap fun r => [r] :=
          List.flatMap_congr fun r hr => parts_eq_singleton (hcomposite r hr) (hglom r hr)
      _ = rs := List.flatMap_singleton' rs
  rw [blocksOf_whole, hparts] at hblocks
  have hsize : u.sink.blocks.size = rs.length := by
    rw [← Array.length_toList, hblocks, List.length_map]
  have hplain : rs.countP isGlomParameters = 0 := by
    rw [List.countP_eq_zero]
    intro r hr
    rw [isGlomParameters_eq_false (hglom r hr)]
    exact Bool.false_ne_true
  rw [hsize, hplain] at hrun
  exact ⟨u, hrun, hblocks⟩

/-- Joining records into an event and splitting the event gives their fragments back, as if the
    records had been flattened one by one. -/
theorem split_of_compose (rs : List Record) (d : UInt32)
    (hlength : (compose rs d).length < 2 ^ 32 - 28) (shared : ω) :
    (∀ trailing : Bytes, ∃ event, ofPayload (compose rs d ++ trailing) = .ok event ∧
      event.items = rs.map (fun r => .ok (FragmentHeader.ofRecord r d, r.encode)) ∧
      event.finished.next? = none) ∧
    (∀ (version : FormatVersion) (own : BodyHeader) (other : UInt32),
      version = .v11 ∨ version = .v12 →
      (∃ q, decode version (builtEvent version own rs d).encode = .ok q) ∧
      ∀ event, event = builtEvent version own rs d ∨
          decode version (builtEvent version own rs d).encode = .ok event →
        ∃ u : Unglom MemorySource MemorySink,
          (ofRecords [event] { defaultSourceId := other, splitBuiltEvents := true }).run shared =
            (.ok { records := 1, fragments := rs.length, consumed := 0 }, u, shared) ∧
          u.sink.blocks.toList = rs.map (flatBlock d)) ∧
    ((∀ r ∈ rs, (∀ base children, r.body ≠ .composite base children) ∧
        ∀ parameters, r.body ≠ .glomParameters parameters) →
      ∃ u : Unglom MemorySource MemorySink,
        (ofRecords rs { defaultSourceId := d, splitBuiltEvents := false }).run shared =
          (.ok { records := rs.length, fragments := rs.length, consumed := 0 }, u, shared) ∧
        u.sink.blocks.toList = rs.map (flatBlock d)) := by
  have hcounted := length_compose rs d
  have hshort : (compose rs d).length < 2 ^ 32 := by omega
  refine ⟨?_, ?_, ?_⟩
  · intro trailing
    obtain ⟨hitems, hfinished⟩ := @items_fragments d rs (by omega)
    exact ⟨_, ofPayload_compose hshort trailing, hitems, by rw [hfinished, next?_nil]⟩
  · intro version own other hversion
    have hheaders : version ≠ .v10 := by
      rcases hversion with rfl | rfl <;> decide
    obtain ⟨q, hq, hheader, hbody⟩ :=
      @decode_physicsEvent version own (compose rs d) hheaders (by omega)
    refine ⟨⟨q, hq⟩, ?_⟩
    intro event hevent
    rcases hevent with hbuilt | hread
    · refine @run_split ω event own rs d ?_ ?_ hshort other shared
      · rw [hbuilt]
        simp [builtEvent, physicsEvent, assemble, hheaders]
      · rw [hbuilt]
        rfl
    · rw [builtEvent, hq] at hread
      cases hread
      exact run_split hheader hbody hshort other shared
  · intro hplain
    exact run_whole (fun r hr => (hplain r hr).1) (fun r hr => (hplain r hr).2) d shared

/-- A run transition and an event without a body header, joined, with bytes after the count. -/
theorem split_of_compose_example :
    (∃ event, ofPayload (compose [beginExample, eventExample] 9 ++ [1, 2]) = .ok event ∧
      event.items = [.ok (⟨7, 2, UInt32.ofNat beginExample.size, 1⟩, beginExample.encode),
        .ok (⟨nullTimestamp, 9, UInt32.ofNat eventExample.size, 0⟩, eventExample.encode)]) ∧
    (∃ u : Unglom MemorySource MemorySink,
      (ofRecords [builtEvent .v12 ⟨1, 2, 3⟩ [beginExample, eventExample] 9]
        { defaultSourceId := 4, splitBuiltEvents := true }).run () =
          (.ok { records := 1, fragments := 2, consumed := 0 }, u, ()) ∧
      u.sink.blocks.toList = [flatBlock 9 beginExample, flatBlock 9 eventExample]) ∧
    (∃ u : Unglom MemorySource MemorySink,
      (ofRecords [beginExample, eventExample] { defaultSourceId := 9 }).run () =
          (.ok { records := 2, fragments := 2, consumed := 0 }, u, ()) ∧
      u.sink.blocks.toList = [flatBlock 9 beginExample, flatBlock 9 eventExample]) := by
  have hlength : (compose [beginExample, eventExample] 9).length < 2 ^ 32 - 28 := by decide +kernel
  obtain ⟨hwalk, hsplit, hwhole⟩ := split_of_compose [beginExample, eventExample] 9 hlength ()
  obtain ⟨event, hpayload, hitems, -⟩ := hwalk [1, 2]
  obtain ⟨-, hrun⟩ := hsplit .v12 ⟨1, 2, 3⟩ 4 (.inr rfl)
  refine ⟨⟨event, hpayload, hitems⟩, hrun _ (.inl rfl), hwhole ?_⟩
  simp [beginExample, eventExample, Record.physicsEvent, assemble]

end Unglom

end DaqStream
