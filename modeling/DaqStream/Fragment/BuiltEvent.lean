import DaqStream.Fragment.Header

/-!
# Built events

The payload of an event that an event builder made: a byte count that includes itself, then
flat fragments one after the other. Bytes past the count are not looked at.
-/

namespace DaqStream

/-- What is still to be read of a built event. -/
structure BuiltEvent where
  left : Bytes
  deriving DecidableEq, Repr

namespace BuiltEvent

/-- Begin to read the payload of a built event. -/
def ofPayload (payload : Bytes) : Except RecordError BuiltEvent :=
  match Bytes.cut 4 payload with
  | none => .error (.fieldOverrun "built_event_size")
  | some (word, _) =>
    let declared := LittleEndian.toNat word
    match Bytes.cut declared payload with
    | some (counted, _) =>
      if declared < 4 then .error (.truncated declared payload.length)
      else .ok ⟨counted.drop 4⟩
    | none => .error (.truncated declared payload.length)

/-- The next fragment, or why it cannot be read, and what is left then; nothing at the end.
    Nothing is left after an error. -/
def next? (e : BuiltEvent) :
    Option (Except RecordError (FragmentHeader × Bytes) × BuiltEvent) :=
  if e.left.isEmpty then none
  else match FragmentHeader.decode e.left with
    | .error err => some (.error err, ⟨[]⟩)
    | .ok header =>
      let behind := e.left.drop FragmentHeader.wireSize
      match Bytes.cut header.payloadSize.toNat behind with
      | some (payload, rest) => some (.ok (header, payload), ⟨rest⟩)
      | none => some (.error (.truncated header.payloadSize.toNat behind.length), ⟨[]⟩)

theorem length_left_of_next? {e e' : BuiltEvent} {item : Except RecordError (FragmentHeader × Bytes)}
    (h : e.next? = some (item, e')) : e'.left.length < e.left.length := by
  unfold next? at h
  split at h
  · simp at h
  · rename_i hne
    have hpos : 0 < e.left.length := List.length_pos_iff.2 (by simpa using hne)
    split at h
    · simp only [Option.some.injEq, Prod.mk.injEq] at h
      obtain ⟨-, rfl⟩ := h
      exact hpos
    · dsimp only at h
      split at h
      · rename_i payload rest hcut
        simp only [Option.some.injEq, Prod.mk.injEq] at h
        obtain ⟨-, rfl⟩ := h
        obtain ⟨hcat, -⟩ := Bytes.cut_eq_some_iff.1 hcut
        have hlen := congrArg List.length hcat
        simp only [List.length_drop, List.length_append, FragmentHeader.wireSize] at hlen
        dsimp only
        omega
      · simp only [Option.some.injEq, Prod.mk.injEq] at h
        obtain ⟨-, rfl⟩ := h
        exact hpos

/-- All fragments in order; an error can only be the last item. -/
def items (e : BuiltEvent) : List (Except RecordError (FragmentHeader × Bytes)) :=
  match h : e.next? with
  | none => []
  | some (item, e') =>
    have : e'.left.length < e.left.length := length_left_of_next? h
    item :: items e'
termination_by e.left.length

/-- What is left once all fragments have been read. -/
def finished (e : BuiltEvent) : BuiltEvent :=
  match h : e.next? with
  | none => e
  | some (_, e') =>
    have : e'.left.length < e.left.length := length_left_of_next? h
    finished e'
termination_by e.left.length

/-- The payload of the built event that an event builder makes of `records`. -/
def compose (records : List Record) (defaultSourceId : UInt32) : Bytes :=
  let fragments := records.flatMap fun r =>
    let (header, payload) := r.flatten defaultSourceId
    header.encode ++ payload
  LittleEndian.u32 (UInt32.ofNat (4 + fragments.length)) ++ fragments

end BuiltEvent

end DaqStream
