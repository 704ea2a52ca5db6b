import DaqStream.Proofs.Record.Cursor
import DaqStream.Proofs.Record.Scan

/-!
# Decoding within bounds

The decoder of records, with every access to the bytes as an operation that can be a fault. A
record is entered with the number of records that it lies in, and it is a fault to enter one
below the deepest level. Each child of a composite record has to take some bytes, and neither the
levels nor the turns of a loop may be more than were given in advance. None of this ever comes to
a fault, whatever the bytes claim (`decodeWireAt_eq`): a number of turns beyond the number of
bytes is always enough, and the outcome is that of `Record.decodeWire`.
-/

namespace DaqStream

open Decoding (faultless)

section Layouts

/-- The body-header word and what it announces. The extension shares the bytes of the record. -/
def BodyHeader.readAt (wire : Window) (version : FormatVersion) :
    Cursor (Option BodyHeader × Bytes) := do
  if version.hasHeaderWord then
    let word ← Cursor.u32 "body_header_size"
    if word = 0 ∨ word = 4 then
      return (none, [])
    else if wireSize ≤ word.toNat then
      let timestamp ← Cursor.u64 "body_header_timestamp"
      let sourceId ← Cursor.u32 "body_header_source_id"
      let barrierType ← Cursor.u32 "body_header_barrier"
      let extra ← Fault.sub word.toNat wireSize
      let extension ← Cursor.bytes wire "body_header_extension" extra
      return (some ⟨timestamp, sourceId, barrierType⟩, extension)
    else throw (.badBodyHeader word)
  else return (none, [])

/-- The fields of a state change; the first generation has no divisor, only the third a producer. -/
def StateChange.readAt (wire : Window) (version : FormatVersion) (kind : RecordKind) :
    Cursor StateChange := do
  let runNumber ← Cursor.u32 "run_number"
  let timeOffset ← Cursor.u32 "time_offset"
  let unixTime ← Cursor.u32 "timestamp"
  let offsetDivisor ← Cursor.u32If (version ≠ .v10) 1 "offset_divisor"
  let title ← Cursor.title wire
  let producerId ← Cursor.u32If (version = .v12) 0 "original_source_id"
  return { kind, runNumber, timeOffset, unixTime, offsetDivisor, title, producerId }

/-- The fields of a scaler readout, then as many values as it counts. -/
def Scaler.readAt (version : FormatVersion) : Cursor Scaler := do
  let intervalStart ← Cursor.u32 "interval_start"
  let intervalEnd ← Cursor.u32 "interval_end"
  let unixTime ← Cursor.u32 "timestamp"
  let intervalDivisor ← Cursor.u32If (version ≠ .v10) 1 "interval_divisor"
  let count ← Cursor.u32 "scaler_count"
  let incremental ← Cursor.u32If (version ≠ .v10) 1 "is_incremental"
  let producerId ← Cursor.u32If (version = .v12) 0 "original_source_id"
  let values ← Cursor.values count
  return { intervalStart, intervalEnd, unixTime, intervalDivisor,
           isIncremental := incremental ≠ 0, values, producerId }

/-- The fields of a text list, then as many strings as it counts. -/
def TextList.readAt (wire : Window) (version : FormatVersion) (kind : RecordKind) :
    Cursor TextList := do
  let timeOffset ← Cursor.u32 "time_offset"
  let unixTime ← Cursor.u32 "timestamp"
  let count ← Cursor.u32 "string_count"
  let offsetDivisor ← Cursor.u32If (version ≠ .v10) 1 "offset_divisor"
  let producerId ← Cursor.u32If (version = .v12) 0 "original_source_id"
  let strings ← Cursor.strings wire count.toNat
  return { kind, timeOffset, unixTime, offsetDivisor, strings, producerId }

/-- The fields of an event count, with the divisor between the two times. -/
def EventCount.readAt (version : FormatVersion) : Cursor EventCount := do
  let timeOffset ← Cursor.u32 "time_offset"
  let offsetDivisor ← Cursor.u32If (version ≠ .v10) 1 "offset_divisor"
  let unixTime ← Cursor.u32 "timestamp"
  let eventCount ← Cursor.u64 "event_count"
  let producerId ← Cursor.u32If (version = .v12) 0 "original_source_id"
  return { timeOffset, offsetDivisor, unixTime, eventCount, producerId }

/-- The header that a fragment of the first generation has in its body. Its payload has to be all
    that is left. -/
def Fragment.readHeaderAt : Cursor BodyHeader := do
  let timestamp ← Cursor.u64 "fragment_timestamp"
  let sourceId ← Cursor.u32 "fragment_source_id"
  let payloadSize ← Cursor.u32 "fragment_payload_size"
  let barrierType ← Cursor.u32 "fragment_barrier"
  let available ← Cursor.remaining
  if payloadSize.toNat = available then return ⟨timestamp, sourceId, barrierType⟩
  else throw (.truncated payloadSize.toNat available)

/-- The three fields of glom parameters. -/
def GlomParameters.readAt : Cursor GlomParameters := do
  let coincidenceTicks ← Cursor.u64 "coincidence_ticks"
  let isBuilding ← Cursor.u16 "is_building"
  let policy ← Cursor.u16 "timestamp_policy"
  return { coincidenceTicks, isBuilding := isBuilding ≠ 0,
           timestampPolicy := TimestampPolicy.ofCode policy }

/-- The two fields of a data format. -/
def DataFormat.readAt : Cursor DataFormat := do
  let major ← Cursor.u16 "major"
  let minor ← Cursor.u16 "minor"
  return { major, minor }

end Layouts

section Mirrored

variable {base wire : Window} (version : FormatVersion)

theorem BodyHeader.mirrors_readAt (hbase : base.Within wire) :
    Mirrors base (readAt wire version) (read version) := by
  unfold readAt read
  refine mirrors_ite (fun _ => ?_) (fun _ => mirrors_pure _)
  refine (mirrors_u32 _).bind fun word => ?_
  refine mirrors_ite (fun _ => mirrors_pure _) fun _ => ?_
  refine mirrors_ite (fun hsize => ?_) (fun _ => mirrors_throw _)
  refine (mirrors_u64 _).bind fun timestamp => ?_
  refine (mirrors_u32 _).bind fun sourceId => ?_
  refine (mirrors_u32 _).bind fun barrierType => ?_
  have hextra : Fault.sub word.toNat wireSize = .ok (word.toNat - wireSize) := if_pos hsize
  rw [hextra]
  exact (mirrors_bytes hbase _ _).bind fun extension => mirrors_pure _

theorem StateChange.mirrors_readAt (hbase : base.Within wire) (kind : RecordKind) :
    Mirrors base (readAt wire version kind) (read version kind) := by
  refine (mirrors_u32 _).bind fun runNumber => ?_
  refine (mirrors_u32 _).bind fun timeOffset => ?_
  refine (mirrors_u32 _).bind fun unixTime => ?_
  refine (mirrors_u32If _ _ _).bind fun offsetDivisor => ?_
  refine (mirrors_title hbase).bind fun title => ?_
  exact (mirrors_u32If _ _ _).bind fun producerId => mirrors_pure _

theorem Scaler.mirrors_readAt : Mirrors base (readAt version) (read version) := by
  refine (mirrors_u32 _).bind fun intervalStart => ?_
  refine (mirrors_u32 _).bind fun intervalEnd => ?_
  refine (mirrors_u32 _).bind fun unixTime => ?_
  refine (mirrors_u32If _ _ _).bind fun intervalDivisor => ?_
  refine (mirrors_u32 _).bind fun count => ?_
  refine (mirrors_u32If _ _ _).bind fun incremental => ?_
  refine (mirrors_u32If _ _ _).bind fun producerId => ?_
  have hvalues := (mirrors_values count : Mirrors base _ _).bind fun values =>
    mirrors_pure (Scaler.mk intervalStart intervalEnd unixTime intervalDivisor (incremental ≠ 0)
      values producerId)
  simp only [bind_assoc, pure_bind] at hvalues
  exact hvalues

theorem TextList.mirrors_readAt (hbase : base.Within wire) (kind : RecordKind) :
    Mirrors base (readAt wire version kind) (read version kind) := by
  refine (mirrors_u32 _).bind fun timeOffset => ?_
  refine (mirrors_u32 _).bind fun unixTime => ?_
  refine (mirrors_u32 _).bind fun count => ?_
  refine (mirrors_u32If _ _ _).bind fun offsetDivisor => ?_
  refine (mirrors_u32If _ _ _).bind fun producerId => ?_
  exact (mirrors_strings hbase _).bind fun strings => mirrors_pure _

theorem EventCount.mirrors_readAt : Mirrors base (readAt version) (read version) := by
  refine (mirrors_u32 _).bind fun timeOffset => ?_
  refine (mirrors_u32If _ _ _).bind fun offsetDivisor => ?_
  refine (mirrors_u32 _).bind fun unixTime => ?_
  refine (mirrors_u64 _).bind fun eventCount => ?_
  exact (mirrors_u32If _ _ _).bind fun producerId => mirrors_pure _

theorem Fragment.mirrors_readHeaderAt : Mirrors base readHeaderAt readHeader := by
  refine (mirrors_u64 _).bind fun timestamp => ?_
  refine (mirrors_u32 _).bind fun sourceId => ?_
  refine (mirrors_u32 _).bind fun payloadSize => ?_
  refine (mirrors_u32 _).bind fun barrierType => ?_
  refine mirrors_remaining.bind fun available => ?_
  exact mirrors_ite (fun _ => mirrors_pure _) (fun _ => mirrors_throw _)

theorem GlomParameters.mirrors_readAt : Mirrors base readAt read := by
  refine (mirrors_u64 _).bind fun coincidenceTicks => ?_
  refine (mirrors_u16 _).bind fun isBuilding => ?_
  exact (mirrors_u16 _).bind fun policy => mirrors_pure _

theorem DataFormat.mirrors_readAt : Mirrors base readAt read := by
  refine (mirrors_u16 _).bind fun major => ?_
  exact (mirrors_u16 _).bind fun minor => mirrors_pure _

end Mirrored

namespace Record

/-- The declared size at the front of a window, if the size word is there. -/
def peekSizeAt (buf : Window) : Except Fault (Option UInt32) :=
  if buf.length < 4 then return none
  else do
    let word ← buf.before 4
    return some (UInt32.ofNat (LittleEndian.toNat
      [← word.byte 0, ← word.byte 1, ← word.byte 2, ← word.byte 3]))

/-- The size of the record at the front of a window, if all of it is there. -/
def declaredSizeAt (buf : Window) : Decoding Nat := do
  match ← peekSizeAt buf with
  | none => throw (.truncated recordHeaderSize buf.length)
  | some declared =>
    if declared.toNat < recordHeaderSize then throw (.tooSmall declared)
    else if buf.length < declared.toNat then throw (.truncated declared.toNat buf.length)
    else return declared.toNat

/-- The children of a composite record, in at most so many turns. A turn has to take the header
    words of a record at least. -/
def childrenAt (wire : Window) (child : Window → Decoding Record) :
    (turns : Nat) → Cursor (List Record)
  | 0 => fun _ => Decoding.fault .unfinished
  | turns + 1 => fun buf => do
    if buf.bytes.isEmpty then return ([], buf)
    else
      let used ← declaredSizeAt buf
      let first ← child (← wire.share buf used)
      let left ← buf.after used
      Fault.guard (left.length + 8 ≤ buf.length) .noProgress
      let (others, left) ← childrenAt wire child turns left
      return (first :: others, left)

/-- The children of a composite record that lies in `depth` others. -/
def nestedAt (wire : Window) (depth turns : Nat) (child : Window → Decoding Record) :
    Cursor (List Record) := fun buf => do
  if maxDepth ≤ depth ∧ ¬ buf.bytes.isEmpty then throw (.nestingTooDeep maxDepth)
  else childrenAt wire child turns buf

/-- The body that a kind calls for, and the header, which a fragment of the first generation brings
    itself. -/
def readBodyAt (wire : Window) (version : FormatVersion) (header : Option BodyHeader)
    (nested : Cursor (List Record)) (kind : RecordKind) :
    Cursor (Option BodyHeader × Body Record) := do
  match kind with
  | .beginRun | .endRun | .pauseRun | .resumeRun =>
    return (header, .stateChange (← StateChange.readAt wire version kind))
  | .scaler => return (header, .scaler (← Scaler.readAt version))
  | .packetTypes | .monitoredVariables =>
    return (header, .text (← TextList.readAt wire version kind))
  | .physicsEvent => return (header, .physicsEvent (← Cursor.rest wire))
  | .physicsEventCount => return (header, .physicsEventCount (← EventCount.readAt version))
  | .fragment | .unknownPayloadFragment =>
    let header ← if version = .v10 then some <$> Fragment.readHeaderAt else pure header
    let payload ← Cursor.rest wire
    return (header, .fragment ⟨payload, kind = .unknownPayloadFragment⟩)
  | .composite base => return (header, .composite base (← nested))
  | .glomParameters => return (header, .glomParameters (← GlomParameters.readAt))
  | .dataFormat => return (header, .dataFormat (← DataFormat.readAt))
  | .abnormalEnd => return (header, .abnormalEnd)
  | .unknown typeTag => return (header, .unknown typeTag (← Cursor.rest wire))

/-- All fields after the size word; an extension is kept only with a header. -/
def readFieldsAt (wire : Window) (version : FormatVersion) (nested : Cursor (List Record)) :
    Cursor Record := do
  let typeTag ← Cursor.u32 "type"
  let (header, extension) ← BodyHeader.readAt wire version
  let (header, body) ← readBodyAt wire version header nested (RecordKind.ofTag version typeTag)
  let r := assemble version header body
  return { r with extension := if r.header.isSome then extension else [] }

/-- Read the record that `wire` is, which lies in `depth` others, in at most so many levels and
    turns. -/
def decodeWireAt (version : FormatVersion) :
    (limit depth : Nat) → (wire : Window) → Decoding Record
  | 0, _, _ => Decoding.fault .unfinished
  | limit + 1, depth, wire => do
    Fault.guard (depth ≤ 32) .tooDeep
    let buf ← wire.after 4
    let nested := nestedAt wire depth (limit + 1) (decodeWireAt version limit (depth + 1))
    let (r, _) ← readFieldsAt wire version nested buf
    if r.fieldSize = wire.length then return { r with wire := some wire.bytes }
    else throw (.trailingBytes wire.length r.fieldSize)

/-- Read the record at the front of a window from a copy of its bytes; how many bytes it took. -/
def decodePrefixAt (version : FormatVersion) (limit : Nat) (buf : Window) :
    Decoding (Record × Nat) := do
  let declared ← declaredSizeAt buf
  let front ← buf.before declared
  return (← decodeWireAt version limit 0 front.copy, declared)

/-- Read the record at the front of a window, which it shares. -/
def decodeOwnedAt (version : FormatVersion) (limit : Nat) (buf : Window) : Decoding Record := do
  let declared ← declaredSizeAt buf
  decodeWireAt version limit 0 (← buf.before declared)

/-- Read all of a window as records, in at most so many turns. -/
def decodeAllAt (version : FormatVersion) (limit : Nat) :
    (turns : Nat) → Window → Decoding (List Record)
  | 0, _ => Decoding.fault .unfinished
  | turns + 1, buf => do
    if buf.bytes.isEmpty then return []
    else
      let (r, used) ← decodePrefixAt version limit buf
      return r :: (← decodeAllAt version limit turns (← buf.after used))

variable {base wire buf : Window} {version : FormatVersion}

theorem peekSizeAt_eq (buf : Window) : peekSizeAt buf = .ok (peekSize? buf.bytes) := by
  unfold peekSizeAt
  split
  · rename_i hshort
    rw [peekSize?_eq_none.2 hshort]
    rfl
  · rename_i hlong
    obtain ⟨start, bytes⟩ := buf
    match bytes, hlong with
    | [], h | [_], h | [_, _], h | [_, _, _], h => simp [Window.length] at h
    | a :: b :: c :: d :: rest, _ =>
      have hbefore : Window.before ⟨start, a :: b :: c :: d :: rest⟩ 4 =
          .ok ⟨start, [a, b, c, d]⟩ := Window.before_eq (by simp [Window.length])
      rw [hbefore]
      rfl

theorem declaredSizeAt_eq (buf : Window) :
    declaredSizeAt buf = faultless ((split buf.bytes).map fun parts => parts.1.length) := by
  unfold declaredSizeAt
  rw [peekSizeAt_eq]
  rcases Nat.lt_or_ge buf.bytes.length 4 with hshort | hlong
  · rw [peekSize?_eq_none.2 hshort, split_of_length_lt hshort]
    rfl
  · rw [peekSize?_eq_some.2 ⟨hlong, rfl⟩, split_of_le_length hlong]
    simp only [Decoding.lift_ok_bind, LittleEndian.toNat_ofNat_wordAt, Window.length]
    split
    · rfl
    · split
      · rfl
      · rename_i hlt
        show _ = faultless (.ok (buf.bytes.take _).length)
        rw [List.length_take_of_le (Nat.le_of_not_lt hlt)]
        rfl

theorem mirrors_readBodyAt (hbase : base.Within wire) {nested : Cursor (List Record)}
    {child : Option (Bytes → Except RecordError Record)}
    (hnested : Mirrors base nested (readChildren child)) (header : Option BodyHeader)
    (kind : RecordKind) :
    Mirrors base (readBodyAt wire version header nested kind)
      (readBody version header child kind) := by
  cases kind with
  | beginRun | endRun | pauseRun | resumeRun =>
    exact (StateChange.mirrors_readAt version hbase _).bind fun change => mirrors_pure _
  | scaler => exact (Scaler.mirrors_readAt version).bind fun readout => mirrors_pure _
  | packetTypes | monitoredVariables =>
    exact (TextList.mirrors_readAt version hbase _).bind fun list => mirrors_pure _
  | physicsEvent => exact (mirrors_rest hbase).bind fun payload => mirrors_pure _
  | physicsEventCount => exact (EventCount.mirrors_readAt version).bind fun count => mirrors_pure _
  | fragment | unknownPayloadFragment =>
    exact mirrors_ite
      (fun _ => (Fragment.mirrors_readHeaderAt.map some).bind fun header =>
        (mirrors_rest hbase).bind fun payload => mirrors_pure _)
      (fun _ => (mirrors_rest hbase).bind fun payload => mirrors_pure _)
  | composite tag => exact hnested.bind fun children => mirrors_pure _
  | glomParameters => exact GlomParameters.mirrors_readAt.bind fun parameters => mirrors_pure _
  | dataFormat => exact DataFormat.mirrors_readAt.bind fun format => mirrors_pure _
  | abnormalEnd => exact mirrors_pure _
  | unknown typeTag => exact (mirrors_rest hbase).bind fun payload => mirrors_pure _

theorem mirrors_readFieldsAt (version : FormatVersion) (hbase : base.Within wire)
    {nested : Cursor (List Record)} {child : Option (Bytes → Except RecordError Record)}
    (hnested : Mirrors base nested (readChildren child)) :
    Mirrors base (readFieldsAt wire version nested) (readFields version child) := by
  refine (mirrors_u32 _).bind fun typeTag => ?_
  refine (BodyHeader.mirrors_readAt version hbase).bind fun section_ => ?_
  exact (mirrors_readBodyAt hbase hnested _ _).bind fun payload => mirrors_pure _

section All

variable {one : Bytes → Except RecordError Record} {bytes block rest : Bytes}

theorem readAll_of_split_error {e : RecordError} (hne : ¬ bytes.isEmpty = true)
    (hsplit : split bytes = .error e) : readAll one bytes = .error e := by
  rw [readAll, if_neg hne]
  split
  · rename_i hfails
    rw [hsplit] at hfails
    cases hfails
    rfl
  · rename_i hgives
    rw [hsplit] at hgives
    cases hgives

theorem readAll_of_split_ok (hsplit : split bytes = .ok (block, rest)) :
    readAll one bytes =
      one block >>= fun r => readAll one rest >>= fun rs => .ok (r :: rs) := by
  have hne : ¬ bytes.isEmpty = true := by
    obtain ⟨rfl, hblock⟩ := split_eq_ok_iff.1 hsplit
    simp [hblock.ne_nil]
  rw [readAll, if_neg hne]
  split
  · rename_i hfails
    rw [hsplit] at hfails
    cases hfails
  · rename_i hgives
    rw [hsplit] at hgives
    cases hgives
    cases one block with
    | error e => rfl
    | ok r => cases readAll one rest <;> rfl

end All

/-- With more turns than bytes, the loop over the children reads them all. -/
theorem childrenAt_tail (hbase : base.Within wire) {child : Window → Decoding Record}
    {one : Bytes → Except RecordError Record}
    (hchild : ∀ part : Window, recordHeaderSize ≤ part.length → part.length ≤ base.length →
      child part = faultless (one part.bytes))
    {turns : Nat} {left : Bytes} (hleft : left <:+ base.bytes) (hturns : left.length < turns) :
    childrenAt wire child turns (base.tail left) =
      faultless ((readAll one left).map fun children => (children, base.tail [])) := by
  induction turns generalizing left with
  | zero => exact absurd hturns (Nat.not_lt_zero _)
  | succ turns ih =>
    rw [childrenAt]
    by_cases hempty : left.isEmpty = true
    · obtain rfl := List.isEmpty_iff.1 hempty
      rw [readAll]
      rfl
    · dsimp only
      rw [Window.bytes_tail, if_neg hempty, declaredSizeAt_eq, Window.bytes_tail]
      rcases hsplit : split left with e | ⟨block, rest⟩
      · rw [readAll_of_split_error hempty hsplit]
        rfl
      · rw [readAll_of_split_ok hsplit]
        obtain ⟨rfl, hblock⟩ := split_eq_ok_iff.1 hsplit
        have hheader := hblock.header
        have hlength : (block ++ rest).length = block.length + rest.length := List.length_append
        have hrest : rest <:+ block ++ rest := List.suffix_append ..
        have hfits : block.length ≤ (block ++ rest).length := by omega
        obtain ⟨start, hshare⟩ := Window.share_eq ((Window.within_tail hleft).trans hbase) hfits
        rw [Window.bytes_tail, List.take_left] at hshare
        have hafter := Window.after_tail hleft hfits
        rw [List.drop_left] at hafter
        have hprogress : (base.tail rest).length + 8 ≤ (base.tail (block ++ rest)).length := by
          rw [Window.length_tail, Window.length_tail]
          simp only [recordHeaderSize] at hheader
          omega
        have hle : (block ++ rest).length ≤ base.bytes.length := hleft.length_le
        have hfirst := hchild ⟨start, block⟩ hheader (by simp only [Window.length]; omega)
        have hshorter : rest.length < (block ++ rest).length := by
          simp only [Window.length_tail] at hprogress
          omega
        have hothers := ih (hrest.trans hleft) (by omega)
        simp only [Except.map, Decoding.faultless_ok_bind, hshare, hafter, hfirst,
          Decoding.lift_ok_bind]
        cases one block with
        | error e => rfl
        | ok r =>
          simp only [Decoding.faultless_ok_bind, Fault.guard, hprogress, if_true,
            Decoding.lift_ok_bind, hothers]
          cases readAll one rest <;> rfl

/-- Neither is a record ever entered too deep nor do the turns run out. -/
theorem mirrors_nestedAt (hbase : base.Within wire) {limit depth turns : Nat}
    (hdepth : depth ≤ maxDepth) (hturns : base.length < turns)
    (hdecode : depth < maxDepth → ∀ part : Window, recordHeaderSize ≤ part.length →
      part.length ≤ base.length → decodeWireAt version limit (depth + 1) part =
        faultless (decodeWire version (maxDepth - (depth + 1)) part.bytes)) :
    Mirrors base (nestedAt wire depth turns (decodeWireAt version limit (depth + 1)))
      (readChildren (childReader version (maxDepth - depth))) := by
  intro left hleft
  have hlength : left.length < turns := Nat.lt_of_le_of_lt hleft.length_le hturns
  rcases Nat.lt_or_eq_of_le hdepth with hlt | rfl
  · have hreader : childReader version (maxDepth - depth) =
        some (decodeWire version (maxDepth - (depth + 1))) := by
      rw [← Nat.sub_add_cancel (Nat.sub_pos_of_lt hlt), Nat.sub_sub]
      rfl
    have hnested : nestedAt wire depth turns (decodeWireAt version limit (depth + 1))
        (base.tail left) =
          childrenAt wire (decodeWireAt version limit (depth + 1)) turns (base.tail left) :=
      if_neg fun h => Nat.not_le.2 hlt h.1
    rw [hreader, hnested, childrenAt_tail hbase (hdecode hlt) hleft hlength, readChildren]
    cases readAll (decodeWire version (maxDepth - (depth + 1))) left with
    | error e => exact .inl ⟨e, rfl, rfl⟩
    | ok children => exact .inr ⟨children, [], rfl, List.nil_suffix, rfl⟩
  · rw [Nat.sub_self, childReader, readChildren]
    cases left with
    | nil =>
      cases turns with
      | zero => exact absurd hturns (Nat.not_lt_zero _)
      | succ turns => exact .inr ⟨[], [], rfl, List.nil_suffix, rfl⟩
    | cons b left => exact .inl ⟨.nestingTooDeep maxDepth, rfl, rfl⟩

/-- With more levels and turns than bytes, a record that is entered above the deepest level is
    read, or not read, as the bytes are. -/
theorem decodeWireAt_eq {limit depth : Nat} (hdepth : depth ≤ maxDepth)
    (hheader : recordHeaderSize ≤ wire.length) (hlimit : wire.length < limit) :
    decodeWireAt version limit depth wire =
      faultless (decodeWire version (maxDepth - depth) wire.bytes) := by
  induction limit generalizing depth wire with
  | zero => exact absurd hlimit (Nat.not_lt_zero _)
  | succ limit ih =>
    simp only [recordHeaderSize] at hheader
    have hsize : 4 ≤ wire.length := by omega
    have hlevels : depth ≤ 32 := hdepth
    have hafter := Window.after_tail (w := wire) (List.suffix_refl _) hsize
    rw [Window.tail_self] at hafter
    have hbase := Window.within_tail (w := wire) (List.drop_suffix 4 wire.bytes)
    have hbelow : (wire.tail (wire.bytes.drop 4)).length = wire.length - 4 := List.length_drop
    have hnested : Mirrors (wire.tail (wire.bytes.drop 4))
        (nestedAt wire depth (limit + 1) (decodeWireAt version limit (depth + 1)))
        (readChildren (childReader version (maxDepth - depth))) :=
      mirrors_nestedAt hbase hdepth (by omega) fun hlt part hpart hle => ih hlt hpart (by omega)
    have hfields := mirrors_readFieldsAt version hbase hnested _ (List.suffix_refl _)
    rw [Window.tail_self] at hfields
    rw [decodeWireAt, decodeWire_eq]
    simp only [Fault.guard, hlevels, if_true, hafter, Decoding.lift_ok_bind]
    rcases hfields with ⟨e, hfails, hrun⟩ | ⟨r, left', hgives, -, hrun⟩
    · rw [Window.bytes_tail] at hfails
      rw [hrun, hfails]
      rfl
    · rw [Window.bytes_tail] at hgives
      rw [hrun, hgives, Decoding.faultless_ok_bind]
      dsimp only
      rw [Window.length]
      split <;> rfl

section Entries

variable {limit : Nat} {block rest : Bytes}

theorem length_block_le (hsplit : split buf.bytes = .ok (block, rest)) :
    block.length ≤ buf.length := by
  obtain ⟨hbytes, -⟩ := split_eq_ok_iff.1 hsplit
  rw [Window.length, hbytes, List.length_append]
  exact Nat.le_add_right ..

theorem before_of_split (hsplit : split buf.bytes = .ok (block, rest)) :
    buf.before block.length = .ok ⟨buf.start, block⟩ := by
  obtain ⟨hbytes, -⟩ := split_eq_ok_iff.1 hsplit
  rw [Window.before_eq (length_block_le hsplit), hbytes, List.take_left]

/-- The record at the front, wherever its bytes are. -/
theorem decodeWireAt_of_split (version : FormatVersion) (hlimit : buf.length < limit)
    (hsplit : split buf.bytes = .ok (block, rest)) (start : Nat) :
    decodeWireAt version limit 0 ⟨start, block⟩ =
      faultless (decodeWire version maxDepth block) := by
  obtain ⟨-, hblock⟩ := split_eq_ok_iff.1 hsplit
  exact decodeWireAt_eq (Nat.zero_le _) hblock.header
    (Nat.lt_of_le_of_lt (length_block_le hsplit) hlimit)

theorem decodePrefixAt_eq (version : FormatVersion) (hlimit : buf.length < limit) :
    decodePrefixAt version limit buf = faultless (decodePrefix version buf.bytes) := by
  rw [decodePrefixAt, declaredSizeAt_eq, decodePrefix]
  rcases hsplit : split buf.bytes with e | ⟨block, rest⟩
  · rfl
  · have hwire := decodeWireAt_of_split version hlimit hsplit 0
    simp only [Except.map, Decoding.faultless_ok_bind, before_of_split hsplit,
      Decoding.lift_ok_bind, Window.copy, hwire]
    cases decodeWire version maxDepth block <;> rfl

theorem decodeOwnedAt_eq (version : FormatVersion) (hlimit : buf.length < limit) :
    decodeOwnedAt version limit buf = faultless (decode version buf.bytes) := by
  rw [decodeOwnedAt, declaredSizeAt_eq, decode, decodePrefix]
  rcases hsplit : split buf.bytes with e | ⟨block, rest⟩
  · rfl
  · have hwire := decodeWireAt_of_split version hlimit hsplit buf.start
    simp only [Except.map, Decoding.faultless_ok_bind, before_of_split hsplit,
      Decoding.lift_ok_bind, hwire]
    cases decodeWire version maxDepth block <;> rfl

theorem decodeAllAt_eq (version : FormatVersion) (hlimit : buf.length < limit) {turns : Nat}
    (hturns : buf.length < turns) :
    decodeAllAt version limit turns buf = faultless (decodeAll version buf.bytes) := by
  induction turns generalizing buf with
  | zero => exact absurd hturns (Nat.not_lt_zero _)
  | succ turns ih =>
    rw [decodeAllAt]
    by_cases hempty : buf.bytes.isEmpty = true
    · rw [if_pos hempty, decodeAll, readAll, if_pos hempty]
      rfl
    · rw [if_neg hempty, decodePrefixAt_eq version hlimit]
      cases hread : decodePrefix version buf.bytes with
      | error e =>
        rw [decodeAll_of_error (Bool.eq_false_iff.2 hempty) hread]
        rfl
      | ok parts =>
        obtain ⟨r, used⟩ := parts
        obtain ⟨block, rest, ⟨hbytes, hblock⟩, -, rfl⟩ := decodePrefix_eq_ok.1 hread
        have hshorter := length_drop_lt_of_decodePrefix hread
        have hused := length_block_le (split_eq_ok_iff.2 ⟨hbytes, hblock⟩)
        have hafter := Window.after_tail (w := buf) (List.suffix_refl _) hused
        rw [Window.tail_self] at hafter
        have hrest : decodeAllAt version limit turns (buf.tail (buf.bytes.drop block.length)) =
            faultless (decodeAll version (buf.bytes.drop block.length)) :=
          ih (Nat.lt_trans hshorter hlimit)
            (Nat.lt_of_lt_of_le hshorter (Nat.le_of_lt_succ hturns))
        rw [decodeAll_of_ok hread]
        simp only [Decoding.faultless_ok_bind, hafter, Decoding.lift_ok_bind, hrest]
        cases decodeAll version (buf.bytes.drop block.length) <;> rfl

end Entries

end Record

end DaqStream
