import DaqStream.Proofs.Fragment.Walk
import DaqStream.Proofs.Record.Bounds
import DaqStream.Proofs.Record.Reachable
import DaqStream.Transport.Source

/-!
# Untrusted bytes

Everything that is done with bytes from outside, through windows: a record or all records are read,
a fragment is opened, and a built event is walked through. Whatever the bytes are, none of it comes
to a fault, and each gives what it gives without windows (`untrusted_faultless`).
-/

namespace DaqStream

open Decoding (faultless)

/-- The records of a window, to be served from memory. -/
def MemorySource.ofBytesAt (version : FormatVersion) (limit : Nat) (buf : Window) :
    Decoding MemorySource := do
  return { records := ← Record.decodeAllAt version limit limit buf }

/-- The record that a fragment carries. -/
def Fragment.unwrapAt (version : FormatVersion) (limit : Nat) (payload : Window) :
    Decoding Record := do
  return (← Record.decodePrefixAt version limit payload).1

namespace FragmentHeader

/-- The header at the front of a window. -/
def decodeAt (buf : Window) : Decoding FragmentHeader := do
  if buf.length < wireSize then throw (.truncated wireSize buf.length)
  let (timestamp, buf) ← (← buf.before wireSize).number 8
  let (sourceId, buf) ← buf.number 4
  let (payloadSize, buf) ← buf.number 4
  let (barrierType, _) ← buf.number 4
  return { timestamp := UInt64.ofNat timestamp, sourceId := UInt32.ofNat sourceId,
           payloadSize := UInt32.ofNat payloadSize, barrierType := UInt32.ofNat barrierType }

theorem decodeAt_eq (buf : Window) : decodeAt buf = faultless (decode buf.bytes) := by
  rcases Nat.lt_or_ge buf.bytes.length wireSize with hshort | hlong
  · have hthrows : decodeAt buf = throw (.truncated wireSize buf.length) := if_pos hshort
    rw [hthrows, decode_of_length_lt hshort]
    rfl
  · -- the four numbers lie one behind the other in the window onto the header
    obtain ⟨w, hbefore, hbytes, hlength⟩ := Window.exists_before hlong
    rw [wireSize] at hlength
    have htimestamp := Window.number_tail (w := w) 8 (List.suffix_refl _) (by omega)
    have hsourceId := Window.number_tail (w := w) 4 (List.drop_suffix 8 _)
      (by rw [List.length_drop]; omega)
    have hpayloadSize := Window.number_tail (w := w) 4 (List.drop_suffix 12 _)
      (by rw [List.length_drop]; omega)
    have hbarrierType := Window.number_tail (w := w) 4 (List.drop_suffix 16 _)
      (by rw [List.length_drop]; omega)
    have hlast : (w.bytes.drop 16).take 4 = w.bytes.drop 16 :=
      List.take_of_length_le (by rw [List.length_drop]; omega)
    have hchecked : ¬ buf.length < wireSize := Nat.not_lt.2 hlong
    rw [Window.tail_self] at htimestamp
    simp only [List.drop_drop, Nat.reduceAdd] at hsourceId hpayloadSize
    simp only [decodeAt, hchecked, if_false, hbefore, Decoding.lift_ok_bind, htimestamp, hsourceId,
      hpayloadSize, hbarrierType, hlast, decode, Bytes.cut_of_le hlong, ← hbytes]
    rfl

end FragmentHeader

namespace BuiltEvent

/-- What a window shows of a built event. -/
def ofWindow (rest : Window) : BuiltEvent := ⟨rest.bytes⟩

/-- Begin to read the payload of a built event. -/
def ofPayloadAt (payload : Window) : Decoding Window := do
  if payload.length < 4 then throw (.fieldOverrun "built_event_size")
  let (declared, _) ← (← payload.before 4).number 4
  if declared < 4 ∨ payload.length < declared then
    throw (.truncated declared payload.length)
  payload.slice 4 declared

/-- The next fragment, or why it cannot be read, and what is left then; nothing at the end. -/
def nextAt (rest : Window) :
    Except Fault (Option (Except RecordError (FragmentHeader × Bytes) × Window)) := do
  if rest.bytes.isEmpty then return none
  match ← (FragmentHeader.decodeAt rest).run with
  | .error e => return some (.error e, ⟨0, []⟩)
  | .ok header =>
    let stop := FragmentHeader.wireSize + header.payloadSize.toNat
    if rest.length < stop then
      let available ← Fault.sub rest.length FragmentHeader.wireSize
      return some (.error (.truncated header.payloadSize.toNat available), ⟨0, []⟩)
    else
      let payload ← rest.slice FragmentHeader.wireSize stop
      return some (.ok (header, payload.bytes), ← rest.after stop)

/-- The fragments of what is left, in at most so many turns. -/
def itemsAt : (turns : Nat) → (rest : Window) →
    Except Fault (List (Except RecordError (FragmentHeader × Bytes)))
  | 0, _ => .error .unfinished
  | turns + 1, rest => do
    match ← nextAt rest with
    | none => return []
    | some (item, left) => return item :: (← itemsAt turns left)

/-- All fragments of a payload, in at most so many turns. -/
def walkAt (turns : Nat) (payload : Window) :
    Decoding (List (Except RecordError (FragmentHeader × Bytes))) := do
  itemsAt turns (← ofPayloadAt payload)

theorem ofPayloadAt_eq (payload : Window) :
    ofPayloadAt payload =
      faultless ((ofPayload payload.bytes).map fun e => ⟨payload.start + 4, e.left⟩) := by
  rcases Nat.lt_or_ge payload.bytes.length 4 with hshort | hlong
  · have hthrows : ofPayloadAt payload = throw (.fieldOverrun "built_event_size") := if_pos hshort
    rw [hthrows, ofPayload, Bytes.cut_eq_none_iff.2 hshort]
    rfl
  · obtain ⟨w, hbefore, hbytes, hlength⟩ := Window.exists_before hlong
    have hword := Window.number_tail (w := w) 4 (List.suffix_refl _) (Nat.le_of_eq hlength.symm)
    have hchecked : ¬ payload.length < 4 := Nat.not_lt.2 hlong
    rw [Window.tail_self, List.take_of_length_le (Nat.le_of_eq hlength), hbytes] at hword
    simp only [ofPayloadAt, hchecked, if_false, hbefore, Decoding.lift_ok_bind, hword, ofPayload,
      Bytes.cut_of_le hlong]
    generalize LittleEndian.toNat (payload.bytes.take 4) = declared
    rcases Nat.lt_or_ge payload.bytes.length declared with hover | hwithin
    · rw [if_pos (.inr hover), Bytes.cut_eq_none_iff.2 hover]
      rfl
    · rw [Bytes.cut_of_le hwithin]
      dsimp only
      rcases Nat.lt_or_ge declared 4 with hsmall | hcount
      · rw [if_pos (.inl hsmall), if_pos hsmall]
        rfl
      · rw [if_neg (by rw [Window.length]; omega), if_neg (Nat.not_lt.2 hcount),
          Window.slice_eq hcount hwithin]
        rfl

theorem nextAt_eq (rest : Window) :
    (nextAt rest).map (Option.map fun (item, left) => (item, ofWindow left)) =
      .ok (next? (ofWindow rest)) := by
  have hrun : (FragmentHeader.decodeAt rest).run = .ok (FragmentHeader.decode rest.bytes) :=
    FragmentHeader.decodeAt_eq rest
  unfold nextAt next? ofWindow
  rw [hrun]
  by_cases hempty : rest.bytes.isEmpty = true
  · rw [if_pos hempty, if_pos hempty]
    rfl
  rw [if_neg hempty, if_neg hempty]
  rcases Nat.lt_or_ge rest.length FragmentHeader.wireSize with hshort | hlong
  · rw [FragmentHeader.decode_of_length_lt hshort]
    rfl
  · obtain ⟨header, hheader⟩ := FragmentHeader.exists_decode hlong
    have hbehind : (rest.bytes.drop FragmentHeader.wireSize).length =
        rest.length - FragmentHeader.wireSize := List.length_drop
    rw [hheader]
    simp only [bind, Except.bind]
    generalize header.payloadSize.toNat = size
    rcases Nat.lt_or_ge rest.length (FragmentHeader.wireSize + size) with hover | hwithin
    · have hsub : Fault.sub rest.length FragmentHeader.wireSize =
          .ok (rest.length - FragmentHeader.wireSize) := if_pos hlong
      rw [if_pos hover, hsub, Bytes.cut_eq_none_iff.2 (by omega), hbehind]
      rfl
    · have hslice := Window.slice_eq (w := rest) (Nat.le_add_right _ _) hwithin
      have hafter := Window.after_tail (w := rest) (List.suffix_refl _) hwithin
      rw [Window.tail_self] at hafter
      rw [if_neg (Nat.not_lt.2 hwithin), hslice, hafter, Bytes.cut_of_le (by omega),
        List.drop_drop, List.take_drop]
      rfl

/-- With more turns than bytes, the walk comes to its end. -/
theorem itemsAt_eq {turns : Nat} {rest : Window} (hturns : rest.length < turns) :
    itemsAt turns rest = .ok (ofWindow rest).items := by
  induction turns generalizing rest with
  | zero => exact absurd hturns (Nat.not_lt_zero _)
  | succ turns ih =>
    have hnext := nextAt_eq rest
    unfold itemsAt
    cases hstep : nextAt rest with
    | error fault =>
      rw [hstep] at hnext
      cases hnext
    | ok next =>
      rw [hstep] at hnext
      cases next with
      | none =>
        rw [items_of_none (Except.ok.inj hnext).symm]
        rfl
      | some step =>
        obtain ⟨item, left⟩ := step
        have hgives : (ofWindow rest).next? = some (item, ofWindow left) :=
          (Except.ok.inj hnext).symm
        have hshorter : left.length < rest.length := length_left_of_next? hgives
        have hothers : itemsAt turns left = .ok (ofWindow left).items := ih (by omega)
        rw [items_of_some hgives]
        simp only [bind, Except.bind, hothers]
        rfl

theorem walkAt_eq {turns : Nat} {payload : Window} (hturns : payload.length < turns) :
    walkAt turns payload = faultless ((ofPayload payload.bytes).map items) := by
  rw [walkAt, ofPayloadAt_eq]
  cases hopens : ofPayload payload.bytes with
  | error e => rfl
  | ok e =>
    obtain ⟨-, rfl⟩ := ofPayload_eq_ok.1 hopens
    have hshorter : ((payload.bytes.take (LittleEndian.wordAt 0 payload.bytes)).drop 4).length ≤
        payload.length := by
      rw [List.length_drop, List.length_take, Window.length]
      omega
    simp only [Except.map, Decoding.faultless_ok_bind]
    rw [itemsAt_eq (Nat.lt_of_le_of_lt hshorter hturns)]
    rfl

end BuiltEvent

/-- The records of a window are read as the records of its bytes are. -/
theorem MemorySource.ofBytesAt_eq (version : FormatVersion) {limit : Nat} {buf : Window}
    (hlimit : buf.length < limit) :
    ofBytesAt version limit buf = faultless (ofBytes version buf.bytes) := by
  rw [ofBytesAt, Record.decodeAllAt_eq version hlimit hlimit, ofBytes]
  cases Record.decodeAll version buf.bytes <;> rfl

theorem Fragment.unwrapAt_eq (version : FormatVersion) {limit : Nat} {payload : Window}
    (hlimit : payload.length < limit) (unknownPayload : Bool) :
    unwrapAt version limit payload =
      faultless (unwrap ⟨payload.bytes, unknownPayload⟩ version) := by
  rw [unwrapAt, Record.decodePrefixAt_eq version hlimit, unwrap, Record.decode]
  cases Record.decodePrefix version payload.bytes <;> rfl

/-- Whatever the bytes of a window are, nothing that is done with them comes to a fault: not reading
    the record at their front, copied or not, nor all records, nor opening a fragment that carries
    them, nor beginning to read them as a built event, nor any step from there, nor all steps. So
    no access lies out of bounds and no subtraction goes below zero; every child of a composite
    record takes at least as much as a record's header words; no record is entered below the deepest
    level; and as many levels and turns of each loop suffice as there are bytes, and one more. What
    is given is what is given without windows. -/
theorem untrusted_faultless (version : FormatVersion) (buf : Window) {limit : Nat}
    (hlimit : buf.length < limit) :
    Record.decodePrefixAt version limit buf = faultless (Record.decodePrefix version buf.bytes) ∧
      Record.decodeOwnedAt version limit buf = faultless (Record.decode version buf.bytes) ∧
      MemorySource.ofBytesAt version limit buf =
        faultless (MemorySource.ofBytes version buf.bytes) ∧
      FragmentHeader.decodeAt buf = faultless (FragmentHeader.decode buf.bytes) ∧
      (∀ unknownPayload, Fragment.unwrapAt version limit buf =
        faultless (Fragment.unwrap ⟨buf.bytes, unknownPayload⟩ version)) ∧
      BuiltEvent.ofPayloadAt buf = faultless ((BuiltEvent.ofPayload buf.bytes).map
        fun e => ⟨buf.start + 4, e.left⟩) ∧
      (BuiltEvent.nextAt buf).map (Option.map fun (item, left) =>
        (item, BuiltEvent.ofWindow left)) = .ok (BuiltEvent.next? (BuiltEvent.ofWindow buf)) ∧
      BuiltEvent.walkAt limit buf =
        faultless ((BuiltEvent.ofPayload buf.bytes).map BuiltEvent.items) := by
  refine ⟨?front, ?owned, ?source, ?header, ?fragment, ?opened, ?next, ?walk⟩
  case front => exact Record.decodePrefixAt_eq version hlimit
  case owned => exact Record.decodeOwnedAt_eq version hlimit
  case source => exact MemorySource.ofBytesAt_eq version hlimit
  case header => exact FragmentHeader.decodeAt_eq buf
  case fragment => exact Fragment.unwrapAt_eq version hlimit
  case opened => exact BuiltEvent.ofPayloadAt_eq buf
  case next => exact BuiltEvent.nextAt_eq buf
  case walk => exact BuiltEvent.walkAt_eq hlimit

/-- A record within another, read with one level and turn more than there are bytes. -/
theorem untrusted_faultless_composite :
    (⟨7, Record.compositeExampleBlock⟩ : Window).length < 25 ∧
      Record.decodeOwnedAt .v12 25 ⟨7, Record.compositeExampleBlock⟩ =
        faultless (.ok Record.compositeExample) := by
  have hlimit : (⟨7, Record.compositeExampleBlock⟩ : Window).length < 25 := by decide
  have hdecode : Record.decode .v12 Record.compositeExampleBlock = .ok Record.compositeExample := by
    with_unfolding_all rfl
  obtain ⟨-, howned, -⟩ := untrusted_faultless .v12 ⟨7, Record.compositeExampleBlock⟩ hlimit
  exact ⟨hlimit, howned.trans (congrArg faultless hdecode)⟩

/-- A single level does not reach the record within, which is a fault. -/
example : Record.decodeOwnedAt .v12 1 ⟨7, Record.compositeExampleBlock⟩ =
    Decoding.fault .unfinished := by
  with_unfolding_all rfl

end DaqStream
