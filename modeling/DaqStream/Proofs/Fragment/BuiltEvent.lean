import DaqStream.Fragment.BuiltEvent
import DaqStream.Proofs.Fragment.Flat

/-!
# Walking through a built event

The fragments behind the count of a built event are found one by one, each by the payload size
in its header. What an event builder makes of a list of records is walked through to its end,
and gives the fragments of these records (`ofPayload_compose`, `items_fragments`). Empty
payloads and an empty list are no exception, and what lies past the count is not looked at.
-/

namespace DaqStream

open LittleEndian Record

namespace BuiltEvent

section Walk

variable {e e' : BuiltEvent} {item : Except RecordError (FragmentHeader × Bytes)}

theorem items_of_some (h : e.next? = some (item, e')) : e.items = item :: e'.items := by
  rw [items]
  split
  · rename_i hnone
    rw [h] at hnone
    cases hnone
  · rename_i hsome
    rw [h] at hsome
    cases hsome
    rfl

theorem items_of_none (h : e.next? = none) : e.items = [] := by
  rw [items]
  split
  · rfl
  · rename_i hsome
    rw [h] at hsome
    cases hsome

theorem finished_of_some (h : e.next? = some (item, e')) : e.finished = e'.finished := by
  rw [finished]
  split
  · rename_i hnone
    rw [h] at hnone
    cases hnone
  · rename_i hsome
    rw [h] at hsome
    cases hsome
    rfl

theorem finished_of_none (h : e.next? = none) : e.finished = e := by
  rw [finished]
  split
  · rfl
  · rename_i hsome
    rw [h] at hsome
    cases hsome

end Walk

section Fragments

variable {d : UInt32} {r : Record} {rs : List Record}

theorem next?_nil : (⟨[]⟩ : BuiltEvent).next? = none := rfl

/-- A fragment is taken off the front, if its header says how long it is. -/
theorem next?_fragment {header : FragmentHeader} {payload : Bytes} (rest : Bytes)
    (hsize : header.payloadSize.toNat = payload.length) :
    (⟨header.encode ++ payload ++ rest⟩ : BuiltEvent).next? =
      some (.ok (header, payload), ⟨rest⟩) := by
  have hlength := FragmentHeader.length_encode header
  have hne : (header.encode ++ (payload ++ rest)).isEmpty = false := by
    apply Bool.eq_false_iff.2
    intro hempty
    have hnil := congrArg List.length (List.isEmpty_iff.1 hempty)
    rw [List.length_append, hlength, FragmentHeader.wireSize, List.length_nil] at hnil
    omega
  have hbehind : (header.encode ++ (payload ++ rest)).drop FragmentHeader.wireSize =
      payload ++ rest := List.drop_left' hlength
  have hcut : Bytes.cut header.payloadSize.toNat (payload ++ rest) = some (payload, rest) :=
    Bytes.cut_eq_some_iff.2 ⟨rfl, hsize.symm⟩
  unfold next?
  rw [List.append_assoc, hne, if_neg Bool.false_ne_true, FragmentHeader.decode_encode_append]
  dsimp only
  rw [hbehind, hcut]

theorem next?_flatBlock (rest : Bytes) (hsize : r.size < 2 ^ 32) :
    (⟨flatBlock d r ++ rest⟩ : BuiltEvent).next? = some (.ok (r.flatten d), ⟨rest⟩) := by
  apply next?_fragment
  rw [flatten, length_encode]
  exact UInt32.toNat_ofNat_of_lt' hsize

/-- Fragment after fragment, up to the end. -/
theorem items_fragments (h : (rs.flatMap (flatBlock d)).length < 2 ^ 32) :
    (⟨rs.flatMap (flatBlock d)⟩ : BuiltEvent).items = rs.map (fun r => .ok (r.flatten d)) ∧
      (⟨rs.flatMap (flatBlock d)⟩ : BuiltEvent).finished = ⟨[]⟩ := by
  induction rs with
  | nil => exact ⟨items_of_none next?_nil, finished_of_none next?_nil⟩
  | cons r rs ih =>
    rw [List.flatMap_cons, List.length_append, length_flatBlock] at h
    have hnext := @next?_flatBlock d r (rs.flatMap (flatBlock d)) (by omega)
    obtain ⟨hitems, hfinished⟩ := ih (by omega)
    rw [List.flatMap_cons, List.map_cons]
    constructor
    · rw [items_of_some hnext, hitems]
    · rw [finished_of_some hnext, hfinished]

end Fragments

section Compose

variable {d : UInt32} {rs : List Record}

theorem compose_eq (rs : List Record) (d : UInt32) :
    compose rs d =
      u32 (UInt32.ofNat (4 + (rs.flatMap (flatBlock d)).length)) ++ rs.flatMap (flatBlock d) :=
  rfl

theorem length_compose (rs : List Record) (d : UInt32) :
    (compose rs d).length = 4 + (rs.flatMap (flatBlock d)).length := by
  rw [compose_eq, List.length_append, length_u32]

/-- The count of a composed event is that of all its bytes. -/
theorem ofPayload_compose (h : (compose rs d).length < 2 ^ 32) (trailing : Bytes) :
    ofPayload (compose rs d ++ trailing) = .ok ⟨rs.flatMap (flatBlock d)⟩ := by
  have hlength := length_compose rs d
  have hcount : toNat (u32 (UInt32.ofNat (4 + (rs.flatMap (flatBlock d)).length))) =
      (compose rs d).length := by
    rw [toNat_u32, ← hlength]
    exact UInt32.toNat_ofNat_of_lt' h
  have hword : Bytes.cut 4 (compose rs d ++ trailing) =
      some (u32 (UInt32.ofNat (4 + (rs.flatMap (flatBlock d)).length)),
        rs.flatMap (flatBlock d) ++ trailing) := by
    rw [compose_eq, List.append_assoc]
    exact Bytes.cut_eq_some_iff.2 ⟨rfl, length_u32 _⟩
  have hcounted : Bytes.cut (compose rs d).length (compose rs d ++ trailing) =
      some (compose rs d, trailing) := Bytes.cut_eq_some_iff.2 ⟨rfl, rfl⟩
  have hfragments : (compose rs d).drop 4 = rs.flatMap (flatBlock d) :=
    List.drop_left' (length_u32 _)
  unfold ofPayload
  rw [hword]
  dsimp only
  rw [hcount, hcounted]
  dsimp only
  rw [if_neg (by omega), hfragments]

end Compose

end BuiltEvent

end DaqStream
