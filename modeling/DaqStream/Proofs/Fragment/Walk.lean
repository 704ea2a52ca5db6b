import DaqStream.Proofs.Fragment.BuiltEvent

/-!
# Walking through any bytes

The sizes in a built event are not to be trusted. Whatever the bytes behind its count are, a walk
through them takes fragments off the front as long as they are all there, and then either has
come to the end or says why what is left is no fragment (`Walk`). So the fragments that are found
and what is left over are the bytes behind the count, each of them once, and nothing behind these is
looked at (`items_cover`).
-/

namespace DaqStream

open LittleEndian

namespace FragmentHeader

/-- Every header that is read is written as the bytes that it was read from. -/
theorem decode_eq_ok {bytes : Bytes} {h : FragmentHeader} :
    decode bytes = .ok h ↔ ∃ rest, bytes = h.encode ++ rest := by
  constructor
  · intro hdecode
    unfold decode at hdecode
    cases hcut : Bytes.cut wireSize bytes with
    | none =>
      rw [hcut] at hdecode
      cases hdecode
    | some parts =>
      obtain ⟨front, rest⟩ := parts
      obtain ⟨rfl, hlength⟩ := Bytes.cut_eq_some_iff.1 hcut
      rw [hcut] at hdecode
      cases hdecode
      rw [wireSize] at hlength
      have htime : (front.take 8).length = 8 := List.length_take_of_le (by omega)
      have hsource : ((front.drop 8).take 4).length = 4 :=
        List.length_take_of_le (by rw [List.length_drop]; omega)
      have hsize : ((front.drop 12).take 4).length = 4 :=
        List.length_take_of_le (by rw [List.length_drop]; omega)
      have hbarrier : (front.drop 16).length = 4 := by
        rw [List.length_drop]
        omega
      refine ⟨rest, congrArg (· ++ rest) ?_⟩
      calc
        front = front.take (8 + 4 + 4) ++ front.drop 16 := (List.take_append_drop 16 front).symm
        _ = front.take 8 ++ (front.drop 8).take 4 ++ (front.drop 12).take 4 ++ front.drop 16 := by
          rw [List.take_add, List.take_add]
        _ = _ := by
          rw [encode, u64_toNat htime, u32_toNat hsource, u32_toNat hsize, u32_toNat hbarrier]
  · intro hwritten
    obtain ⟨rest, rfl⟩ := hwritten
    exact decode_encode_append h rest

theorem decode_of_length_lt {bytes : Bytes} (h : bytes.length < wireSize) :
    decode bytes = .error (.truncated wireSize bytes.length) := by
  rw [decode, Bytes.cut_eq_none_iff.2 h]

theorem exists_decode {bytes : Bytes} (h : wireSize ≤ bytes.length) :
    ∃ header, decode bytes = .ok header := by
  unfold decode
  cases hcut : Bytes.cut wireSize bytes with
  | none => exact absurd (Bytes.cut_eq_none_iff.1 hcut) (Nat.not_lt.2 h)
  | some parts => exact ⟨_, rfl⟩

end FragmentHeader

namespace BuiltEvent

/-- Bytes that are no fragment, and what is said about them. -/
inductive CutOff (tail : Bytes) : RecordError → Prop
  /-- There is no room for a header. -/
  | inHeader : tail ≠ [] → tail.length < 20 → CutOff tail (.truncated 20 tail.length)
  /-- The header declares more than there is behind it. -/
  | inPayload {header : FragmentHeader} :
      FragmentHeader.decode tail = .ok header → tail.length - 20 < header.payloadSize.toNat →
      CutOff tail (.truncated header.payloadSize.toNat (tail.length - 20))

theorem CutOff.ne_nil {tail : Bytes} {err : RecordError} (h : CutOff tail err) : tail ≠ [] := by
  cases h with
  | inHeader hne _ => exact hne
  | inPayload hdecode _ =>
    rintro rfl
    cases hdecode

/-- What is found when bytes are gone through fragment by fragment. -/
inductive Walk : Bytes → List (Except RecordError (FragmentHeader × Bytes)) → Prop
  | ended : Walk [] []
  | cutOff {tail : Bytes} {err : RecordError} : CutOff tail err → Walk tail [.error err]
  | fragment {header : FragmentHeader} {payload rest : Bytes}
      {items : List (Except RecordError (FragmentHeader × Bytes))} :
      header.payloadSize.toNat = payload.length → Walk rest items →
      Walk (flatBytes (header, payload) ++ rest) (.ok (header, payload) :: items)

section Step

variable {e : BuiltEvent}

/-- What a built event gives next: nothing at the end, an error that leaves nothing behind, or a
    fragment that lies in front of what is left. -/
theorem next?_cases (e : BuiltEvent) :
    (e.left = [] ∧ e.next? = none) ∨
    (∃ err, CutOff e.left err ∧ e.next? = some (.error err, ⟨[]⟩)) ∨
    ∃ header payload rest, header.payloadSize.toNat = payload.length ∧
      e.left = flatBytes (header, payload) ++ rest ∧
      e.next? = some (.ok (header, payload), ⟨rest⟩) := by
  obtain ⟨left⟩ := e
  by_cases hempty : left = []
  · subst hempty
    exact .inl ⟨rfl, next?_nil⟩
  have hsome : left.isEmpty = false := by simpa using hempty
  by_cases hshort : left.length < FragmentHeader.wireSize
  · refine .inr (.inl ⟨_, .inHeader hempty hshort, ?_⟩)
    rw [next?, hsome, if_neg Bool.false_ne_true, FragmentHeader.decode_of_length_lt hshort]
    rfl
  obtain ⟨header, hdecode⟩ := FragmentHeader.exists_decode (Nat.le_of_not_lt hshort)
  obtain ⟨behind, hleft⟩ := FragmentHeader.decode_eq_ok.1 hdecode
  have hbehind : left.drop FragmentHeader.wireSize = behind := by
    rw [hleft]
    exact List.drop_left' (FragmentHeader.length_encode header)
  have hlength : left.length - 20 = behind.length := by
    rw [← hbehind, List.length_drop, FragmentHeader.wireSize]
  cases hcut : Bytes.cut header.payloadSize.toNat behind with
  | none =>
    have hlong : left.length - 20 < header.payloadSize.toNat := by
      rw [hlength]
      exact Bytes.cut_eq_none_iff.1 hcut
    refine .inr (.inl ⟨_, .inPayload hdecode hlong, ?_⟩)
    rw [next?, hsome, if_neg Bool.false_ne_true, hdecode]
    dsimp only
    rw [hbehind, hcut, hlength]
  | some parts =>
    obtain ⟨payload, rest⟩ := parts
    obtain ⟨hparts, hpayload⟩ := Bytes.cut_eq_some_iff.1 hcut
    have hfragment : left = flatBytes (header, payload) ++ rest := by
      rw [hleft, hparts, flatBytes, List.append_assoc]
    refine .inr (.inr ⟨header, payload, rest, hpayload.symm, hfragment, ?_⟩)
    rw [hfragment]
    exact next?_fragment rest hpayload.symm

end Step

section Run

/-- What the items of a built event are walks through all that is left of it. -/
theorem walk_items (e : BuiltEvent) : Walk e.left e.items := by
  induction hlength : e.left.length using Nat.strong_induction_on generalizing e with
  | _ length ih =>
    rcases next?_cases e with ⟨hleft, hnext⟩ | ⟨err, hcut, hnext⟩ |
      ⟨header, payload, rest, hsize, hleft, hnext⟩
    · rw [items_of_none hnext, hleft]
      exact .ended
    · rw [items_of_some hnext, items_of_none next?_nil]
      exact .cutOff hcut
    · have hshorter := length_left_of_next? hnext
      rw [hlength] at hshorter
      rw [items_of_some hnext, hleft]
      exact .fragment hsize (ih _ hshorter ⟨rest⟩ rfl)

/-- Only the last item can be an error, and the others lie one after the other in front of what
    could not be read. -/
theorem Walk.exists_fragments {left : Bytes}
    {items : List (Except RecordError (FragmentHeader × Bytes))} (h : Walk left items) :
    ∃ (fragments : List (FragmentHeader × Bytes)) (tail : Bytes),
      left = fragments.flatMap flatBytes ++ tail ∧
      (∀ f ∈ fragments, f.1.payloadSize.toNat = f.2.length) ∧
      ((items = fragments.map .ok ∧ tail = []) ∨
        ∃ err, items = fragments.map .ok ++ [.error err] ∧ CutOff tail err) := by
  induction h with
  | ended => exact ⟨[], [], rfl, by simp, .inl ⟨rfl, rfl⟩⟩
  | @cutOff tail err hcut => exact ⟨[], tail, rfl, by simp, .inr ⟨err, rfl, hcut⟩⟩
  | @fragment header payload rest items hsize _ ih =>
    obtain ⟨fragments, tail, rfl, hsizes, hitems⟩ := ih
    refine ⟨(header, payload) :: fragments, tail, ?_, ?_, ?_⟩
    · rw [List.flatMap_cons, List.append_assoc]
    · exact List.forall_mem_cons.2 ⟨hsize, hsizes⟩
    · rcases hitems with ⟨rfl, htail⟩ | ⟨err, rfl, hcut⟩
      · exact .inl ⟨rfl, htail⟩
      · exact .inr ⟨err, rfl, hcut⟩

/-- What becomes of a built event by a number of calls for the next fragment. At the end a call
    changes nothing. -/
def after (e : BuiltEvent) : (count : Nat) → BuiltEvent
  | 0 => e
  | count + 1 =>
    match e.next? with
    | none => e
    | some (_, e') => e'.after count

theorem after_of_none {e : BuiltEvent} (h : e.next? = none) (count : Nat) : e.after count = e := by
  cases count with
  | zero => rfl
  | succ count => rw [after, h]

/-- The calls give the items, one after the other, and nothing from then on. -/
theorem next?_after (e : BuiltEvent) (count : Nat) :
    (e.after count).next?.map Prod.fst = e.items[count]? := by
  induction count generalizing e with
  | zero =>
    cases hnext : e.next? with
    | none => rw [after, hnext, items_of_none hnext, Option.map_none, List.getElem?_nil]
    | some parts =>
      obtain ⟨item, e'⟩ := parts
      rw [after, hnext, items_of_some hnext, Option.map_some, List.getElem?_cons_zero]
  | succ count ih =>
    cases hnext : e.next? with
    | none =>
      rw [after_of_none hnext, hnext, items_of_none hnext, Option.map_none, List.getElem?_nil]
    | some parts =>
      obtain ⟨item, e'⟩ := parts
      rw [items_of_some hnext, List.getElem?_cons_succ, ← ih e', after, hnext]

end Run

section Count

/-- The count has to include itself, and may not go past the end. -/
theorem ofPayload_eq_ok {payload : Bytes} {e : BuiltEvent} :
    ofPayload payload = .ok e ↔
      (4 ≤ payload.length ∧ 4 ≤ wordAt 0 payload ∧ wordAt 0 payload ≤ payload.length) ∧
        e = ⟨(payload.take (wordAt 0 payload)).drop 4⟩ := by
  unfold ofPayload
  cases hword : Bytes.cut 4 payload with
  | none =>
    have hshort := Bytes.cut_eq_none_iff.1 hword
    constructor
    · intro h
      cases h
    · intro h
      exact absurd h.1.1 (Nat.not_le.2 hshort)
  | some parts =>
    obtain ⟨word, behind⟩ := parts
    obtain ⟨hpayload, hlength⟩ := Bytes.cut_eq_some_iff.1 hword
    have hfour : 4 ≤ payload.length := by
      rw [hpayload, List.length_append]
      omega
    have hcount : toNat word = wordAt 0 payload := by
      rw [wordAt, List.drop_zero, hpayload, List.take_left' hlength]
    dsimp only
    rw [hcount]
    cases hcut : Bytes.cut (wordAt 0 payload) payload with
    | none =>
      have hlong := Bytes.cut_eq_none_iff.1 hcut
      constructor
      · intro h
        cases h
      · intro h
        exact absurd h.1.2.2 (Nat.not_le.2 hlong)
    | some parts =>
      obtain ⟨counted, rest⟩ := parts
      obtain ⟨hcounted, hsize⟩ := Bytes.cut_eq_some_iff.1 hcut
      have htake : payload.take (wordAt 0 payload) = counted :=
        (congrArg (List.take _) hcounted).trans (List.take_left' hsize)
      have hle : wordAt 0 payload ≤ payload.length := by
        rw [← hsize, hcounted, List.length_append]
        exact Nat.le_add_right _ _
      dsimp only
      rw [htake]
      by_cases hsmall : wordAt 0 payload < 4
      · rw [if_pos hsmall]
        constructor
        · intro h
          cases h
        · intro h
          exact absurd h.1.2.1 (Nat.not_le.2 hsmall)
      · rw [if_neg hsmall, Except.ok.injEq, eq_comm]
        exact (and_iff_right ⟨hfour, Nat.le_of_not_lt hsmall, hle⟩).symm

/-- Where the count is not damaged, it is all that decides how far is read. -/
theorem ofPayload_take_append {payload : Bytes} {e : BuiltEvent} (h : ofPayload payload = .ok e)
    (more : Bytes) : ofPayload (payload.take (wordAt 0 payload) ++ more) = .ok e := by
  obtain ⟨⟨hfour, hcount, hle⟩, rfl⟩ := ofPayload_eq_ok.1 h
  have hlength : (payload.take (wordAt 0 payload)).length = wordAt 0 payload :=
    List.length_take_of_le hle
  have hword : wordAt 0 (payload.take (wordAt 0 payload) ++ more) = wordAt 0 payload := by
    have hfront : (payload.take (wordAt 0 payload)).take 4 = payload.take 4 := by
      rw [List.take_take, Nat.min_eq_left hcount]
    rw [Record.wordAt_zero_append (by omega), wordAt, List.drop_zero, hfront, wordAt,
      List.drop_zero]
  refine ofPayload_eq_ok.2 ⟨?_, ?_⟩
  · rw [hword, List.length_append, hlength]
    omega
  · rw [hword, List.take_left' hlength]

end Count

/-- A built event can be opened exactly when its count is there, includes itself and does not go
    past the end. Then the calls for the next fragment give a list of items, and nothing from then
    on: fragments that cover the bytes behind the count up to a tail, and if there is such a tail an
    error that says why it is no fragment. Bytes past the count play no part. -/
theorem items_cover (payload : Bytes) :
    let count := wordAt 0 payload
    ((∃ e, ofPayload payload = .ok e) ↔
      4 ≤ payload.length ∧ 4 ≤ count ∧ count ≤ payload.length) ∧
    ∀ e, ofPayload payload = .ok e →
      (∀ k, (e.after k).next?.map Prod.fst = e.items[k]?) ∧
      (∃ (fragments : List (FragmentHeader × Bytes)) (tail : Bytes),
        (payload.take count).drop 4 = fragments.flatMap flatBytes ++ tail ∧
        (∀ f ∈ fragments, f.1.payloadSize.toNat = f.2.length) ∧
        (tail = [] ↔ ∀ err, .error err ∉ e.items) ∧
        ((e.items = fragments.map .ok ∧ tail = []) ∨
          ∃ err, e.items = fragments.map .ok ++ [.error err] ∧ CutOff tail err)) ∧
      ∀ more, ofPayload (payload.take count ++ more) = .ok e := by
  intro count
  constructor
  · constructor
    · intro h
      obtain ⟨e, he⟩ := h
      exact (ofPayload_eq_ok.1 he).1
    · intro h
      exact ⟨_, ofPayload_eq_ok.2 ⟨h, rfl⟩⟩
  · intro e he
    refine ⟨next?_after e, ?_, ofPayload_take_append he⟩
    obtain ⟨-, rfl⟩ := ofPayload_eq_ok.1 he
    obtain ⟨fragments, tail, hcover, hsizes, hitems⟩ := (walk_items _).exists_fragments
    refine ⟨fragments, tail, hcover, hsizes, ?_, hitems⟩
    rcases hitems with ⟨hitems, rfl⟩ | ⟨err, hitems, hcut⟩
    · rw [hitems]
      simp
    · rw [hitems]
      simp [hcut.ne_nil]

/-- A fragment without a payload, three bytes that are counted, and two that are not. -/
def cutShort : Bytes :=
  [27, 0, 0, 0] ++ (FragmentHeader.encode ⟨7, 2, 0, 0⟩ ++ [1, 2, 3]) ++ [4, 5]

theorem items_cover_cutShort :
    ∃ e, ofPayload cutShort = .ok e ∧
      (e.after 0).next?.map Prod.fst = some (.ok (⟨7, 2, 0, 0⟩, [])) ∧
      (e.after 1).next?.map Prod.fst = some (.error (.truncated 20 3)) ∧
      ∀ k, (e.after (k + 2)).next? = none := by
  obtain ⟨hopens, hcovers⟩ := items_cover cutShort
  obtain ⟨e, he⟩ := hopens.2 (by decide)
  obtain ⟨hcalls, -, -⟩ := hcovers e he
  have hitems : e.items = [.ok (⟨7, 2, 0, 0⟩, []), .error (.truncated 20 3)] := by
    have hfirst : e.next? = some (.ok (⟨7, 2, 0, 0⟩, []), ⟨[1, 2, 3]⟩) := by
      obtain ⟨-, rfl⟩ := ofPayload_eq_ok.1 he
      rfl
    have hsecond : next? ⟨[1, 2, 3]⟩ = some (.error (.truncated 20 3), ⟨[]⟩) := rfl
    rw [items_of_some hfirst, items_of_some hsecond, items_of_none next?_nil]
  refine ⟨e, he, ?_, ?_, ?_⟩
  · rw [hcalls 0, hitems]
    rfl
  · rw [hcalls 1, hitems]
    rfl
  · intro k
    have hnone := hcalls (k + 2)
    rw [hitems] at hnone
    exact Option.map_eq_none_iff.1 hnone

end BuiltEvent

end DaqStream
