import DaqStream.Proofs.Record.Window
import DaqStream.Record.Decode

/-!
# Reading through a window

A step of a reader checks how many bytes are left before it takes them, and takes them by operations
that are faults if there are fewer. `Mirrors` says that the checks suffice: a step comes to no fault
and does what a step of `Reading` does, from wherever in a buffer it begins. Steps that mirror
others do so in sequence (`Mirrors.bind`), and every field and payload of a record that is not made
of records is read by such a step.
-/

namespace DaqStream

/-- What decoding gives: a record or an error, unless it comes to a fault. -/
abbrev Decoding (α : Type) := ExceptT RecordError (Except Fault) α

namespace Decoding

variable {α β : Type}

/-- Decoding that comes to a fault. -/
def fault (fault : Fault) : Decoding α := ExceptT.lift (.error fault)

/-- Decoding that comes to no fault, and ends with this. -/
def faultless (result : Except RecordError α) : Decoding α := ExceptT.mk (.ok result)

theorem faultless_ok_bind (a : α) (f : α → Decoding β) : faultless (.ok a) >>= f = f a := rfl

theorem lift_ok_bind (a : α) (f : α → Decoding β) :
    (liftM (.ok a : Except Fault α) : Decoding α) >>= f = f a := rfl

end Decoding

open Decoding (faultless)

/-- A step of a reader at a window: what it gives, and what is left of the window. -/
abbrev Cursor (α : Type) := StateT Window Decoding α

namespace Cursor

/-- A number in `width` bytes, if there are that many. -/
def word (width : Nat) (field : String) : Cursor Nat := fun buf => do
  if buf.length < width then throw (.fieldOverrun field)
  buf.number width

def u16 (field : String) : Cursor UInt16 := do return UInt16.ofNat (← word 2 field)

def u32 (field : String) : Cursor UInt32 := do return UInt32.ofNat (← word 4 field)

def u64 (field : String) : Cursor UInt64 := do return UInt64.ofNat (← word 8 field)

/-- A word that only some generations have, and its value in the others. -/
def u32If (present : Bool) (absent : UInt32) (field : String) : Cursor UInt32 :=
  if present then u32 field else pure absent

/-- How many bytes are left. -/
def remaining : Cursor Nat := fun buf => pure (buf.length, buf)

/-- The next `count` bytes, as a part of the record. -/
def bytes (wire : Window) (field : String) (count : Nat) : Cursor Bytes := fun buf => do
  if buf.length < count then throw (.fieldOverrun field)
  let part ← wire.share buf count
  return (part.bytes, ← buf.after count)

/-- Everything that is left, as a part of the record. -/
def rest (wire : Window) : Cursor Bytes := fun buf => do
  let part ← wire.shared buf
  return (part.bytes, ← buf.after buf.length)

/-- A title field, up to the first zero byte in it. -/
def title (wire : Window) : Cursor Bytes := fun buf => do
  if buf.length < StateChange.titleField then throw (.fieldOverrun "title")
  let raw ← buf.before StateChange.titleField
  let stop := (raw.bytes.findIdx? (· = 0)).getD StateChange.maxTitle
  let part ← wire.share raw stop
  return (part.bytes, ← buf.after StateChange.titleField)

/-- `count` numbers, with no check of their own. -/
def numbers : (count : Nat) → Cursor (List UInt32)
  | 0 => pure []
  | count + 1 => fun buf => do
    let (n, buf) ← buf.number 4
    let (more, buf) ← numbers count buf
    return (UInt32.ofNat n :: more, buf)

/-- The values of a scaler readout. The size that is needed is computed in 64 bits. -/
def values (count : UInt32) : Cursor (List UInt32) := fun buf => do
  if buf.length < min (count.toNat * 4) (2 ^ 64 - 1) then throw (.fieldOverrun "scalers")
  numbers count.toNat buf

/-- `count` strings, each up to a zero byte. -/
def strings (wire : Window) : (count : Nat) → Cursor (List Bytes)
  | 0 => pure []
  | count + 1 => fun buf => do
    let some stop := buf.bytes.findIdx? (· = 0) | throw (.fieldOverrun "strings")
    let part ← wire.share buf stop
    let (more, buf) ← strings wire count (← buf.after (stop + 1))
    return (part.bytes :: more, buf)

end Cursor

/-- From wherever in `base` it begins, a step comes to no fault, and does what a step of reading
    does with the bytes there: it fails with the same error, or gives the same and leaves the
    same. -/
def Mirrors (base : Window) {α : Type} (m : Cursor α) (t : Reading α) : Prop :=
  ∀ left, left <:+ base.bytes →
    (∃ e, t left = .error e ∧ m (base.tail left) = faultless (.error e)) ∨
      ∃ a left', t left = .ok (a, left') ∧ left' <:+ left ∧
        m (base.tail left) = faultless (.ok (a, base.tail left'))

namespace Bytes

variable {bytes : Bytes} {count stop : Nat}

/-- Words are taken from the front one by one. -/
theorem words_take (h : 4 * (count + 1) ≤ bytes.length) :
    words (bytes.take (4 * (count + 1))) =
      UInt32.ofNat (LittleEndian.toNat (bytes.take 4)) ::
        words ((bytes.drop 4).take (4 * count)) := by
  match bytes, h with
  | a :: b :: c :: d :: rest, _ => rfl

/-- The bytes before the first zero byte, and from there on. -/
theorem takeWhile_eq_take (h : bytes.findIdx? (· = 0) = some stop) :
    stop < bytes.length ∧ bytes.takeWhile (· ≠ 0) = bytes.take stop ∧
      bytes.dropWhile (· ≠ 0) = bytes.drop stop := by
  obtain ⟨hlt, hindex⟩ := List.findIdx?_eq_some_iff_findIdx_eq.1 h
  have hnot : (fun b : UInt8 => !decide (b ≠ 0)) = fun b => decide (b = 0) := by
    funext b
    simp
  refine ⟨hlt, ?_, ?_⟩
  · rw [List.takeWhile_eq_take_findIdx_not, hnot, hindex]
  · rw [List.dropWhile_eq_drop_findIdx_not, hnot, hindex]

theorem takeWhile_eq_self (h : bytes.findIdx? (· = 0) = none) :
    bytes.takeWhile (· ≠ 0) = bytes ∧ bytes.dropWhile (· ≠ 0) = [] := by
  have hnone : ∀ b ∈ bytes, decide (b ≠ 0) = true := by
    simpa using List.findIdx?_eq_none_iff.1 h
  exact ⟨List.takeWhile_eq_self_iff.2 hnone, List.dropWhile_eq_nil_iff.2 hnone⟩

/-- A title ends at a zero byte, or where it is as long as it may be. -/
theorem take_title (h : bytes.length = StateChange.titleField) :
    (bytes.findIdx? (· = 0)).getD StateChange.maxTitle ≤ bytes.length ∧
      bytes.take ((bytes.findIdx? (· = 0)).getD StateChange.maxTitle) =
        (bytes.takeWhile (· ≠ 0)).take StateChange.maxTitle := by
  simp only [StateChange.titleField, StateChange.maxTitle] at h ⊢
  cases hstop : bytes.findIdx? (· = 0) with
  | none =>
    rw [(takeWhile_eq_self hstop).1]
    exact ⟨by rw [h]; decide, rfl⟩
  | some stop =>
    obtain ⟨hlt, htake, -⟩ := takeWhile_eq_take hstop
    rw [htake, List.take_take, Option.getD_some, Nat.min_eq_right (by omega)]
    exact ⟨Nat.le_of_lt hlt, rfl⟩

end Bytes

section Steps

variable {base : Window} {α β : Type} {m : Cursor α} {t : Reading α}

theorem mirrors_pure (a : α) : Mirrors base (pure a) (pure a) :=
  fun left _ => .inr ⟨a, left, rfl, List.suffix_refl left, rfl⟩

theorem mirrors_throw (e : RecordError) : Mirrors base (throw e : Cursor α) (throw e) :=
  fun _ _ => .inl ⟨e, rfl, rfl⟩

theorem Mirrors.bind {f : α → Cursor β} {g : α → Reading β} (h : Mirrors base m t)
    (hnext : ∀ a, Mirrors base (f a) (g a)) : Mirrors base (m >>= f) (t >>= g) := by
  intro left hleft
  have hsteps : (m >>= f) (base.tail left) = m (base.tail left) >>= fun p => f p.1 p.2 := rfl
  have hreads : (t >>= g) left = t left >>= fun p => g p.1 p.2 := rfl
  rw [hsteps, hreads]
  rcases h left hleft with ⟨e, hfails, hrun⟩ | ⟨a, left', hgives, hrest, hrun⟩
  · rw [hfails, hrun]
    exact .inl ⟨e, rfl, rfl⟩
  · rw [hgives, hrun, Decoding.faultless_ok_bind]
    rcases hnext a left' (hrest.trans hleft) with
      ⟨e, hfails, hrun'⟩ | ⟨b, left'', hgives', hrest', hrun'⟩
    · exact .inl ⟨e, hfails, hrun'⟩
    · exact .inr ⟨b, left'', hgives', hrest'.trans hrest, hrun'⟩

theorem Mirrors.map (f : α → β) (h : Mirrors base m t) : Mirrors base (f <$> m) (f <$> t) := by
  have hbind := h.bind fun a => mirrors_pure (f a)
  rw [bind_pure_comp, bind_pure_comp] at hbind
  exact hbind

theorem mirrors_ite {c : Prop} [Decidable c] {m' : Cursor α} {t' : Reading α}
    (h : c → Mirrors base m t) (h' : ¬ c → Mirrors base m' t') :
    Mirrors base (if c then m else m') (if c then t else t') := by
  split
  · exact h ‹c›
  · exact h' ‹¬ c›

/-- A step that takes a number of bytes off the front, if there are that many. -/
theorem mirrors_front {count : Nat} {field : String} {make : Bytes → α}
    (hfails : ∀ buf : Window, buf.length < count →
      m buf = faultless (.error (.fieldOverrun field)))
    (hgives : ∀ left, left <:+ base.bytes → count ≤ left.length →
      m (base.tail left) = faultless (.ok (make (left.take count), base.tail (left.drop count)))) :
    Mirrors base m (do return make (← Reading.bytes field count)) := by
  intro left hleft
  have hreads : (do return make (← Reading.bytes field count) : Reading α) left =
      Reading.bytes field count left >>= fun p => .ok (make p.1, p.2) := rfl
  rw [hreads]
  rcases Nat.lt_or_ge left.length count with hcount | hcount
  · have hbytes : Reading.bytes field count left = .error (.fieldOverrun field) := by
      rw [Reading.bytes, Bytes.cut_eq_none_iff.2 hcount]
    rw [hbytes]
    exact .inl ⟨_, rfl, hfails _ hcount⟩
  · have hbytes : Reading.bytes field count left = .ok (left.take count, left.drop count) :=
      Reading.bytes_eq_ok.2 ⟨(List.take_append_drop ..).symm, List.length_take_of_le hcount⟩
    rw [hbytes]
    exact .inr ⟨_, _, rfl, List.drop_suffix .., hgives left hleft hcount⟩

theorem mirrors_number {width : Nat} {field : String} (make : Nat → α) :
    Mirrors base (do return make (← Cursor.word width field))
      (do return make (LittleEndian.toNat (← Reading.bytes field width))) := by
  have hword : Mirrors base (Cursor.word width field)
      (do return LittleEndian.toNat (← Reading.bytes field width)) := by
    apply mirrors_front
    · intro buf hshort
      exact if_pos hshort
    · intro left hleft hwidth
      have hnumber : Cursor.word width field (base.tail left) = (base.tail left).number width :=
        if_neg (Nat.not_lt.2 hwidth)
      rw [hnumber, Window.number_tail width hleft hwidth]
      rfl
  have hmake := hword.bind fun n => mirrors_pure (make n)
  simp only [bind_assoc, pure_bind] at hmake
  exact hmake

theorem mirrors_u16 (field : String) : Mirrors base (Cursor.u16 field) (Reading.u16 field) :=
  mirrors_number UInt16.ofNat

theorem mirrors_u32 (field : String) : Mirrors base (Cursor.u32 field) (Reading.u32 field) :=
  mirrors_number UInt32.ofNat

theorem mirrors_u64 (field : String) : Mirrors base (Cursor.u64 field) (Reading.u64 field) :=
  mirrors_number UInt64.ofNat

theorem mirrors_u32If (present : Bool) (absent : UInt32) (field : String) :
    Mirrors base (Cursor.u32If present absent field) (Reading.u32If present absent field) :=
  mirrors_ite (fun _ => mirrors_u32 field) (fun _ => mirrors_pure absent)

theorem mirrors_remaining : Mirrors base Cursor.remaining Reading.remaining :=
  fun left _ => .inr ⟨left.length, left, rfl, List.suffix_refl left, rfl⟩

theorem numbers_tail {count : Nat} {left : Bytes} (hleft : left <:+ base.bytes)
    (hcount : 4 * count ≤ left.length) :
    Cursor.numbers count (base.tail left) =
      faultless (.ok (Bytes.words (left.take (4 * count)), base.tail (left.drop (4 * count)))) := by
  induction count generalizing left with
  | zero => rfl
  | succ count ih =>
    have hnumber := Window.number_tail 4 hleft (by omega)
    have hmore := ih ((List.drop_suffix 4 left).trans hleft)
      (by rw [List.length_drop]; omega)
    rw [List.drop_drop] at hmore
    have hnumbers : Cursor.numbers (count + 1) (base.tail left) =
        Cursor.numbers count (base.tail (left.drop 4)) >>= fun p =>
          pure (UInt32.ofNat (LittleEndian.toNat (left.take 4)) :: p.1, p.2) := by
      rw [Cursor.numbers]
      dsimp only
      rw [hnumber]
      rfl
    rw [hnumbers, hmore, Bytes.words_take hcount, Nat.mul_succ, Nat.add_comm]
    rfl

theorem mirrors_values (count : UInt32) :
    Mirrors base (Cursor.values count)
      (do return Bytes.words (← Reading.bytes "scalers" (4 * count.toNat))) := by
  have hsize : min (count.toNat * 4) (2 ^ 64 - 1) = 4 * count.toNat := by
    have := count.toNat_lt
    omega
  apply mirrors_front
  · intro buf hshort
    exact if_pos (by rw [hsize]; exact hshort)
  · intro left hleft hcount
    have htakes : Cursor.values count (base.tail left) =
        Cursor.numbers count.toNat (base.tail left) :=
      if_neg (by rw [hsize]; exact Nat.not_lt.2 hcount)
    rw [htakes]
    exact numbers_tail hleft hcount

section Parts

/-! Parts of the record are found in it, since the window lies within it. -/

variable {wire : Window} (hbase : base.Within wire)

include hbase

theorem mirrors_rest : Mirrors base (Cursor.rest wire) Reading.rest := by
  intro left hleft
  obtain ⟨start, hshared⟩ := Window.shared_eq ((Window.within_tail hleft).trans hbase)
  refine .inr ⟨left, [], rfl, List.nil_suffix, ?_⟩
  have hafter : (base.tail left).after (base.tail left).length = .ok (base.tail []) := by
    rw [Window.length_tail, Window.after_tail hleft (Nat.le_refl _), List.drop_length]
  rw [Cursor.rest, hshared, hafter]
  rfl

theorem mirrors_bytes (count : Nat) (field : String) :
    Mirrors base (Cursor.bytes wire field count) (Reading.bytes field count) := by
  have hbytes : Mirrors base (Cursor.bytes wire field count)
      (do return id (← Reading.bytes field count)) := by
    apply mirrors_front
    · intro buf hshort
      exact if_pos hshort
    · intro left hleft hcount
      obtain ⟨start, hshare⟩ := Window.share_eq ((Window.within_tail hleft).trans hbase) hcount
      have htakes : Cursor.bytes wire field count (base.tail left) = (do
          let part ← wire.share (base.tail left) count
          return (part.bytes, ← (base.tail left).after count)) := if_neg (Nat.not_lt.2 hcount)
      rw [htakes, hshare, Window.after_tail hleft hcount]
      rfl
  simpa only [id_eq, bind_pure] using hbytes

theorem mirrors_title : Mirrors base (Cursor.title wire) StateChange.readTitle := by
  apply mirrors_front
  · intro buf hshort
    exact if_pos hshort
  · intro left hleft hcount
    have hlength : (left.take StateChange.titleField).length = StateChange.titleField :=
      List.length_take_of_le hcount
    obtain ⟨hstop, htitle⟩ := Bytes.take_title hlength
    obtain ⟨start, hshare⟩ := Window.share_eq
      ((Window.within_before StateChange.titleField).trans ((Window.within_tail hleft).trans hbase))
      hstop
    have htakes : Cursor.title wire (base.tail left) = (do
        let raw ← (base.tail left).before StateChange.titleField
        let stop := (raw.bytes.findIdx? (· = 0)).getD StateChange.maxTitle
        let part ← wire.share raw stop
        return (part.bytes, ← (base.tail left).after StateChange.titleField)) :=
      if_neg (Nat.not_lt.2 hcount)
    rw [htakes, Window.before_eq hcount, Window.after_tail hleft hcount, ← htitle]
    simp only [Decoding.lift_ok_bind, Window.bytes_tail] at hshare ⊢
    rw [hshare]
    rfl

theorem mirrors_strings (count : Nat) :
    Mirrors base (Cursor.strings wire count) (Reading.strings "strings" count) := by
  induction count with
  | zero => exact mirrors_pure []
  | succ count ih =>
    intro left hleft
    cases hstop : left.findIdx? (· = 0) with
    | none =>
      have hdrop := (Bytes.takeWhile_eq_self hstop).2
      refine .inl ⟨.fieldOverrun "strings", ?_, ?_⟩
      · rw [Reading.strings]
        dsimp only
        rw [hdrop]
      · rw [Cursor.strings]
        dsimp only
        rw [Window.bytes_tail, hstop]
        rfl
    | some stop =>
      obtain ⟨hlt, htake, hdrop⟩ := Bytes.takeWhile_eq_take hstop
      have hlater : left.drop (stop + 1) <:+ left := List.drop_suffix ..
      obtain ⟨start, hshare⟩ :=
        Window.share_eq ((Window.within_tail hleft).trans hbase) (Nat.le_of_lt hlt)
      have hstrings : Cursor.strings wire (count + 1) (base.tail left) =
          Cursor.strings wire count (base.tail (left.drop (stop + 1))) >>= fun p =>
            pure (left.take stop :: p.1, p.2) := by
        rw [Cursor.strings]
        dsimp only
        rw [Window.bytes_tail, hstop]
        dsimp only
        rw [hshare, Window.after_tail hleft hlt]
        rfl
      have hreads : Reading.strings "strings" (count + 1) left =
          Reading.strings "strings" count (left.drop (stop + 1)) >>= fun p =>
            .ok (left.take stop :: p.1, p.2) := by
        rw [Reading.strings]
        dsimp only
        rw [hdrop, htake, List.drop_eq_getElem_cons hlt]
        dsimp only
        cases Reading.strings "strings" count (left.drop (stop + 1)) <;> rfl
      rw [hstrings, hreads]
      rcases ih _ (hlater.trans hleft) with ⟨e, hfails, hrun⟩ | ⟨more, left', hgives, hrest, hrun⟩
      · rw [hfails, hrun]
        exact .inl ⟨e, rfl, rfl⟩
      · rw [hgives, hrun]
        exact .inr ⟨_, left', rfl, hrest.trans hlater, rfl⟩

end Parts

end Steps

end DaqStream
