import DaqStream.Proofs.Record.Block

/-!
# Windows onto bytes in memory

A reader of bytes that nobody vouches for does not have lists of bytes but windows onto memory. It
cuts them at offsets that it has computed, takes words off their front, and shares parts of a buffer
by their address. Each of these operations is defined only within the bounds of what is there, and
it is a fault to go beyond them. A window at the end of a buffer is cut without a fault as far as
there are bytes in it (`after_tail`), and what lies within a buffer is found there (`shared_eq`).
-/

namespace DaqStream

/-- What must not happen to a reader. -/
inductive Fault where
  /-- Bytes are asked for that are not there, or more is subtracted than there is. -/
  | outOfBounds
  /-- A record is entered that lies deeper than records are followed. -/
  | tooDeep
  /-- A turn of a loop over records takes less than the smallest record. -/
  | noProgress
  /-- The turns that were given to a loop or a recursion are used up. -/
  | unfinished
  deriving DecidableEq, Repr

namespace Fault

/-- A fault unless a condition holds. -/
def guard (c : Prop) [Decidable c] (fault : Fault) : Except Fault Unit :=
  if c then .ok () else .error fault

/-- A difference of numbers that must not be negative. -/
def sub (a b : Nat) : Except Fault Nat := if b ≤ a then .ok (a - b) else .error .outOfBounds

end Fault

/-- A window onto bytes in memory. -/
structure Window where
  /-- The address of the first byte. -/
  start : Nat
  bytes : Bytes
  deriving DecidableEq, Repr

namespace Window

def length (w : Window) : Nat := w.bytes.length

/-- A copy of the bytes, in memory of its own. -/
def copy (w : Window) : Window := ⟨0, w.bytes⟩

/-- The bytes between two offsets. -/
def slice (w : Window) (first last : Nat) : Except Fault Window :=
  if first ≤ last ∧ last ≤ w.length then
    .ok ⟨w.start + first, (w.bytes.take last).drop first⟩
  else .error .outOfBounds

/-- The byte at an offset. -/
def byte (w : Window) (offset : Nat) : Except Fault UInt8 :=
  match w.bytes[offset]? with
  | some b => .ok b
  | none => .error .outOfBounds

/-- The bytes up to an offset. -/
def before (w : Window) (offset : Nat) : Except Fault Window := w.slice 0 offset

/-- The bytes from an offset on. -/
def after (w : Window) (offset : Nat) : Except Fault Window := w.slice offset w.length

/-- A part of a buffer, which is found in it by its address; no bytes are found anywhere. -/
def shared (w part : Window) : Except Fault Window :=
  if part.bytes.isEmpty then .ok ⟨0, []⟩
  else if w.start ≤ part.start ∧ part.start + part.length ≤ w.start + w.length then
    w.slice (part.start - w.start) (part.start - w.start + part.length)
  else .error .outOfBounds

/-- The first bytes of a window, as a part of a buffer. -/
def share (w buf : Window) (count : Nat) : Except Fault Window := do
  w.shared (← buf.before count)

/-- A number in `width` bytes, and the bytes behind it. -/
def number (w : Window) (width : Nat) : Except Fault (Nat × Window) := do
  let word ← w.before width
  return (LittleEndian.toNat word.bytes, ← w.after width)

/-- The part of a window that ends where the window does. -/
def tail (w : Window) (left : Bytes) : Window := ⟨w.start + (w.length - left.length), left⟩

/-- One window shows a part of what another shows, at the same place. -/
def Within (part w : Window) : Prop :=
  ∃ front back, w.bytes = front ++ part.bytes ++ back ∧ part.start = w.start + front.length

variable {w part whole : Window} {left : Bytes} {first last width count : Nat}

theorem Within.trans (h : part.Within w) (hw : w.Within whole) : part.Within whole := by
  obtain ⟨front, back, hbytes, hstart⟩ := h
  obtain ⟨front', back', hbytes', hstart'⟩ := hw
  refine ⟨front' ++ front, back ++ back', ?_, ?_⟩
  · rw [hbytes', hbytes]
    simp only [List.append_assoc]
  · rw [hstart, hstart', List.length_append, Nat.add_assoc]

theorem slice_eq (hfirst : first ≤ last) (hlast : last ≤ w.length) :
    w.slice first last = .ok ⟨w.start + first, (w.bytes.take last).drop first⟩ :=
  if_pos ⟨hfirst, hlast⟩

theorem before_eq (h : count ≤ w.length) : w.before count = .ok ⟨w.start, w.bytes.take count⟩ :=
  slice_eq (Nat.zero_le count) h

/-- A window onto the front, wherever it is. -/
theorem exists_before (h : count ≤ w.length) :
    ∃ front : Window, w.before count = .ok front ∧ front.bytes = w.bytes.take count ∧
      front.bytes.length = count :=
  ⟨_, before_eq h, rfl, List.length_take_of_le h⟩

theorem within_before (count : Nat) : Within ⟨w.start, w.bytes.take count⟩ w :=
  ⟨[], w.bytes.drop count, (List.take_append_drop count w.bytes).symm, rfl⟩

/-- What lies within a buffer is found there. -/
theorem shared_eq (h : part.Within w) : ∃ start, w.shared part = .ok ⟨start, part.bytes⟩ := by
  obtain ⟨front, back, hbytes, hstart⟩ := h
  unfold shared
  by_cases hempty : part.bytes = []
  · refine ⟨0, ?_⟩
    rw [hempty]
    rfl
  · have hlength : w.length = front.length + part.length + back.length := by
      rw [length, hbytes, List.length_append, List.length_append, length]
    have hoffset : part.start - w.start = front.length := by omega
    refine ⟨w.start + front.length, ?_⟩
    rw [if_neg (by simpa using hempty), if_pos ⟨by omega, by omega⟩, hoffset,
      slice_eq (by omega) (by omega), hbytes]
    congr 2
    rw [List.append_assoc, ← List.append_assoc, List.take_left' (by simp [length]), List.drop_left]

theorem share_eq {buf : Window} (h : buf.Within w) (hcount : count ≤ buf.length) :
    ∃ start, w.share buf count = .ok ⟨start, buf.bytes.take count⟩ := by
  obtain ⟨start, hshared⟩ := shared_eq ((within_before count).trans h)
  refine ⟨start, ?_⟩
  rw [share, before_eq hcount]
  exact hshared

theorem tail_self (w : Window) : w.tail w.bytes = w := by
  unfold tail length
  rw [Nat.sub_self, Nat.add_zero]

theorem within_tail (h : left <:+ w.bytes) : (w.tail left).Within w := by
  obtain ⟨front, hfront⟩ := h
  refine ⟨front, [], ?_, ?_⟩
  · rw [List.append_nil]
    exact hfront.symm
  · have hlength := congrArg List.length hfront
    rw [List.length_append] at hlength
    unfold tail length
    dsimp only
    omega

@[simp] theorem bytes_tail : (w.tail left).bytes = left := rfl

@[simp] theorem length_tail : (w.tail left).length = left.length := rfl

theorem after_tail (h : left <:+ w.bytes) (hcount : count ≤ left.length) :
    (w.tail left).after count = .ok (w.tail (left.drop count)) := by
  have hle := h.length_le
  have hstart : w.start + (w.bytes.length - left.length) + count =
      w.start + (w.bytes.length - (left.length - count)) := by
    omega
  rw [after, slice_eq (by exact hcount) (Nat.le_refl _)]
  simp only [tail, length, List.take_length, List.length_drop, hstart]

theorem number_tail (width : Nat) (h : left <:+ w.bytes) (hwidth : width ≤ left.length) :
    (w.tail left).number width =
      .ok (LittleEndian.toNat (left.take width), w.tail (left.drop width)) := by
  unfold number
  rw [before_eq hwidth, after_tail h hwidth]
  rfl

end Window

end DaqStream
