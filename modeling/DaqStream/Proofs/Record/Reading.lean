import DaqStream.Record.Field
import Mathlib.Algebra.Group.Nat.Defs
import Mathlib.Data.List.TakeWhile

/-!
# Laws of reading steps

Each step has one equation that says when it succeeds: the bytes in front are the written
form of what it gives, and the bytes after it are what is left. `Consumes` is the same
question without the value: whether a step succeeds and leaves nothing. Its laws take one
step off the front, so that the acceptance of a whole layout becomes a condition on lengths.
-/

namespace DaqStream

namespace LittleEndian

/-- The 32-bit word that starts after `offset` bytes. -/
def wordAt (offset : Nat) (bytes : Bytes) : Nat := toNat ((bytes.drop offset).take 4)

theorem wordAt_lt (offset : Nat) (bytes : Bytes) : wordAt offset bytes < 2 ^ 32 := by
  have hlt := toNat_lt ((bytes.drop offset).take 4)
  have hle : ((bytes.drop offset).take 4).length ≤ 4 := List.length_take_le ..
  have hpow : Nat.pow 256 ((bytes.drop offset).take 4).length ≤ Nat.pow 256 4 :=
    Nat.pow_le_pow_right (by decide) hle
  have h256 : Nat.pow 256 4 = 2 ^ 32 := by decide
  unfold wordAt
  omega

theorem toNat_ofNat_wordAt (offset : Nat) (bytes : Bytes) :
    (UInt32.ofNat (wordAt offset bytes)).toNat = wordAt offset bytes :=
  UInt32.toNat_ofNat_of_lt' (wordAt_lt offset bytes)

theorem ofNat_wordAt_eq_iff (offset : Nat) (bytes : Bytes) (word : UInt32) :
    UInt32.ofNat (wordAt offset bytes) = word ↔ wordAt offset bytes = word.toNat := by
  rw [← UInt32.toNat_inj, toNat_ofNat_wordAt]

theorem wordAt_drop (offset count : Nat) (bytes : Bytes) :
    wordAt offset (bytes.drop count) = wordAt (count + offset) bytes := by
  simp [wordAt]

@[simp] theorem toNat_u16 (value : UInt16) : toNat (u16 value) = value.toNat := by
  have hlt : value.toNat < Nat.pow 256 2 := value.toNat_lt
  rw [u16, toNat_ofNat, Nat.mod_eq_of_lt hlt]

@[simp] theorem toNat_u32 (value : UInt32) : toNat (u32 value) = value.toNat := by
  have hlt : value.toNat < Nat.pow 256 4 := value.toNat_lt
  rw [u32, toNat_ofNat, Nat.mod_eq_of_lt hlt]

@[simp] theorem toNat_u64 (value : UInt64) : toNat (u64 value) = value.toNat := by
  have hlt : value.toNat < Nat.pow 256 8 := value.toNat_lt
  rw [u64, toNat_ofNat, Nat.mod_eq_of_lt hlt]

theorem u16_toNat {bytes : Bytes} (h : bytes.length = 2) :
    u16 (UInt16.ofNat (toNat bytes)) = bytes := by
  have hlt : toNat bytes < 2 ^ 16 := by have := toNat_lt bytes; rwa [h] at this
  rw [u16, UInt16.toNat_ofNat_of_lt' hlt, ← h, ofNat_toNat]

theorem u32_toNat {bytes : Bytes} (h : bytes.length = 4) :
    u32 (UInt32.ofNat (toNat bytes)) = bytes := by
  have hlt : toNat bytes < 2 ^ 32 := by have := toNat_lt bytes; rwa [h] at this
  rw [u32, UInt32.toNat_ofNat_of_lt' hlt, ← h, ofNat_toNat]

theorem u64_toNat {bytes : Bytes} (h : bytes.length = 8) :
    u64 (UInt64.ofNat (toNat bytes)) = bytes := by
  have hlt : toNat bytes < 2 ^ 64 := by have := toNat_lt bytes; rwa [h] at this
  rw [u64, UInt64.toNat_ofNat_of_lt' hlt, ← h, ofNat_toNat]

theorem wordAt_zero_u32_append (value : UInt32) (bytes : Bytes) :
    wordAt 0 (u32 value ++ bytes) = value.toNat := by
  rw [wordAt, List.drop_zero, List.take_left' (length_u32 value), toNat_u32]

end LittleEndian

namespace Reading

variable {α β : Type}

theorem pure_eq_ok {a b : α} {left rest : Bytes} :
    (pure a : Reading α) left = .ok (b, rest) ↔ a = b ∧ left = rest := by
  show Except.ok (a, left) = Except.ok (b, rest) ↔ _
  simp

theorem bind_eq_ok {m : Reading α} {f : α → Reading β} {left rest : Bytes} {b : β} :
    (m >>= f) left = .ok (b, rest) ↔
      ∃ a mid, m left = .ok (a, mid) ∧ f a mid = .ok (b, rest) := by
  show (m left >>= fun p => f p.1 p.2) = .ok (b, rest) ↔ _
  cases m left with
  | error e => simp [bind, Except.bind]
  | ok p =>
    obtain ⟨a, mid⟩ := p
    show f a mid = .ok (b, rest) ↔ _
    constructor
    · intro h
      exact ⟨a, mid, rfl, h⟩
    · rintro ⟨a', mid', hp, h⟩
      cases hp
      exact h

theorem throw_ne_ok {e : RecordError} {left rest : Bytes} {a : α} :
    (throw e : Reading α) left ≠ .ok (a, rest) := by
  show Except.error e ≠ Except.ok (a, rest)
  simp

theorem ite_eq_ok {c : Prop} [Decidable c] {m n : Reading α} {left rest : Bytes} {a : α} :
    (if c then m else n) left = .ok (a, rest) ↔
      (c ∧ m left = .ok (a, rest)) ∨ (¬ c ∧ n left = .ok (a, rest)) := by
  by_cases h : c <;> simp [h]

theorem bytes_eq_ok {field : String} {count : Nat} {left rest taken : Bytes} :
    bytes field count left = .ok (taken, rest) ↔ left = taken ++ rest ∧ taken.length = count := by
  rw [← Bytes.cut_eq_some_iff]
  unfold bytes
  cases Bytes.cut count left <;> simp

theorem u16_eq_ok {field : String} {left rest : Bytes} {x : UInt16} :
    u16 field left = .ok (x, rest) ↔ left = LittleEndian.u16 x ++ rest := by
  simp only [u16, bind_eq_ok, bytes_eq_ok, pure_eq_ok]
  constructor
  · rintro ⟨taken, mid, ⟨rfl, hlen⟩, rfl, rfl⟩
    rw [LittleEndian.u16_toNat hlen]
  · rintro rfl
    exact ⟨_, _, ⟨rfl, LittleEndian.length_u16 x⟩, by simp, rfl⟩

theorem u32_eq_ok {field : String} {left rest : Bytes} {x : UInt32} :
    u32 field left = .ok (x, rest) ↔ left = LittleEndian.u32 x ++ rest := by
  simp only [u32, bind_eq_ok, bytes_eq_ok, pure_eq_ok]
  constructor
  · rintro ⟨taken, mid, ⟨rfl, hlen⟩, rfl, rfl⟩
    rw [LittleEndian.u32_toNat hlen]
  · rintro rfl
    exact ⟨_, _, ⟨rfl, LittleEndian.length_u32 x⟩, by simp, rfl⟩

theorem u64_eq_ok {field : String} {left rest : Bytes} {x : UInt64} :
    u64 field left = .ok (x, rest) ↔ left = LittleEndian.u64 x ++ rest := by
  simp only [u64, bind_eq_ok, bytes_eq_ok, pure_eq_ok]
  constructor
  · rintro ⟨taken, mid, ⟨rfl, hlen⟩, rfl, rfl⟩
    rw [LittleEndian.u64_toNat hlen]
  · rintro rfl
    exact ⟨_, _, ⟨rfl, LittleEndian.length_u64 x⟩, by simp, rfl⟩

theorem rest_eq_ok {left after taken : Bytes} :
    rest left = .ok (taken, after) ↔ taken = left ∧ after = [] := by
  simp [rest, eq_comm]

theorem remaining_eq_ok {left after : Bytes} {count : Nat} :
    remaining left = .ok (count, after) ↔ count = left.length ∧ after = left := by
  simp [remaining, eq_comm]

/-- Bytes up to the first zero byte, and the bytes from there on. -/
theorem cut_at_zero_iff {left s after : Bytes} :
    left.takeWhile (· ≠ 0) = s ∧ left.dropWhile (· ≠ 0) = 0 :: after ↔
      left = s ++ 0 :: after ∧ 0 ∉ s := by
  constructor
  · rintro ⟨rfl, hdrop⟩
    constructor
    · rw [← hdrop, List.takeWhile_append_dropWhile]
    · intro hmem
      have := List.mem_takeWhile_imp hmem
      simp at this
  · rintro ⟨rfl, hs⟩
    have hpos : ∀ b ∈ s, decide (b ≠ 0) = true := by
      intro b hb
      have : b ≠ 0 := fun h => hs (h ▸ hb)
      simpa using this
    rw [List.takeWhile_append_of_pos hpos, List.dropWhile_append_of_pos hpos]
    simp

theorem strings_eq_ok {field : String} {count : Nat} {left rest : Bytes} {ss : List Bytes} :
    strings field count left = .ok (ss, rest) ↔
      left = ss.flatMap (fun s => s ++ [0]) ++ rest ∧ ss.length = count ∧ ∀ s ∈ ss, 0 ∉ s := by
  induction count generalizing left ss with
  | zero =>
    rw [strings, pure_eq_ok]
    constructor
    · rintro ⟨rfl, rfl⟩
      simp
    · rintro ⟨rfl, hlen, -⟩
      obtain rfl := List.eq_nil_of_length_eq_zero hlen
      simp
  | succ count ih =>
    unfold strings
    constructor
    · intro h
      split at h
      · simp at h
      · rename_i b after hdrop
        -- The byte that ends the string is the first that fails the test, so it is zero.
        have hb : b = 0 := by
          have := List.head?_dropWhile_not (fun b : UInt8 => decide (b ≠ 0)) left
          rw [hdrop] at this
          simpa using this
        subst hb
        split at h
        · rename_i more rest' hmore
          simp only [Except.ok.injEq, Prod.mk.injEq] at h
          obtain ⟨rfl, rfl⟩ := h
          obtain ⟨hafter, hcount, hzero⟩ := ih.1 hmore
          obtain ⟨hleft, hfirst⟩ := cut_at_zero_iff.1 ⟨rfl, hdrop⟩
          refine ⟨?_, by simp [hcount], ?_⟩
          · rw [List.flatMap_cons, List.append_assoc, ← hafter, List.append_assoc]
            exact hleft
          · intro s hs
            rcases List.mem_cons.1 hs with rfl | hs
            · exact hfirst
            · exact hzero s hs
        · simp at h
    · rintro ⟨hleft, hlen, hzero⟩
      cases ss with
      | nil => simp at hlen
      | cons s ss =>
        rw [List.flatMap_cons, List.append_assoc, List.append_assoc, List.cons_append,
          List.nil_append] at hleft
        obtain ⟨htake, hdrop⟩ := cut_at_zero_iff.2 ⟨hleft, hzero s (by simp)⟩
        have hmore := ih.2 ⟨rfl, by simpa using hlen, fun t ht => hzero t (by simp [ht])⟩
        rw [hdrop, htake]
        dsimp only
        rw [hmore]

/-- The step succeeds and leaves nothing. -/
def Consumes (m : Reading α) (left : Bytes) : Prop := ∃ a, m left = .ok (a, [])

theorem consumes_pure {a : α} {left : Bytes} : Consumes (pure a : Reading α) left ↔ left = [] := by
  simp [Consumes, pure_eq_ok]

theorem consumes_bind {m : Reading α} {f : α → Reading β} {left : Bytes} :
    Consumes (m >>= f) left ↔ ∃ a mid, m left = .ok (a, mid) ∧ Consumes (f a) mid := by
  simp only [Consumes, bind_eq_ok]
  constructor
  · rintro ⟨b, a, mid, hm, hf⟩
    exact ⟨a, mid, hm, b, hf⟩
  · rintro ⟨a, mid, hm, b, hf⟩
    exact ⟨b, a, mid, hm, hf⟩

theorem consumes_ite {c : Prop} [Decidable c] {m n : Reading α} {left : Bytes} :
    Consumes (if c then m else n) left ↔ (c ∧ Consumes m left) ∨ (¬ c ∧ Consumes n left) := by
  by_cases h : c <;> simp [h]

theorem not_consumes_throw {e : RecordError} {left : Bytes} :
    ¬ Consumes (throw e : Reading α) left := by
  rintro ⟨a, h⟩
  exact throw_ne_ok h

theorem consumes_bind_pure {m : Reading α} {g : α → β} {left : Bytes} :
    Consumes (m >>= fun a => pure (g a)) left ↔ Consumes m left := by
  simp only [consumes_bind, consumes_pure]
  constructor
  · rintro ⟨a, _, hm, rfl⟩
    exact ⟨a, hm⟩
  · rintro ⟨a, hm⟩
    exact ⟨a, [], hm, rfl⟩

/-- A check in the middle of a layout. -/
theorem consumes_check_bind {c : Prop} [Decidable c] {a : α} {e : RecordError} {f : α → Reading β}
    {left : Bytes} :
    Consumes ((if c then pure a else throw e) >>= f) left ↔ c ∧ Consumes (f a) left := by
  by_cases h : c
  · simp only [h, if_true, pure_bind, true_and]
  · simp only [h, if_false, false_and, iff_false]
    rintro ⟨b, hb⟩
    obtain ⟨_, _, hthrow, -⟩ := bind_eq_ok.1 hb
    exact throw_ne_ok hthrow

theorem consumes_remaining_bind {f : Nat → Reading β} {left : Bytes} :
    Consumes (remaining >>= f) left ↔ Consumes (f left.length) left := by
  simp only [consumes_bind, remaining_eq_ok]
  constructor
  · rintro ⟨_, _, ⟨rfl, rfl⟩, hf⟩
    exact hf
  · intro hf
    exact ⟨_, _, ⟨rfl, rfl⟩, hf⟩

theorem consumes_bytes_bind {field : String} {count : Nat} {f : Bytes → Reading β} {left : Bytes} :
    Consumes (bytes field count >>= f) left ↔
      count ≤ left.length ∧ Consumes (f (left.take count)) (left.drop count) := by
  simp only [consumes_bind, bytes_eq_ok]
  constructor
  · rintro ⟨taken, mid, ⟨rfl, rfl⟩, hf⟩
    refine ⟨by simp, ?_⟩
    rw [List.take_left, List.drop_left]
    exact hf
  · rintro ⟨hle, hf⟩
    exact ⟨_, _, ⟨(List.take_append_drop count left).symm, List.length_take_of_le hle⟩, hf⟩

theorem consumes_u16_bind {field : String} {f : UInt16 → Reading β} {left : Bytes} :
    Consumes (u16 field >>= f) left ↔
      2 ≤ left.length ∧
        Consumes (f (UInt16.ofNat (LittleEndian.toNat (left.take 2)))) (left.drop 2) := by
  simp only [u16, bind_assoc, pure_bind, consumes_bytes_bind]

theorem consumes_u32_bind {field : String} {f : UInt32 → Reading β} {left : Bytes} :
    Consumes (u32 field >>= f) left ↔
      4 ≤ left.length ∧
        Consumes (f (UInt32.ofNat (LittleEndian.wordAt 0 left))) (left.drop 4) := by
  simp only [u32, bind_assoc, pure_bind, consumes_bytes_bind, LittleEndian.wordAt, List.drop_zero]

theorem consumes_u64_bind {field : String} {f : UInt64 → Reading β} {left : Bytes} :
    Consumes (u64 field >>= f) left ↔
      8 ≤ left.length ∧
        Consumes (f (UInt64.ofNat (LittleEndian.toNat (left.take 8)))) (left.drop 8) := by
  simp only [u64, bind_assoc, pure_bind, consumes_bytes_bind]

theorem consumes_rest_bind {f : Bytes → Reading β} {left : Bytes} :
    Consumes (rest >>= f) left ↔ Consumes (f left) [] := by
  simp only [consumes_bind, rest_eq_ok]
  constructor
  · rintro ⟨_, _, ⟨rfl, rfl⟩, hf⟩
    exact hf
  · intro hf
    exact ⟨_, _, ⟨rfl, rfl⟩, hf⟩

theorem consumes_strings {field : String} {count : Nat} {left : Bytes} :
    Consumes (strings field count) left ↔
      ∃ ss : List Bytes, left = ss.flatMap (fun s => s ++ [0]) ∧ ss.length = count ∧
        ∀ s ∈ ss, 0 ∉ s := by
  simp only [Consumes, strings_eq_ok, List.append_nil]

end Reading

end DaqStream
