import DaqStream.Proofs.Record.Norm

/-!
# Reading a block at another depth

A composite record keeps the bytes of its children, so a record that was read at one depth
is read again at another. What comes out does not depend on the depth, which only has to be
as great as the nesting of the record (`decodeWire_replay`).
-/

namespace DaqStream

open LittleEndian Reading

namespace Record

variable {version : FormatVersion} {depth depth' : Nat} {left rest wire : Bytes} {p q : Record}

theorem version_of_decodeWire (h : decodeWire version depth wire = .ok q) :
    q.version = version := by
  obtain ⟨r, hread, rfl⟩ := decodeWire_eq_ok.1 h
  obtain ⟨_, _, _, _, _, _, _, -, -, -, rfl⟩ := readFields_eq_ok.1 hread
  rfl

/-- The children of a record that is read with `depth` levels to go. With no level to go
    there are none. -/
theorem readChildren_childReader {children : List Record} :
    readChildren (childReader version depth) left = .ok (children, rest) ↔
      rest = [] ∧ ∃ blocks : List Bytes, left = blocks.flatten ∧
        List.Forall₂ (fun block r => IsBlock block ∧
          ∃ below, depth = below + 1 ∧ decodeWire version below block = .ok r) blocks children := by
  rw [readChildren_eq_ok]
  refine and_congr_right fun _ => ?_
  cases depth with
  | zero =>
    constructor
    · rintro ⟨rfl, rfl⟩
      exact ⟨[], rfl, .nil⟩
    · rintro ⟨blocks, rfl, hall⟩
      cases hall with
      | nil => exact ⟨rfl, rfl⟩
      | cons hfirst _ =>
        obtain ⟨-, below, hbelow, -⟩ := hfirst
        cases hbelow
  | succ depth =>
    simp only [childReader, readAll_eq_ok, Nat.add_right_cancel_iff, exists_eq_left']

theorem exists_of_forall₂_of_mem {α β : Type} {R : α → β → Prop} {xs : List α} {ys : List β}
    (h : List.Forall₂ R xs ys) {y : β} (hmem : y ∈ ys) : ∃ x, R x y := by
  induction h with
  | nil => simp at hmem
  | cons hfirst _ ih =>
    rcases List.mem_cons.1 hmem with rfl | hmem
    · exact ⟨_, hfirst⟩
    · exact ih hmem

/-- The children of a record that was read are blocks that were read, one level further down. -/
theorem decodeWire_of_mem_children {child : Record} (h : decodeWire version depth wire = .ok q)
    (hmem : child ∈ q.children) :
    ∃ block, IsBlock block ∧
      ∃ below, depth = below + 1 ∧ decodeWire version below block = .ok child := by
  obtain ⟨_, hread, rfl⟩ := decodeWire_eq_ok.1 h
  obtain ⟨typeTag, _, payload, _, header, header', body, -, -, hbody, rfl⟩ :=
    readFields_eq_ok.1 hread
  generalize RecordKind.ofTag version typeTag = kind at hbody
  cases bodyRead_of_readBody hbody with
  | composite base hchildren =>
    obtain ⟨-, blocks, -, hall⟩ := readChildren_childReader.1 hchildren
    exact exists_of_forall₂_of_mem hall hmem
  | _ => simp [ofRead, assemble, Record.children] at hmem

/-- Whatever was read has no zero byte in a string, and lies no deeper than was followed. -/
theorem texts_nesting_of_decodeWire (h : decodeWire version depth wire = .ok q) :
    (∀ s ∈ q.texts, 0 ∉ s) ∧ q.nesting ≤ depth := by
  induction depth using Nat.strong_induction_on generalizing wire q with
  | _ depth ih =>
    obtain ⟨r, hread, rfl⟩ := decodeWire_eq_ok.1 h
    obtain ⟨typeTag, _, payload, _, header, header', body, -, -, hbody, rfl⟩ :=
      readFields_eq_ok.1 hread
    show (∀ s ∈ body.texts, 0 ∉ s) ∧ body.nesting ≤ depth
    generalize RecordKind.ofTag version typeTag = kind at hbody
    cases bodyRead_of_readBody hbody with
    | composite base hchildren =>
      rename_i children
      have hbelow : ∀ child ∈ children, (∀ s ∈ child.texts, 0 ∉ s) ∧ child.nesting < depth := by
        intro child hmem
        obtain ⟨_, -, below, rfl, hchild⟩ := decodeWire_of_mem_children h hmem
        obtain ⟨htexts, hle⟩ := ih below (Nat.lt_succ_self below) hchild
        exact ⟨htexts, Nat.lt_succ_of_le hle⟩
      rw [Body.texts, Body.nesting, forall_mem_textsOfAll, nestingAround_le_iff]
      exact ⟨fun child hmem => (hbelow child hmem).1, fun child hmem => (hbelow child hmem).2⟩
    | text _ hread =>
      obtain ⟨-, -, -, hzero, -⟩ := TextList.read_eq_ok.1 hread
      exact ⟨hzero, Nat.zero_le _⟩
    | _ => exact ⟨by simp [Body.texts], Nat.zero_le _⟩

/-- Only composite records look at the reader of children. -/
theorem readBody_of_readChildren {header header' : Option BodyHeader} {kind : RecordKind}
    {child child' : Option (Bytes → Except RecordError Record)} {body : Body Record}
    (hchild : ∀ base children, body = .composite base children →
      readChildren child left = .ok (children, rest) →
        readChildren child' left = .ok (children, rest))
    (h : readBody version header child kind left = .ok ((header', body), rest)) :
    readBody version header child' kind left = .ok ((header', body), rest) := by
  cases kind
  case composite base =>
    simp only [readBody, bind_eq_ok, pure_eq_ok, Prod.mk.injEq] at h ⊢
    obtain ⟨children, mid, hread, ⟨rfl, rfl⟩, rfl⟩ := h
    exact ⟨children, mid, hchild base children rfl hread, ⟨rfl, rfl⟩, rfl⟩
  all_goals exact h

/-- A record is read the same way with any number of levels to go, if they are enough. -/
theorem decodeWire_of_nesting_le (h : decodeWire version depth wire = .ok q)
    (hle : q.nesting ≤ depth') : decodeWire version depth' wire = .ok q := by
  induction depth using Nat.strong_induction_on generalizing depth' wire q with
  | _ depth ih =>
    obtain ⟨r, hread, rfl⟩ := decodeWire_eq_ok.1 h
    obtain ⟨typeTag, front, payload, extension, header, header', body, hleft, hsection, hbody, rfl⟩ :=
      readFields_eq_ok.1 hread
    refine decodeWire_eq_ok.2 ⟨_, readFields_eq_ok.2 ⟨typeTag, front, payload, extension, header,
      header', body, hleft, hsection, readBody_of_readChildren ?_ hbody, rfl⟩, rfl⟩
    rintro base children rfl hchildren
    have hnesting : ∀ child ∈ children, child.nesting < depth' := nestingAround_le_iff.1 hle
    obtain ⟨-, blocks, hpayload, hall⟩ := readChildren_childReader.1 hchildren
    refine readChildren_childReader.2 ⟨rfl, blocks, hpayload, ?_⟩
    clear hchildren hpayload hbody hread h hle
    induction hall with
    | nil => exact .nil
    | cons hfirst _ ihall =>
      obtain ⟨hblock, below, rfl, hchild⟩ := hfirst
      obtain ⟨hlt, hnesting⟩ := List.forall_mem_cons.1 hnesting
      obtain ⟨below', rfl⟩ := Nat.exists_eq_add_one_of_ne_zero (Nat.ne_of_gt (Nat.zero_lt_of_lt hlt))
      have hreplay := ih below (Nat.lt_succ_self below) hchild (Nat.le_of_lt_succ hlt)
      exact .cons ⟨hblock, below', rfl, hreplay⟩ (ihall hnesting)

/-- A block that was read at one depth is read at another exactly when its records do not
    lie too deep in each other, and then as the same record. -/
theorem decodeWire_replay (h : decodeWire version depth wire = .ok q) :
    decodeWire version depth' wire = .ok p ↔ q.nesting ≤ depth' ∧ p = q := by
  constructor
  · intro h'
    have hnesting := (texts_nesting_of_decodeWire h).2
    have hnesting' := (texts_nesting_of_decodeWire h').2
    -- Both readings agree with one that follows far enough for either.
    have hq := decodeWire_of_nesting_le h (Nat.le_trans hnesting (Nat.le_max_left depth depth'))
    have hp := decodeWire_of_nesting_le h' (Nat.le_trans hnesting' (Nat.le_max_right depth depth'))
    rw [hq] at hp
    cases hp
    exact ⟨hnesting', rfl⟩
  · rintro ⟨hle, rfl⟩
    exact decodeWire_of_nesting_le h hle

end Record

end DaqStream
