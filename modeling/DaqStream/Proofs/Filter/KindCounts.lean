import DaqStream.Proofs.Filter.Grouping
import Mathlib.Algebra.Order.Ring.Nat
import Mathlib.Data.Prod.Lex

/-!
# Tables of counts as histograms

The cells of a table stand in the order of their `key`, which is a linear order. So what is counted
in a cell is found there (`lookup_bump`), and a table is determined by what it counts
(`Histogram.eq`): it does not matter in which order records are counted.
-/

namespace DaqStream

section Order

namespace RecordKind

theorem rank_injective : Function.Injective rank := by
  intro a b h
  cases a <;> cases b <;> simp_all [rank, UInt32.toNat_inj]

theorem le_and_ne_iff {k l : RecordKind} :
    k.le l = true ∧ k ≠ l ↔ toLex k.rank < toLex l.rank := by
  rw [Prod.Lex.toLex_lt_toLex, ← rank_injective.ne_iff, le]
  rcases k.rank with ⟨i, m⟩
  rcases l.rank with ⟨j, n⟩
  simp only [Bool.or_eq_true, Bool.and_eq_true, decide_eq_true_eq, beq_iff_eq, ne_eq,
    Prod.mk.injEq]
  omega

end RecordKind

namespace KindCell

/-- The numbers by which cells are compared, from the left. -/
def key (c : KindCell) : Nat ×ₗ Nat ×ₗ Nat :=
  toLex (c.1.elim 0 (·.toNat + 1), toLex c.2.rank)

theorem key_injective : Function.Injective key := by
  rintro ⟨s, k⟩ ⟨t, l⟩ h
  obtain ⟨hsource, hkind⟩ := Prod.mk.inj (toLex_inj.1 h)
  have hkind : k = l := RecordKind.rank_injective (toLex_inj.1 hkind)
  have hsource : s = t := by
    cases s <;> cases t <;> simp_all [UInt32.toNat_inj]
  rw [hsource, hkind]

theorem before_iff {a b : KindCell} : a.before b = true ↔ a.key < b.key := by
  obtain ⟨s, k⟩ := a
  obtain ⟨t, l⟩ := b
  rw [key, key, Prod.Lex.toLex_lt_toLex, ← RecordKind.le_and_ne_iff]
  cases s <;> cases t <;> simp [before, UInt32.lt_iff_toNat_lt, UInt32.toNat_inj, and_assoc]

end KindCell

end Order

namespace KindCounts

section Bump

variable {cell c : KindCell} {cells : List (KindCell × Nat)} {n : Nat}

theorem bump_cons_self (cell : KindCell) (n : Nat) (cells : List (KindCell × Nat)) :
    bump cell ((cell, n) :: cells) = (cell, n + 1) :: cells := by
  rw [bump, if_pos rfl]

theorem bump_cons_of_lt (h : cell.key < c.key) (n : Nat) (cells : List (KindCell × Nat)) :
    bump cell ((c, n) :: cells) = (cell, 1) :: (c, n) :: cells := by
  rw [bump, if_neg (fun heq => h.ne (congrArg _ heq.symm)), if_pos (KindCell.before_iff.2 h)]

theorem bump_cons_of_gt (h : c.key < cell.key) (n : Nat) (cells : List (KindCell × Nat)) :
    bump cell ((c, n) :: cells) = (c, n) :: bump cell cells := by
  rw [bump, if_neg (fun heq => h.ne (congrArg _ heq)),
    if_neg (fun hbefore => h.asymm (KindCell.before_iff.1 hbefore))]

/-- Counting in a cell takes one of these three ways at the head of the cells. -/
theorem key_cases (cell c : KindCell) : cell = c ∨ cell.key < c.key ∨ c.key < cell.key := by
  rcases lt_trichotomy cell.key c.key with h | h | h
  · exact .inr (.inl h)
  · exact .inl (KindCell.key_injective h)
  · exact .inr (.inr h)

/-- Every cell stands once, in order. -/
def Ordered (cells : List (KindCell × Nat)) : Prop :=
  cells.Pairwise fun a b => a.1.key < b.1.key

theorem forall_mem_bump {p : KindCell → Prop} (hcell : p cell) (h : ∀ a ∈ cells, p a.1) :
    ∀ a ∈ bump cell cells, p a.1 := by
  induction cells with
  | nil => exact List.forall_mem_singleton.2 hcell
  | cons a cells ih =>
    obtain ⟨c, n⟩ := a
    obtain ⟨hhead, htail⟩ := List.forall_mem_cons.1 h
    rcases key_cases cell c with rfl | hlt | hgt
    · rw [bump_cons_self]
      exact List.forall_mem_cons.2 ⟨hcell, htail⟩
    · rw [bump_cons_of_lt hlt]
      exact List.forall_mem_cons.2 ⟨hcell, h⟩
    · rw [bump_cons_of_gt hgt]
      exact List.forall_mem_cons.2 ⟨hhead, ih htail⟩

theorem ordered_bump (cell : KindCell) (h : Ordered cells) : Ordered (bump cell cells) := by
  induction cells with
  | nil => exact List.pairwise_singleton _ _
  | cons a cells ih =>
    obtain ⟨c, n⟩ := a
    obtain ⟨hhead, htail⟩ := List.pairwise_cons.1 h
    rcases key_cases cell c with rfl | hlt | hgt
    · rw [bump_cons_self]
      exact List.pairwise_cons.2 ⟨hhead, htail⟩
    · rw [bump_cons_of_lt hlt]
      refine List.pairwise_cons.2 ⟨List.forall_mem_cons.2 ⟨hlt, fun a ha => ?_⟩, h⟩
      exact hlt.trans (hhead a ha)
    · rw [bump_cons_of_gt hgt]
      exact List.pairwise_cons.2 ⟨forall_mem_bump (p := fun k => c.key < k.key) hgt hhead, ih htail⟩

theorem lookup_eq_none_of_lt (h : ∀ a ∈ cells, cell.key < a.1.key) : cells.lookup cell = none := by
  rw [List.lookup_eq_none_iff]
  intro a ha
  exact bne_iff_ne.2 fun heq => (h a ha).ne (congrArg _ heq)

theorem lookup_cons_of_ne {k : KindCell} (h : k ≠ c) (n : Nat) (cells : List (KindCell × Nat)) :
    ((c, n) :: cells).lookup k = cells.lookup k := by
  rw [List.lookup_cons, beq_eq_false_iff_ne.2 h]

theorem lookup_bump_self (h : Ordered cells) :
    (bump cell cells).lookup cell = some ((cells.lookup cell).getD 0 + 1) := by
  induction cells with
  | nil => exact List.lookup_cons_self
  | cons a cells ih =>
    obtain ⟨c, n⟩ := a
    obtain ⟨hhead, htail⟩ := List.pairwise_cons.1 h
    rcases key_cases cell c with rfl | hlt | hgt
    · rw [bump_cons_self, List.lookup_cons_self, List.lookup_cons_self]
      rfl
    · -- What comes before the head does not stand further on.
      have hnone : ((c, n) :: cells).lookup cell = none :=
        lookup_eq_none_of_lt (List.forall_mem_cons.2 ⟨hlt, fun a ha => hlt.trans (hhead a ha)⟩)
      rw [bump_cons_of_lt hlt, List.lookup_cons_self, hnone]
      rfl
    · have hne : cell ≠ c := fun heq => hgt.ne (congrArg _ heq.symm)
      rw [bump_cons_of_gt hgt, lookup_cons_of_ne hne, lookup_cons_of_ne hne, ih htail]

theorem lookup_bump_of_ne {k : KindCell} (h : k ≠ cell) (cells : List (KindCell × Nat)) :
    (bump cell cells).lookup k = cells.lookup k := by
  induction cells with
  | nil => exact lookup_cons_of_ne h 1 []
  | cons a cells ih =>
    obtain ⟨c, n⟩ := a
    rcases key_cases cell c with rfl | hlt | hgt
    · rw [bump_cons_self, lookup_cons_of_ne h, lookup_cons_of_ne h]
    · rw [bump_cons_of_lt hlt, lookup_cons_of_ne h]
    · rw [bump_cons_of_gt hgt, List.lookup_cons, List.lookup_cons, ih]

theorem sum_bump (cell : KindCell) (cells : List (KindCell × Nat)) :
    ((bump cell cells).map Prod.snd).sum = (cells.map Prod.snd).sum + 1 := by
  induction cells with
  | nil => rfl
  | cons a cells ih =>
    obtain ⟨c, n⟩ := a
    rcases key_cases cell c with rfl | hlt | hgt
    · rw [bump_cons_self, List.map_cons, List.sum_cons, List.map_cons, List.sum_cons]
      omega
    · rw [bump_cons_of_lt hlt, List.map_cons, List.sum_cons, Nat.add_comm]
    · rw [bump_cons_of_gt hgt, List.map_cons, List.sum_cons, List.map_cons, List.sum_cons, ih]
      omega

theorem lookup_of_mem (h : Ordered cells) (hmem : (c, n) ∈ cells) : cells.lookup c = some n := by
  induction cells with
  | nil => cases hmem
  | cons a cells ih =>
    obtain ⟨hhead, htail⟩ := List.pairwise_cons.1 h
    rcases List.mem_cons.1 hmem with rfl | hmem
    · exact List.lookup_cons_self
    · have hne : c ≠ a.1 := fun heq => (hhead _ hmem).ne (congrArg _ heq.symm)
      rw [lookup_cons_of_ne hne, ih htail hmem]

theorem mem_iff_lookup (h : Ordered cells) : (c, n) ∈ cells ↔ cells.lookup c = some n := by
  constructor
  · exact lookup_of_mem h
  · intro hlookup
    obtain ⟨front, back, rfl, -⟩ := List.lookup_eq_some_iff.1 hlookup
    exact List.mem_append_right front List.mem_cons_self

end Bump

section Histogram

variable {t t' : KindCounts} {rs rs' : List Record} {r : Record}

theorem count_add (h : Ordered t.cells) (r : Record) (s : Option UInt32) (k : RecordKind) :
    (t.add r).count s k = t.count s k + if KindCell.ofRecord r = (s, k) then 1 else 0 := by
  rw [count, count, add]
  by_cases hcell : KindCell.ofRecord r = (s, k)
  · rw [if_pos hcell, ← hcell, lookup_bump_self h]
    rfl
  · rw [if_neg hcell, lookup_bump_of_ne (Ne.symm hcell)]
    rfl

theorem total_cons (c : KindCell) (n : Nat) (cells : List (KindCell × Nat)) (k : RecordKind) :
    total ⟨(c, n) :: cells⟩ k = (if c.2 = k then n else 0) + total ⟨cells⟩ k := by
  show (if c.2 = k then n + total ⟨cells⟩ k else total ⟨cells⟩ k) = _
  split
  · rfl
  · rw [Nat.zero_add]

theorem total_bump (cell : KindCell) (cells : List (KindCell × Nat)) (k : RecordKind) :
    total ⟨bump cell cells⟩ k = total ⟨cells⟩ k + if cell.2 = k then 1 else 0 := by
  induction cells with
  | nil => exact (total_cons cell 1 [] k).trans (Nat.add_comm _ _)
  | cons a cells ih =>
    obtain ⟨c, n⟩ := a
    rcases key_cases cell c with rfl | hlt | hgt
    · rw [bump_cons_self, total_cons, total_cons]
      split <;> omega
    · rw [bump_cons_of_lt hlt, total_cons, Nat.add_comm]
    · rw [bump_cons_of_gt hgt, total_cons, total_cons, ih, Nat.add_assoc]

/-- The table after these records, from none. -/
def ofRecords (rs : List Record) : KindCounts := rs.foldl add {}

theorem ofRecords_concat (rs : List Record) (r : Record) :
    ofRecords (rs ++ [r]) = (ofRecords rs).add r := by
  rw [ofRecords, List.foldl_append]
  rfl

/-- The table counts these records: it has one cell for every pair of a source id and a kind that
    occurred, with the number of records of that pair. -/
structure Histogram (t : KindCounts) (rs : List Record) : Prop where
  ordered : Ordered t.cells
  mem_iff (c : KindCell) (n : Nat) : (c, n) ∈ t.cells ↔
    (∃ r ∈ rs, KindCell.ofRecord r = c) ∧ n = t.count c.1 c.2
  count (s : Option UInt32) (k : RecordKind) :
    t.count s k = rs.countP fun r => r.header.map BodyHeader.sourceId = s ∧ r.kind = k
  total (k : RecordKind) : t.total k = rs.countP fun r => r.kind = k
  sum : (t.cells.map Prod.snd).sum = rs.length

theorem histogram_nil : Histogram {} [] where
  ordered := List.Pairwise.nil
  mem_iff c n := by simp
  count s k := rfl
  total k := rfl
  sum := rfl

theorem Histogram.add (h : t.Histogram rs) (r : Record) : (t.add r).Histogram (rs ++ [r]) where
  ordered := ordered_bump _ h.ordered
  mem_iff c n := by
    have hcount := count_add h.ordered r c.1 c.2
    show (c, n) ∈ bump (KindCell.ofRecord r) t.cells ↔ _
    rw [mem_iff_lookup (ordered_bump _ h.ordered)]
    by_cases hcell : KindCell.ofRecord r = c
    · subst hcell
      have hoccurs : ∃ r' ∈ rs ++ [r], KindCell.ofRecord r' = KindCell.ofRecord r :=
        ⟨r, List.mem_append_right rs (List.mem_singleton_self r), rfl⟩
      rw [if_pos rfl] at hcount
      rw [lookup_bump_self h.ordered, hcount, Option.some_inj, and_iff_right hoccurs]
      exact eq_comm
    · have hoccurs : (∃ r' ∈ rs ++ [r], KindCell.ofRecord r' = c) ↔
          ∃ r' ∈ rs, KindCell.ofRecord r' = c := by
        simp [hcell]
      rw [if_neg hcell, Nat.add_zero] at hcount
      rw [lookup_bump_of_ne (Ne.symm hcell), hcount, hoccurs, ← h.mem_iff,
        mem_iff_lookup h.ordered]
  count s k := by
    rw [count_add h.ordered, h.count, List.countP_append, List.countP_singleton]
    simp [KindCell.ofRecord]
  total k := by
    show KindCounts.total ⟨bump (KindCell.ofRecord r) t.cells⟩ k = _
    rw [total_bump, List.countP_append, List.countP_singleton, ← h.total]
    simp only [decide_eq_true_eq]
    rfl
  sum := by
    show ((bump (KindCell.ofRecord r) t.cells).map Prod.snd).sum = _
    rw [sum_bump, h.sum, List.length_append, List.length_singleton]

theorem Histogram.foldl_add (h : t.Histogram rs) (rs' : List Record) :
    (rs'.foldl KindCounts.add t).Histogram (rs ++ rs') := by
  induction rs' generalizing t rs with
  | nil => simpa using h
  | cons r rs' ih => simpa using ih (h.add r)

theorem histogram_ofRecords (rs : List Record) : (ofRecords rs).Histogram rs :=
  histogram_nil.foldl_add rs

theorem Histogram.perm (h : t.Histogram rs) (hperm : rs.Perm rs') : t.Histogram rs' where
  ordered := h.ordered
  mem_iff c n := by simp only [h.mem_iff, hperm.mem_iff]
  count s k := (h.count s k).trans (hperm.countP_eq _)
  total k := (h.total k).trans (hperm.countP_eq _)
  sum := h.sum.trans hperm.length_eq

theorem Ordered.nodup {cells : List (KindCell × Nat)} (h : Ordered cells) : cells.Nodup :=
  h.imp fun hlt heq => hlt.ne (congrArg (fun a => a.1.key) heq)

/-- A table is determined by the records that it counts. -/
theorem Histogram.eq (h : t.Histogram rs) (h' : t'.Histogram rs) : t = t' := by
  have hmem (a : KindCell × Nat) : a ∈ t.cells ↔ a ∈ t'.cells := by
    rw [h.mem_iff, h'.mem_iff, h.count, h'.count]
  have hperm : t.cells.Perm t'.cells :=
    (List.perm_ext_iff_of_nodup h.ordered.nodup h'.ordered.nodup).2 hmem
  have hcells : t.cells = t'.cells :=
    hperm.eq_of_pairwise (fun _ _ _ _ hlt hgt => absurd hgt hlt.asymm) h.ordered h'.ordered
  cases t
  cases t'
  exact congrArg KindCounts.mk hcells

theorem ofRecords_perm (h : rs.Perm rs') : ofRecords rs = ofRecords rs' :=
  ((histogram_ofRecords rs).perm h).eq (histogram_ofRecords rs')

/-- No number in a table is greater than the number of records. -/
theorem Histogram.le_length (h : t.Histogram rs) :
    (∀ a ∈ t.cells, a.2 ≤ rs.length) ∧ ∀ k, t.total k ≤ rs.length := by
  constructor
  · rintro ⟨c, n⟩ hmem
    rw [((h.mem_iff c n).1 hmem).2, h.count]
    exact List.countP_le_length
  · intro k
    rw [h.total]
    exact List.countP_le_length

end Histogram

end KindCounts

namespace Filter

variable {ω χ : Type} [CustomFilter ω χ]

/-- The record that a filter is handed with a request. -/
def Request.record? : Request → Option Record
  | .handle r => some r
  | _ => none

/-- The records that a filter is handed with these requests. -/
def handled (requests : List Request) : List Record := requests.filterMap Request.record?

/-- Until the next start, a counter counts what it is handed. -/
theorem calls_kindCount {requests : List Request} (h : .start ∉ requests) (t : KindCounts) (w : ω) :
    ∃ replies, calls call (kindCount t : Filter χ) requests w =
      (replies, kindCount ((handled requests).foldl KindCounts.add t), w) := by
  induction requests generalizing t with
  | nil => exact ⟨[], rfl⟩
  | cons q qs ih =>
    obtain ⟨hstart, hmore⟩ := not_or.1 (mt List.mem_cons.2 h)
    cases q with
    | start => exact absurd rfl hstart
    | handle r =>
      obtain ⟨replies, hcalls⟩ := ih hmore (t.add r)
      exact ⟨.decided (.ok (.emit r)) :: replies, calls_cons rfl hcalls⟩
    | finish =>
      obtain ⟨replies, hcalls⟩ := ih hmore t
      exact ⟨.done (.ok ()) :: replies, calls_cons rfl hcalls⟩

/-- A counter has counted what it was handed since it was started last. -/
theorem calls_kindCount_of_start {requests : List Request} (h : .start ∉ requests)
    (t : KindCounts) (w : ω) :
    ∃ replies, calls call (kindCount t : Filter χ) (.start :: requests) w =
      (replies, kindCount (.ofRecords (handled requests)), w) := by
  obtain ⟨replies, hcalls⟩ := calls_kindCount (χ := χ) h {} w
  exact ⟨.done (.ok ()) :: replies, calls_cons rfl hcalls⟩

end Filter

end DaqStream
