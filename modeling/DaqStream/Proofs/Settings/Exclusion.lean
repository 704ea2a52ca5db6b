import DaqStream.Predicate.Basic
import DaqStream.Proofs.Record.Kind
import DaqStream.Proofs.Record.Reachable
import DaqStream.Settings.Basic

/-!
# Excluding a kind by its tag

Settings name a kind by its type tag without saying in which generation: the tag is read as
that of a v11 record (`RecordKind.parse?_tag`). The records of another generation are found by
the tag as long as it means the same there (`RecordKind.ofTag_eq_v11_iff`). The tags that v10
has no meaning for, and those of the composite records of v12, exclude nothing.
-/

namespace DaqStream

namespace Decimal

variable {cs : List Char}

theorem digit?_of_isDigit {c : Char} (h : c.isDigit = true) :
    digit? c = some (c.toNat - '0'.toNat) := by
  have hrange : '0' ≤ c ∧ c ≤ '9' := Char.isDigit_iff_toNat.1 h
  exact if_pos hrange

theorem digitsFrom_of_isDigit (h : ∀ c ∈ cs, c.isDigit = true) (value : Nat) :
    digitsFrom value cs = some (Nat.ofDigitChars 10 cs value) := by
  induction cs generalizing value with
  | nil => rfl
  | cons c cs ih =>
    simp only [digitsFrom, digit?_of_isDigit (h c List.mem_cons_self)]
    rw [ih (fun d hd => h d (List.mem_cons_of_mem c hd)), Nat.ofDigitChars_cons, Nat.mul_comm]

theorem digits?_of_isDigit (h : ∀ c ∈ cs, c.isDigit = true) (hcs : cs ≠ []) :
    digits? cs = some (Nat.ofDigitChars 10 cs 0) := by
  cases cs with
  | nil => exact absurd rfl hcs
  | cons c cs => exact digitsFrom_of_isDigit h 0

theorem isDigit_of_mem_toString {n : Nat} {c : Char} (h : c ∈ (toString n).toList) :
    c.isDigit = true := by
  rw [Nat.toString_eq_ofList_toDigits, String.toList_ofList] at h
  exact Nat.isDigit_of_mem_toDigits (by decide) (by decide) h

/-- A number is read back from its digits. -/
theorem nat?_toString (n : Nat) : nat? (toString n) = some n := by
  have hdigits : ∀ c ∈ (toString n).toList, c.isDigit = true := fun c => isDigit_of_mem_toString
  have htext : (toString n).toList = Nat.toDigits 10 n := by
    rw [Nat.toString_eq_ofList_toDigits, String.toList_ofList]
  unfold nat?
  split
  · rename_i cs hplus
    -- A plus sign is not a digit.
    have hdigit := hdigits '+' (hplus ▸ List.mem_cons_self)
    exact absurd hdigit (by decide)
  · rw [digits?_of_isDigit hdigits (htext ▸ Nat.toDigits_ne_nil), htext,
      Nat.ofDigitChars_ten_toDigits]

theorem natBelow?_toString {bound n : Nat} (h : n < bound) :
    natBelow? bound (toString n) = some n := by
  unfold natBelow?
  rw [nat?_toString]
  simp [h]

end Decimal

namespace Blank

theorem isBlank_of_isDigit {c : Char} (h : c.isDigit = true) : isBlank c = false := by
  have hrange : 48 ≤ c.toNat ∧ c.toNat ≤ 57 := Char.isDigit_iff_toNat.1 h
  -- The digits lie between two of the ranges.
  have hbetween : ∀ r ∈ ranges, r.1 ≤ c.toNat → r.2 < c.toNat := by
    simp [ranges]
    omega
  simpa [isBlank] using hbetween

theorem dropWhile_isBlank {cs : List Char} (h : ∀ c ∈ cs, isBlank c = false) :
    cs.dropWhile isBlank = cs := by
  apply List.dropWhile_eq_self_iff.2
  intro hlength
  simp [h _ (List.getElem_mem hlength)]

/-- A text without white space is kept. -/
theorem trim_of_forall {text : String} (h : ∀ c ∈ text.toList, isBlank c = false) :
    trim text = text := by
  have hreverse : ∀ c ∈ text.toList.reverse, isBlank c = false :=
    fun c hc => h c (List.mem_reverse.1 hc)
  unfold trim trimChars
  rw [dropWhile_isBlank h, dropWhile_isBlank hreverse, List.reverse_reverse, String.ofList_toList]

theorem trim_toString (n : Nat) : trim (toString n) = toString n :=
  trim_of_forall fun _ hc => isBlank_of_isDigit (Decimal.isDigit_of_mem_toString hc)

end Blank

namespace RecordKind

/-- A tag that a user writes is one of v11. -/
theorem parse?_tag (tag : UInt32) : parse? (toString tag.toNat) = some (ofTag .v11 tag) := by
  unfold parse?
  rw [Decimal.natBelow?_toString tag.toNat_lt_size]
  simp

/-- The tags that have the same meaning in a generation as in v11. -/
theorem ofTag_eq_v11_iff {version : FormatVersion} {tag : UInt32} :
    ofTag version tag = ofTag .v11 tag ↔
      (version = .v10 → tag ≠ 5 ∧ tag ≠ 12 ∧ tag ≠ 42) ∧
        (version = .v12 → tag &&& compositeFlag = 0) := by
  cases version with
  | v11 => simp
  | v10 =>
    by_cases hmeaning : tag = 5 ∨ tag = 12 ∨ tag = 42
    · obtain rfl | rfl | rfl := hmeaning <;> decide
    · obtain ⟨h5, h12, h42⟩ : tag ≠ 5 ∧ tag ≠ 12 ∧ tag ≠ 42 := by
        simpa only [not_or] using hmeaning
      simp [ofTag, h5, h12, h42]
  | v12 =>
    by_cases hflag : tag &&& compositeFlag = 0
    · simp [ofTag, hflag]
    · have hne : ofTag .v12 tag ≠ ofTag .v11 tag := by
        have hcomposite : ofTag .v12 tag = .composite (tag &&& ~~~compositeFlag) :=
          if_pos ⟨rfl, hflag⟩
        intro heq
        exact absurd (version_of_ofTag_composite (heq.symm.trans hcomposite)) (by decide)
      simp [hne, hflag]

/-- Kinds of records agree only where their tags do. -/
theorem ofTag_eq_ofTag_iff {version version' : FormatVersion} {tag tag' : UInt32} :
    ofTag version tag = ofTag version' tag' ↔
      tag = tag' ∧ ofTag version tag' = ofTag version' tag' := by
  constructor
  · intro h
    obtain rfl : tag = tag' := by
      rw [← typeTag_ofTag version tag, h, typeTag_ofTag]
    exact ⟨rfl, h⟩
  · rintro ⟨rfl, h⟩
    exact h

end RecordKind

namespace Predicate

variable {ω π : Type} [CustomPredicate ω π] {kinds : List RecordKind} {kind : RecordKind} {w : ω}

theorem judge_exclude_eq_skip_iff :
    ((exclude kinds : Predicate π).judge (.postInput kind) w).1 = .skip ↔ kind ∈ kinds := by
  simp only [judge, afterReading, judgeExcluded]
  by_cases hmem : kind ∈ kinds
  · simp [hmem]
  · simp [hmem]

end Predicate

namespace Settings

variable {ω π : Type} [CustomPredicate ω π] {s : Settings} {tag : UInt32}

theorem excludeKinds_tag (h : s.pipeline.exclude = [toString tag.toNat]) :
    s.excludeKinds = .ok [RecordKind.ofTag .v11 tag] := by
  unfold excludeKinds parseKinds
  rw [h]
  simp only [List.mapM_cons, List.mapM_nil, Blank.trim_toString, RecordKind.parse?_tag]
  rfl

/-- Excluding a tag skips the records that carry it and no others, in each generation where the tag
    means what it means in v11; where it means something else, nothing is skipped. -/
theorem skips_excludedTag_iff {r : Record} (w : ω)
    (hexclude : s.pipeline.exclude = [toString tag.toNat]) (hr : r.Reachable) :
    ∃ kinds, s.excludeKinds = .ok kinds ∧
      (((Predicate.exclude kinds : Predicate π).judge (.postInput r.kind) w).1 = .skip ↔
        r.typeTag = tag ∧ (r.version = .v10 → tag ≠ 5 ∧ tag ≠ 12 ∧ tag ≠ 42) ∧
          (r.version = .v12 → tag &&& RecordKind.compositeFlag = 0)) := by
  refine ⟨_, excludeKinds_tag hexclude, ?_⟩
  have hkind : RecordKind.ofTag r.version r.typeTag = r.kind :=
    (Record.wellFormed_of_reachable hr (.self r)).ofTag_typeTag
  rw [Predicate.judge_exclude_eq_skip_iff, List.mem_singleton, ← hkind,
    RecordKind.ofTag_eq_ofTag_iff, RecordKind.ofTag_eq_v11_iff]

theorem skips_excludedTag_mark :
    let s : Settings := { pipeline := { format := .v12, exclude := ["5"] } }
    s.pipeline.exclude = [toString (5 : UInt32).toNat] ∧ Record.markExample.Reachable ∧
      ∃ kinds, s.excludeKinds = .ok kinds ∧
        ((Predicate.exclude kinds : Predicate Empty).judge
          (.postInput Record.markExample.kind) ()).1 = .skip := by
  intro s
  have hexclude : s.pipeline.exclude = [toString (5 : UInt32).toNat] := rfl
  have hr : Record.markExample.Reachable := by
    have hdecode : Record.decode .v12 Record.markExampleBlock = .ok Record.markExample := by
      with_unfolding_all rfl
    exact .decoded hdecode
  obtain ⟨kinds, hkinds, hskip⟩ := skips_excludedTag_iff (π := Empty) () hexclude hr
  exact ⟨hexclude, hr, kinds, hkinds, hskip.2 (by decide)⟩

/-- The same mark as it is read in v10, where its tag has no meaning. -/
def legacyMarkExample : Record :=
  ⟨.v10, none, [], .unknown 5 [], some [8, 0, 0, 0, 5, 0, 0, 0]⟩

/-- Neither the mark in a v10 stream nor a composite record is found by its tag. -/
theorem proceeds_excludedTag :
    (legacyMarkExample.Reachable ∧ legacyMarkExample.typeTag = 5 ∧
      ∃ kinds, excludeKinds { pipeline := { format := .v10, exclude := ["5"] } } = .ok kinds ∧
        ((Predicate.exclude kinds : Predicate Empty).judge
          (.postInput legacyMarkExample.kind) ()).1 = .proceed) ∧
    (Record.compositeExample.Reachable ∧ Record.compositeExample.typeTag = 32798 ∧
      ∃ kinds, excludeKinds { pipeline := { format := .v12, exclude := ["32798"] } } = .ok kinds ∧
        ((Predicate.exclude kinds : Predicate Empty).judge
          (.postInput Record.compositeExample.kind) ()).1 = .proceed) := by
  have hmark : Record.decode .v10 [8, 0, 0, 0, 5, 0, 0, 0] = .ok legacyMarkExample := by
    with_unfolding_all rfl
  have hcomposite : Record.decode .v12 Record.compositeExampleBlock =
      .ok Record.compositeExample := by
    with_unfolding_all rfl
  refine ⟨⟨.decoded hmark, rfl, [.abnormalEnd], ?_, rfl⟩,
    ⟨.decoded hcomposite, rfl, [.unknown 32798], ?_, rfl⟩⟩
  · exact @excludeKinds_tag _ 5 rfl
  · exact @excludeKinds_tag _ 32798 rfl

end Settings

end DaqStream
