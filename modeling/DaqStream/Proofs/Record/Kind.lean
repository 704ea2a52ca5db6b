import DaqStream.Record.Kind
import Mathlib.Logic.Basic

/-!
# Kinds and their tags

A kind that was read from a tag is written as that tag, whatever the generation: the bit that
marks a composite record is taken off and put on again, and every other tag is kept or named.
-/

namespace DaqStream

namespace RecordKind

theorem getLsbD_compositeFlag : ∀ i < 32,
    compositeFlag.toBitVec.getLsbD i = decide (i = 15) := by
  decide

theorem or_compositeFlag {tag : UInt32} (h : tag &&& compositeFlag ≠ 0) :
    (tag &&& ~~~compositeFlag) ||| compositeFlag = tag := by
  have hbit : tag.toBitVec.getLsbD 15 = true := by
    cases hbit : tag.toBitVec.getLsbD 15 with
    | true => rfl
    | false =>
      refine absurd (UInt32.toBitVec_inj.1 (BitVec.eq_of_getLsbD_eq ?_)) h
      intro i hi
      rw [UInt32.toBitVec_and, BitVec.getLsbD_and, getLsbD_compositeFlag i hi]
      by_cases hflag : i = 15
      · subst hflag
        rw [hbit]
        rfl
      · simp [hflag]
  apply UInt32.toBitVec_inj.1
  apply BitVec.eq_of_getLsbD_eq
  intro i hi
  rw [UInt32.toBitVec_or, UInt32.toBitVec_and, UInt32.toBitVec_not, BitVec.getLsbD_or,
    BitVec.getLsbD_and, BitVec.getLsbD_not, getLsbD_compositeFlag i hi]
  by_cases hflag : i = 15
  · subst hflag
    rw [hbit]
    simp
  · simp [hflag, hi]

/-- A tag with a meaning is the tag of that meaning. -/
theorem typeTag_ofTag (version : FormatVersion) (tag : UInt32) :
    (ofTag version tag).typeTag = tag := by
  have hite {c : Prop} [Decidable c] {kind kind' : RecordKind} (h : c → kind.typeTag = tag)
      (h' : kind'.typeTag = tag) : (if c then kind else kind').typeTag = tag := by
    split
    · rename_i hc
      exact h hc
    · exact h'
  unfold ofTag
  refine hite (fun h => or_compositeFlag h.2) ?_
  repeat' apply hite
  all_goals first
    | exact Eq.symm
    | exact fun h => h.1.symm
    | rfl

/-- Every generation has physics events and fragments. -/
theorem ofTag_physicsEvent (version : FormatVersion) :
    ofTag version physicsEvent.typeTag = .physicsEvent := by
  cases version <;> decide

theorem ofTag_fragment (version : FormatVersion) : ofTag version fragment.typeTag = .fragment := by
  cases version <;> decide

theorem isStateChange_iff {kind : RecordKind} : kind.isStateChange = true ↔
    kind = .beginRun ∨ kind = .endRun ∨ kind = .pauseRun ∨ kind = .resumeRun := by
  cases kind <;> simp [isStateChange]

theorem barrierType_eq (kind : RecordKind) :
    kind.barrierType =
      if kind = .beginRun ∨ kind = .endRun ∨ kind = .pauseRun ∨ kind = .resumeRun then
        kind.typeTag
      else 0 := by
  simp only [barrierType, isStateChange_iff]

theorem isText_iff {kind : RecordKind} :
    kind.isText = true ↔ kind = .packetTypes ∨ kind = .monitoredVariables := by
  cases kind <;> simp [isText]

theorem family_eq_abnormalEnd {kind : RecordKind} :
    kind.family = .abnormalEnd ↔ kind = .abnormalEnd := by
  cases kind <;> simp [family]

/-- Only the last generation has composite records. -/
theorem version_of_ofTag_composite {version : FormatVersion} {tag base : UInt32}
    (h : ofTag version tag = .composite base) : version = .v12 := by
  have hite {c : Prop} [Decidable c] {kind kind' : RecordKind} (h : kind ≠ .composite base)
      (h' : kind' ≠ .composite base) : (if c then kind else kind') ≠ .composite base := by
    split
    · exact h
    · exact h'
  by_cases hversion : version = .v12
  · exact hversion
  · refine absurd h ?_
    unfold ofTag
    rw [if_neg fun hflag => hversion hflag.1]
    repeat' apply hite
    all_goals exact nofun

end RecordKind

end DaqStream
