import Mathlib.Data.List.Basic
import Mathlib.Data.List.Induction
import DaqStream.Proofs.Run.Barrier

/-!
# Runs of several producers

Each producer begins the run, may pause and resume it, and ends it. How the transitions of
several producers are merged is open, except that each producer's own stay in order. The
barrier keeps no account of single producers; what it needs to know of a merged run is how
many begins and ends it has, and that it starts with a begin and stops with an end
(`WholeRun`).
-/

namespace DaqStream

/-- A list that holds the items of several queues, those of each queue in order. -/
inductive Interleaving {α : Type} : List (List α) → List α → Prop
  | done {queues : List (List α)} : (∀ q ∈ queues, q = []) → Interleaving queues []
  /-- The first item of one of the queues comes next. -/
  | next (before : List (List α)) {after : List (List α)} {x : α} {q merged : List α} :
      Interleaving (before ++ q :: after) merged →
      Interleaving (before ++ (x :: q) :: after) (x :: merged)

namespace Interleaving

variable {α : Type} {queues : List (List α)} {merged : List α} {x : α}

/-- Nothing is lost and nothing is added. -/
theorem perm_flatten (h : Interleaving queues merged) : merged.Perm queues.flatten := by
  induction h with
  | @done queues hempty => rw [List.flatten_eq_nil_iff.2 hempty]
  | @next before after x q merged _ ih =>
    have hfront : (before ++ (x :: q) :: after).flatten.Perm
        (x :: (before ++ q :: after).flatten) := by
      simp only [List.flatten_append, List.flatten_cons, List.cons_append]
      exact List.perm_middle
    exact (ih.cons x).trans hfront.symm

theorem eq_nil_of_nil (h : Interleaving queues []) : ∀ q ∈ queues, q = [] := by
  cases h with
  | done hempty => exact hempty

/-- The first item is the first of its queue. -/
theorem exists_head (h : Interleaving queues merged) (hfirst : merged.head? = some x) :
    ∃ q ∈ queues, q.head? = some x := by
  cases h with
  | done => cases hfirst
  | @next before after y q _ _ => exact ⟨y :: q, by simp, hfirst⟩

/-- The last item is the last of its queue. -/
theorem exists_getLast (h : Interleaving queues merged) (hlast : merged.getLast? = some x) :
    ∃ q ∈ queues, q.getLast? = some x := by
  induction h with
  | done => cases hlast
  | @next before after y q merged hrest ih =>
    cases merged with
    | nil =>
      have hq : q = [] := hrest.eq_nil_of_nil q (by simp)
      exact ⟨y :: q, by simp, hq ▸ hlast⟩
    | cons z merged =>
      obtain ⟨p, hp, hpx⟩ := ih hlast
      -- The queue may be the one from which the first item was taken.
      rw [List.mem_append, List.mem_cons] at hp
      rcases hp with hbefore | rfl | hafter
      · exact ⟨p, by simp [hbefore], hpx⟩
      · refine ⟨y :: p, by simp, ?_⟩
        rw [List.getLast?_cons, hpx]
        rfl
      · exact ⟨p, by simp [hafter], hpx⟩

end Interleaving

/-- What one producer contributes to a run. -/
def ProducerRun (kinds : List RecordKind) : Prop :=
  ∃ middle, (∀ k ∈ middle, k = .pauseRun ∨ k = .resumeRun) ∧
    kinds = .beginRun :: (middle ++ [.endRun])

namespace ProducerRun

variable {kinds : List RecordKind}

theorem isStateChange (h : ProducerRun kinds) : ∀ k ∈ kinds, k.isStateChange = true := by
  obtain ⟨middle, hmiddle, rfl⟩ := h
  intro k hk
  rw [List.mem_cons, List.mem_append, List.mem_singleton] at hk
  rcases hk with rfl | hk | rfl
  · rfl
  · rcases hmiddle k hk with rfl | rfl <;> rfl
  · rfl

theorem count_eq_one (h : ProducerRun kinds) {k : RecordKind}
    (hk : k = .beginRun ∨ k = .endRun) : kinds.count k = 1 := by
  obtain ⟨middle, hmiddle, rfl⟩ := h
  have hnone : middle.count k = 0 := by
    rw [List.count_eq_zero]
    intro hmem
    rcases hmiddle k hmem with rfl | rfl <;> rcases hk with hk | hk <;> cases hk
  rcases hk with rfl | rfl <;> simp [hnone]

theorem head_eq (h : ProducerRun kinds) : kinds.head? = some .beginRun := by
  obtain ⟨middle, -, rfl⟩ := h
  rfl

theorem getLast_eq (h : ProducerRun kinds) : kinds.getLast? = some .endRun := by
  obtain ⟨middle, -, rfl⟩ := h
  rw [← List.cons_append, List.getLast?_concat]

end ProducerRun

/-- The transitions of one run of `n` producers, from the first begin to the last end. -/
structure WholeRun (n : Nat) (merged : List RecordKind) : Prop where
  isStateChange : ∀ k ∈ merged, k.isStateChange = true
  begins : merged.count .beginRun = n
  ends : merged.count .endRun = n
  first : ∀ k, merged.head? = some k → k = .beginRun
  last : ∀ k, merged.getLast? = some k → k = .endRun

theorem Interleaving.wholeRun {producers : List (List RecordKind)} {merged : List RecordKind}
    (h : Interleaving producers merged) (hproducers : ∀ p ∈ producers, ProducerRun p) :
    WholeRun producers.length merged := by
  have hcount {k : RecordKind} (hk : k = .beginRun ∨ k = .endRun) :
      merged.count k = producers.length := by
    have hone : producers.map (List.count k) = producers.map fun _ => 1 :=
      List.map_congr_left fun p hp => (hproducers p hp).count_eq_one hk
    rw [h.perm_flatten.count_eq, List.count_flatten, hone]
    simp
  refine ⟨?_, hcount (.inl rfl), hcount (.inr rfl), ?_, ?_⟩
  · intro k hk
    obtain ⟨p, hp, hkp⟩ := List.mem_flatten.1 (h.perm_flatten.mem_iff.1 hk)
    exact (hproducers p hp).isStateChange k hkp
  · intro k hk
    obtain ⟨p, hp, hfirst⟩ := h.exists_head hk
    rw [(hproducers p hp).head_eq] at hfirst
    exact (Option.some.inj hfirst).symm
  · intro k hk
    obtain ⟨p, hp, hlast⟩ := h.exists_getLast hk
    rw [(hproducers p hp).getLast_eq] at hlast
    exact (Option.some.inj hlast).symm

namespace WholeRun

variable {n : Nat} {front back : List RecordKind} {kind : RecordKind}

/-- Some producer has yet to end the run, as long as anything is missing. -/
theorem count_end_lt (h : WholeRun n (front ++ back)) (hback : back ≠ []) :
    front.count .endRun < n := by
  have hlast : back.getLast hback = .endRun :=
    h.last _ (by rw [List.getLast?_append_of_ne_nil _ hback, List.getLast?_eq_some_getLast hback])
  have hpos : 0 < back.count .endRun :=
    List.count_pos_iff.2 (hlast ▸ List.getLast_mem hback)
  have hends := h.ends
  rw [List.count_append] at hends
  omega

theorem count_begin_lt (h : WholeRun n (front ++ .beginRun :: back)) :
    front.count .beginRun < n := by
  have hbegins := h.begins
  rw [List.count_append, List.count_cons_self] at hbegins
  omega

end WholeRun

namespace RunBarrier

/-- The barrier after a transition was made in place, accepted or not. -/
def offer (b : RunBarrier) (t : RecordKind × UInt32) : RunBarrier :=
  match updateInPlace t.1 t.2 b with
  | .ok () b' => b'
  | .error _ b' => b'

/-- The barrier after several transitions of one run, the first refusal if there is one. -/
def feed (run : UInt32) (b : RunBarrier) (kinds : List RecordKind) :
    Except TransitionError RunBarrier :=
  kinds.foldlM (fun b kind => b.update kind run) b

/-- The barriers for `n` producers, whatever they were offered and however often they were
    reset. -/
inductive Reached (n : Nat) : RunBarrier → Prop
  | new : Reached n (ofRunTransitions n)
  | offer {b : RunBarrier} (t : RecordKind × UInt32) : Reached n b → Reached n (b.offer t)
  | reset {b : RunBarrier} : Reached n b → Reached n b.reset

/-- A barrier for `n` producers just after its construction or a reset. -/
inductive Fresh (n : Nat) : RunBarrier → Prop
  | new : Fresh n (ofRunTransitions n)
  | reset {b : RunBarrier} : Reached n b → Fresh n b.reset

section Feed

variable {n : Nat} {run : UInt32} {b : RunBarrier}

theorem reset_offer (b : RunBarrier) (t : RecordKind × UInt32) : (b.offer t).reset = b.reset := by
  rw [offer, updateInPlace_eq]
  cases h : b.update t.1 t.2 with
  | ok b' => exact reset_of_update h
  | error => rfl

theorem Reached.reset_eq (h : Reached n b) : b.reset = ofRunTransitions n := by
  induction h with
  | new => rfl
  | offer t _ ih => rw [reset_offer, ih]
  | reset _ ih => rw [ih]; rfl

/-- A reset leaves no trace of what went before. -/
theorem Fresh.eq (h : Fresh n b) : b = ofRunTransitions n := by
  cases h with
  | new => rfl
  | reset hreached => exact hreached.reset_eq

theorem feed_concat {b' : RunBarrier} {kinds : List RecordKind} {kind : RecordKind}
    (h : feed run b kinds = .ok b') : feed run b (kinds ++ [kind]) = b'.update kind run := by
  unfold feed at h ⊢
  rw [List.foldlM_append, h]
  exact bind_pure (b'.update kind run)

/-- The barrier follows a run up to any point of it. -/
theorem feed_of_wholeRun (hn : 1 ≤ n) (run : UInt32) (front : List RecordKind) :
    ∀ back, WholeRun n (front ++ back) → front ≠ [] →
      ∃ b, feed run (ofRunTransitions n) front = .ok b ∧ Follows n run front b := by
  -- The transitions are taken one by one from the end of the part that was fed.
  induction front using List.reverseRecOn with
  | nil => exact fun _ _ hfront => absurd rfl hfront
  | append_singleton front kind ih =>
    intro back hwhole _
    have hwhole' : WholeRun n (front ++ kind :: back) := by
      rwa [List.append_assoc, List.singleton_append] at hwhole
    by_cases hfront : front = []
    · subst hfront
      have hkind : kind = .beginRun := hwhole'.first kind rfl
      obtain ⟨b, hb, hfollows⟩ := update_first n run
      rw [Nat.max_eq_left hn] at hfollows
      subst hkind
      exact ⟨b, (feed_concat rfl).trans hb, hfollows⟩
    · obtain ⟨b, hb, hfollows⟩ := ih (kind :: back) hwhole' hfront
      have hopen := hwhole'.count_end_lt (List.cons_ne_nil kind back)
      have hroom : kind = .beginRun → front.count .beginRun < n := by
        rintro rfl
        exact hwhole'.count_begin_lt
      obtain ⟨b', hb', hfollows'⟩ := hfollows.update_next (Nat.ne_of_lt hopen)
        (hwhole'.isStateChange kind (by simp)) hroom
      exact ⟨b', (feed_concat hb).trans hb', hfollows'⟩

/-- A run is complete only as a whole. -/
theorem complete_iff_of_wholeRun {front back : List RecordKind} (h : Follows n run front b)
    (hwhole : WholeRun n (front ++ back)) : b.complete = true ↔ back = [] := by
  rw [h.complete, beq_iff_eq]
  constructor
  · intro hends
    by_contra hback
    exact Nat.ne_of_lt (hwhole.count_end_lt hback) hends
  · rintro rfl
    rw [← hwhole.ends, List.append_nil]

/-- Whatever a complete barrier is offered, nothing changes. -/
theorem foldl_offer_of_complete (h : b.complete = true) (further : List (RecordKind × UInt32)) :
    further.foldl offer b = b := by
  have hoffer (t : RecordKind × UInt32) : b.offer t = b := by
    rw [offer, updateInPlace_of_refused (.extra h)]
  induction further with
  | nil => rfl
  | cons t further ih => rw [List.foldl_cons, hoffer, ih]

/-- However the transitions of `n` producers are merged, the barrier accepts them one by one
    and is complete exactly after the last; then it refuses everything, and nothing that is tried
    in place leaves a trace. -/
theorem feed_interleaving (hn : 1 ≤ n) (run : UInt32) {producers : List (List RecordKind)}
    (hlength : producers.length = n) (hproducers : ∀ p ∈ producers, ProducerRun p)
    {merged : List RecordKind} (hmerged : Interleaving producers merged) (hb : Fresh n b) :
    (∀ front back, front ++ back = merged → front ≠ [] →
      ∃ b', feed run b front = .ok b' ∧ b'.waiting = false ∧ b'.runNumber = some run ∧
        (b'.complete = true ↔ back = [])) ∧
    ∃ last, feed run b merged = .ok last ∧ last.complete = true ∧
      ∀ further : List (RecordKind × UInt32), further.foldl offer last = last ∧
        ∀ kind other, (further.foldl offer last).update kind other =
            .error (.extraTransition kind other) ∧
          updateInPlace kind other (further.foldl offer last) =
            .error (.extraTransition kind other) last := by
  have hwhole : WholeRun n merged := hlength ▸ hmerged.wholeRun hproducers
  rw [hb.eq]
  constructor
  · rintro front back rfl hfront
    obtain ⟨b', hfeed, hfollows⟩ := feed_of_wholeRun hn run front back hwhole hfront
    exact ⟨b', hfeed, hfollows.waiting, hfollows.runNumber,
      complete_iff_of_wholeRun hfollows hwhole⟩
  · have hne : merged ≠ [] := by
      rintro rfl
      have hbegins : 0 = n := hwhole.begins
      omega
    have hall : WholeRun n (merged ++ []) := by rwa [List.append_nil]
    obtain ⟨last, hfeed, hfollows⟩ := feed_of_wholeRun hn run merged [] hall hne
    have hcomplete := (complete_iff_of_wholeRun hfollows hall).2 rfl
    refine ⟨last, hfeed, hcomplete, fun further => ?_⟩
    rw [foldl_offer_of_complete hcomplete further]
    refine ⟨rfl, fun kind other => ⟨update_of_complete hcomplete kind other, ?_⟩⟩
    exact updateInPlace_of_refused (.extra hcomplete)

/-- Two producers, one of which pauses after both have begun. -/
def pausedPair : List (List RecordKind) :=
  [[.beginRun, .pauseRun, .endRun], [.beginRun, .endRun]]

/-- Their transitions as they might arrive. -/
def pausedPairMerged : List RecordKind :=
  [.beginRun, .beginRun, .pauseRun, .endRun, .endRun]

/-- A barrier for two producers that had begun another run. -/
def pausedPairBarrier : RunBarrier := ((ofRunTransitions 2).offer (.beginRun, 6)).reset

theorem feed_interleaving_pausedPair :
    (∀ p ∈ pausedPair, ProducerRun p) ∧ Interleaving pausedPair pausedPairMerged ∧
      Fresh 2 pausedPairBarrier ∧
      (∃ b, feed 7 pausedPairBarrier (pausedPairMerged.take 4) = .ok b ∧ b.complete = false) ∧
      ∃ last, feed 7 pausedPairBarrier pausedPairMerged = .ok last ∧ last.complete = true := by
  have hproducers : ∀ p ∈ pausedPair, ProducerRun p := by
    intro p hp
    rw [pausedPair, List.mem_cons, List.mem_singleton] at hp
    rcases hp with rfl | rfl
    · exact ⟨[.pauseRun], by simp, rfl⟩
    · exact ⟨[], by simp, rfl⟩
  have hdone : Interleaving [[], []] ([] : List RecordKind) := .done (by simp)
  have hmerged : Interleaving pausedPair pausedPairMerged :=
    .next [] (.next [_] (.next [] (.next [] (.next [_] hdone))))
  have hfresh : Fresh 2 pausedPairBarrier := .reset (.offer (.beginRun, 6) .new)
  obtain ⟨hparts, last, hlast, hcomplete, -⟩ :=
    feed_interleaving (by decide) 7 rfl hproducers hmerged hfresh
  obtain ⟨b, hb, -, -, hopen⟩ := hparts (pausedPairMerged.take 4) [.endRun] rfl (by decide)
  exact ⟨hproducers, hmerged, hfresh, ⟨b, hb, by simpa using hopen⟩, last, hlast, hcomplete⟩

end Feed

end RunBarrier

end DaqStream
