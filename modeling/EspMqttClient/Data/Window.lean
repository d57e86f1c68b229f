/-
  A queue that is sent from its front, over and over, and is answered in the order in which it was sent.

  Some of the entries wait for an answer, and an answer takes the first one of these out of the queue, if it
  names it.  Every sending is answered once, in order, so what is named either is the first one that waits
  (`Lined.first`) or was taken out already, by the answer to an earlier sending.  So no entry is in the queue
  whose sending was answered (`Settled`), and those in front of the cursor, which were all sent, are still to be
  answered (`Lined.owed`).
-/
import Mathlib.Data.List.Basic
import Mathlib.Data.List.Nodup
import Mathlib.Data.List.Infix

/-- An entry of a queue: its number, whether it waits for an answer, and what the answer calls it. -/
structure Entry (ι : Type*) where
  key : ℕ
  waits : Bool
  id : ι

namespace Entry

variable {ι : Type*} {now now' : ℕ} {a s : Entry ι} {passed pending passed' pending' sent l l' : List (Entry ι)}

/-- The entries in front of the cursor and from there on, and the ones that wait and were sent since the start,
in this order. -/
structure Lined (now : ℕ) (passed pending sent : List (Entry ι)) : Prop where
  key_lt : ∀ a ∈ passed ++ pending, a.key < now
  sent_lt : ∀ s ∈ sent, s.key < now
  nodup : ((passed ++ pending).map (·.key)).Nodup
  same : ∀ s ∈ sent, ∀ a ∈ passed ++ pending, a.key = s.key → a = s
  passed_sent : ∀ a ∈ passed, a.waits → a ∈ sent
  /-- Where one was sent, those that wait in front of it were sent before. -/
  turn : (passed ++ pending).Pairwise fun a b => a.waits → ∀ earlier, earlier ++ [b] <+: sent → a ∈ earlier

/-- No entry is in the queue that was sent with one of the first `answers` sendings. -/
def Settled (sent : List (Entry ι)) (answers : ℕ) (l : List (Entry ι)) : Prop :=
  ∀ s ∈ sent.take answers, ∀ a ∈ l, a.key ≠ s.key

theorem lined_nil : Lined now ([] : List (Entry ι)) [] [] :=
  ⟨by simp, by simp, by simp, by simp, by simp, by simp⟩

theorem settled_zero (sent l : List (Entry ι)) : Settled sent 0 l := fun s h => by simp at h

namespace Lined

theorem mono (h : Lined now passed pending sent) (hle : now ≤ now') : Lined now' passed pending sent :=
  { h with
    key_lt := fun a ha => Nat.lt_of_lt_of_le (h.key_lt a ha) hle
    sent_lt := fun s hs => Nat.lt_of_lt_of_le (h.sent_lt s hs) hle }

/-- Entries are taken out, or the cursor goes back. -/
theorem sublist (h : Lined now passed pending sent) (hsub : (passed' ++ pending').Sublist (passed ++ pending))
    (hpassed : passed' ⊆ passed) : Lined now passed' pending' sent where
  key_lt a ha := h.key_lt a (hsub.subset ha)
  sent_lt := h.sent_lt
  nodup := h.nodup.sublist (hsub.map _)
  same s hs a ha := h.same s hs a (hsub.subset ha)
  passed_sent a ha := h.passed_sent a (hpassed ha)
  turn := h.turn.sublist hsub

/-- A new entry goes to the back. -/
theorem push (h : Lined now passed pending sent) (ha : a.key = now) :
    Lined (now + 1) passed (pending ++ [a]) sent := by
  have hnew : ∀ s ∈ sent, s ≠ a := by
    rintro s hs rfl
    have hlt := h.sent_lt s hs
    omega
  have hmem : ∀ b ∈ passed ++ (pending ++ [a]), b ∈ passed ++ pending ∨ b = a := by
    intro b hb
    rwa [← List.append_assoc, List.mem_append, List.mem_singleton] at hb
  refine ⟨fun b hb => ?_, fun s hs => Nat.lt_succ_of_lt (h.sent_lt s hs), ?_, fun s hs b hb hkey => ?_,
    h.passed_sent, ?_⟩
  · rcases hmem b hb with hb | rfl
    · exact Nat.lt_succ_of_lt (h.key_lt b hb)
    · exact Nat.lt_succ_of_le ha.le
  · rw [← List.append_assoc, List.map_append]
    refine List.Nodup.append h.nodup (List.nodup_singleton _) ?_
    rw [List.map_singleton, List.disjoint_singleton]
    intro hmem
    obtain ⟨b, hb, hkey⟩ := List.mem_map.mp hmem
    have hlt := h.key_lt b hb
    omega
  · rcases hmem b hb with hb | rfl
    · exact h.same s hs b hb hkey
    · have hlt := h.sent_lt s hs
      omega
  · rw [← List.append_assoc, List.pairwise_append]
    refine ⟨h.turn, List.pairwise_singleton _ _, fun b _ c hc _ earlier hprefix => ?_⟩
    have hsent : c ∈ sent := hprefix.subset (List.mem_append_right _ (List.mem_singleton_self c))
    exact absurd (List.mem_singleton.mp hc) (hnew c hsent)

/-- Everything starts anew, with a new entry in front. -/
theorem start (h : Lined now passed pending sent) (ha : a.key = now) :
    Lined (now + 1) [] (a :: (passed ++ pending)) [] := by
  refine ⟨fun b hb => ?_, by simp, ?_, by simp, by simp, ?_⟩
  · rcases List.mem_cons.mp hb with rfl | hb
    · exact Nat.lt_succ_of_le ha.le
    · exact Nat.lt_succ_of_lt (h.key_lt b hb)
  · rw [List.nil_append, List.map_cons, List.nodup_cons]
    refine ⟨fun hmem => ?_, h.nodup⟩
    obtain ⟨b, hb, hkey⟩ := List.mem_map.mp hmem
    have hlt := h.key_lt b hb
    omega
  · refine List.pairwise_of_forall fun b c _ earlier hprefix => ?_
    simp at hprefix

/-- The entry under the cursor was sent, and stays. -/
theorem pass (h : Lined now passed (a :: pending) sent) (hwaits : a.waits) :
    Lined now (passed ++ [a]) pending (sent ++ [a]) := by
  have heq : passed ++ [a] ++ pending = passed ++ a :: pending := by simp
  have hmem : a ∈ passed ++ a :: pending := by simp
  have hnodup := h.nodup
  rw [List.map_append, List.map_cons, List.nodup_append] at hnodup
  obtain ⟨-, hpending, hdisjoint⟩ := hnodup
  have hfront : ∀ b ∈ passed, b ≠ a := by
    rintro b hb rfl
    exact hdisjoint b.key (List.mem_map_of_mem hb) b.key List.mem_cons_self rfl
  have hback : ∀ b ∈ pending, b ≠ a := by
    rintro b hb rfl
    exact (List.nodup_cons.mp hpending).1 (List.mem_map_of_mem hb)
  -- where it is not the new one that was sent, nothing changed
  have hold : ∀ {b c : Entry ι}, c ≠ a → (b.waits → ∀ earlier, earlier ++ [c] <+: sent → b ∈ earlier) →
      b.waits → ∀ earlier, earlier ++ [c] <+: sent ++ [a] → b ∈ earlier := by
    intro b c hne hturn hb earlier hprefix
    rcases List.prefix_concat_iff.mp hprefix with hlast | hprefix
    · exact absurd (List.singleton_inj.mp (List.append_inj' hlast rfl).2) hne
    · exact hturn hb earlier hprefix
  have hturn := h.turn
  rw [List.pairwise_append, List.pairwise_cons] at hturn
  obtain ⟨hin, ⟨hcurrent, hbehind⟩, hcross⟩ := hturn
  refine ⟨heq ▸ h.key_lt, fun s hs => ?_, heq ▸ h.nodup, fun s hs b hb hkey => ?_, fun b hb hwaits => ?_, ?_⟩
  · rcases List.mem_append.mp hs with hs | hs
    · exact h.sent_lt s hs
    · rw [List.mem_singleton.mp hs]
      exact h.key_lt a hmem
  · rw [heq] at hb
    rcases List.mem_append.mp hs with hs | hs
    · exact h.same s hs b hb hkey
    · rw [List.mem_singleton.mp hs] at hkey ⊢
      exact List.inj_on_of_nodup_map h.nodup hb hmem hkey
  · rw [List.mem_append, List.mem_singleton] at hb ⊢
    exact hb.imp_left fun hb => h.passed_sent b hb hwaits
  · rw [heq, List.pairwise_append, List.pairwise_cons]
    refine ⟨hin.imp_of_mem fun _ hc => hold (hfront _ hc), ⟨fun c hc => hold (hback c hc) (hcurrent c hc),
      hbehind.imp_of_mem fun _ hc => hold (hback _ hc)⟩, fun b hb c hc hwaits earlier hprefix => ?_⟩
    rcases List.prefix_concat_iff.mp hprefix with hlast | hprefix
    · rw [(List.append_inj' hlast rfl).1]
      exact h.passed_sent b hb hwaits
    · exact hcross b hb c hc hwaits earlier hprefix

/-- The entry under the cursor was sent, and does not wait. -/
theorem skip (h : Lined now passed (a :: pending) sent) (hwaits : a.waits = false) :
    Lined now (passed ++ [a]) pending sent := by
  have heq : passed ++ [a] ++ pending = passed ++ a :: pending := by simp
  refine ⟨heq ▸ h.key_lt, h.sent_lt, heq ▸ h.nodup, heq ▸ h.same, fun b hb hb' => ?_, heq ▸ h.turn⟩
  rcases List.mem_append.mp hb with hb | hb
  · exact h.passed_sent b hb hb'
  · rw [List.mem_singleton.mp hb, hwaits] at hb'
    cases hb'

/-! ### Answers -/

/-- The next answer in order names the first entry that waits, unless that is not in the queue any more. -/
theorem first (h : Lined now passed pending sent) {answers : ℕ}
    (hsettled : Settled sent answers (passed ++ pending)) (hs : sent[answers]? = some s)
    (hmem : s ∈ passed ++ pending) :
    ∃ before behind, passed ++ pending = before ++ s :: behind ∧ (∀ b ∈ before, b.waits = false) ∧
      ∀ b ∈ before ++ behind, b.key ≠ s.key := by
  obtain ⟨before, behind, heq⟩ := List.append_of_mem hmem
  obtain ⟨hlt, hget⟩ := List.getElem?_eq_some_iff.mp hs
  have hprefix : sent.take answers ++ [s] <+: sent := by
    rw [← hget, List.take_append_getElem hlt]
    exact List.take_prefix _ _
  refine ⟨before, behind, heq, fun b hb => ?_, fun b hb hkey => ?_⟩
  · have hturn := h.turn
    rw [heq, List.pairwise_append] at hturn
    cases hwaits : b.waits with
    | false => rfl
    | true =>
      have hearlier := hturn.2.2 b hb s List.mem_cons_self hwaits _ hprefix
      exact absurd rfl (hsettled b hearlier b (heq ▸ List.mem_append_left _ hb))
  · have hnodup := h.nodup
    rw [heq, (List.perm_middle.map _).nodup_iff, List.map_cons, List.nodup_cons] at hnodup
    exact hnodup.1 (hkey ▸ List.mem_map_of_mem hb)

/-- An entry in front of the cursor that waits was not answered. -/
theorem owed (h : Lined now passed pending sent) {answers : ℕ}
    (hsettled : Settled sent answers (passed ++ pending)) (hmem : a ∈ passed)
    (hwaits : a.waits) : a ∈ sent.drop answers := by
  have hsent := h.passed_sent a hmem hwaits
  rw [← List.take_append_drop answers sent, List.mem_append] at hsent
  exact hsent.resolve_left fun htake => hsettled a htake a (List.mem_append_left _ hmem) rfl

end Lined

/-- More is sent, entries are taken out and new ones are added. -/
theorem Settled.later {answers : ℕ} (h : Settled sent answers l) {sent' : List (Entry ι)}
    (hsent : sent <+: sent') (hle : answers ≤ sent.length) (hlt : ∀ s ∈ sent, s.key < now)
    (hl : ∀ a ∈ l', (∃ b ∈ l, b.key = a.key) ∨ now ≤ a.key) : Settled sent' answers l' := by
  intro s hs a ha hkey
  obtain ⟨rest, rfl⟩ := hsent
  rw [List.take_append_of_le_length hle] at hs
  rcases hl a ha with ⟨b, hb, hb'⟩ | hle
  · exact h s hs b hb (hb'.trans hkey)
  · have hs := hlt s (List.mem_of_mem_take hs)
    omega

/-- What is named by the next answer is not in the queue afterwards. -/
theorem Settled.answer {answers : ℕ} (h : Settled sent answers l) (hs : sent[answers]? = some s)
    (hl : ∀ a ∈ l, a.key ≠ s.key) : Settled sent (answers + 1) l := by
  intro s' hs' a ha
  rw [List.take_add_one, hs, List.mem_append] at hs'
  rcases hs' with hs' | hs'
  · exact h s' hs' a ha
  · rw [← Option.some_inj.mp (Option.mem_toList.mp hs')]
    exact hl a ha

end Entry
