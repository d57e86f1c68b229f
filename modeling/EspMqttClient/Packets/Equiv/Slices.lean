/-
  The slices of a PUBLISH.

  However a PUBLISH is cut, its slices come one after the other, the last one is the one that
  completes the packet (`exists_last_of_merge`, `endsWith_merge`), and at one before it index and length do not
  add up to the total (`parseInput_incomplete`).
-/
import EspMqttClient.Packets.Equiv.RoundTrip
import Mathlib.Data.List.Forall2

namespace EspMqttClient

namespace Parser

variable {cfg : Config}

/-! ### One after the other -/

/-- Of the slices that merge to one result the last one is complete if the result is, and the others are not. -/
theorem exists_last_of_merge {rs : List Result} {r : Result} (h : merge rs = [r]) :
    ∃ init last, rs = init ++ [last] ∧ (∀ s ∈ init, s.complete = false) ∧ last.complete = r.complete := by
  induction rs generalizing r with
  | nil => simp [merge] at h
  | cons s rs ih =>
    rw [merge, slices.coalesce_cons] at h
    cases hrs : slices.coalesce rs with
    | nil =>
      obtain rfl := merge_eq_nil hrs
      obtain rfl : s = r := by simpa [hrs, Adjoining.glue] using h
      exact ⟨[], s, rfl, fun _ hmem => absurd hmem List.not_mem_nil, rfl⟩
    | cons t ts =>
      rw [hrs, Adjoining.glue] at h
      split_ifs at h with hnext
      · obtain ⟨rfl, rfl⟩ := List.cons_eq_cons.mp h
        obtain ⟨init, last, rfl, hinit, hlast⟩ := ih hrs
        obtain ⟨hs, -⟩ := Result.continuedBy_iff.mp hnext
        refine ⟨s :: init, last, rfl, ?_, hlast⟩
        rw [List.forall_mem_cons]
        exact ⟨hs, hinit⟩
      · simp at h

/-- A complete result is not continued. -/
theorem merge_cons_of_complete {r : Result} (h : r.complete) (rs : List Result) :
    merge (r :: rs) = r :: merge rs := by
  have hnext : ∀ s, r.continuedBy s = false := by
    intro s
    rw [Bool.eq_false_iff, Ne, Result.continuedBy_iff, h]
    exact fun hs => Bool.noConfusion hs.1
  rw [merge, slices.coalesce_cons]
  show slices.glue r (merge rs) = _
  cases merge rs with
  | nil => rfl
  | cons s ss =>
    rw [Adjoining.glue, if_neg]
    rw [show slices.next r s = false from hnext s]
    exact Bool.false_ne_true

/-- A tile ends where the payload does. -/
theorem Tile.last {index : ℕ} {init : List Result} {last : Result} {payload : List Byte}
    (h : Tile index (init ++ [last]) payload) :
    last.report.index + last.report.payload.length = index + payload.length := by
  induction init generalizing index payload with
  | nil =>
    obtain ⟨hindex, rest, rfl, hrest⟩ := h
    obtain rfl : rest = [] := hrest
    rw [hindex, List.append_nil]
  | cons s init ih =>
    obtain ⟨hindex, rest, rfl, hrest⟩ := h
    rw [ih hrest, List.length_append, Nat.add_assoc]

/-- What comes in last of what was cut. -/
structure Result.EndsWith (r s : Result) : Prop where
  report : s.report = { r.report with index := s.report.index, payload := s.report.payload }
  index_le : r.report.index ≤ s.report.index
  index_sub_le : s.report.index - r.report.index ≤ r.report.payload.length
  payload : s.report.payload = r.report.payload.drop (s.report.index - r.report.index)

theorem Result.EndsWith.refl (r : Result) : r.EndsWith r :=
  ⟨rfl, le_rfl, by omega, by rw [Nat.sub_self, List.drop_zero]⟩

/-- A slice in front does not change how a PUBLISH ends. -/
theorem Result.EndsWith.join {r s t : Result} (hnext : r.continuedBy s) (h : s.EndsWith t) :
    (r.join s).EndsWith t := by
  obtain ⟨-, hreport, -, hindex⟩ := Result.continuedBy_iff.mp hnext
  have hle := h.index_le
  have hsub := h.index_sub_le
  have hsplit : t.report.index - r.report.index =
      r.report.payload.length + (t.report.index - s.report.index) := by omega
  refine ⟨?_, ?_, ?_, ?_⟩
  · rw [h.report, hreport]
    rfl
  · show r.report.index ≤ t.report.index
    omega
  · show t.report.index - r.report.index ≤ (r.report.payload ++ s.report.payload).length
    rw [List.length_append]
    omega
  · show t.report.payload = (r.report.payload ++ s.report.payload).drop (t.report.index - r.report.index)
    rw [h.payload, hsplit, List.drop_length_add_append]

/-- **Every packet that comes to its end does so in one result**, the last of its slices. -/
theorem endsWith_merge (rs : List Result) :
    List.Forall₂ Result.EndsWith ((merge rs).filter (·.complete)) (rs.filter (·.complete)) := by
  induction rs with
  | nil => exact .nil
  | cons r rs ih =>
    have hadd : List.Forall₂ Result.EndsWith ((r :: merge rs).filter (·.complete))
        ((r :: rs).filter (·.complete)) := by
      rw [List.filter_cons, List.filter_cons]
      split_ifs
      · exact .cons (.refl r) ih
      · exact ih
    rw [merge, slices.coalesce_cons]
    cases hrs : slices.coalesce rs with
    | nil =>
      rw [merge, hrs] at hadd
      exact hadd
    | cons s ss =>
      rw [merge, hrs] at hadd ih
      rw [Adjoining.glue]
      split_ifs with hnext
      · -- the two are one, and the last slice is that of the second
        have hr : r.complete = false := (Result.continuedBy_iff.mp hnext).1
        have hjoin : (slices.join r s).complete = s.complete := rfl
        have hrest : (r :: rs).filter (·.complete) = rs.filter (·.complete) :=
          List.filter_cons_of_neg (by rw [hr]; exact Bool.false_ne_true)
        rw [hrest, List.filter_cons, hjoin]
        rw [List.filter_cons] at ih
        split_ifs at ih ⊢
        · obtain ⟨t, ts, ht, hts, heq⟩ := List.forall₂_cons_left_iff.mp ih
          rw [heq]
          exact .cons (ht.join hnext) hts
        · exact ih
      · exact hadd

/-! ### One call -/

/-- The state functions that return packets. -/
theorem parse_of_packet {p : Parser cfg} {byte : Byte} {rest : List Byte} (h : (p.call byte rest).1 = .packet) :
    p.parse = .remainingLengthNone ∨ p.parse = .varHeaderConnack2 ∨ p.parse = .varHeaderPacketId2 ∨
      p.parse = .varHeaderTopic ∨ p.parse = .payloadSuback ∨ p.parse = .payloadPublish := by
  cases hp : p.parse
  case fixedHeader =>
    simp only [Parser.call, hp, fixedHeader] at h
    split_ifs at h
  case remainingLengthFixed =>
    simp only [Parser.call, hp, remainingLengthFixed] at h
    split_ifs at h
  case remainingLengthVariable =>
    simp only [Parser.call, hp, remainingLengthVariable] at h
    split_ifs at h
  case varHeaderTopicLength2 =>
    simp only [Parser.call, hp, varHeaderTopicLength2] at h
    split_ifs at h
  case varHeaderConnack1 =>
    simp only [Parser.call, hp, varHeaderConnack1] at h
    split_ifs at h
  case varHeaderPacketId1 =>
    simp only [Parser.call, hp, varHeaderPacketId1] at h
    cases h
  case varHeaderTopicLength1 =>
    simp only [Parser.call, hp, varHeaderTopicLength1] at h
    cases h
  all_goals simp

/-- A state function that returns a packet and is not back at the start of one returned a slice, and waits
for the next one. -/
theorem parse_of_incomplete {p q : Parser cfg} {byte : Byte} {rest : List Byte} {n : ℕ}
    (h : p.call byte rest = (.packet, n, q)) (hq : q.parse ≠ .fixedHeader) :
    p.parse = .payloadPublish ∧ q.parse = .payloadPublish := by
  have hp : p.parse = .payloadPublish := by
    have hpacket : (p.call byte rest).1 = .packet := by rw [h]
    obtain rfl : (p.call byte rest).2.2 = q := by rw [h]
    rcases parse_of_packet hpacket with hp | hp | hp | hp | hp | hp
    case inr.inr.inr.inr.inr => exact hp
    all_goals
      refine absurd ?_ hq
      simp only [Parser.call, hp, remainingLengthNone, varHeaderConnack2, varHeaderPacketId2, varHeaderTopic,
        payloadSuback] at hpacket ⊢
      split_ifs at hpacket ⊢ <;> rfl
  rw [call_payloadPublish hp] at h
  obtain rfl := (Prod.mk.inj (Prod.mk.inj h).2).2
  rw [afterSlice] at hq ⊢
  dsimp only at hq ⊢
  split_ifs at hq ⊢
  · exact absurd rfl hq
  · exact ⟨hp, rfl⟩

/-- There is more of the payload to come then. -/
theorem call_incomplete {p q : Parser cfg} {byte : Byte} {rest : List Byte} {n : ℕ}
    (h : p.call byte rest = (.packet, n, q)) (hq : q.parse ≠ .fixedHeader) :
    q.packet.payload.index + q.packet.payload.length ≠ q.packet.payload.total := by
  rw [call_payloadPublish (parse_of_incomplete h hq).1] at h
  obtain rfl := (Prod.mk.inj (Prod.mk.inj h).2).2
  rw [afterSlice] at hq ⊢
  dsimp only at hq ⊢
  split_ifs at hq with hend
  · exact absurd rfl hq
  · exact hend

/-- A packet that `parse` returns was returned by a state function. -/
theorem exists_call_of_packet {p q : Parser cfg} {input : List Byte} {n : ℕ}
    (h : p.parseInput input = (.packet, n, q)) :
    ∃ (p' : Parser cfg) (byte : Byte) (rest : List Byte) (m : ℕ), p'.call byte rest = (.packet, m, q) := by
  induction input generalizing p n with
  | nil => cases h
  | cons byte rest ih =>
    rw [Parser.parseInput] at h
    generalize hcall : p.call byte rest = c at h
    obtain ⟨result, m, p'⟩ := c
    cases result with
    | awaitData =>
      dsimp only at h
      generalize hrest : p'.parseInput rest = d at h
      obtain ⟨result', m', p''⟩ := d
      obtain ⟨rfl, -, rfl⟩ : result' = .packet ∧ _ ∧ p'' = q := by simpa using h
      exact ih hrest
    | packet =>
      obtain ⟨-, rfl⟩ : _ ∧ p' = q := by simpa using h
      exact ⟨p, byte, rest, m, hcall⟩
    | protocolError => cases h

theorem parseInput_incomplete {p q : Parser cfg} {input : List Byte} {n : ℕ}
    (h : p.parseInput input = (.packet, n, q)) (hparse : q.parse ≠ .fixedHeader) :
    q.packet.payload.index + q.packet.payload.length ≠ q.packet.payload.total := by
  obtain ⟨p', byte, rest, m, hcall⟩ := exists_call_of_packet h
  exact call_incomplete hcall hparse

/-! ### A call in a walk -/

/-- When all the bytes there are were read without a result, a walk over them is idle. -/
theorem walk_of_awaitData {p q : Parser cfg} (h : p.Ok) {input : List Byte} {n : ℕ}
    (hparse : p.parseInput input = (.awaitData, n, q)) (start : ℕ) :
    n = input.length ∧ walk start 0 p input = .idle (start + n) q := by
  refine ⟨?_, by rw [walk_parseInput h, hparse]⟩
  cases input with
  | nil => exact (Prod.mk.inj (Prod.mk.inj hparse).2).1.symm
  | cons byte rest =>
    obtain ⟨-, -, -, hall⟩ := h.parseInput byte rest
    rw [hparse] at hall
    exact hall rfl

/-- A walk over the slice that a call took. -/
theorem walk_of_slice {p q : Parser cfg} (h : p.Ok) (hp : p.parse = .payloadPublish) {byte : Byte}
    {rest : List Byte} {n : ℕ} (hparse : p.parseInput (byte :: rest) = (.packet, n, q)) (start : ℕ) :
    n ≤ (byte :: rest).length ∧ ∃ q' : Parser cfg, q'.Similar q ∧ q'.report = q.report ∧
      walk start 0 p ((byte :: rest).take n) = (Fed.idle (start + n) q').cons (q'.result (start + n)) := by
  have hleft := h.payload hp
  rw [Parser.parseInput, call_payloadPublish hp] at hparse
  obtain ⟨hn, hq⟩ := Prod.mk.inj (Prod.mk.inj hparse).2
  rw [hn] at hq
  have hlength : n ≤ (byte :: rest).length := by
    rw [List.length_cons]
    omega
  have htake : ((byte :: rest).take n).length = n := List.length_take_of_le hlength
  have hne : (byte :: rest).take n ≠ [] := by
    rw [← List.length_pos_iff, htake]
    omega
  refine ⟨hlength, p.afterSlice ((byte :: rest).take n) n, ?_, ?_, ?_⟩
  · rw [← hq]
    exact afterSlice_similar p _ _ n
  · rw [← hq, report_afterSlice, report_afterSlice, List.take_take, Nat.min_self]
  · have hmin : min n (p.packet.payload.total - (p.packet.payload.index + p.packet.payload.length)) = n := by
      omega
    rw [walk_payloadPublish h hp start hne, htake, hmin]
    dsimp only
    rw [List.drop_of_length_le (by rw [htake]), walk]

/-- A walk over the bytes that a call read is that call. -/
theorem walk_of_packet {p q : Parser cfg} (h : p.Ok) {input : List Byte} {n : ℕ}
    (hparse : p.parseInput input = (.packet, n, q)) (start : ℕ) :
    n ≤ input.length ∧ ∃ q' : Parser cfg, q'.Similar q ∧ q'.report = q.report ∧
      walk start 0 p (input.take n) = (Fed.idle (start + n) q').cons (q'.result (start + n)) := by
  induction input generalizing p n start with
  | nil => cases hparse
  | cons byte rest ih =>
    by_cases hp : p.parse = .payloadPublish
    · exact walk_of_slice h hp hparse start
    · -- one byte, whatever is behind it
      have hok := h.call byte []
      rw [Parser.parseInput, call_byte hp] at hparse
      have hwalk := walk_byte h hp start byte
      generalize p.call byte [] = c at hok hparse hwalk
      obtain ⟨result, m, p'⟩ := c
      cases result with
      | awaitData =>
        dsimp only at hok hparse hwalk
        generalize hrest : p'.parseInput rest = d at hparse
        obtain ⟨result', m', p''⟩ := d
        obtain ⟨rfl, rfl, rfl⟩ : result' = .packet ∧ m' + 1 = n ∧ p'' = q := by simpa using hparse
        obtain ⟨hle, q', hsimilar, hreport, hwalk'⟩ := ih hok hrest (start + 1)
        refine ⟨by rw [List.length_cons]; omega, q', hsimilar, hreport, ?_⟩
        rw [List.take_succ_cons, hwalk, hwalk', Nat.add_assoc, Nat.add_comm 1]
      | packet =>
        obtain ⟨rfl, rfl⟩ : 1 = n ∧ p' = q := by simpa using hparse
        refine ⟨by rw [List.length_cons]; omega, p', .refl p', rfl, ?_⟩
        rw [List.take_succ_cons, List.take_zero, hwalk]
        rfl
      | protocolError => cases hparse

/-- A walk over the bytes up to an error. -/
theorem walk_of_error {p q : Parser cfg} (h : p.Ok) {input : List Byte} {n : ℕ}
    (hparse : p.parseInput input = (.protocolError, n, q)) (start : ℕ) :
    n ≤ input.length ∧ walk start 0 p (input.take n) = ⟨[], start + n, true, q⟩ := by
  induction input generalizing p n start with
  | nil => cases hparse
  | cons byte rest ih =>
    have hp : p.parse ≠ .payloadPublish := by
      intro hp
      rw [Parser.parseInput, call_payloadPublish hp] at hparse
      cases hparse
    have hok := h.call byte []
    rw [Parser.parseInput, call_byte hp] at hparse
    have hwalk := walk_byte h hp start byte
    generalize p.call byte [] = c at hok hparse hwalk
    obtain ⟨result, m, p'⟩ := c
    cases result with
    | awaitData =>
      dsimp only at hok hparse hwalk
      generalize hrest : p'.parseInput rest = d at hparse
      obtain ⟨result', m', p''⟩ := d
      obtain ⟨rfl, rfl, rfl⟩ : result' = .protocolError ∧ m' + 1 = n ∧ p'' = q := by simpa using hparse
      obtain ⟨hle, hwalk'⟩ := ih hok hrest (start + 1)
      refine ⟨by rw [List.length_cons]; omega, ?_⟩
      rw [List.take_succ_cons, hwalk, hwalk', Nat.add_assoc, Nat.add_comm 1]
    | packet => cases hparse
    | protocolError =>
      obtain ⟨rfl, rfl⟩ : 1 = n ∧ p' = q := by simpa using hparse
      refine ⟨by rw [List.length_cons]; omega, ?_⟩
      rw [List.take_succ_cons, List.take_zero, hwalk]

/-- A walk goes on with a similar parser. -/
theorem walk_continue {p q : Parser cfg} (h : p.Ok) {done : List Byte} {start : ℕ}
    (herror : (walk start 0 p done).error = false) (hsimilar : (walk start 0 p done).parser.Similar q)
    (bytes : List Byte) :
    let next := walk (walk start 0 p done).consumed 0 q bytes
    (walk start 0 p (done ++ bytes)).Alike
      { next with results := (walk start 0 p done).results ++ next.results } := by
  intro next
  have halike := walk_append bytes _ done le_rfl start h
  rw [Fed.andThen, if_neg (by rw [herror]; exact Bool.false_ne_true)] at halike
  obtain ⟨hresults, hnext⟩ := walk_similar bytes 0 (walk start 0 p done).consumed hsimilar
  refine halike.trans ⟨?_, hnext.consumed, hnext.error, hnext.parser⟩
  dsimp only
  rw [hresults]

end Parser

end EspMqttClient
