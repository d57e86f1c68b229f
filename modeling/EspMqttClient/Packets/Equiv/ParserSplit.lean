/-
  Parsing does not depend on how the stream is cut into buffers.

  `walk` is `feedBuffer` one state function at a time, on a whole input.  A walk over `xs ++ ys` is,
  slices put together, a walk over `xs` and then one over `ys` (`walk_append`); so a stream in
  buffers is like the stream in one piece (`feed_walk`), and two ways of cutting it are alike
  (`feed_split`).
-/
import EspMqttClient.Packets.Equiv.ParserCalls

namespace EspMqttClient

namespace Parser

variable {cfg : Config}

/-! ### One state function at a time -/

/-- The state functions called one after the other; `skip` bytes of the input were read already. -/
def walk : ℕ → ℕ → Parser cfg → List Byte → Fed cfg
  | start, _, p, [] => .idle start p
  | start, skip + 1, p, _ :: rest => walk start skip p rest
  | start, 0, p, byte :: rest =>
    match p.call byte rest with
    | (.awaitData, n, p) => walk (start + n) (n - 1) p rest
    | (.packet, n, p) => (walk (start + n) (n - 1) p rest).cons (p.result (start + n))
    | (.protocolError, n, p) => ⟨[], start + n, true, p⟩

theorem walk_skip (start : ℕ) (p : Parser cfg) : ∀ (skip : ℕ) (input : List Byte),
    walk start skip p input = walk start 0 p (input.drop skip)
  | 0, _ => rfl
  | _ + 1, [] => by simp [walk]
  | skip + 1, _ :: rest => walk_skip start p skip rest

/-- A walk is the first call and the walk over what it did not read. -/
theorem walk_cons {p : Parser cfg} (h : p.Ok) (start : ℕ) (byte : Byte) (rest : List Byte) :
    walk start 0 p (byte :: rest) =
      match p.call byte rest with
      | (.awaitData, n, p) => walk (start + n) 0 p ((byte :: rest).drop n)
      | (.packet, n, p) => (walk (start + n) 0 p ((byte :: rest).drop n)).cons (p.result (start + n))
      | (.protocolError, n, p) => ⟨[], start + n, true, p⟩ := by
  obtain ⟨hn, -⟩ := h.call_read byte rest
  obtain ⟨n, hn'⟩ : ∃ n, (p.call byte rest).2.1 = n + 1 := ⟨_, (Nat.sub_add_cancel hn).symm⟩
  rw [walk]
  rcases hc : p.call byte rest with ⟨result, m, p'⟩
  rw [hc] at hn'
  simp only at hn'
  subst hn'
  cases result <;> simp [walk_skip]

/-- A call that does not return `packet` read one byte. -/
theorem call_read_of_ne (p : Parser cfg) (byte : Byte) (rest : List Byte)
    (h : (p.call byte rest).1 ≠ .packet) : (p.call byte rest).2.1 = 1 := by
  by_cases hp : p.parse = .payloadPublish
  · simp [Parser.call, hp] at h
  · rw [call_byte hp]

/-- `parseInput` reads at least one byte of an input, all of it when there is no result. -/
theorem Ok.parseInput : ∀ {p : Parser cfg} (_ : p.Ok) (byte : Byte) (rest : List Byte),
    (p.parseInput (byte :: rest)).2.2.Ok ∧ 1 ≤ (p.parseInput (byte :: rest)).2.1 ∧
      (p.parseInput (byte :: rest)).2.1 ≤ rest.length + 1 ∧
      ((p.parseInput (byte :: rest)).1 = .awaitData →
        (p.parseInput (byte :: rest)).2.1 = rest.length + 1) := by
  intro p h byte rest
  induction rest generalizing p byte with
  | nil =>
    have hok := h.call byte []
    have hread := h.call_read byte []
    rw [Parser.parseInput]
    generalize p.call byte [] = c at *
    obtain ⟨result, n, p'⟩ := c
    cases result <;> simp_all [Parser.parseInput]
  | cons next rest ih =>
    have hok := h.call byte (next :: rest)
    have hread := h.call_read byte (next :: rest)
    rw [Parser.parseInput]
    generalize p.call byte (next :: rest) = c at *
    obtain ⟨result, n, p'⟩ := c
    dsimp only at hok hread ⊢
    cases result with
    | awaitData =>
      obtain ⟨hok', h1, h2, h3⟩ := ih hok next
      dsimp only
      generalize p'.parseInput (next :: rest) = d at *
      obtain ⟨result', m, p''⟩ := d
      dsimp only [List.length_cons] at hok' h1 h2 h3 ⊢
      exact ⟨hok', by omega, by omega, fun hr => by have := h3 hr; omega⟩
    | packet => exact ⟨hok, hread.1, hread.2, by simp⟩
    | protocolError => exact ⟨hok, hread.1, hread.2, by simp⟩

/-- A walk is one `parseInput` and the walk over what it did not read. -/
theorem walk_parseInput : ∀ {p : Parser cfg} (_ : p.Ok) (start : ℕ) (input : List Byte),
    walk start 0 p input =
      match p.parseInput input with
      | (.awaitData, n, p) => .idle (start + n) p
      | (.packet, n, p) => (walk (start + n) 0 p (input.drop n)).cons (p.result (start + n))
      | (.protocolError, n, p) => ⟨[], start + n, true, p⟩ := by
  intro p h start input
  induction input generalizing p start with
  | nil => simp [walk, Parser.parseInput]
  | cons byte rest ih =>
    have hone := call_read_of_ne p byte rest
    have hok := h.call byte rest
    rw [walk_cons h, Parser.parseInput]
    generalize p.call byte rest = c at *
    obtain ⟨result, n, p'⟩ := c
    cases result with
    | awaitData =>
      obtain rfl : n = 1 := hone (by simp)
      simp only [List.drop_succ_cons, List.drop_zero]
      rw [ih hok]
      rcases p'.parseInput rest with ⟨result, m, p''⟩
      cases result <;> simp [Nat.add_comm, Nat.add_left_comm]
    | packet => rfl
    | protocolError => rfl

theorem feedBuffer_eq_walk : ∀ (fuel : ℕ) {p : Parser cfg} (_ : p.Ok) (start : ℕ) (input : List Byte),
    input.length ≤ fuel → feedBuffer fuel start p input = walk start 0 p input := by
  intro fuel
  induction fuel with
  | zero =>
    intro p _ start input hlen
    rw [List.length_eq_zero_iff.mp (Nat.le_zero.mp hlen)]
    rfl
  | succ fuel ih =>
    intro p h start input hlen
    rcases input with _ | ⟨byte, rest⟩
    · rfl
    rw [walk_parseInput h, feedBuffer]
    obtain ⟨hok, h1, -, hawait⟩ := h.parseInput byte rest
    generalize p.parseInput (byte :: rest) = c at *
    obtain ⟨result, n, p'⟩ := c
    dsimp only at hok h1 hawait ⊢
    have hfuel : ((byte :: rest).drop n).length ≤ fuel := by
      simp only [List.length_drop, List.length_cons] at hlen ⊢
      omega
    cases result with
    | awaitData =>
      obtain rfl : n = rest.length + 1 := hawait rfl
      dsimp only
      rw [ih hok _ _ hfuel, List.drop_of_length_le (by simp)]
      rfl
    | packet => exact congrArg (Fed.cons _) (ih hok _ _ hfuel)
    | protocolError => rfl

/-- What a walk leaves: a well-formed parser and, without an error, no unread byte. -/
theorem walk_ok : ∀ (input : List Byte) (skip start : ℕ) {p : Parser cfg} (_ : p.Ok),
    (walk start skip p input).parser.Ok := by
  intro input
  induction input with
  | nil => exact fun _ _ _ h => by simpa [walk, Fed.idle] using h
  | cons byte rest ih =>
    intro skip start p h
    rcases skip with _ | skip
    · have hok := h.call byte rest
      rw [walk]
      generalize p.call byte rest = c at *
      obtain ⟨result, n, p'⟩ := c
      cases result with
      | awaitData => exact ih _ _ hok
      | packet => exact ih _ _ hok
      | protocolError => exact hok
    · exact ih _ _ h

/-! ### Alike -/

/-- Two ways of feeding that come to the same, slices put together. -/
structure Fed.Alike (f g : Fed cfg) : Prop where
  results : merge f.results = merge g.results
  consumed : f.consumed = g.consumed
  error : f.error = g.error
  parser : f.parser.Similar g.parser

namespace Fed

theorem Alike.refl (f : Fed cfg) : f.Alike f := ⟨rfl, rfl, rfl, .refl _⟩

theorem Alike.symm {f g : Fed cfg} (h : f.Alike g) : g.Alike f :=
  ⟨h.results.symm, h.consumed.symm, h.error.symm, h.parser.symm⟩

theorem Alike.trans {f g k : Fed cfg} (h : f.Alike g) (h' : g.Alike k) : f.Alike k :=
  ⟨h.results.trans h'.results, h.consumed.trans h'.consumed, h.error.trans h'.error,
    h.parser.trans h'.parser⟩

theorem Alike.cons {f g : Fed cfg} (h : f.Alike g) (r : Result) : (f.cons r).Alike (g.cons r) :=
  ⟨slices.coalesce_cons_congr h.results r, h.consumed, h.error, h.parser⟩

theorem cons_andThen (f : Fed cfg) (r : Result) (next : ℕ → Parser cfg → Fed cfg) :
    (f.cons r).andThen next = (f.andThen next).cons r := by
  unfold andThen Fed.cons
  split_ifs <;> rfl

theorem idle_andThen (start : ℕ) (p : Parser cfg) (next : ℕ → Parser cfg → Fed cfg) :
    (idle start p).andThen next = next start p := rfl

theorem Alike.andThen {f : Fed cfg} {next next' : ℕ → Parser cfg → Fed cfg}
    (h : (next f.consumed f.parser).Alike (next' f.consumed f.parser)) :
    (f.andThen next).Alike (f.andThen next') := by
  unfold Fed.andThen
  split_ifs
  · exact .refl f
  · exact ⟨slices.coalesce_append rfl h.results, h.consumed, h.error, h.parser⟩

end Fed

/-- **Similar parsers walk alike**, slice by slice. -/
theorem walk_similar : ∀ (input : List Byte) (skip start : ℕ) {p q : Parser cfg} (_ : p.Similar q),
    (walk start skip p input).results = (walk start skip q input).results ∧
      (walk start skip p input).Alike (walk start skip q input) := by
  intro input
  induction input with
  | nil => exact fun _ _ _ _ h => ⟨by simp [walk, Fed.idle], by simp [walk, Fed.idle], by simp [walk, Fed.idle],
      by simp [walk, Fed.idle], by simpa [walk, Fed.idle] using h⟩
  | cons byte rest ih =>
    intro skip start p q h
    rcases skip with _ | skip
    · obtain ⟨hresult, hread, hparser, hreport⟩ := h.call byte rest
      rw [walk, walk]
      generalize p.call byte rest = c at *
      generalize q.call byte rest = d at *
      obtain ⟨result, n, p'⟩ := c
      obtain ⟨result', n', q'⟩ := d
      obtain rfl : result = result' := hresult
      obtain rfl : n = n' := hread
      cases result with
      | awaitData => exact ih _ _ hparser
      | packet =>
        have hparser : p'.Similar q' := hparser
        have hreport : p'.report = q'.report := hreport rfl
        have hr : p'.result (start + n) = q'.result (start + n) := by
          rw [Parser.result, Parser.result, hreport, hparser.parse]
        obtain ⟨hresults, halike⟩ := ih (n - 1) (start + n) hparser
        show ((walk (start + n) (n - 1) p' rest).cons (p'.result (start + n))).results
          = ((walk (start + n) (n - 1) q' rest).cons (q'.result (start + n))).results ∧
          ((walk (start + n) (n - 1) p' rest).cons (p'.result (start + n))).Alike
            ((walk (start + n) (n - 1) q' rest).cons (q'.result (start + n)))
        rw [hr]
        exact ⟨by simp only [Fed.cons, hresults], halike.cons _⟩
      | protocolError => exact ⟨rfl, rfl, rfl, rfl, hparser⟩
    · exact ih _ _ h

/-! ### Cutting a walk -/

/-- The parser after a slice of `length` bytes, the unread input being `input`. -/
def afterSlice (p : Parser cfg) (input : List Byte) (length : ℕ) : Parser cfg :=
  let index := p.packet.payload.index + p.packet.payload.length
  { p with
    packet := { p.packet with payload := ⟨.input input, length, index, p.packet.payload.total⟩ }
    parse := if index + length = p.packet.payload.total then .fixedHeader else .payloadPublish }

/-- In `payloadPublish` a call reports what there is of the rest of the payload. -/
theorem call_payloadPublish {p : Parser cfg} (h : p.parse = .payloadPublish) (byte : Byte)
    (rest : List Byte) :
    p.call byte rest =
      let length := min (rest.length + 1)
        (p.packet.payload.total - (p.packet.payload.index + p.packet.payload.length))
      (.packet, length, p.afterSlice (byte :: rest) length) := by
  simp only [Parser.call, h, payloadPublish, afterSlice, List.length_cons]
  split_ifs <;> simp_all

theorem walk_payloadPublish {p : Parser cfg} (h : p.Ok) (hp : p.parse = .payloadPublish) (start : ℕ)
    {input : List Byte} (hinput : input ≠ []) :
    walk start 0 p input =
      let length := min input.length
        (p.packet.payload.total - (p.packet.payload.index + p.packet.payload.length))
      (walk (start + length) 0 (p.afterSlice input length) (input.drop length)).cons
        ((p.afterSlice input length).result (start + length)) := by
  obtain ⟨byte, rest, rfl⟩ := List.exists_cons_of_ne_nil hinput
  rw [walk_cons h, call_payloadPublish hp]
  rfl

/-- Where a slice was cut does not matter to what comes after it. -/
theorem afterSlice_similar (p : Parser cfg) (input input' : List Byte) (length : ℕ) :
    (p.afterSlice input length).Similar (p.afterSlice input' length) where
  bytePos := rfl
  parse := rfl
  packet := rfl
  payloadBuffer := rfl
  total := rfl
  read := rfl
  slice := by
    by_cases h : p.packet.payload.index + p.packet.payload.length + length = p.packet.payload.total <;>
      simp [afterSlice, h]

/-- Two slices leave what one leaves. -/
theorem afterSlice_afterSlice_similar (p : Parser cfg) (input input' input'' : List Byte) (m n : ℕ) :
    ((p.afterSlice input m).afterSlice input' n).Similar (p.afterSlice input'' (m + n)) where
  bytePos := rfl
  parse := by simp [afterSlice, Nat.add_assoc]
  packet := rfl
  payloadBuffer := rfl
  total := rfl
  read := by simp [afterSlice, Nat.add_assoc]
  slice := by
    by_cases h : p.packet.payload.index + p.packet.payload.length + m + n = p.packet.payload.total <;>
      simp [afterSlice, h]

theorem afterSlice_ok {p : Parser cfg} (h : p.Ok) (hp : p.parse = .payloadPublish) (byte : Byte)
    (rest : List Byte) (length : ℕ) (hlength : length = min (rest.length + 1)
      (p.packet.payload.total - (p.packet.payload.index + p.packet.payload.length))) :
    (p.afterSlice (byte :: rest) length).Ok := by
  have := h.call byte rest
  rw [call_payloadPublish hp, ← hlength] at this
  exact this

/-- The report of a slice. -/
theorem report_afterSlice (p : Parser cfg) (input : List Byte) (length : ℕ) :
    (p.afterSlice input length).report = { p.report with
      payload := input.take length
      index := p.packet.payload.index + p.packet.payload.length } := rfl

/-- A slice that is cut in two. -/
theorem slices_afterSlice (p : Parser cfg) {xs : List Byte} (ys : List Byte) (n start stop : ℕ) (hxs : xs ≠ [])
    (hopen : (p.afterSlice xs xs.length).parse = .payloadPublish) :
    slices.next ((p.afterSlice xs xs.length).result start)
      (((p.afterSlice xs xs.length).afterSlice ys n).result stop) ∧
    slices.join ((p.afterSlice xs xs.length).result start)
      (((p.afterSlice xs xs.length).afterSlice ys n).result stop)
      = (p.afterSlice (xs ++ ys) (xs.length + n)).result stop := by
  have hpos : 0 < xs.length := List.length_pos_iff.mpr hxs
  constructor
  · refine Result.continuedBy_iff.mpr ⟨by simp [Parser.result, hopen], rfl, ?_, ?_⟩
    · show 0 < p.packet.payload.index + p.packet.payload.length + xs.length
      omega
    · show _ = p.packet.payload.index + p.packet.payload.length + (xs.take xs.length).length
      rw [List.take_length]
      rfl
  · simp only [slices, Result.join, Parser.result, report_afterSlice, List.take_length,
      List.take_length_add_append]
    simp [afterSlice, Nat.add_assoc]

/-- A cut inside the payload of a PUBLISH. -/
theorem walk_append_payload {p : Parser cfg} (h : p.Ok) (hp : p.parse = .payloadPublish) (byte : Byte)
    (rest ys : List Byte)
    (ih : ∀ (xs : List Byte), xs.length ≤ rest.length → ∀ (start : ℕ) {p : Parser cfg} (_ : p.Ok),
      (walk start 0 p (xs ++ ys)).Alike
        ((walk start 0 p xs).andThen fun start p => walk start 0 p ys))
    (start : ℕ) :
    (walk start 0 p ((byte :: rest) ++ ys)).Alike
      ((walk start 0 p (byte :: rest)).andThen fun start p => walk start 0 p ys) := by
  have hleft := h.payload hp
  obtain ⟨left, hL⟩ : ∃ left, left = p.packet.payload.total
    - (p.packet.payload.index + p.packet.payload.length) := ⟨_, rfl⟩
  have hcons : byte :: rest ≠ [] := List.cons_ne_nil _ _
  rw [walk_payloadPublish h hp start hcons, walk_payloadPublish h hp start (by simp), ← hL]
  dsimp only
  rw [Fed.cons_andThen]
  rcases Nat.lt_or_ge (byte :: rest).length left with hlt | hge
  · -- the payload goes on behind the cut
    have hm : min (byte :: rest).length left = (byte :: rest).length := by omega
    rw [hm, List.drop_length, walk, Fed.idle_andThen]
    rcases ys with _ | ⟨byte', rest'⟩
    · rw [List.append_nil, hm, List.drop_length]
      exact .refl _
    have hok := afterSlice_ok h hp byte rest (byte :: rest).length (by rw [← hL]; exact hm.symm)
    have hparse : (p.afterSlice (byte :: rest) (byte :: rest).length).parse = .payloadPublish := by
      simp only [afterSlice]
      rw [if_neg (by omega)]
    rw [walk_payloadPublish hok hparse _ (List.cons_ne_nil _ _)]
    dsimp only
    obtain ⟨n, hn⟩ : ∃ n, n = min (byte' :: rest').length (left - (byte :: rest).length) := ⟨_, rfl⟩
    have hleft' : (p.afterSlice (byte :: rest) (byte :: rest).length).packet.payload.total
        - ((p.afterSlice (byte :: rest) (byte :: rest).length).packet.payload.index
          + (p.afterSlice (byte :: rest) (byte :: rest).length).packet.payload.length)
        = left - (byte :: rest).length := by
      simp only [afterSlice]
      omega
    have hmin : min ((byte :: rest) ++ byte' :: rest').length left = (byte :: rest).length + n := by
      rw [List.length_append]
      omega
    rw [hleft', ← hn, hmin, List.drop_length_add_append, ← Nat.add_assoc]
    obtain ⟨hnext, hjoin⟩ := slices_afterSlice p (byte' :: rest') n
      (start + (byte :: rest).length) (start + (byte :: rest).length + n) hcons hparse
    have hsim := afterSlice_afterSlice_similar p (byte :: rest) (byte' :: rest')
      ((byte :: rest) ++ byte' :: rest') (byte :: rest).length n
    obtain ⟨hresults, halike⟩ := walk_similar ((byte' :: rest').drop n) 0
      (start + (byte :: rest).length + n) hsim.symm
    refine ⟨?_, halike.consumed, halike.error, halike.parser⟩
    simp only [Fed.cons, merge, hresults]
    rw [slices.coalesce_cons_cons hnext, hjoin]
  · -- the payload ends in front of the cut
    have hm : min (byte :: rest).length left = left := by omega
    have hm' : min ((byte :: rest) ++ ys).length left = left := by
      rw [List.length_append]
      omega
    have hok := afterSlice_ok h hp byte rest left (by rw [← hL]; exact hm.symm)
    rw [hm, hm', List.drop_append_of_le_length hge]
    have hresult : (p.afterSlice ((byte :: rest) ++ ys) left).result (start + left)
        = (p.afterSlice (byte :: rest) left).result (start + left) := by
      simp only [Parser.result, report_afterSlice, List.take_append_of_le_length hge]
      rfl
    rw [hresult]
    refine Fed.Alike.cons ?_ _
    refine (walk_similar _ _ _ (afterSlice_similar p _ (byte :: rest) left)).2.trans ?_
    exact ih _ (by simp only [List.length_drop, List.length_cons]; omega) _ hok

/-- **A cut anywhere.** A walk over `xs ++ ys` is like a walk over `xs` and one over `ys`. -/
theorem walk_append (ys : List Byte) : ∀ (k : ℕ) (xs : List Byte), xs.length ≤ k →
    ∀ (start : ℕ) {p : Parser cfg} (_ : p.Ok), (walk start 0 p (xs ++ ys)).Alike
      ((walk start 0 p xs).andThen fun start p => walk start 0 p ys) := by
  intro k
  induction k with
  | zero =>
    intro xs hlen start p _
    obtain rfl := List.length_eq_zero_iff.mp (Nat.le_zero.mp hlen)
    exact .refl _
  | succ k ih =>
    intro xs hlen start p h
    rcases xs with _ | ⟨byte, rest⟩
    · exact .refl _
    have hrest : rest.length ≤ k := by simpa using hlen
    by_cases hp : p.parse = .payloadPublish
    · exact walk_append_payload h hp byte rest ys (fun xs hxs => ih xs (by omega)) start
    · -- one byte, the same on both sides
      have hok := h.call byte []
      rw [List.cons_append, walk_cons h, walk_cons h, call_byte hp, call_byte hp byte rest]
      generalize p.call byte [] = c at *
      obtain ⟨result, n, p'⟩ := c
      cases result with
      | awaitData => exact ih rest hrest _ hok
      | packet =>
        show (Fed.cons _ _).Alike ((Fed.cons _ _).andThen _)
        rw [Fed.cons_andThen]
        exact (ih rest hrest _ hok).cons _
      | protocolError => exact .refl _

/-! ### Buffers -/

/-- Feeding buffers is like a walk over the whole stream. -/
theorem feed_walk : ∀ (buffers : List (List Byte)) (start : ℕ) {p : Parser cfg} (_ : p.Ok),
    (feed start p buffers).Alike (walk start 0 p buffers.flatten)
  | [], _, _, _ => .refl _
  | buffer :: buffers, start, p, h => by
    rw [feed, feedBuffer_eq_walk _ h _ _ le_rfl, List.flatten_cons]
    refine Fed.Alike.trans ?_ (walk_append buffers.flatten _ buffer le_rfl start h).symm
    exact Fed.Alike.andThen (feed_walk buffers _ (walk_ok buffer 0 start h))

theorem feed_ok : ∀ (buffers : List (List Byte)) (start : ℕ) {p : Parser cfg} (_ : p.Ok),
    (feed start p buffers).parser.Ok
  | [], _, _, h => h
  | buffer :: buffers, start, p, h => by
    rw [feed, feedBuffer_eq_walk _ h _ _ le_rfl, Fed.andThen]
    split_ifs
    · exact walk_ok buffer 0 start h
    · exact feed_ok buffers _ (walk_ok buffer 0 start h)

/-- Similar parsers stay alike whatever they are fed and however it is cut. -/
theorem feed_alike {p q : Parser cfg} (hp : p.Ok) (hq : q.Ok) (h : p.Similar q) (start : ℕ)
    {buffers buffers' : List (List Byte)} (hflat : buffers.flatten = buffers'.flatten) :
    (feed start p buffers).Alike (feed start q buffers') := by
  refine (feed_walk buffers start hp).trans (Fed.Alike.trans ?_ (feed_walk buffers' start hq).symm)
  rw [hflat]
  exact (walk_similar _ _ _ h).2

/-- **Parsing does not depend on how the stream is split.** Two ways of cutting a stream into buffers
give, slices put together, the same results at the same places and a protocol error after the same
number of bytes or in neither; and the two parsers left react alike to all that may follow. -/
theorem feed_split (p : Parser cfg) (buffers₁ buffers₂ : List (List Byte))
    (hflat : buffers₁.flatten = buffers₂.flatten) :
    let fed₁ := feed 0 p.reset buffers₁
    let fed₂ := feed 0 p.reset buffers₂
    merge fed₁.results = merge fed₂.results ∧ fed₁.error = fed₂.error ∧
      fed₁.consumed = fed₂.consumed ∧
      ∀ (start : ℕ) (more₁ more₂ : List (List Byte)), more₁.flatten = more₂.flatten →
        let next₁ := feed start fed₁.parser more₁
        let next₂ := feed start fed₂.parser more₂
        merge next₁.results = merge next₂.results ∧ next₁.error = next₂.error ∧
          next₁.consumed = next₂.consumed := by
  intro fed₁ fed₂
  have h : fed₁.Alike fed₂ := feed_alike (reset_ok p) (reset_ok p) (.refl _) 0 hflat
  refine ⟨h.results, h.error, h.consumed, ?_⟩
  intro start more₁ more₂ hmore next₁ next₂
  have h' : next₁.Alike next₂ :=
    feed_alike (feed_ok _ _ (reset_ok p)) (feed_ok _ _ (reset_ok p)) h.parser start hmore
  exact ⟨h'.results, h'.error, h'.consumed⟩

/-- A PUBLISH with a payload of three bytes, in one buffer and in three. -/
theorem feed_split_publish :
    let fed₁ := feed 0 (new .linux).reset [[0x30, 6, 0, 1, 97, 1, 2, 3]]
    let fed₂ := feed 0 (new .linux).reset [[0x30, 6, 0], [1, 97, 1], [2, 3]]
    merge fed₁.results = merge fed₂.results ∧ fed₁.error = fed₂.error ∧
      fed₁.consumed = fed₂.consumed ∧
      ∀ (start : ℕ) (more₁ more₂ : List (List Byte)), more₁.flatten = more₂.flatten →
        let next₁ := feed start fed₁.parser more₁
        let next₂ := feed start fed₂.parser more₂
        merge next₁.results = merge next₂.results ∧ next₁.error = next₂.error ∧
          next₁.consumed = next₂.consumed :=
  feed_split (new .linux) [[0x30, 6, 0, 1, 97, 1, 2, 3]] [[0x30, 6, 0], [1, 97, 1], [2, 3]] rfl

end Parser

end EspMqttClient
