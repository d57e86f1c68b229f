/-
  A byte stream through the parser.

  `feed` hands a list of buffers to `Parser.parseInput` the way the loop of `_checkIncoming` does: it
  calls it again on the unread rest of a buffer after each packet, and stops at the first protocol
  error.  What it sees is a list of `Result`s.

  A PUBLISH arrives in slices, one result each, and where they are cut depends on the buffers.
  `merge` puts adjoining slices of one PUBLISH together.
-/
import EspMqttClient.Data.Coalesce
import EspMqttClient.Packets.Parser

namespace EspMqttClient

namespace Parser

variable {cfg : Config}

/-- A result `packet`: what it reports, how many bytes of the stream were consumed by then, and
whether the parser is back at the start of a packet. -/
structure Result where
  report : Report
  stop : ℕ
  complete : Bool
deriving DecidableEq

/-- What feeding comes to: the results, the bytes consumed, whether there was a protocol error, and
the parser that is left. -/
structure Fed (cfg : Config) where
  results : List Result
  consumed : ℕ
  error : Bool
  parser : Parser cfg

namespace Fed

/-- Nothing was fed. -/
def idle (start : ℕ) (p : Parser cfg) : Fed cfg := ⟨[], start, false, p⟩

/-- A result in front. -/
def cons (r : Result) (fed : Fed cfg) : Fed cfg := { fed with results := r :: fed.results }

/-- Go on unless there was an error. -/
def andThen (fed : Fed cfg) (next : ℕ → Parser cfg → Fed cfg) : Fed cfg :=
  if fed.error then fed
  else
    let fed' := next fed.consumed fed.parser
    { fed' with results := fed.results ++ fed'.results }

end Fed

/-- The result of a call that returned `packet` and left this parser. -/
def result (p : Parser cfg) (stop : ℕ) : Result := ⟨p.report, stop, p.parse = .fixedHeader⟩

/-- The loop over one buffer: `start` bytes of the stream were consumed before. -/
def feedBuffer : ℕ → ℕ → Parser cfg → List Byte → Fed cfg
  | 0, start, p, _ => .idle start p
  | fuel + 1, start, p, input =>
    match input with
    | [] => .idle start p
    | byte :: rest =>
      match p.parseInput (byte :: rest) with
      | (.awaitData, n, p) => feedBuffer fuel (start + n) p ((byte :: rest).drop n)
      | (.packet, n, p) =>
        (feedBuffer fuel (start + n) p ((byte :: rest).drop n)).cons (p.result (start + n))
      | (.protocolError, n, p) => ⟨[], start + n, true, p⟩

/-- One buffer after the other. -/
def feed (start : ℕ) (p : Parser cfg) : List (List Byte) → Fed cfg
  | [] => .idle start p
  | buffer :: buffers =>
    (feedBuffer buffer.length start p buffer).andThen fun start p => feed start p buffers

/-! ### Slices -/

namespace Result

/-- Is `s` the slice of the same PUBLISH that follows `r`? -/
def continuedBy (r s : Result) : Bool :=
  r.complete = false ∧ s.report = { r.report with index := s.report.index, payload := s.report.payload } ∧
    0 < s.report.index ∧ s.report.index = r.report.index + r.report.payload.length

/-- Two adjoining slices as one. -/
def join (r s : Result) : Result where
  report := { r.report with payload := r.report.payload ++ s.report.payload }
  stop := s.stop
  complete := s.complete

theorem continuedBy_iff {r s : Result} : r.continuedBy s ↔ r.complete = false ∧
    s.report = { r.report with index := s.report.index, payload := s.report.payload } ∧
      0 < s.report.index ∧ s.report.index = r.report.index + r.report.payload.length := by
  simp [continuedBy]

end Result

/-- The slices of a PUBLISH adjoin. -/
def slices : Adjoining Result where
  next := Result.continuedBy
  join := Result.join
  next_join_left {r s t} h := by
    obtain ⟨-, hs, -, hindex⟩ := Result.continuedBy_iff.mp h
    rw [Bool.eq_iff_iff, Result.continuedBy_iff, Result.continuedBy_iff, hs]
    simp only [Result.join, List.length_append, hindex]
    rw [Nat.add_assoc]
  next_join_right {r s t} h _ := by
    obtain ⟨hr, hs, hpos, hindex⟩ := Result.continuedBy_iff.mp h
    rw [Result.continuedBy_iff]
    refine ⟨hr, ?_, hpos, hindex⟩
    simp only [Result.join]
    rw [hs]
  join_assoc _ _ := by simp [Result.join]

/-- Put adjoining slices together. -/
def merge (results : List Result) : List Result := slices.coalesce results

end Parser

end EspMqttClient
