/-
# Answers to a line

A blank line is answered by nothing, and the session ends.  Any other line is answered by its
record (`Line.record`): this is written piece by piece (`Line.pieces`), behind the diagnostic of the
line if it has one and that is kept, and the session goes on if the sink takes all of it
(`respond_of_not_isBlank`).  So two sessions that differ in their sinks or in their readers alone
can be told apart only by what these do.
-/

import Reckoner.Proofs.Parsing.Line
import Reckoner.Repl

namespace Reckoner

/-- What is written about a line: its value, the message of its error, or nothing if the
line is blank. -/
def Line.record (line : Line) : List Char :=
  match line.value? with
  | .ok none => []
  | .ok (some value) => "= ".toList ++ Decimal.ofInt64 value ++ "\n".toList
  | .error error => "error: ".toList ++ error.message.toList ++ "\n".toList

/-- The bytes of a record, in the pieces that they are written in. -/
def Line.pieces (line : Line) : List (List UInt8) :=
  match line.value? with
  | .ok none => []
  | .ok (some value) => (Repl.answer (.ok value)).map Utf8.encode
  | .error error => (Repl.answer (.error error)).map Utf8.encode

/-- **The pieces make up the record.** -/
theorem Line.flatten_pieces (line : Line) : line.pieces.flatten = Utf8.encode line.record := by
  unfold pieces record
  rcases line.value? with error | _ | value
  · dsimp only
    rw [Utf8.flatten_map_encode, Repl.answer, List.flatten_append, List.flatten_append,
      error.flatten_messagePieces]
    rfl
  · rfl
  · dsimp only
    rw [Utf8.flatten_map_encode, Repl.answer, List.flatten_append, List.flatten_append,
      Decimal.flatten_signAndDigits]
    rfl

/-- A line has neither a value nor an error just when it is blank. -/
theorem value?_eq_none_iff {line : Line} : line.value? = .ok none ↔ IsBlankLine line.text := by
  rw [← expr?_eq_none_iff, Line.value?]
  rcases line.expr? with error | _ | expr
  · simp
  · simp
  · dsimp only
    cases expr.value <;> simp

/-- Nothing is written about a blank line. -/
theorem Line.record_of_isBlankLine {line : Line} (h : IsBlankLine line.text) :
    line.record = [] := by
  rw [Line.record, value?_eq_none_iff.2 h]

namespace Repl

variable {repl : Repl} {line : Line}

/-- The diagnostics that a session keeps behind a line: one more if the line has one and that is
asked for. -/
def kept (line : Line) (repl : Repl) : Array Diagnostic :=
  match line.value? with
  | .ok _ => repl.reports
  | .error error =>
    if repl.report then repl.reports.push (error.diagnostic line) else repl.reports

/-- What keeping a diagnostic does is said by `kept`. -/
theorem keep_eq {error : LineError} (h : line.value? = .error error) :
    keep (error.diagnostic line) repl = .ok () { repl with reports := kept line repl } := by
  show EStateM.Result.ok () _ = _
  rw [kept, h]
  dsimp only
  split <;> rfl

/-- A text that is written lets the session go on if the sink takes all of it. -/
theorem write_bind_pure (pieces : List (List Char)) (repl : Repl) :
    (write .result pieces >>= fun _ => pure true) repl =
      match repl.writer.writeEach (pieces.map Utf8.encode) with
      | (.ok (), writer) => .ok true { repl with writer }
      | (.error cause, writer) => .error (.result cause) { repl with writer } := by
  rcases hwrite : repl.writer.writeEach (pieces.map Utf8.encode) with ⟨cause | _, writer⟩
  · have hresult : write .result pieces repl = .error (.result cause) { repl with writer } := by
      rw [write, hwrite]
    exact bind_of_error hresult
  · have hresult : write .result pieces repl = .ok () { repl with writer } := by
      rw [write, hwrite]
    exact bind_of_ok hresult

/-- A blank line is not answered, and the session ends. -/
theorem respond_of_isBlank (h : IsBlankLine line.text) : respond line repl = .ok false repl := by
  rw [respond, value?_eq_none_iff.2 h]
  rfl

/-- **A line that is not blank has its record written** piece by piece, and the session goes on if
the sink takes all of it. -/
theorem respond_of_not_isBlank (h : ¬ IsBlankLine line.text) :
    respond line repl = match repl.writer.writeEach line.pieces with
      | (.ok (), writer) => .ok true { repl with writer, reports := kept line repl }
      | (.error cause, writer) =>
        .error (.result cause) { repl with writer, reports := kept line repl } := by
  unfold respond Line.pieces
  rcases hvalue : line.value? with error | _ | value
  · show (keep (error.diagnostic line) >>= fun _ =>
      write .result (answer (.error error)) >>= fun _ => pure true) repl = _
    rw [bind_of_ok (keep_eq hvalue)]
    exact write_bind_pure _ _
  · exact absurd (value?_eq_none_iff.1 hvalue) h
  · have hkept : kept line repl = repl.reports := by rw [kept, hvalue]
    rw [hkept]
    exact write_bind_pure _ _

/-- What is left to read has nothing to do with an answer. -/
theorem respond_of_reader {goesOn : Bool} {after : Repl} (h : respond line repl = .ok goesOn after)
    (reader : ByteReader) :
    after.reader = repl.reader ∧
      respond line { repl with reader } = .ok goesOn { after with reader } := by
  by_cases hblank : IsBlankLine line.text
  · rw [respond_of_isBlank hblank] at h ⊢
    cases h
    exact ⟨rfl, rfl⟩
  · rw [respond_of_not_isBlank hblank] at h ⊢
    dsimp only
    rcases hwrite : repl.writer.writeEach line.pieces with ⟨cause | _, writer⟩
    · rw [hwrite] at h
      cases h
    · rw [hwrite] at h
      cases h
      exact ⟨rfl, rfl⟩

end Repl
end Reckoner
