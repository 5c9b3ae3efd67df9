/-
# Offsets that fit the text

A cursor goes through its text by byte offsets.  Whatever steps it makes, the rest is what comes
behind its offset, and every place that it names is cut out of the text between characters
(`keepsPosition`).

Reading a token can also be done with offsets alone: the first character is cut off by its size,
a number by where the first character stands that it cannot contain, and the rest behind a
number by the size of the number less that of its first digit (`fetchByCuts`).  Each of these
cuts could fail, and so could the difference, but none of them ever does
(`fetchByCuts_eq_some`).
-/

import Reckoner.Proofs.Lexing.Exhaustion
import Reckoner.Proofs.Lexing.Returns
import Reckoner.Text.Cut

namespace Reckoner

/-- Whether a span is cut out of a text between characters. -/
def LiesWithin (text : List Char) (span : Span) : Prop :=
  ∃ piece, StandsAt text span.offset piece ∧ byteLength piece = span.length

namespace Cursor

/-! ## Reading by cuts -/

/-- What is left of a run of digits and carriage returns without the carriage returns at its
end. -/
def trimmed (run : List Char) : List Char := (run.reverse.dropWhile (· == '\r')).reverse

/-- Reads a number that begins at `offset`.  The cursor stands behind its first digit, and `whole`
is its rest with this digit. -/
def numberByCuts (cursor : Cursor) (offset : Nat) (whole : List Char) :
    Option (EStateM.Result ParseError Cursor Token) := do
  let (run, _) ← cut? whole (byteLength (whole.takeWhile isNumeral))
  let literal := trimmed run
  let more ← minus? (byteLength literal) 1
  let (_, rest) ← cut? cursor.rest more
  let cursor := { cursor with rest, offset := cursor.offset + more }
  match numeralValue? literal with
  | some value => return .ok ⟨.number value, literal, offset⟩ cursor
  | none =>
    let length ← minus? cursor.offset offset
    return .error (.lexical (.numberOutOfRange ⟨offset, length⟩)) cursor.skipRest

/-- Reads a token with a cursor that has come to an offset and has this rest. -/
def fetchByCuts (cursor : Cursor) :
    (offset : Nat) → (rest : List Char) → Option (EStateM.Result ParseError Cursor Token)
  | offset, [] =>
    some (.ok ⟨.endOfLine, [], offset⟩ { cursor with rest := [], offset }.skipRest)
  | offset, c :: rest => do
    let (literal, _) ← cut? (c :: rest) c.utf8Size
    let passed := { cursor with rest, offset := offset + c.utf8Size }
    if isBlank c then fetchByCuts cursor passed.offset rest
    else if c = '\n' then return .ok ⟨.endOfLine, literal, offset⟩ passed.skipRest
    else if c.isDigit then numberByCuts passed offset (c :: rest)
    else match Symbol.ofChar? c with
      | some symbol => return .ok ⟨.symbol symbol, literal, offset⟩ passed
      | none => return .error (.lexical (.invalidCharacter c offset)) passed.skipRest

/-- A digit is one byte. -/
theorem utf8Size_of_isDigit {c : Char} (h : c.isDigit) : c.utf8Size = 1 := by
  rw [Char.utf8Size_eq_one_iff]
  simp only [Char.isDigit, Bool.and_eq_true, decide_eq_true_eq] at h
  exact UInt32.le_trans h.2 (by decide)

/-- The first character of a text can be cut off. -/
theorem cut?_first (c : Char) (rest : List Char) :
    cut? (c :: rest) c.utf8Size = some ([c], rest) := by
  simpa using cut?_append [c] rest

/-- A number begins with the digit in front. -/
theorem exists_numeral_eq_cons {c : Char} (rest : List Char) (h : c.isDigit) :
    ∃ more after, numeral (c :: rest) = c :: more ∧ rest = more ++ after := by
  obtain ⟨after, hwhole, -⟩ := exists_isNumeral_numeral rest h
  obtain ⟨d, more, hmore⟩ := List.exists_cons_of_ne_nil (numeral_ne_nil rest h)
  rw [hmore] at hwhole
  obtain ⟨rfl, hrest⟩ := List.cons.inj hwhole
  exact ⟨more, after, hmore, hrest⟩

/-- **Reading a number by cuts** reads the number: the cut behind the run of digits and carriage
returns, the size of the number less one and the cut behind the number are all there. -/
theorem numberByCuts_eq_some (cursor : Cursor) (offset : Nat) {c : Char} {rest : List Char}
    (h : c.isDigit) :
    numberByCuts { cursor with rest, offset := offset + c.utf8Size } offset (c :: rest) =
      some (fetch { cursor with rest := c :: rest, offset }) := by
  obtain ⟨more, after, hnumeral, hrest⟩ := exists_numeral_eq_cons rest h
  have hrun : cut? (c :: rest) (byteLength ((c :: rest).takeWhile isNumeral)) =
      some ((c :: rest).takeWhile isNumeral, (c :: rest).dropWhile isNumeral) :=
    cut?_eq_some_iff.2 ⟨List.takeWhile_append_dropWhile.symm, rfl⟩
  have hliteral : trimmed ((c :: rest).takeWhile isNumeral) = c :: more := hnumeral
  have hsize : minus? (byteLength (c :: more)) 1 = some (byteLength more) := by
    rw [byteLength_cons, utf8Size_of_isDigit h, minus?_add]
  have hafter : cut? rest (byteLength more) = some (more, after) := hrest ▸ cut?_append more after
  obtain ⟨hspace, hreturn, hbreak⟩ := ne_of_isDigit h
  have hblank : ¬ isBlank c := by simp [isBlank, hspace, hreturn]
  simp only [numberByCuts, hrun, hliteral, hsize, hafter, fetch, scan, if_neg hblank, if_neg hbreak,
    if_pos h, hnumeral, Option.bind_eq_bind, Option.bind_some, Option.pure_def]
  cases numeralValue? (c :: more) with
  | some value => simp [hrest, Token.span, Span.stop, Nat.add_assoc]
  | none =>
    have hlength : minus? (offset + (c.utf8Size + byteLength more)) offset =
        some (c.utf8Size + byteLength more) := minus?_add _ _
    simp [hlength, hrest, skipRest, Nat.add_assoc]

/-- **Reading by cuts never fails to cut,** and reads what is read. -/
theorem fetchByCuts_eq_some (cursor : Cursor) (offset : Nat) (rest : List Char) :
    fetchByCuts cursor offset rest = some (fetch { cursor with rest, offset }) := by
  induction rest generalizing offset with
  | nil => rfl
  | cons c rest ih =>
    simp only [fetchByCuts, cut?_first, Option.bind_eq_bind, Option.bind_some, Option.pure_def]
    by_cases hblank : isBlank c
    · rw [if_pos hblank, ih]
      simp [fetch, scan, hblank, skipRest, Nat.add_assoc]
    by_cases hbreak : c = '\n'
    · subst hbreak
      simp [fetch, scan, hblank, skipRest, Nat.add_assoc]
    by_cases hdigit : c.isDigit
    · rw [if_neg hblank, if_neg hbreak, if_pos hdigit, numberByCuts_eq_some cursor offset hdigit]
    · rw [if_neg hblank, if_neg hbreak, if_neg hdigit]
      cases hsymbol : Symbol.ofChar? c with
      | some symbol => simp [fetch, scan, hblank, hbreak, hdigit, hsymbol, Token.span, Span.stop]
      | none => simp [fetch, scan, hblank, hbreak, hdigit, hsymbol, skipRest, Nat.add_assoc]

/-! ## What steps name -/

/-- Whether what a step says names no place but one in a text, where the token that it gives, if
any, stands. -/
def Answer.IsWithin (text : List Char) : Answer → Prop
  | .ok none => True
  | .ok (some token) => LiesWithin text token.span ∧ StandsAt text token.offset token.literal
  | .error error => LiesWithin text error.span

/-- In front of an item a step gives nothing, or the token that is the item, or it fails at the
place of the item. -/
theorem Step.answerTo_cases (step : Step) (item : Item) :
    step.answerTo item = .ok none ∨
      (∃ token, item = .ok token ∧ step.answerTo item = .ok (some token)) ∨
      ∃ error, step.answerTo item = .error error ∧ error.span = Item.span item := by
  cases item with
  | error error => exact .inr (.inr ⟨.lexical error, by cases step <;> rfl, rfl⟩)
  | ok token =>
    cases step with
    | nextIf accept =>
      by_cases ha : accept token.kind
      · exact .inr (.inl ⟨token, rfl, by rw [answerTo, if_pos ha]⟩)
      · exact .inl (by rw [answerTo, if_neg ha])
    | expect symbol =>
      by_cases hs : token.kind = .symbol symbol
      · exact .inr (.inl ⟨token, rfl, by rw [answerTo, if_pos hs]⟩)
      · exact .inr (.inr ⟨_, by rw [answerTo, if_neg hs], rfl⟩)
    | _ => exact .inr (.inl ⟨token, rfl, rfl⟩)

variable {line : Line} {cursor : Cursor}

/-- What is said in front of an item that is in a text names a place in the text. -/
theorem Step.isWithin_answerTo {front literal after : List Char} {item : Item}
    (h : IsItemAt (byteLength front) literal after item) (step : Step) :
    Answer.IsWithin (front ++ literal ++ after) (step.answerTo item) := by
  have hstands : StandsAt (front ++ literal ++ after) (byteLength front) literal :=
    ⟨front, after, rfl, rfl⟩
  have hwithin : LiesWithin (front ++ literal ++ after) (Item.span item) := by
    rw [h.span_eq]
    exact ⟨literal, hstands, rfl⟩
  rcases step.answerTo_cases item with hanswer | ⟨token, rfl, hanswer⟩ | ⟨error, hanswer, hspan⟩
  · rw [hanswer]
    trivial
  · obtain ⟨hoffset, hliteral⟩ := h.eq_of_ok
    rw [hanswer]
    exact ⟨hwithin, by rwa [hoffset, hliteral]⟩
  · rw [hanswer, Answer.IsWithin, hspan]
    exact hwithin

/-- Behind the end of a line a step is about an end of line at the end of the text, or it gives
nothing. -/
theorem AtEnd.answer_eq_or (h : AtEnd line cursor) (step : Step) :
    step.answer cursor = step.answerTo (.ok ⟨.endOfLine, [], byteLength line.text⟩) ∨
      step.answer cursor = .ok none := by
  have hup := h.upcoming_eq
  cases step with
  | peek => exact .inl (h.answer_eq (.inl rfl))
  | advance => exact .inl (h.answer_eq (.inr rfl))
  | next =>
    rw [h.next_eq]
    split
    · exact .inl rfl
    · exact .inr rfl
  | nextIf accept =>
    left
    by_cases ha : accept .endOfLine
    · obtain ⟨_, hnext, -⟩ := nextIf_of_accept hup ha
      rw [Step.answer, Step.run, hnext, Step.answerTo, if_pos ha]
    · obtain ⟨_, hnext, -⟩ := nextIf_of_not_accept hup ha
      rw [Step.answer, Step.run, hnext, Step.answerTo, if_neg ha]
  | expect symbol =>
    left
    obtain ⟨_, hexpect, -⟩ := @expect_of_ne symbol _ _ _ hup (by simp)
    rw [Step.answer, Step.run, map_of_error some hexpect]
    rfl

/-- **A step names no place that is not in the text,** wherever the steps before it have led. -/
theorem isWithin_answer (line : Line) (steps : List Step) (step : Step) :
    Answer.IsWithin line.text (step.answer ((ofLine line).behind steps)) := by
  rcases (reading_ofLine line).run steps with ⟨-, hend⟩ | ⟨-, rest, hitems, hreading⟩
  · rcases hend.answer_eq_or step with hanswer | hanswer
    · have hwithin := step.isWithin_answerTo (@IsItemAt.endOfText (byteLength line.text))
      rw [hanswer]
      simpa using hwithin
    · rw [hanswer]
      trivial
  · obtain ⟨item, later, rfl⟩ :=
      List.exists_cons_of_ne_nil (hreading.upcoming_eq ▸ upcoming_ne_nil _)
    obtain ⟨front, literal, after, htext, hitem⟩ :=
      @exists_standsAt_of_mem_items line.text item (by simp [hitems])
    rw [hreading.answer_eq step, htext]
    exact step.isWithin_answerTo hitem

/-- **No steps lead out of place.** -/
theorem inPlace_behind (line : Line) (steps : List Step) :
    InPlace line ((ofLine line).behind steps) :=
  behind_of_keeps keeps_inPlace (inPlace_ofLine line) steps

/-- **How a cursor keeps its position** in the text of a line. -/
structure KeepsPosition (line : Line) (cursor : Cursor) : Prop where
  /-- The rest is what is behind the offset if the text is cut there. -/
  cut : ∃ front, cut? line.text cursor.offset = some (front, cursor.rest)
  /-- What has been passed and what is left add up to the line. -/
  offset_add : cursor.offset + byteLength cursor.rest = byteLength line.text
  /-- A finished cursor stands at the end. -/
  finished : cursor.finished = true → cursor.rest = [] ∧ cursor.offset = byteLength line.text
  /-- A token that has been looked at stands in the text and ends at the offset or in front of it,
  and if it is an end of line the cursor is finished. -/
  peeked : ∀ token, cursor.peeked = some token →
    StandsAt line.text token.offset token.literal ∧ token.span.stop ≤ cursor.offset ∧
      (token.kind = .endOfLine → cursor.finished = true)
  /-- From here a token is read without a cut that cannot be made. -/
  fetch_eq : cursor.fetchByCuts cursor.offset cursor.rest = some (fetch cursor)
  /-- From here no step names a place that is not in the text. -/
  answer : ∀ step : Step, Answer.IsWithin line.text (step.answer cursor)

/-- **A cursor keeps its position** whatever steps it makes, whether they fail or not.  Where the
parts of a cursor stand is kept by each step; that reading can be done by cuts holds of any cursor.
-/
theorem keepsPosition (line : Line) (steps : List Step) :
    KeepsPosition line ((ofLine line).behind steps) := by
  have hin := inPlace_behind line steps
  obtain ⟨front, htext, hfront⟩ := hin.split
  constructor
  case cut => exact ⟨front, cut?_eq_some_iff.2 ⟨htext, hfront⟩⟩
  case offset_add => exact hin.offset_add
  case finished =>
    intro hfinished
    have hrest := hin.rest_eq hfinished
    have hoffset := hin.offset_add
    rw [hrest] at hoffset
    exact ⟨hrest, hoffset⟩
  case peeked =>
    intro token htoken
    have hread := hin.hasRead token htoken
    exact ⟨hread.standsAt, hread.stop_le, hread.finished_iff.2⟩
  case fetch_eq => exact fetchByCuts_eq_some _ _ _
  case answer => exact isWithin_answer line steps

end Cursor
end Reckoner
