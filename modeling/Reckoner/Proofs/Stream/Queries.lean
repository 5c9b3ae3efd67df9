/-
# Asking a source again and again

Where no fill fails, each query is about one line and leaves the lines behind it
(`Sound.exists_ask`).  So the answers to a sequence of queries can be told from the lines
alone, the answer with a number from the line with that number, and neither the sizes of
the fills nor anything that is wrong with the lines in front makes a difference
(`askAll_eq`).

Asked for texts until one of them is empty, a source gives the lines of its whole text, as
if the bytes had been decoded before they were cut (`readsTexts_iff`).
-/

import Reckoner.Proofs.Decoding.LineBreaks
import Reckoner.Stream.Query

namespace Reckoner
namespace ByteReader

/-- The answers to some queries, one after the other, each with the place where the source
stands behind it. -/
def askAll (reader : ByteReader) : List Query → List (Except String Answer × Nat)
  | [] => []
  | query :: queries =>
    let (answer, after) := reader.ask query
    (answer, after.position) :: askAll after queries

/-- The texts that a source gives until one of them is empty. -/
inductive ReadsTexts : ByteReader → List (List Char) → Prop
  /-- An empty text is the last one, and it is left out. -/
  | done {reader after : ByteReader} (h : reader.ask .text = (.ok (.text []), after)) :
      ReadsTexts reader []
  /-- Behind any other text there are more. -/
  | line {reader after : ByteReader} {text : List Char} {texts : List (List Char)}
      (h : reader.ask .text = (.ok (.text text), after)) (hne : text ≠ [])
      (hrest : ReadsTexts after texts) : ReadsTexts reader (text :: texts)

variable {reader : ByteReader}

/-- **A query is about the next line,** and leaves the lines behind it. -/
theorem Sound.exists_ask (h : reader.Sound) (query : Query) :
    ∃ after, reader.ask query =
        (.ok (query.about (lineOfBytes (rawLine reader.contents 0))), after) ∧
      after.Sound ∧ rawLines after.contents = (rawLines reader.contents).drop 1 ∧
      after.position = reader.position + (rawLine reader.contents 0).length := by
  obtain ⟨after, hread, hothers, hposition, hafter⟩ := h.exists_readLine
  exact ⟨after, by rw [ask, hread], hafter, hothers, hposition⟩

/-- **The answer with a number is about the line with that number.**  Behind it the source
stands at the end of that line. -/
theorem askAll_eq (h : reader.Sound) (queries : List Query) :
    reader.askAll queries = queries.mapIdx fun number query =>
      (.ok (query.about (lineOfBytes (rawLine reader.contents number))),
        reader.position + ((rawLines reader.contents).take (number + 1)).flatten.length) := by
  induction queries generalizing reader with
  | nil => rfl
  | cons query queries ih =>
    obtain ⟨after, hask, hafter, hothers, hposition⟩ := h.exists_ask query
    rw [askAll, hask]
    dsimp only
    rw [ih hafter, List.mapIdx_cons]
    -- What the source has left behind the first line are the lines with the next numbers.
    congr 2
    · rw [hposition, length_take_of_drop hothers]
      simp
    · funext number query
      have hline : rawLine after.contents number = rawLine reader.contents (number + 1) := by
        rw [rawLine_of_drop hothers, Nat.add_comm]
      rw [hline, hposition, length_take_of_drop hothers (number + 1), Nat.add_assoc]

/-- Three fills that end anywhere: neither a misplaced number nor an invalid character nor the
end of the input makes a difference to the other lines. -/
theorem askAll_eq_in_three_fills :
    (ByteReader.mk [.ok [0x31, 0x20], .ok [0x32, 0x0A, 0x40], .ok [0x0A, 0x37]] none 0).Sound ∧
    (ByteReader.mk [.ok [0x31, 0x20], .ok [0x32, 0x0A, 0x40], .ok [0x0A, 0x37]] none 0).askAll
      [.expr, .value, .value, .text] =
      [(.ok (.expr (.error (.grammar ⟨.operatorWanted, ⟨2, 1⟩⟩))), 4),
        (.ok (.value (.error (.parse (.lexical (.invalidCharacter '@' 0))))), 6),
        (.ok (.value (.ok (some 7))), 7),
        (.ok (.text []), 7)] := by
  have h : (ByteReader.mk [.ok [0x31, 0x20], .ok [0x32, 0x0A, 0x40], .ok [0x0A, 0x37]]
      none 0).Sound := ⟨rfl, by simp⟩
  exact ⟨h, (askAll_eq h _).trans rfl⟩

/-! ## Texts -/

/-- A source gives the lines of its bytes, each of them decoded, and nothing else.  Behind the last
line it gives an empty text, and no line is decoded as one. -/
theorem readsTexts_iff_map (h : reader.Sound) {texts : List (List Char)} :
    reader.ReadsTexts texts ↔ texts = (rawLines reader.contents).map Utf8.decodeLossy := by
  induction hlines : rawLines reader.contents generalizing reader texts with
  | nil =>
    have hfirst : rawLine reader.contents 0 = [] := by rw [rawLine, hlines]; rfl
    obtain ⟨after, hask, -, -, -⟩ := h.exists_ask .text
    rw [hfirst] at hask
    constructor
    · intro hreads
      cases hreads with
      | done => rfl
      | line hother hne =>
        rw [hask] at hother
        cases hother
        exact absurd rfl hne
    · rintro rfl
      exact .done hask
  | cons line others ih =>
    have hfirst : rawLine reader.contents 0 = line := by rw [rawLine, hlines]; rfl
    have hmem : line ∈ rawLines reader.contents := by simp [hlines]
    have hline : line ≠ [] := ne_nil_of_mem_pieces _ line hmem
    obtain ⟨after, hask, hafter, hothers, -⟩ := h.exists_ask .text
    rw [hfirst] at hask
    rw [hlines, List.drop_one, List.tail_cons] at hothers
    constructor
    · intro hreads
      cases hreads with
      | done hother =>
        have hnil := hask.symm.trans hother
        simp only [Prod.mk.injEq, Except.ok.injEq, Query.about, Answer.text.injEq] at hnil
        exact absurd hnil.1 (Utf8.decodeLossy_ne_nil hline)
      | line hother hne hrest =>
        rw [hask] at hother
        cases hother
        rw [(ih hafter hothers).1 hrest]
        rfl
    · rintro rfl
      exact .line hask (Utf8.decodeLossy_ne_nil hline) ((ih hafter hothers).2 rfl)

/-- **Asked for texts until one is empty, a source gives the lines of its whole text.**  No
line is empty, a line break is the last character of its line, and joined again the lines
are the whole text. -/
theorem readsTexts_iff (h : reader.Sound) :
    (∀ texts, reader.ReadsTexts texts ↔
      texts = textLines (Utf8.decodeLossy reader.contents)) ∧
    (∀ text ∈ textLines (Utf8.decodeLossy reader.contents), text ≠ [] ∧ '\n' ∉ text.dropLast) ∧
    (textLines (Utf8.decodeLossy reader.contents)).flatten = Utf8.decodeLossy reader.contents := by
  refine ⟨fun texts => ?_, fun text htext => ⟨?_, fun hbreak => ?_⟩, flatten_pieces _ _⟩
  · rw [readsTexts_iff_map h, map_decodeLossy_rawLines]
  · exact ne_nil_of_mem_pieces _ text htext
  · have := isEnd_of_mem_dropLast text htext '\n' hbreak
    simp at this

/-- A sequence that a line break cuts short and one that the end of the input cuts short are
a malformed stretch each, and the line break stays one. -/
theorem readsTexts_iff_cut_short :
    (ByteReader.mk [.ok [0x31, 0xF0, 0x9F], .ok [0x98, 0x0A, 0xE2], .ok [0x82]] none 0).Sound ∧
    (ByteReader.mk [.ok [0x31, 0xF0, 0x9F], .ok [0x98, 0x0A, 0xE2], .ok [0x82]] none 0).ReadsTexts
      [['1', '\uFFFD', '\n'], ['\uFFFD']] := by
  have h : (ByteReader.mk [.ok [0x31, 0xF0, 0x9F], .ok [0x98, 0x0A, 0xE2], .ok [0x82]]
      none 0).Sound := ⟨rfl, by simp⟩
  exact ⟨h, ((readsTexts_iff h).1 _).2 rfl⟩

end ByteReader
end Reckoner
