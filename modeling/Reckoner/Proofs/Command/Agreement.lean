/-
# Trees and answers

The trees of a file are listed and its lines are answered in two different ways: the one
takes the whole text and cuts it into lines, the other reads bytes line by line.  Both come
to the same lines, one after the other: to each line with a tree there is the answer that the
value of the tree asks for, a blank line ends both, and where the listing ends with an error
the next answer is its message and the lines behind are answered as well
(`answers_agree_with_trees`).

Both are said on the lines of the text first (`treesOf`, `answersTo`), and each of them line
by line.  That the bytes of a text are cut into the same lines as the text is known from
`Reckoner.Proofs.Decoding.LineBreaks`, and what a session writes about some lines from
`Reckoner.Proofs.Session.Transcript`; with an input and a sink that cannot fail the session
always comes to its end.
-/

import Mathlib.Data.List.Forall2
import Reckoner.Proofs.Decoding.RoundTrip
import Reckoner.Proofs.Session.Transcript

namespace Reckoner
namespace Command

/-! ## What succeeds before the first error -/

section Results

variable {ε α : Type}

/-- What succeeds in front of other results succeeds before their first error. -/
@[simp] theorem successes_ok_append (found : List α) (results : List (Except ε α)) :
    successes (found.map .ok ++ results) = found ++ successes results := by
  induction found with
  | nil => rfl
  | cons a found ih =>
    rw [List.cons_append, ← ih]
    rfl

/-- Without results there is no success. -/
@[simp] theorem successes_nil : successes ([] : List (Except ε α)) = [] := rfl

/-- Behind an error nothing counts as a success. -/
@[simp] theorem successes_error (error : ε) (results : List (Except ε α)) :
    successes (.error error :: results) = [] := rfl

/-- The first error is behind what succeeds. -/
@[simp] theorem firstError?_ok_append (found : List α) (results : List (Except ε α)) :
    firstError? (found.map .ok ++ results) = firstError? results := by
  induction found with
  | nil => rfl
  | cons a found ih => exact ih

/-- Without results there is no error. -/
@[simp] theorem firstError?_nil : firstError? ([] : List (Except ε α)) = none := rfl

/-- An error in front is the first one. -/
@[simp] theorem firstError?_error (error : ε) (results : List (Except ε α)) :
    firstError? (.error error :: results) = some error := rfl

end Results

/-- Some lines begin with lines of one kind, as many as there are, and go on with one that is not of
this kind, if they go on. -/
theorem exists_forall₂ {α β : Type} (related : α → β → Prop) (lines : List α) :
    ∃ before found rest, lines = before ++ rest ∧ List.Forall₂ related before found ∧
      ∀ line ∈ rest.head?, ∀ b, ¬ related line b := by
  induction lines with
  | nil => exact ⟨[], [], [], rfl, .nil, fun line hline => by cases hline⟩
  | cons line lines ih =>
    by_cases hline : ∃ b, related line b
    · obtain ⟨b, hb⟩ := hline
      obtain ⟨before, found, rest, rfl, hbefore, hrest⟩ := ih
      exact ⟨line :: before, b :: found, rest, rfl, .cons hb hbefore, hrest⟩
    · refine ⟨[], [], line :: lines, rfl, .nil, fun line' hline' b hb => hline ⟨b, ?_⟩⟩
      obtain rfl : line = line' := by simpa using hline'
      exact hb

/-- A listing of two sequences is the listing of the one in front of that of the other. -/
theorem listing_append (first second : List (List Char)) :
    listing (first ++ second) = listing first ++ listing second := by
  rw [listing, List.flatMap_append, Utf8.encode_append, ← listing, ← listing]

/-! ## The trees of some lines -/

/-- Whether a line of a file has a tree, and this one. -/
def HasTree (file : String) (text : List Char) (tree : Expr) : Prop :=
  (Line.mk (some file) text).expr? = .ok (some tree)

/-- The trees of some lines up to the first one without tokens. -/
def treesOf (file : String) (lines : List (List Char)) :
    List (Except (Line × ParseError) Expr) :=
  let read (text : List Char) : Except (Line × ParseError) (Option Expr) :=
    let line : Line := ⟨some file, text⟩
    line.expr?.mapError fun error => (line, error)
  let hasTree : Except (Line × ParseError) (Option Expr) → Bool
    | .ok none => false
    | _ => true
  ((lines.map read).takeWhile hasTree).filterMap fun
    | .ok expr => expr.map .ok
    | .error error => some (.error error)

/-- The trees of a text are those of its lines. -/
theorem treesByLine_eq (file : String) (text : List Char) :
    treesByLine file text = treesOf file (textLines text) := rfl

section Lines

variable {file : String} {line : List Char}

/-- A line with a tree is listed by it, and the listing goes on. -/
theorem treesOf_of_tree {tree : Expr} (h : (Line.mk (some file) line).expr? = .ok (some tree))
    (lines : List (List Char)) : treesOf file (line :: lines) = .ok tree :: treesOf file lines := by
  simp [treesOf, h, Except.mapError]

/-- A line without tokens ends the listing of trees. -/
theorem treesOf_of_none (h : (Line.mk (some file) line).expr? = .ok none)
    (lines : List (List Char)) : treesOf file (line :: lines) = [] := by
  simp [treesOf, h, Except.mapError]

/-- A line with an error stands in the sequence as this error.  The sequence goes on behind it; that
the listing does not is decided where its first error is looked for. -/
theorem treesOf_of_error {error : ParseError}
    (h : (Line.mk (some file) line).expr? = .error error) (lines : List (List Char)) :
    treesOf file (line :: lines) = .error (⟨some file, line⟩, error) :: treesOf file lines := by
  simp [treesOf, h, Except.mapError]

/-- Lines with trees are listed by their trees. -/
theorem treesOf_append {before : List (List Char)} {trees : List Expr}
    (h : List.Forall₂ (HasTree file) before trees) (lines : List (List Char)) :
    treesOf file (before ++ lines) = trees.map .ok ++ treesOf file lines := by
  induction h with
  | nil => rfl
  | cons htree _ ih => rw [List.cons_append, treesOf_of_tree htree, ih]; rfl

/-! ## The answers to some lines -/

/-- The answers to some lines up to the first blank one. -/
def answersTo (file : String) (lines : List (List Char)) : List Char :=
  (lines.takeWhile fun text => !decide (IsBlankLine text)).flatMap fun text =>
    (Line.mk (some file) text).record

/-- What is answered to a line with a tree. -/
def answerTo (tree : Expr) : List Char :=
  match tree.value with
  | .ok value => "= ".toList ++ Decimal.ofInt64 value
  | .error _ => "error: division by zero".toList

/-- A line without tokens ends the answers. -/
theorem answersTo_of_none (h : (Line.mk (some file) line).expr? = .ok none)
    (lines : List (List Char)) : answersTo file (line :: lines) = [] := by
  have hblank : IsBlankLine line := expr?_eq_none_iff.1 h
  rw [answersTo, List.takeWhile_cons_of_neg (by simpa using hblank)]
  rfl

/-- Any other line is answered by its record, and the answers go on. -/
theorem answersTo_of_ne_none (h : (Line.mk (some file) line).expr? ≠ .ok none)
    (lines : List (List Char)) :
    answersTo file (line :: lines) = (Line.mk (some file) line).record ++ answersTo file lines := by
  have hblank : ¬ IsBlankLine line := fun hblank => h (expr?_eq_none_iff.2 hblank)
  rw [answersTo, List.takeWhile_cons_of_pos (by simpa using hblank)]
  rfl

/-- A line with a tree is answered by what the value of the tree asks for. -/
theorem answersTo_of_tree {tree : Expr} (h : (Line.mk (some file) line).expr? = .ok (some tree))
    (lines : List (List Char)) :
    answersTo file (line :: lines) = answerTo tree ++ '\n' :: answersTo file lines := by
  have hnone : (Line.mk (some file) line).expr? ≠ .ok none := by simp [h]
  have hrecord : (Line.mk (some file) line).record = answerTo tree ++ ['\n'] := by
    rw [Line.record, Line.value?_of_expr? h, answerTo]
    cases tree.value with
    | ok value => simp
    | error error => simp [LineError.message]
  rw [answersTo_of_ne_none hnone, hrecord, List.append_assoc, List.singleton_append]

/-- A line with an error is answered by the message of the error, and the answers go on. -/
theorem answersTo_of_error {error : ParseError}
    (h : (Line.mk (some file) line).expr? = .error error) (lines : List (List Char)) :
    answersTo file (line :: lines) =
      "error: ".toList ++ error.message.toList ++ '\n' :: answersTo file lines := by
  have hnone : (Line.mk (some file) line).expr? ≠ .ok none := by simp [h]
  have hvalue : (Line.mk (some file) line).value? = .error (.parse error) :=
    Line.value?_eq_parse_iff.2 h
  have hrecord : (Line.mk (some file) line).record =
      "error: ".toList ++ error.message.toList ++ "\n".toList := by
    simp only [Line.record, hvalue, LineError.message]
  rw [answersTo_of_ne_none hnone, hrecord]
  simp

/-- Lines with trees are answered by what the values of the trees ask for. -/
theorem answersTo_append {before : List (List Char)} {trees : List Expr}
    (h : List.Forall₂ (HasTree file) before trees) (lines : List (List Char)) :
    answersTo file (before ++ lines) =
      (trees.flatMap fun tree => answerTo tree ++ ['\n']) ++ answersTo file lines := by
  induction h with
  | nil => rfl
  | cons htree _ ih =>
    rw [List.cons_append, answersTo_of_tree htree, ih, List.flatMap_cons]
    simp

end Lines

/-- **Where a line has no tree,** it is blank, and trees and answers both end there, or there is an
error in it, and the lines behind are answered as well.  That there is no line at all is like a
blank one. -/
theorem ends_of_not_hasTree {file : String} {rest : List (List Char)}
    (h : ∀ line ∈ rest.head?, ∀ tree, ¬ HasTree file line tree) :
    (∀ line ∈ rest.head?, IsBlankLine line) ∧ treesOf file rest = [] ∧ answersTo file rest = [] ∨
      ∃ line after error, rest = line :: after ∧
        (Line.mk (some file) line).expr? = .error error ∧
        treesOf file rest = .error (⟨some file, line⟩, error) :: treesOf file after ∧
        answersTo file rest =
          "error: ".toList ++ error.message.toList ++ '\n' :: answersTo file after := by
  cases rest with
  | nil => exact .inl ⟨fun line hline => (by cases hline), rfl, rfl⟩
  | cons line after =>
    rcases hexpr : (Line.mk (some file) line).expr? with error | _ | tree
    · exact .inr ⟨line, after, error, rfl, hexpr, treesOf_of_error hexpr after,
        answersTo_of_error hexpr after⟩
    · refine .inl ⟨fun other hother => ?_, treesOf_of_none hexpr after,
        answersTo_of_none hexpr after⟩
      obtain rfl : line = other := by simpa using hother
      exact expr?_eq_none_iff.1 hexpr
    · exact absurd hexpr (h line rfl tree)

/-! ## What is left on the standard output -/

/-- **The lines of some bytes are answered** up to the first blank one, and without a
failure. -/
theorem answer_eq (file : String) (report : Bool) (bytes : List UInt8) :
    (answer file [] report bytes).code = 0 ∧
      (answer file [] report bytes).output =
        Utf8.encode (answersTo file (textLines (Utf8.decodeLossy bytes))) := by
  have hsound : (repl file [] report bytes).Sound :=
    ⟨ByteReader.sound_ofBytes 8192 bytes, ByteWriter.reliable_unlimited⟩
  obtain ⟨last, after, hends, -, -, hrun, hafter⟩ := hsound.proceeds.exists_run
  have hcontents : (repl file [] report bytes).reader.contents = bytes :=
    ByteReader.contents_ofBytes 8192 bytes
  have hwritten : after.writer.written.toList =
      Utf8.encode (Repl.transcript [] (some file) (repl file [] report bytes).reader.contents
        0 last) := hafter.written
  have htranscript : Repl.transcript [] (some file) bytes 0 last =
      answersTo file (textLines (Utf8.decodeLossy bytes)) := by
    rw [Repl.transcript_eq_flatMap (hcontents ▸ hends), List.drop_zero, answersTo,
      ← map_decodeLossy_rawLines]
  rw [hcontents, htranscript] at hwritten
  rw [answer, hrun]
  exact ⟨rfl, hwritten⟩

/-- A file that holds only the last lines of a text gets the answers to these lines. -/
theorem output_answer_of_append {text : List Char} {first rest : List (List Char)}
    (h : textLines text = first ++ rest) (file : String) (report : Bool) :
    (answer file [] report (Utf8.encode rest.flatten)).output =
      Utf8.encode (answersTo file rest) := by
  have hrest : textLines rest.flatten = rest := pieces_flatten_of_append h
  rw [(answer_eq file report _).2, Utf8.decodeLossy_encode, hrest]

/-! ## Agreement -/

/-- **The trees of a file and the answers to its lines agree.**  Each of the first lines has a
tree and is answered by its value, or by what is wrong with the division; the line behind them has
no tree.  If that line is blank, or there is none, the listing of the trees ends without an error
and there are no more answers.  Otherwise the listing ends with the error of that line, the next
answer is the message of this error, and the answers go on with the lines behind. -/
theorem answers_agree_with_trees {surroundings : Surroundings} {file : String} {text : List Char}
    (h : surroundings.file file = .ok (Utf8.encode text)) (options : Options) :
    let listed := perform surroundings options (.listTrees file)
    let answered := perform surroundings options (.answerFile file)
    ∃ (before rest : List (List Char)) (trees : List Expr),
      textLines text = before ++ rest ∧ List.Forall₂ (HasTree file) before trees ∧
      (∀ line ∈ rest.head?, ∀ tree, ¬ HasTree file line tree) ∧
      listed.output = listing (trees.map Expr.render) ∧ answered.code = 0 ∧
      (listed.code = 0 ∧ listed.messages = [] ∧ (∀ line ∈ rest.head?, IsBlankLine line) ∧
          answered.output = listing (trees.map answerTo) ∨
        listed.code = 1 ∧ ∃ (line : List Char) (after : List (List Char)) (error : ParseError),
          rest = line :: after ∧ (Line.mk (some file) line).expr? = .error error ∧
          listed.messages = [.report (error.diagnostic ⟨some file, line⟩)] ∧
          answered.output =
            listing (trees.map answerTo ++ ["error: ".toList ++ error.message.toList]) ++
              (answer file [] options.report (Utf8.encode after.flatten)).output) := by
  obtain ⟨before, trees, rest, hlines, hbefore, hrest⟩ :=
    exists_forall₂ (HasTree file) (textLines text)
  have hlisted : perform surroundings options (.listTrees file) = listTrees file text := by
    simp only [perform, withText, h, Utf8.decode?_encode]
  have hanswered : perform surroundings options (.answerFile file) =
      answer file [] options.report (Utf8.encode text) := by
    simp only [perform, h]
  have htrees : treesByLine file text = trees.map .ok ++ treesOf file rest := by
    rw [treesByLine_eq, hlines, treesOf_append hbefore]
  obtain ⟨hcode, houtput⟩ := answer_eq file options.report (Utf8.encode text)
  rw [Utf8.decodeLossy_encode, hlines, answersTo_append hbefore, Utf8.encode_append] at houtput
  have hfirst : listing (trees.map answerTo) =
      Utf8.encode (trees.flatMap fun tree => answerTo tree ++ ['\n']) := by
    rw [listing, List.flatMap_map]
  dsimp only
  rw [hlisted, hanswered, listTrees, htrees, successes_ok_append, firstError?_ok_append, houtput,
    ← hfirst]
  rcases ends_of_not_hasTree hrest with ⟨hblank, htreesOf, hanswers⟩ |
    ⟨line, after, error, rfl, hexpr, htreesOf, hanswers⟩
  · rw [htreesOf, hanswers]
    refine ⟨before, rest, trees, hlines, hbefore, hrest, ?_, hcode,
      .inl ⟨rfl, rfl, hblank, List.append_nil _⟩⟩
    simp
  · rw [htreesOf, hanswers]
    refine ⟨before, line :: after, trees, hlines, hbefore, hrest, by simp, hcode,
      .inr ⟨rfl, line, after, error, rfl, hexpr, rfl, ?_⟩⟩
    -- The lines behind are those of a text of their own, and a run on it starts afresh.
    have hmessage : listing ["error: ".toList ++ error.message.toList] =
        Utf8.encode ("error: ".toList ++ error.message.toList ++ ['\n']) := by
      rw [listing, List.flatMap_singleton]
    rw [List.append_cons] at hlines
    rw [output_answer_of_append hlines, listing_append, hmessage, List.append_cons,
      Utf8.encode_append, List.append_assoc (listing _)]

/-- A file with the lines `7`, `1 2` and `3`. -/
def threeLines : Surroundings where
  prompt := none
  input := []
  file := fun _ => .ok (Utf8.encode ['7', '\n', '1', ' ', '2', '\n', '3'])

/-- The second of three lines has an error, with which the listing ends; the third one is
answered. -/
theorem answers_agree_with_trees_of_three_lines :
    threeLines.file "numbers" = .ok (Utf8.encode ['7', '\n', '1', ' ', '2', '\n', '3']) ∧
    let listed := perform threeLines {} (.listTrees "numbers")
    let answered := perform threeLines {} (.answerFile "numbers")
    ∃ (before rest : List (List Char)) (trees : List Expr),
      textLines ['7', '\n', '1', ' ', '2', '\n', '3'] = before ++ rest ∧
      List.Forall₂ (HasTree "numbers") before trees ∧
      (∀ line ∈ rest.head?, ∀ tree, ¬ HasTree "numbers" line tree) ∧
      listed.output = listing (trees.map Expr.render) ∧ answered.code = 0 ∧
      (listed.code = 0 ∧ listed.messages = [] ∧ (∀ line ∈ rest.head?, IsBlankLine line) ∧
          answered.output = listing (trees.map answerTo) ∨
        listed.code = 1 ∧ ∃ (line : List Char) (after : List (List Char)) (error : ParseError),
          rest = line :: after ∧ (Line.mk (some "numbers") line).expr? = .error error ∧
          listed.messages = [.report (error.diagnostic ⟨some "numbers", line⟩)] ∧
          answered.output =
            listing (trees.map answerTo ++ ["error: ".toList ++ error.message.toList]) ++
              (answer "numbers" [] false (Utf8.encode after.flatten)).output) :=
  ⟨rfl, answers_agree_with_trees rfl {}⟩

end Command
end Reckoner
