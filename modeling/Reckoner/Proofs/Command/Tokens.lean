/-
# The listing of tokens

The tokens of a file are listed line by line.  Where no line has an error the listing is of all
tokens of all lines, and one entry of each line is its end.  Otherwise the listing stops at the
first error of the file (`listing_of_tokens`).  A character that is no token is then the first
one of the whole file, since lines with tokens and what is in front of an item are plain, and the
number of its line counts the line breaks in front of it, since each line in front has one.  A
number out of range stands in front of every such character, for the same reason.

A line either has tokens (`HasTokens`) or has its first error behind some tokens
(`exists_error_of_not_hasTokens`), so the lines of a text either all have tokens
(`exists_forall₂_hasTokens`) or some of them do that are followed by one that does not
(`exists_first_error`).  The listing is worked out for the one kind of text and for the other
(`listTokens_of_forall₂`, `listTokens_of_error`).
-/

import Reckoner.Proofs.Command.Agreement
import Reckoner.Proofs.Lexing.Foreign

namespace Reckoner
namespace Command

open Decimal (int64Bound)

/-! ## Lines with tokens -/

/-- Whether a line has no error, and these tokens. -/
def HasTokens (line : List Char) (tokens : List Token) : Prop := items line = tokens.map .ok

/-- A line that does not have tokens has an error behind some of them. -/
theorem exists_error_of_not_hasTokens {line : List Char} (h : ∀ tokens, ¬ HasTokens line tokens) :
    ∃ (tokens : List Token) (error : LexicalError),
      items line = tokens.map .ok ++ [.error error] := by
  obtain ⟨tokens, last, hitems, -⟩ := exists_readsOn line [] line rfl
  cases last with
  | error error => exact ⟨tokens, error, hitems⟩
  | ok last =>
    have htokens : HasTokens line (tokens ++ [last]) := by
      rw [HasTokens, List.map_append]
      exact hitems
    exact absurd htokens (h _)

/-- A line that has tokens has no error among its items. -/
theorem HasTokens.error_not_mem {line : List Char} {tokens : List Token}
    (h : HasTokens line tokens) (error : LexicalError) : .error error ∉ items line := by
  rw [h]
  simp

/-- The entry of a token is on one line: the literal of an end of line is left out of its entry, and
no other literal has a line break. -/
theorem lineBreak_not_mem_render {line : List Char} {token : Token} (h : .ok token ∈ items line) :
    '\n' ∉ token.render := by
  obtain ⟨before, literal, after, -, hitem, -⟩ := exists_of_mem_items h
  refine Token.lineBreak_not_mem_render fun hkind => ?_
  rw [hitem.eq_of_ok.2]
  exact hitem.not_mem_lineBreak hkind

/-- **One entry of a line is its end.**  The last of its tokens is an end of line, none in front of
it is, and an entry is that of an end of line just when its token is one. -/
theorem HasTokens.count_endOfLine {line : List Char} {tokens : List Token}
    (h : HasTokens line tokens) :
    (tokens.map Token.render).count "EOL  null".toList = 1 := by
  obtain ⟨front, last, hitems, hreads⟩ := exists_readsOn line [] line rfl
  obtain ⟨hlast, hfront⟩ := hreads.isLast
  have hwhole : tokens.map Except.ok = front.map .ok ++ [last] := h.symm.trans hitems
  obtain ⟨token, rfl, rfl⟩ := exists_eq_append_of_map_ok hwhole
  have hnone : (front.map Token.render).count "EOL  null".toList = 0 := by
    refine List.count_eq_zero.2 fun hmem => ?_
    obtain ⟨token, htoken, hrender⟩ := List.mem_map.1 hmem
    exact hfront token htoken (Token.render_eq_endOfLine_iff.1 hrender)
  rw [List.map_append, List.count_append, hnone, List.map_singleton,
    Token.render_eq_endOfLine_iff.2 hlast, List.count_singleton_self]

/-- **A line without an error** has no foreign character: the first one on a line would be its
error. -/
theorem not_isForeign_of_error_not_mem {line : List Char}
    (h : ∀ error, .error error ∉ items line) (hbreak : '\n' ∉ line.dropLast) :
    ∀ c ∈ line, ¬ IsForeign c := by
  intro c hc hforeign
  obtain ⟨before, after, rfl⟩ := List.append_of_mem hc
  have hbefore : '\n' ∉ before := by
    intro hmem
    rw [List.dropLast_append_cons] at hbreak
    exact hbreak (List.mem_append_left _ hmem)
  obtain ⟨⟨tokens, error, hitems⟩, -⟩ := @items_of_isForeign before after c hforeign hbefore
  exact h error (by rw [hitems]; simp)

section Lines

variable {lines : List (List Char)} {tokens : List (List Token)}

/-- Lines with tokens have no error. -/
theorem error_not_mem_of_forall₂ (h : List.Forall₂ HasTokens lines tokens) :
    ∀ line ∈ lines, ∀ error, .error error ∉ items line :=
  ((List.forall₂_and_left _ _).1 (h.imp fun _ _ htokens =>
    ⟨htokens.error_not_mem, htokens⟩)).1

/-- Each of some lines with tokens has one entry that is its end. -/
theorem count_endOfLine_of_forall₂ (h : List.Forall₂ HasTokens lines tokens) :
    ∀ found ∈ tokens, (found.map Token.render).count "EOL  null".toList = 1 :=
  ((List.forall₂_and_left _ _).1 (h.flip.imp fun _ _ (htokens : HasTokens _ _) =>
    ⟨htokens.count_endOfLine, htokens⟩)).1

/-- Lines without an error have tokens: the first line that had none would have an error. -/
theorem exists_forall₂_hasTokens (h : ∀ line ∈ lines, ∀ error, .error error ∉ items line) :
    ∃ tokens, List.Forall₂ HasTokens lines tokens := by
  obtain ⟨before, tokens, rest, rfl, hbefore, hrest⟩ := exists_forall₂ HasTokens lines
  cases rest with
  | nil => exact ⟨tokens, (List.append_nil before).symm ▸ hbefore⟩
  | cons line later =>
    obtain ⟨found, error, hline⟩ := exists_error_of_not_hasTokens (hrest line rfl)
    refine absurd ?_ (h line (by simp) error)
    rw [hline]
    simp

/-- **The first error of some lines** is behind lines with tokens, and behind tokens on its line. -/
theorem exists_first_error (h : ∃ line ∈ lines, ∃ error, .error error ∈ items line) :
    ∃ (before later : List (List Char)) (line : List Char) (tokens : List (List Token))
        (found : List Token) (error : LexicalError),
      lines = before ++ line :: later ∧ List.Forall₂ HasTokens before tokens ∧
      items line = found.map .ok ++ [.error error] := by
  obtain ⟨before, tokens, rest, rfl, hbefore, hrest⟩ := exists_forall₂ HasTokens lines
  cases rest with
  | nil =>
    obtain ⟨line, hline, error, herror⟩ := h
    rw [List.append_nil] at hline
    exact absurd herror (error_not_mem_of_forall₂ hbefore line hline error)
  | cons line later =>
    obtain ⟨found, error, hline⟩ := exists_error_of_not_hasTokens (hrest line rfl)
    exact ⟨before, later, line, tokens, found, error, rfl, hbefore, hline⟩

end Lines

/-! ## The items of some lines -/

/-- The items of some lines with `index` lines in front of them.  An error goes with its line and
with the number of the line, which begins at 1. -/
def itemsOfLines (file : String) (index : Nat) (lines : List (List Char)) :
    List (Except (Nat × Line × LexicalError) Token) :=
  (lines.zipIdx index).flatMap fun (line, index) =>
    (items line).map (·.mapError fun error => (index + 1, ⟨some file, line⟩, error))

/-- The items of a text are those of its lines, counted from the first. -/
theorem itemsByLine_eq (file : String) (text : List Char) :
    itemsByLine file text = itemsOfLines file 0 (textLines text) := rfl

/-- The items of the first line come first, and its errors get its number. -/
theorem itemsOfLines_cons (file : String) (index : Nat) (line : List Char)
    (lines : List (List Char)) :
    itemsOfLines file index (line :: lines) =
      (items line).map (·.mapError fun error => (index + 1, ⟨some file, line⟩, error)) ++
        itemsOfLines file (index + 1) lines := by
  rw [itemsOfLines, List.zipIdx_cons, List.flatMap_cons, ← itemsOfLines]

/-- What succeeds has no error to change. -/
theorem map_mapError_ok {ε δ α : Type} (f : ε → δ) (found : List α) :
    (found.map Except.ok).map (Except.mapError f) = found.map .ok := by
  rw [List.map_map]
  rfl

/-- Lines with tokens are listed by their tokens, and the lines behind by their number. -/
theorem itemsOfLines_append {before : List (List Char)} {tokens : List (List Token)}
    (h : List.Forall₂ HasTokens before tokens) (file : String) (index : Nat)
    (lines : List (List Char)) :
    itemsOfLines file index (before ++ lines) =
      tokens.flatten.map .ok ++ itemsOfLines file (index + before.length) lines := by
  induction h generalizing index with
  | nil => rfl
  | @cons line found before tokens htokens _ ih =>
    rw [List.cons_append, itemsOfLines_cons, htokens, map_mapError_ok, ih, List.flatten_cons,
      List.map_append, List.append_assoc, List.length_cons, Nat.add_assoc, Nat.add_comm 1]

/-- The first error on a line, with the number of the line. -/
theorem itemsOfLines_of_error {line : List Char} {tokens : List Token} {error : LexicalError}
    (h : items line = tokens.map .ok ++ [.error error]) (file : String) (index : Nat)
    (lines : List (List Char)) :
    itemsOfLines file index (line :: lines) =
      tokens.map .ok ++ .error (index + 1, ⟨some file, line⟩, error) ::
        itemsOfLines file (index + 1) lines := by
  rw [itemsOfLines_cons, h, List.map_append, map_mapError_ok, List.append_assoc]
  rfl

/-! ## The listing -/

/-- The note about a character that is no token. -/
def note (number : Nat) (c : Char) : String :=
  s!"[line {number}] Error: Unexpected character: {c}"

/-- **How a listing ends** at the first error of a text: in its line, behind all that is in front of
this line.

At a character that is no token it ends with code 65 and a note with this character and the number
of its line, and no such character is in front.  At a number out of range it ends with code 1, and
no such character is in front of this number or in it. -/
def EndsWith (earlier line : List Char) (listed : Outcome) : LexicalError → Prop
  | .invalidCharacter c offset =>
    listed.code = 65 ∧ ∃ front after, line = front ++ c :: after ∧ offset = byteLength front ∧
      IsForeign c ∧ (∀ d ∈ earlier ++ front, ¬ IsForeign d) ∧
      listed.messages.head? = some (.note (note ((earlier ++ front).count '\n' + 1) c))
  | .numberOutOfRange span =>
    listed.code = 1 ∧ ∃ front literal after, line = front ++ literal ++ after ∧
      span = ⟨byteLength front, byteLength literal⟩ ∧ IsNumeral literal after ∧
      int64Bound ≤ digitsValue literal ∧ ∀ d ∈ earlier ++ front ++ literal, ¬ IsForeign d

/-- **A text without an error** has all its tokens listed. -/
theorem listTokens_of_forall₂ (file : String) {text : List Char} {tokens : List (List Token)}
    (h : List.Forall₂ HasTokens (textLines text) tokens) :
    (listTokens file text).code = 0 ∧
      (listTokens file text).output = listing (tokens.flatten.map Token.render) := by
  have hfound : itemsByLine file text = tokens.flatten.map .ok ++ [] := by
    rw [itemsByLine_eq, ← List.append_nil (textLines text), itemsOfLines_append h]
    rfl
  rw [listTokens, hfound, successes_ok_append, firstError?_ok_append, successes_nil,
    List.append_nil]
  exact ⟨rfl, rfl⟩

section FirstError

variable (file : String) {text line : List Char} {before later : List (List Char)}
  {tokens : List (List Token)} {found : List Token} {error : LexicalError}

/-- The items of a text with an error: the tokens in front of it, then the error with the number of
its line, then whatever the lines behind have. -/
theorem itemsByLine_of_error (hlines : textLines text = before ++ line :: later)
    (hbefore : List.Forall₂ HasTokens before tokens)
    (hline : items line = found.map .ok ++ [.error error]) :
    itemsByLine file text = (tokens.flatten ++ found).map .ok ++
      .error (before.length + 1, ⟨some file, line⟩, error) ::
        itemsOfLines file (before.length + 1) later := by
  rw [itemsByLine_eq, hlines, itemsOfLines_append hbefore, itemsOfLines_of_error hline,
    List.map_append, List.append_assoc, Nat.zero_add]

/-- **The first error of a text** ends its listing: the tokens in front of it are listed, and what
the error is decides the code and the note. -/
theorem listTokens_of_error (hlines : textLines text = before ++ line :: later)
    (hbefore : List.Forall₂ HasTokens before tokens)
    (hline : items line = found.map .ok ++ [.error error]) :
    (listTokens file text).output = listing ((tokens.flatten ++ found).map Token.render) ∧
      match error with
      | .invalidCharacter c _ => (listTokens file text).code = 65 ∧
        (listTokens file text).messages.head? = some (.note (note (before.length + 1) c))
      | .numberOutOfRange _ => (listTokens file text).code = 1 := by
  have hfound := itemsByLine_of_error file hlines hbefore hline
  cases error <;>
    rw [listTokens, hfound, successes_ok_append, firstError?_ok_append, successes_error,
      List.append_nil, firstError?_error]
  · exact ⟨rfl, rfl, rfl⟩
  · exact ⟨rfl, rfl⟩

/-- **What is in front of the first error** is plain, so the error is a number in front of all
foreign characters or the first one of these, on the line with this number. -/
theorem endsWith_listTokens (hlines : textLines text = before ++ line :: later)
    (hbefore : List.Forall₂ HasTokens before tokens)
    (hline : items line = found.map .ok ++ [.error error]) :
    EndsWith before.flatten line (listTokens file text) error := by
  have hearlier : ∀ d ∈ before.flatten, ¬ IsForeign d := by
    intro d hd
    obtain ⟨other, hother, hd⟩ := List.mem_flatten.1 hd
    have hmem : other ∈ textLines text := by
      rw [hlines]
      exact List.mem_append_left _ hother
    refine not_isForeign_of_error_not_mem (error_not_mem_of_forall₂ hbefore other hother)
      (fun hbreak => ?_) d hd
    exact absurd (isEnd_of_mem_dropLast other hmem '\n' hbreak) (by decide)
  -- Each line in front ends with its line break, since another line comes behind it.
  have hlength : before.flatten.count '\n' = before.length := countP_flatten_of_append hlines
  have hmem : .error error ∈ items line := by
    rw [hline]
    simp
  obtain ⟨front, literal, after, rfl, hitem, hplain⟩ := exists_of_mem_items hmem
  obtain ⟨-, hlisted⟩ := listTokens_of_error file hlines hbefore hline
  have hfront : ∀ d ∈ before.flatten ++ front, ¬ IsForeign d :=
    List.forall_mem_append.2 ⟨hearlier, fun d hd => (hplain d hd).2⟩
  cases hitem with
  | outOfRange hnumeral hvalue =>
    refine ⟨hlisted, front, literal, after, rfl, rfl, hnumeral, hvalue, ?_⟩
    exact List.forall_mem_append.2 ⟨hfront, fun d hd => (hnumeral.isPlain d hd).2⟩
  | @foreign c hforeign =>
    have hcount : (before.flatten ++ front).count '\n' = before.length := by
      have hnone : front.count '\n' = 0 :=
        List.count_eq_zero.2 fun hbreak => (hplain '\n' hbreak).1 rfl
      rw [List.count_append, hlength, hnone, Nat.add_zero]
    refine ⟨hlisted.1, front, after, by simp, rfl, hforeign, hfront, ?_⟩
    rw [hcount]
    exact hlisted.2

end FirstError

/-- **A file has its tokens listed** up to its first error.  Without an error the listing is of
all tokens of all lines and has one end of each line.  Each entry is on one line.

The first line with an error is behind lines with tokens, and the text is these lines, this line
and the lines behind it, so that places in the file are places in these. -/
theorem listing_of_tokens {surroundings : Surroundings} {file : String} {text : List Char}
    (h : surroundings.file file = .ok (Utf8.encode text)) (options : Options) :
    let listed := perform surroundings options (.listTokens file)
    ((∀ line ∈ textLines text, ∀ error, .error error ∉ items line) →
      ∃ tokens : List (List Token), List.Forall₂ HasTokens (textLines text) tokens ∧
        listed.code = 0 ∧ listed.output = listing (tokens.flatten.map Token.render) ∧
        ∀ found ∈ tokens, (found.map Token.render).count "EOL  null".toList = 1) ∧
    ((∃ line ∈ textLines text, ∃ error, .error error ∈ items line) →
      ∃ (before later : List (List Char)) (line : List Char) (tokens : List (List Token))
          (found : List Token) (error : LexicalError),
        textLines text = before ++ line :: later ∧
        text = before.flatten ++ line ++ later.flatten ∧
        List.Forall₂ HasTokens before tokens ∧
        items line = found.map .ok ++ [.error error] ∧
        listed.output = listing ((tokens.flatten ++ found).map Token.render) ∧
        EndsWith before.flatten line listed error) ∧
    ∀ line ∈ textLines text, ∀ token, .ok token ∈ items line → '\n' ∉ token.render := by
  have hlisted : perform surroundings options (.listTokens file) = listTokens file text := by
    simp only [perform, withText, h, Utf8.decode?_encode]
  dsimp only
  rw [hlisted]
  refine ⟨fun hnone => ?_, fun hsome => ?_, fun line _ token => lineBreak_not_mem_render⟩
  · obtain ⟨tokens, htokens⟩ := exists_forall₂_hasTokens hnone
    obtain ⟨hcode, houtput⟩ := listTokens_of_forall₂ file htokens
    exact ⟨tokens, htokens, hcode, houtput, count_endOfLine_of_forall₂ htokens⟩
  · obtain ⟨before, later, line, tokens, found, error, hlines, hbefore, hline⟩ :=
      exists_first_error hsome
    refine ⟨before, later, line, tokens, found, error, hlines, ?_, hbefore, hline,
      (listTokens_of_error file hlines hbefore hline).1,
      endsWith_listTokens file hlines hbefore hline⟩
    rw [← flatten_pieces (· == '\n') text, ← textLines, hlines]
    simp

/-- The file `sound` with the line `7`, and others with the lines `7` and `?`. -/
def soundAndOthers : Surroundings where
  prompt := none
  input := []
  file := fun name => .ok (Utf8.encode (if name = "sound" then ['7', '\n'] else ['7', '\n', '?']))

/-- One of two files has all its tokens listed, the other one those of its first line. -/
theorem listing_of_tokens_of_two_files :
    soundAndOthers.file "sound" = .ok (Utf8.encode ['7', '\n']) ∧
    soundAndOthers.file "marked" = .ok (Utf8.encode ['7', '\n', '?']) ∧
    (∃ tokens : List (List Token), List.Forall₂ HasTokens (textLines ['7', '\n']) tokens ∧
      (perform soundAndOthers {} (.listTokens "sound")).code = 0 ∧
      (perform soundAndOthers {} (.listTokens "sound")).output =
        listing (tokens.flatten.map Token.render) ∧
      ∀ found ∈ tokens, (found.map Token.render).count "EOL  null".toList = 1) ∧
    ∃ (before later : List (List Char)) (line : List Char) (tokens : List (List Token))
        (found : List Token) (error : LexicalError),
      textLines ['7', '\n', '?'] = before ++ line :: later ∧
      ['7', '\n', '?'] = before.flatten ++ line ++ later.flatten ∧
      List.Forall₂ HasTokens before tokens ∧
      items line = found.map .ok ++ [.error error] ∧
      (perform soundAndOthers {} (.listTokens "marked")).output =
        listing ((tokens.flatten ++ found).map Token.render) ∧
      EndsWith before.flatten line (perform soundAndOthers {} (.listTokens "marked")) error := by
  have hsound : HasTokens ['7', '\n'] [⟨.number 7, ['7'], 0⟩, ⟨.endOfLine, ['\n'], 1⟩] := by
    unfold HasTokens
    decide +kernel
  have hmarked : .error (.invalidCharacter '?' 0) ∈ items ['?'] := by decide +kernel
  have hnone : ∀ line ∈ textLines ['7', '\n'], ∀ error, .error error ∉ items line := by
    intro line hline
    obtain rfl : line = ['7', '\n'] := List.mem_singleton.1 hline
    exact hsound.error_not_mem
  have hsome : ∃ line ∈ textLines ['7', '\n', '?'], ∃ error, .error error ∈ items line :=
    ⟨['?'], by decide, _, hmarked⟩
  exact ⟨rfl, rfl, (listing_of_tokens rfl {}).1 hnone, (listing_of_tokens rfl {}).2.1 hsome⟩

end Command
end Reckoner
