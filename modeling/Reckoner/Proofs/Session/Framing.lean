/-
# Output line by line

Without a prompt a session writes the records of its lines and nothing else, and each record is
one line of output.  A message can hold a character of the input as it is, but only one that no
token contains, and a line break is none of these (`lineBreak_not_mem_message`).  So where the
output is cut behind each line break its lines are the replies to the lines that were answered,
and what a line of output says is what came of its line: replies that differ are written
differently (`Reply.text_inj`), and a message names the character it is about
(`message_eq_offence_iff`).  Two runs that write the same have had the same replies
(`output_isFramed`).

The way back from the output to the replies is in two parts: the lines of the output are the
encoded replies, since none of these has a line break inside (`rawLines_output`), and an encoded
text tells the text (`replies_eq_of_output_eq`).
-/

import Reckoner.Proofs.Decoding.RoundTrip
import Reckoner.Proofs.Parsing.Error
import Reckoner.Proofs.Session.Transcript

namespace Reckoner

/-! ## Messages -/

/-- What is said of a character that no token contains. -/
def offence (c : Char) : String := (LexicalError.invalidCharacter c 0).message

/-- The words about a character, with the character between quotes. -/
theorem toList_offence (c : Char) :
    (offence c).toList = "invalid character '".toList ++ c :: "'".toList := by
  show ("invalid character '" ++ String.singleton c ++ "'").toList = _
  rw [String.toList_append, String.toList_append, String.toList_singleton, List.append_assoc]
  rfl

/-- The words about a character tell the character. -/
theorem offence_inj {c d : Char} : offence c = offence d ↔ c = d := by
  refine ⟨fun h => ?_, fun h => h ▸ rfl⟩
  have hlist := congrArg String.toList h
  rw [toList_offence, toList_offence] at hlist
  exact (List.cons.inj (List.append_cancel_left hlist)).1

/-- **A message names the character** that it is about, and no other message looks alike.  The other
messages begin with other words, and the quotes around the character are the same in all. -/
theorem message_eq_offence_iff {error : LineError} {c : Char} :
    error.message = offence c ↔
      ∃ offset, error = .parse (.lexical (.invalidCharacter c offset)) := by
  constructor
  · intro h
    have hlist := congrArg String.toList h
    rw [toList_offence] at hlist
    cases error with
    | parse error =>
      cases error with
      | lexical error =>
        cases error with
        | invalidCharacter d offset => exact ⟨offset, by rw [offence_inj.1 h]⟩
        | numberOutOfRange =>
          have hwords : "number literal out of range".toList =
              "invalid character '".toList ++ c :: "'".toList := hlist
          simp at hwords
      | grammar =>
        have hwords : "invalid token sequence".toList =
            "invalid character '".toList ++ c :: "'".toList := hlist
        simp at hwords
    | divisionByZero =>
      have hwords : "division by zero".toList =
          "invalid character '".toList ++ c :: "'".toList := hlist
      simp at hwords
  · rintro ⟨offset, rfl⟩
    rfl

/-- **A message is on one line.**  The only part of the input in it is a foreign character, and a
line break is none. -/
theorem lineBreak_not_mem_message {line : Line} {error : LineError}
    (h : line.value? = .error error) : '\n' ∉ error.message.toList := by
  cases error with
  | parse error =>
    cases error with
    | lexical error =>
      cases error with
      | invalidCharacter c offset =>
        obtain ⟨item, hitem, habout⟩ := exists_isAbout_of_expr?_eq_error
          (Line.value?_eq_parse_iff.1 h)
        obtain ⟨before, literal, after, -, hfound, -⟩ := exists_of_mem_items hitem
        obtain rfl : item = .error (.invalidCharacter c offset) := habout
        cases hfound with
        | foreign hforeign =>
          have hmessage : '\n' ∉ (offence c).toList := by
            rw [toList_offence]
            simp [hforeign.2.2.1.symm]
          exact hmessage
      | numberOutOfRange span =>
        show '\n' ∉ "number literal out of range".toList
        decide
    | grammar error =>
      show '\n' ∉ "invalid token sequence".toList
      decide
  | divisionByZero error =>
    show '\n' ∉ "division by zero".toList
    decide

namespace Repl

/-! ## Replies -/

/-- What is replied to a line that is not blank: its value, or the message of its error. -/
abbrev Reply := Except String Int64

/-- A reply as a text. -/
def Reply.text : Reply → List Char
  | .ok value => "= ".toList ++ Decimal.ofInt64 value
  | .error message => "error: ".toList ++ message.toList

/-- **Replies that differ are written differently.** -/
theorem Reply.text_inj {first second : Reply} : first.text = second.text ↔ first = second := by
  refine ⟨fun h => ?_, fun h => h ▸ rfl⟩
  cases first with
  | ok value =>
    cases second with
    | ok other => rw [Decimal.ofInt64_inj.1 (List.append_cancel_left h)]
    | error message =>
      have hhead : some '=' = some 'e' := congrArg List.head? h
      cases hhead
  | error message =>
    cases second with
    | ok value =>
      have hhead : some 'e' = some '=' := congrArg List.head? h
      cases hhead
    | error other => rw [String.toList_inj.1 (List.append_cancel_left h)]

/-- Whether a reply is what comes of a line. -/
def IsReplyTo (line : Line) (reply : Reply) : Prop :=
  line.value?.mapError LineError.message = reply.map some

/-- **The record of a line** is the reply to it, and one line of output. -/
theorem exists_isReplyTo {line : Line} (h : ¬ IsBlankLine line.text) :
    ∃ reply, IsReplyTo line reply ∧ '\n' ∉ reply.text ∧ line.record = reply.text ++ ['\n'] := by
  have hend : "\n".toList = ['\n'] := rfl
  unfold IsReplyTo Line.record
  rw [hend]
  rcases hvalue : line.value? with error | _ | value
  · refine ⟨.error error.message, rfl, ?_, rfl⟩
    show '\n' ∉ "error: ".toList ++ error.message.toList
    simp [lineBreak_not_mem_message hvalue]
  · exact absurd (value?_eq_none_iff.1 hvalue) h
  · refine ⟨.ok value, rfl, ?_, rfl⟩
    show '\n' ∉ "= ".toList ++ Decimal.ofInt64 value
    simp [Decimal.lineBreak_not_mem_ofInt64]

/-- The message in a reply names a character just where the line has it as its first error. -/
theorem IsReplyTo.eq_offence_iff {line : Line} {message : String}
    (h : IsReplyTo line (.error message)) {c : Char} :
    message = offence c ↔
      ∃ offset, line.value? = .error (.parse (.lexical (.invalidCharacter c offset))) := by
  unfold IsReplyTo at h
  cases hvalue : line.value? with
  | ok value =>
    rw [hvalue] at h
    cases h
  | error error =>
    rw [hvalue] at h
    obtain rfl := Except.error.inj h
    rw [message_eq_offence_iff]
    exact exists_congr fun offset => ⟨fun heq => heq ▸ rfl, fun heq => Except.error.inj heq⟩

/-! ## Output -/

/-- Replies one after the other, each on its line. -/
def output (replies : List Reply) : List UInt8 :=
  Utf8.encode (replies.flatMap fun reply => reply.text ++ ['\n'])

/-- The first reply is on the first line. -/
theorem output_cons (reply : Reply) (replies : List Reply) :
    output (reply :: replies) = Utf8.encode (reply.text ++ ['\n']) ++ output replies := by
  rw [output, List.flatMap_cons, Utf8.encode_append, ← output]

/-- **Output is cut into the replies** behind its line breaks. -/
theorem rawLines_output {replies : List Reply} (h : ∀ reply ∈ replies, '\n' ∉ reply.text) :
    rawLines (output replies) = replies.map fun reply => Utf8.encode (reply.text ++ ['\n']) := by
  induction replies with
  | nil => rfl
  | cons reply replies ih =>
    obtain ⟨hreply, hreplies⟩ := List.forall_mem_cons.1 h
    have hend : Utf8.encode ['\n'] = [lineBreak] := rfl
    have hbreak : lineBreak ∉ Utf8.encode reply.text := Utf8.lineBreak_not_mem_encode hreply
    rw [output_cons, Utf8.encode_append, hend, List.append_assoc, List.singleton_append,
      rawLines_append_lineBreak _ hbreak, ih hreplies, List.map_cons, Utf8.encode_append, hend]

/-- **Output tells the replies:** its lines do, one by one. -/
theorem replies_eq_of_output_eq {first second : List Reply}
    (hfirst : ∀ reply ∈ first, '\n' ∉ reply.text) (hsecond : ∀ reply ∈ second, '\n' ∉ reply.text)
    (h : output first = output second) : first = second := by
  have hlines := congrArg rawLines h
  rw [rawLines_output hfirst, rawLines_output hsecond] at hlines
  refine (List.map_inj_right fun reply other hsame => ?_).1 hlines
  have htext := congrArg Utf8.decodeLossy hsame
  rw [Utf8.decodeLossy_encode, Utf8.decodeLossy_encode] at htext
  exact Reply.text_inj.1 (List.append_cancel_right htext)

/-- A line of the input of a session, by its number. -/
def lineOf (start : Repl) (number : Nat) : Line :=
  ⟨start.filename, Utf8.decodeLossy (rawLine start.reader.contents number)⟩

/-- **A transcript without a prompt** is the replies to its lines.  The induction is on the number
of lines. -/
theorem exists_replies {start : Repl} {first last : Nat}
    (h : EndsAt start.reader.contents first last) :
    ∃ replies : List Reply, replies.length = last - first ∧
      (∀ number reply, replies[number]? = some reply →
        IsReplyTo (lineOf start (first + number)) reply) ∧
      (∀ reply ∈ replies, '\n' ∉ reply.text) ∧
      Utf8.encode (transcript [] start.filename start.reader.contents first last) =
        output replies := by
  obtain ⟨hle, hlast, hbefore⟩ := h
  induction hn : last - first generalizing first with
  | zero =>
    obtain rfl : first = last := by omega
    refine ⟨[], by simp, fun number reply hreply => (by cases hreply),
      fun reply hreply => (by cases hreply), ?_⟩
    rw [transcript_self]
    rfl
  | succ n ih =>
    have hlt : first < last := by omega
    obtain ⟨reply, hreply, hbreak, hrecord⟩ :=
      @exists_isReplyTo (lineOf start first) (hbefore first (Nat.le_refl _) hlt)
    obtain ⟨replies, hlength, hreplies, hbreaks, htext⟩ :=
      @ih (first + 1) hlt (fun number hnumber => hbefore number (by omega)) (by omega)
    refine ⟨reply :: replies, by rw [List.length_cons, hlength], ?_,
      List.forall_mem_cons.2 ⟨hbreak, hbreaks⟩, ?_⟩
    · intro number other hother
      cases number with
      | zero =>
        obtain rfl := Option.some.inj hother
        exact hreply
      | succ number =>
        have hplace : first + (number + 1) = first + 1 + number := by omega
        rw [hplace]
        exact hreplies number other (by simpa using hother)
    · have hone : record start.filename (rawLine start.reader.contents first) =
          reply.text ++ ['\n'] := hrecord
      rw [transcript_of_lt hlt, List.nil_append, hone, Utf8.encode_append, htext, output_cons]

/-- What a run of the session `start` writes that begins at `before`, perhaps behind other runs:
replies, one on each line of output. -/
structure IsFramed (start before after : Repl) (replies : List Reply) : Prop where
  /-- The run comes to its end. -/
  run_eq : run before = .ok () after
  /-- It writes the replies and nothing else. -/
  written : after.writer.written.toList = before.writer.written.toList ++ output replies
  /-- There is a reply to each line that the run has read without the last one. -/
  linesRead : after.linesRead = before.linesRead + replies.length + 1
  /-- The replies are what comes of these lines, in order. -/
  isReplyTo : ∀ number reply, replies[number]? = some reply →
    IsReplyTo (lineOf start (before.linesRead + number)) reply
  /-- A message names a character just where the line has it as its first error. -/
  offence : ∀ number message, replies[number]? = some (.error message) → ∀ c,
    message = offence c ↔ ∃ offset, (lineOf start (before.linesRead + number)).value? =
      .error (.parse (.lexical (.invalidCharacter c offset)))
  /-- A reply has no line break but the one behind it. -/
  lineBreak_not_mem : ∀ reply ∈ replies, '\n' ∉ reply.text
  /-- Where the output is cut behind its line breaks, its lines are the replies. -/
  rawLines_eq : rawLines (output replies) =
    replies.map fun reply => Utf8.encode (reply.text ++ ['\n'])

/-- **Without a prompt the output of a session is framed,** and it tells what came of each line:
a run that writes the same, of whatever session, has had the same replies. -/
theorem output_isFramed {reader : ByteReader} {writer : ByteWriter} (hreader : reader.Sound)
    (hwriter : writer.Reliable) (filename : Option String) (report : Bool) (runs : Nat) :
    let start : Repl := { reader, writer, prompt := [], filename, report }
    ∃ (after : Repl) (replies : List Reply),
      IsFramed start (afterRuns start runs) after replies ∧
      ∀ (start' before' after' : Repl) (replies' : List Reply),
        IsFramed start' before' after' replies' → replies ≠ replies' →
          output replies ≠ output replies' := by
  intro start
  have hstart : start.Sound := ⟨hreader, hwriter⟩
  obtain ⟨count, text, hbefore⟩ := exists_proceeds_afterRuns hstart runs
  obtain ⟨last, after, hends, -, -, hrun, hafter⟩ := hbefore.exists_run
  obtain ⟨replies, hlength, hreplies, hbreaks, htext⟩ := exists_replies hends
  have hcount : (afterRuns start runs).linesRead = count := by
    rw [hbefore.linesRead]
    exact Nat.zero_add count
  refine ⟨after, replies, ⟨hrun, ?_, ?_, ?_, ?_, hbreaks, rawLines_output hbreaks⟩,
    fun start' before' after' replies' hframed hne hsame => hne ?_⟩
  · rw [← htext]
    exact hafter.written
  · rw [hafter.linesRead, hlength, Nat.add_assoc]
  · rw [hcount]
    exact hreplies
  · rw [hcount]
    exact fun number message hmessage c => (hreplies number _ hmessage).eq_offence_iff
  · exact replies_eq_of_output_eq hbreaks hframed.lineBreak_not_mem hsame

/-- The second run over `1`, a blank line, `2?` and nothing more. -/
theorem output_isFramed_behind_blank :
    ByteReader.Sound ⟨[.ok [0x31, 0x0A, 0x20, 0x0A, 0x32, 0x3F]], none, 0⟩ ∧
    ByteWriter.unlimited.Reliable ∧
    let start : Repl :=
      { reader := ⟨[.ok [0x31, 0x0A, 0x20, 0x0A, 0x32, 0x3F]], none, 0⟩, writer := .unlimited,
        prompt := [] }
    ∃ (after : Repl) (replies : List Reply), IsFramed start (afterRuns start 1) after replies ∧
      ∀ (start' before' after' : Repl) (replies' : List Reply),
        IsFramed start' before' after' replies' → replies ≠ replies' →
          output replies ≠ output replies' := by
  have hreader : ByteReader.Sound ⟨[.ok [0x31, 0x0A, 0x20, 0x0A, 0x32, 0x3F]], none, 0⟩ :=
    ⟨rfl, fun _ hfill => ⟨_, List.mem_singleton.1 hfill⟩⟩
  exact ⟨hreader, ByteWriter.reliable_unlimited,
    output_isFramed hreader ByteWriter.reliable_unlimited none false 1⟩

end Repl
end Reckoner
