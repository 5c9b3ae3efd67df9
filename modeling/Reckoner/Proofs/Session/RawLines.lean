/-
# The lines of some bytes

`rawLines bytes` cuts some bytes behind each line break, and `rawLine bytes number` is
one of these lines, where beyond the last one they are empty.  What a reader reads next
is the first line of all bytes that its fills still bring, however these are cut into
fills, and it leaves the other lines (`ReadsLine`).  Only a fill that fails can keep a
line from being read (`exists_readOn`), and then the bytes in front of it are lost
(`readOn_of_not_mem`).

What stands behind the end of a line does not change the line (`rawLine_of_isPrefix`), so of
bytes that are brought only in part the lines that have ended are lines of the whole.  How many
have ended in front of a place is the number of line breaks there (`lt_endedLines_iff`).
-/

import Mathlib.Data.List.TakeWhile
import Reckoner.Stream.Reader
import Reckoner.Text.Pieces

namespace Reckoner

/-! ## Lines of bytes -/

section Pieces

variable {α : Type} {isEnd : α → Bool}

/-- A first piece ends at the first end, and what is behind has its own pieces. -/
theorem pieces_append_cons {piece : List α} {a : α} (rest : List α)
    (hpiece : ∀ b ∈ piece, isEnd b = false) (ha : isEnd a = true) :
    pieces isEnd (piece ++ a :: rest) = (piece ++ [a]) :: pieces isEnd rest := by
  induction piece with
  | nil =>
    rw [List.nil_append, pieces_cons]
    cases pieces isEnd rest with
    | nil => rfl
    | cons next others => rw [addToPieces_cons, if_pos ha]; rfl
  | cons b piece ih =>
    obtain ⟨hb, hpiece⟩ := List.forall_mem_cons.1 hpiece
    have hb : ¬ isEnd b = true := by simp [hb]
    rw [List.cons_append, pieces_cons, ih hpiece, addToPieces_cons, if_neg hb]
    rfl

/-- Where there is no end there is one piece. -/
theorem pieces_of_forall {piece : List α} (hne : piece ≠ [])
    (hpiece : ∀ b ∈ piece, isEnd b = false) : pieces isEnd piece = [piece] := by
  induction piece with
  | nil => exact absurd rfl hne
  | cons b piece ih =>
    obtain ⟨hb, hpiece⟩ := List.forall_mem_cons.1 hpiece
    have hb : ¬ isEnd b = true := by simp [hb]
    rw [pieces_cons]
    by_cases hnil : piece = []
    · subst hnil
      rfl
    · rw [ih hnil hpiece, addToPieces_cons, if_neg hb]

end Pieces

/-- The lines of some bytes, each through its line break; the last one may lack it. -/
def rawLines (bytes : List UInt8) : List (List UInt8) := pieces (· == lineBreak) bytes

/-- A line by its number, from 0 on; there are empty lines without end behind the
last. -/
def rawLine (bytes : List UInt8) (number : Nat) : List UInt8 := (rawLines bytes)[number]?.getD []

/-- The raw lines make up the bytes. -/
theorem flatten_rawLines (bytes : List UInt8) : (rawLines bytes).flatten = bytes :=
  flatten_pieces _ bytes

/-- The first line ends behind the first line break. -/
theorem rawLines_append_lineBreak {line : List UInt8} (rest : List UInt8)
    (hline : lineBreak ∉ line) :
    rawLines (line ++ lineBreak :: rest) = (line ++ [lineBreak]) :: rawLines rest := by
  refine pieces_append_cons rest (fun b hb => ?_) (by simp)
  rw [beq_eq_false_iff_ne]
  rintro rfl
  exact hline hb

/-- Bytes without a line break are one line. -/
theorem rawLines_of_not_mem {line : List UInt8} (hne : line ≠ []) (hline : lineBreak ∉ line) :
    rawLines line = [line] := by
  refine pieces_of_forall hne fun b hb => ?_
  rw [beq_eq_false_iff_ne]
  rintro rfl
  exact hline hb

/-- Bytes without a line break are the first line, and the only one; this is true of no bytes, too,
since lines that are not there are empty. -/
theorem first_of_not_mem {line : List UInt8} (hline : lineBreak ∉ line) :
    line = rawLine line 0 ∧ (rawLines line).drop 1 = [] := by
  by_cases hne : line = []
  · subst hne
    exact ⟨rfl, rfl⟩
  · rw [rawLine, rawLines_of_not_mem hne hline]
    exact ⟨rfl, rfl⟩

/-- Bytes through the first line break are the first line. -/
theorem first_append_lineBreak {line : List UInt8} (rest : List UInt8)
    (hline : lineBreak ∉ line) :
    line ++ [lineBreak] = rawLine (line ++ lineBreak :: rest) 0 ∧
      (rawLines (line ++ lineBreak :: rest)).drop 1 = rawLines rest := by
  rw [rawLine, rawLines_append_lineBreak rest hline]
  exact ⟨rfl, rfl⟩

/-- Lines are counted on behind those that are left out. -/
theorem rawLine_of_drop {bytes rest : List UInt8} {count : Nat}
    (h : rawLines rest = (rawLines bytes).drop count) (number : Nat) :
    rawLine rest number = rawLine bytes (count + number) := by
  rw [rawLine, h, List.getElem?_drop]
  rfl

/-- The bytes are the first line and the rest. -/
theorem eq_append_of_drop {bytes rest : List UInt8} (h : rawLines rest = (rawLines bytes).drop 1) :
    bytes = rawLine bytes 0 ++ rest := by
  rw [← flatten_rawLines rest, h, rawLine]
  conv => lhs; rw [← flatten_rawLines bytes]
  cases rawLines bytes <;> simp

/-- One line more is as many bytes more as it has. -/
theorem length_take_succ (bytes : List UInt8) (count : Nat) :
    ((rawLines bytes).take (count + 1)).flatten.length =
      ((rawLines bytes).take count).flatten.length + (rawLine bytes count).length := by
  rw [rawLine, List.take_add_one, List.flatten_append, List.length_append]
  cases (rawLines bytes)[count]? <;> simp

/-- The first lines are the first one and those of the rest. -/
theorem length_take_of_drop {bytes rest : List UInt8} (h : rawLines rest = (rawLines bytes).drop 1)
    (count : Nat) :
    ((rawLines bytes).take (count + 1)).flatten.length =
      (rawLine bytes 0).length + ((rawLines rest).take count).flatten.length := by
  rw [h, rawLine]
  cases rawLines bytes <;> simp

/-- **Induction on the lines of some bytes:** there are none, or one line that does not end, or a
line with its line break in front of others. -/
theorem rawLines_induction {motive : List UInt8 → Prop} (nil : motive [])
    (last : ∀ {line : List UInt8}, line ≠ [] → lineBreak ∉ line → motive line)
    (lineBreak : ∀ {line rest : List UInt8}, lineBreak ∉ line → motive rest →
      motive (line ++ lineBreak :: rest))
    (bytes : List UInt8) : motive bytes := by
  induction hn : bytes.length using Nat.strongRecOn generalizing bytes with
  | ind n ih =>
    by_cases hbreak : Reckoner.lineBreak ∈ bytes
    · obtain ⟨line, rest, rfl, hline⟩ := List.eq_append_cons_of_mem hbreak
      have hlt : rest.length < n := by
        rw [← hn, List.length_append, List.length_cons]
        omega
      exact lineBreak hline (ih _ hlt rest rfl)
    · by_cases hne : bytes = []
      · rw [hne]
        exact nil
      · exact last hne hbreak

/-! ## Lines that have ended -/

/-- A line behind the first is a line of what stands behind the first line break. -/
theorem rawLine_append_lineBreak_succ {line : List UInt8} (rest : List UInt8)
    (hline : lineBreak ∉ line) (number : Nat) :
    rawLine (line ++ lineBreak :: rest) (number + 1) = rawLine rest number := by
  rw [rawLine, rawLines_append_lineBreak rest hline, List.getElem?_cons_succ, ← rawLine]

/-- The first line has one line break. -/
theorem count_append_lineBreak {line : List UInt8} (rest : List UInt8) (hline : lineBreak ∉ line) :
    (line ++ lineBreak :: rest).count lineBreak = rest.count lineBreak + 1 := by
  rw [List.count_append, List.count_eq_zero.2 hline, Nat.zero_add, List.count_cons_self]

/-- The first line has one line break if it has ended. -/
theorem count_of_drop {bytes rest : List UInt8} (h : rawLines rest = (rawLines bytes).drop 1)
    (hmem : lineBreak ∈ bytes) : bytes.count lineBreak = rest.count lineBreak + 1 := by
  obtain ⟨line, more, rfl, hline⟩ := List.eq_append_cons_of_mem hmem
  have hrest : rest = more := by
    rw [← flatten_rawLines rest, h, (first_append_lineBreak more hline).2, flatten_rawLines]
  rw [count_append_lineBreak more hline, hrest]

/-- **What comes behind the end of a line does not change it.**  A line has ended if there are more
line breaks than lines in front of it. -/
theorem rawLine_of_isPrefix {bytes whole : List UInt8} {number : Nat} (h : bytes <+: whole)
    (hlt : number < bytes.count lineBreak) : rawLine bytes number = rawLine whole number := by
  obtain ⟨more, rfl⟩ := h
  induction bytes using rawLines_induction generalizing number with
  | nil => cases hlt
  | last _ hline =>
    rw [List.count_eq_zero.2 hline] at hlt
    cases hlt
  | @lineBreak line rest hline ih =>
    rw [count_append_lineBreak rest hline] at hlt
    rw [List.append_assoc, List.cons_append]
    cases number with
    | zero =>
      rw [← (first_append_lineBreak rest hline).1,
        ← (first_append_lineBreak (rest ++ more) hline).1]
    | succ number =>
      rw [rawLine_append_lineBreak_succ rest hline, rawLine_append_lineBreak_succ _ hline]
      exact ih (by omega)

/-- How many lines of some bytes have ended in front of a place: each line break ends one. -/
def endedLines (bytes : List UInt8) (place : Nat) : Nat := (bytes.take place).count lineBreak

/-- **A line has ended in front of a place** if it has a line break and all lines through it fit in
the bytes there.  The induction is on the lines: behind the first one both the number and the place
are counted from its end. -/
theorem lt_endedLines_iff {bytes : List UInt8} {place number : Nat} :
    number < endedLines bytes place ↔ lineBreak ∈ rawLine bytes number ∧
      ((rawLines bytes).take (number + 1)).flatten.length ≤ place := by
  induction bytes using rawLines_induction generalizing place number with
  | nil => simp [endedLines, rawLine, rawLines]
  | @last line hne hline =>
    have hnone : endedLines line place = 0 :=
      List.count_eq_zero.2 fun hmem => hline (List.mem_of_mem_take hmem)
    rw [hnone, rawLine, rawLines_of_not_mem hne hline]
    cases number with
    | zero => simpa using fun hmem => absurd hmem hline
    | succ number => simp
  | @lineBreak line rest hline ih =>
    rw [rawLines_append_lineBreak rest hline]
    rcases Nat.lt_or_ge line.length place with hlt | hge
    · obtain ⟨place, rfl⟩ := Nat.exists_eq_add_of_le hlt
      have hended : endedLines (line ++ lineBreak :: rest) (line.length.succ + place) =
          endedLines rest place + 1 := by
        rw [endedLines, Nat.succ_add, ← Nat.add_succ, List.take_length_add_append,
          List.take_succ_cons, count_append_lineBreak _ hline, endedLines]
      rw [hended]
      cases number with
      | zero =>
        rw [← (first_append_lineBreak rest hline).1]
        simp
      | succ number =>
        have hsame := @ih place number
        rw [rawLine_append_lineBreak_succ rest hline, List.take_succ_cons, List.flatten_cons,
          List.length_append, List.length_append, List.length_singleton, Nat.add_lt_add_iff_right,
          hsame]
        simp
    · have hnone : endedLines (line ++ lineBreak :: rest) place = 0 := by
        rw [endedLines, List.take_append_of_le_length hge]
        exact List.count_eq_zero.2 fun hmem => hline (List.mem_of_mem_take hmem)
      rw [hnone, List.take_succ_cons, List.flatten_cons, List.length_append, List.length_append,
        List.length_singleton]
      constructor
      · intro hlt
        cases hlt
      · rintro ⟨-, hle⟩
        omega

/-! ## Reading a line -/

namespace ByteReader

/-- The bytes that some fills bring, failing fills apart. -/
def fillContents (fills : List Fill) : List UInt8 :=
  fills.flatMap fun
    | .ok bytes => bytes
    | .error _ => []

/-- The bytes that there are still to read. -/
def contents (reader : ByteReader) : List UInt8 := fillContents reader.fills

/-- Whether reading cannot fail. -/
structure Sound (reader : ByteReader) : Prop where
  /-- Behind the listed fills is the end of the input. -/
  broken : reader.broken = none
  /-- No listed fill fails. -/
  fills : ∀ fill ∈ reader.fills, ∃ bytes, fill = .ok bytes

/-- No fills bring nothing. -/
@[simp] theorem fillContents_nil : fillContents [] = [] := rfl

/-- Fills bring their bytes one after the other. -/
@[simp] theorem fillContents_ok (bytes : List UInt8) (fills : List Fill) :
    fillContents (.ok bytes :: fills) = bytes ++ fillContents fills := rfl

/-- Fills of a given size bring just the bytes that are cut. -/
theorem fillContents_fillsAfter (made : Array Fill) (size : Nat) (bytes : List UInt8) :
    fillContents (fillsAfter made size bytes).toList = fillContents made.toList ++ bytes := by
  fun_induction fillsAfter made size bytes with
  | case1 made => simp
  | case2 made bytes hne hlt ih =>
    rw [ih, Array.toList_push, fillContents, List.flatMap_append, List.append_assoc]
    simp [fillContents]

/-- Fills of a given size do not fail. -/
theorem forall_mem_fillsAfter {made : Array Fill} {size : Nat} {bytes : List UInt8}
    (hmade : ∀ fill ∈ made.toList, ∃ bytes, fill = .ok bytes) :
    ∀ fill ∈ (fillsAfter made size bytes).toList, ∃ bytes, fill = .ok bytes := by
  fun_induction fillsAfter made size bytes with
  | case1 made => exact hmade
  | case2 made bytes hne hlt ih =>
    refine ih fun fill hfill => ?_
    rw [Array.toList_push] at hfill
    rcases List.mem_append.1 hfill with hfill | hfill
    · exact hmade fill hfill
    · exact ⟨_, List.mem_singleton.1 hfill⟩

/-- Bytes that are cut into fills are still these bytes. -/
@[simp] theorem contents_ofBytes (size : Nat) (bytes : List UInt8) :
    (ofBytes size bytes).contents = bytes :=
  fillContents_fillsAfter #[] (size - 1) bytes

/-- Bytes that are cut into fills never fail. -/
theorem sound_ofBytes (size : Nat) (bytes : List UInt8) : (ofBytes size bytes).Sound :=
  ⟨rfl, forall_mem_fillsAfter (by simp)⟩

/-- What reading a line comes to, with some bytes of the line held already: it is the
first line of what is held and what there is to read, and the other lines are left. -/
structure ReadsLine (held : List UInt8) (reader : ByteReader) (line : List UInt8)
    (after : ByteReader) : Prop where
  /-- The line is the first one. -/
  eq_first : line = rawLine (held ++ reader.contents) 0
  /-- The other lines are left. -/
  others : rawLines after.contents = (rawLines (held ++ reader.contents)).drop 1
  /-- What was held has been consumed before. -/
  position : after.position + held.length = reader.position + line.length

/-- **A line that is read is the first line.**  The induction is on the fills; what is
held is the part of the line that the fills before have brought. -/
theorem readsLine_of_readOn {broken : Option String} {held : Array UInt8} {position : Nat}
    {fills : List Fill} {line : List UInt8} {after : ByteReader}
    (hheld : lineBreak ∉ held.toList)
    (h : readOn broken held position fills = (.ok line, after)) :
    ReadsLine held.toList ⟨fills, broken, position⟩ line after := by
  induction fills generalizing held position with
  | nil =>
    cases broken with
    | some fault => cases h
    | none =>
      cases h
      obtain ⟨hfirst, hothers⟩ := first_of_not_mem hheld
      constructor
      · simpa [contents] using hfirst
      · simp only [contents, fillContents_nil, List.append_nil, hothers]
        rfl
      · rfl
  | cons fill fills ih =>
    cases fill with
    | error fault => cases h
    | ok bytes =>
      have hbytes : bytes.takeWhile (· != lineBreak) ++ bytes.dropWhile (· != lineBreak) = bytes :=
        List.takeWhile_append_dropWhile
      have hbefore : lineBreak ∉ held.toList ++ bytes.takeWhile (· != lineBreak) := by
        intro hmem
        rcases List.mem_append.1 hmem with hmem | hmem
        · exact hheld hmem
        · have := List.all_eq_true.1 List.all_takeWhile _ hmem
          simp at this
      rw [readOn] at h
      cases hrest : bytes.dropWhile (· != lineBreak) with
      | nil =>
        -- The line does not end in this fill, which is held with the rest.
        rw [hrest, List.append_nil] at hbytes
        simp only [hrest, hbytes] at h hbefore
        have hheld' : lineBreak ∉ (held ++ bytes).toList := by simpa using hbefore
        obtain ⟨hfirst, hothers, hposition⟩ := ih hheld' h
        have hlength : (held ++ bytes).toList = held.toList ++ bytes := by simp
        rw [hlength] at hfirst hothers hposition
        rw [List.length_append] at hposition
        constructor
        · rw [hfirst, contents, contents, fillContents_ok, List.append_assoc]
        · rw [hothers, contents, contents, fillContents_ok, List.append_assoc]
        · dsimp only at hposition ⊢
          omega
      | cons found rest =>
        -- The line ends at the first line break of this fill, and `rest` is what the fill has left.
        have hhead : (bytes.dropWhile (· != lineBreak)).head? = some found := by rw [hrest]; rfl
        have hfound := List.head?_dropWhile_not (· != lineBreak) bytes
        rw [hhead] at hfound
        obtain rfl : found = lineBreak := by simpa using hfound
        simp only [hrest] at h
        cases h
        have hwhole : held.toList ++ contents ⟨.ok bytes :: fills, broken, position⟩ =
            (held.toList ++ bytes.takeWhile (· != lineBreak)) ++
              lineBreak :: (rest ++ fillContents fills) := by
          rw [contents, fillContents_ok]
          conv => lhs; rw [← hbytes, hrest]
          simp
        obtain ⟨hfirst, hothers⟩ := first_append_lineBreak (rest ++ fillContents fills) hbefore
        constructor
        · rw [hwhole, ← hfirst]
          simp
        · rw [hwhole, hothers]
          rfl
        · simp
          omega

/-- **What is read is the first line of what there is to read.** -/
theorem readsLine_of_readLine {reader after : ByteReader} {line : List UInt8}
    (h : reader.readLine = (.ok line, after)) :
    line = rawLine reader.contents 0 ∧
      rawLines after.contents = (rawLines reader.contents).drop 1 ∧
      after.position = reader.position + line.length := by
  obtain ⟨hfirst, hothers, hposition⟩ := readsLine_of_readOn List.not_mem_nil h
  exact ⟨hfirst, hothers, hposition⟩

/-- **Where no listed fill fails a line can be read** if it ends in them, or if the input ends
there. -/
theorem exists_readOn {broken : Option String} {held : Array UInt8} {position : Nat}
    {fills : List Fill} (hfills : ∀ fill ∈ fills, ∃ bytes, fill = .ok bytes)
    (hends : broken = none ∨ lineBreak ∈ fillContents fills) :
    ∃ line after, readOn broken held position fills = (.ok line, after) ∧
      after.broken = broken ∧ ∀ fill ∈ after.fills, ∃ bytes, fill = .ok bytes := by
  induction fills generalizing held position with
  | nil =>
    rcases hends with rfl | hmem
    · exact ⟨_, _, rfl, rfl, fun fill hfill => by cases hfill⟩
    · cases hmem
  | cons fill fills ih =>
    obtain ⟨⟨bytes, rfl⟩, hlater⟩ := List.forall_mem_cons.1 hfills
    rw [readOn]
    cases hrest : bytes.dropWhile (· != lineBreak) with
    | nil =>
      refine ih hlater (hends.imp_right fun hmem => ?_)
      rw [fillContents_ok] at hmem
      refine (List.mem_append.1 hmem).resolve_left fun hmem => ?_
      have := List.dropWhile_eq_nil_iff.1 hrest _ hmem
      simp at this
    | cons found rest =>
      exact ⟨_, _, rfl, rfl, List.forall_mem_cons.2 ⟨⟨rest, rfl⟩, hlater⟩⟩

/-- **Where no listed fill fails and the source is broken behind them** the bytes of a line that
does not end in them are lost. -/
theorem readOn_of_not_mem {fault : String} {held : Array UInt8} {position : Nat}
    {fills : List Fill} (hfills : ∀ fill ∈ fills, ∃ bytes, fill = .ok bytes)
    (hnone : lineBreak ∉ fillContents fills) :
    readOn (some fault) held position fills =
      (.error fault, ⟨[], some fault, position + (fillContents fills).length⟩) := by
  induction fills generalizing held position with
  | nil => rfl
  | cons fill fills ih =>
    obtain ⟨⟨bytes, rfl⟩, hlater⟩ := List.forall_mem_cons.1 hfills
    rw [fillContents_ok] at hnone ⊢
    obtain ⟨hbytes, hothers⟩ := not_or.1 (mt List.mem_append.2 hnone)
    have hall : ∀ byte ∈ bytes, (byte != lineBreak) = true := by
      intro byte hbyte
      rw [bne_iff_ne]
      rintro rfl
      exact hbytes hbyte
    rw [readOn, List.takeWhile_eq_self_iff.2 hall, List.dropWhile_eq_nil_iff.2 hall]
    dsimp only
    rw [ih hlater hothers, List.length_append, Nat.add_assoc]

/-- **Where nothing fails there is always a line to read,** the first one. -/
theorem Sound.exists_readLine {reader : ByteReader} (h : reader.Sound) :
    ∃ after, reader.readLine = (.ok (rawLine reader.contents 0), after) ∧
      rawLines after.contents = (rawLines reader.contents).drop 1 ∧
      after.position = reader.position + (rawLine reader.contents 0).length ∧ after.Sound := by
  obtain ⟨line, after, hread, hbroken, hfills⟩ :=
    @exists_readOn reader.broken #[] reader.position reader.fills h.fills (.inl h.broken)
  obtain ⟨rfl, hothers, hposition⟩ := readsLine_of_readLine hread
  exact ⟨after, hread, hothers, hposition, hbroken.trans h.broken, hfills⟩

end ByteReader
end Reckoner
