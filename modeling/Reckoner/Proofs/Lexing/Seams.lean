/-
# Seams

Where a symbol comes next nothing runs together: what is read from a text up to a place does
not depend on what follows there as long as this begins with a symbol (`ReadsOn.exchange`), and
what a text is a layout of can be followed by a symbol and anything (`IsLayout.append_symbol`).
So a text can be put in the place of a token, and its tokens are put in the place of this token.

Only a number is open behind: more digits would belong to it, also behind carriage returns.  A
symbol closes it (`IsNumeral.append_symbol`), and so does a space, which is what a layout has
between two numbers (`IsNumeral.exists_space`).

The tokens of a text that is put in come at other places than before.  That they are the same
kinds is known because what has been read to the end of a line is a layout of what has been
found (`ReadsOn.isLayout`), and a layout is read anywhere.
-/

import Reckoner.Proofs.Lexing.Layout

namespace Reckoner

variable {kinds later : List Token.Kind} {text rest gap : List Char}

/-! ## Layouts -/

namespace IsLayout

/-- A gap may stand in front: each way to lay out tokens begins with a gap, and two gaps are one. -/
theorem gap_append (h : IsLayout kinds text) (hgap : IsGap gap) : IsLayout kinds (gap ++ text) := by
  have happend : ∀ {other}, IsGap other → IsGap (gap ++ other) := fun hother c hc =>
    (List.mem_append.1 hc).elim (hgap c) (hother c)
  cases h with
  | finish hother => exact .finish (happend hother)
  | lineBreak hother after =>
    rw [← List.append_assoc]
    exact .lineBreak (happend hother) after
  | symbol hother s h =>
    rw [← List.append_assoc]
    exact .symbol (happend hother) s h
  | number hother hliteral hnext h =>
    rw [← List.append_assoc, ← List.append_assoc]
    exact .number (happend hother) hliteral hnext h

/-- **A symbol may come behind a layout on one line,** and then anything that the symbol may be in
front of.  Behind a line break it would not be read. -/
theorem append_symbol (h : IsLayout kinds text) (hbreak : '\n' ∉ text) (s : Symbol)
    (hrest : IsLayout later rest) :
    IsLayout (kinds ++ .symbol s :: later) (text ++ s.toChar :: rest) := by
  induction h with
  | finish hgap => exact .symbol hgap s hrest
  | lineBreak hgap after => exact absurd (List.mem_append_right _ (List.mem_cons_self ..)) hbreak
  | @symbol kinds gap text hgap t _ ih =>
    have htext : '\n' ∉ text := fun hmem =>
      hbreak (List.mem_append_right _ (List.mem_cons_of_mem _ hmem))
    have hall := IsLayout.symbol hgap t (ih htext)
    simpa using hall
  | @number kinds gap literal text value hgap hliteral hnext _ ih =>
    have htext : '\n' ∉ text := fun hmem => hbreak (List.mem_append_right _ hmem)
    have hall := IsLayout.number hgap hliteral ?_ (ih htext)
    · simpa using hall
    · intro next others hkinds
      cases kinds with
      | nil => cases hkinds
      | cons kind kinds =>
        obtain ⟨rfl, -⟩ := List.cons.inj hkinds
        obtain ⟨first, second, rfl, hfirst⟩ := hnext next kinds rfl
        exact ⟨first, second ++ s.toChar :: rest, by simp, hfirst⟩

end IsLayout

/-- If no digits follow behind the carriage returns in front, a gap in front of a digit has a
space. -/
theorem IsGap.exists_space {c : Char} (hgap : IsGap gap) (hdigit : c.isDigit)
    (hnone : ∀ d, ((gap ++ c :: rest).dropWhile (· == '\r')).head? = some d → ¬ d.isDigit) :
    ∃ first second, gap = first ++ ' ' :: second ∧ IsGap first := by
  induction gap with
  | nil =>
    have hreturn : c ≠ '\r' := (ne_of_isDigit hdigit).2.1
    have hhead : (([] ++ c :: rest).dropWhile (· == '\r')).head? = some c := by
      rw [List.nil_append, List.dropWhile_cons_of_neg (by simpa using hreturn)]
      rfl
    exact absurd hdigit (hnone c hhead)
  | cons d gap ih =>
    rcases hgap d (List.mem_cons_self ..) with rfl | rfl
    · exact ⟨[], gap, rfl, isGap_nil⟩
    · obtain ⟨first, second, rfl, hfirst⟩ :=
        ih (fun e he => hgap e (List.mem_cons_of_mem _ he)) hnone
      refine ⟨'\r' :: first, second, rfl, fun e he => ?_⟩
      rcases List.mem_cons.1 he with rfl | he
      · exact .inr rfl
      · exact hfirst e he

/-- Between two numbers there is a space: a number is as long as can be, so that the digits of the
second one are not behind carriage returns alone. -/
theorem IsNumeral.exists_space {literal : List Char} {value : Int64} (h : IsNumeral literal text)
    (hlayout : IsLayout (.number value :: later) text) :
    ∃ first second, text = first ++ ' ' :: second ∧ IsGap first := by
  cases hlayout with
  | @number _ gap digits rest _ hgap hdigits =>
    obtain ⟨c, hc, hdigit⟩ := hdigits.head
    obtain ⟨more, rfl⟩ : ∃ more, digits = c :: more := by
      cases digits with
      | nil => cases hc
      | cons d more => exact ⟨more, by rw [Option.some.inj hc]⟩
    have hnone := h.maximal
    rw [List.append_assoc] at hnone
    obtain ⟨first, second, rfl, hfirst⟩ := hgap.exists_space hdigit hnone
    exact ⟨first, second ++ c :: more ++ rest, by simp, hfirst⟩

/-- **What has been read to the end of a line is a layout of what has been found.**  The layout is
built along the reading, from its last item on. -/
theorem ReadsOn.isLayout {whole front : List Char} {tokens : List Token} {last : Token}
    (h : ReadsOn whole front tokens (.ok last)) (hwhole : whole = front ++ text) :
    IsLayout (tokens.map Token.kind) text := by
  generalize hitem : (Except.ok last : Item) = item at h
  induction h generalizing text with
  | @last front gap literal after item hparts hgap hfound hlast =>
    obtain rfl : text = gap ++ literal ++ after := by
      rw [hparts] at hwhole
      simpa using hwhole.symm
    subst hitem
    cases hfound with
    | endOfText => simpa using IsLayout.finish hgap
    | lineBreak => simpa using IsLayout.lineBreak hgap after
    | symbol => cases hlast
    | number => cases hlast
  | @token front gap literal after token tokens item hparts hgap hfound hkind _ ih =>
    obtain rfl : text = gap ++ literal ++ after := by
      rw [hparts] at hwhole
      simpa using hwhole.symm
    have hrest := ih hparts hitem
    cases hfound with
    | endOfText => exact absurd rfl hkind
    | lineBreak => exact absurd rfl hkind
    | symbol s => simpa using IsLayout.symbol hgap s hrest
    | number hnumeral hvalue =>
      refine .number hgap ⟨hnumeral.head, hnumeral.getLast, hnumeral.mem, hvalue⟩ ?_ hrest
      intro next others hkinds
      rw [hkinds] at hrest
      exact hnumeral.exists_space hrest

/-! ## What is in front of a seam -/

/-- A number stays as long as it is if a symbol comes behind some of what is behind it. -/
theorem IsNumeral.append_symbol {literal front behind : List Char}
    (h : IsNumeral literal (front ++ behind)) (s : Symbol) (rest : List Char) :
    IsNumeral literal (front ++ s.toChar :: rest) := by
  refine ⟨h.head, h.getLast, h.mem, ?_⟩
  have hmaximal := h.maximal
  clear h
  induction front with
  | nil =>
    intro c hc
    obtain ⟨hblank, -, hdigit⟩ := toChar_spec s
    have hreturn : s.toChar ≠ '\r' := fun heq => hblank (isBlank_iff.2 (.inr heq))
    rwa [head_of_dropWhile_cons hreturn hc]
  | cons d front ih =>
    by_cases hd : d = '\r'
    · subst hd
      exact ih hmaximal
    · intro c hc
      obtain rfl := head_of_dropWhile_cons hd hc
      refine hmaximal c ?_
      rw [List.cons_append, List.dropWhile_cons_of_neg (by simpa using hd)]
      rfl

/-- So does any token that is no end of line, and it stays the same token. -/
theorem IsItemAt.append_symbol {offset : Nat} {literal front behind : List Char} {token : Token}
    (h : IsItemAt offset literal (front ++ behind) (.ok token)) (hkind : token.kind ≠ .endOfLine)
    (s : Symbol) (rest : List Char) :
    IsItemAt offset literal (front ++ s.toChar :: rest) (.ok token) := by
  generalize hafter : front ++ behind = after at h
  cases h with
  | endOfText => exact absurd rfl hkind
  | lineBreak => exact absurd rfl hkind
  | symbol t => exact .symbol t _
  | number hnumeral hvalue =>
    subst hafter
    exact .number (hnumeral.append_symbol s rest) hvalue

/-- **What has been read in front of a token is read in front of a symbol, too.**  The text is cut
in front of the token and behind it.  In the second part the reading goes on as it did; the first
part can be followed by any layout that begins with a symbol, and the tokens found up to the cut are
the same in both texts, with their places. -/
theorem ReadsOn.exchange {whole front : List Char} {earlier others tokens : List Token}
    {token : Token} {last : Item} (h : ReadsOn whole front tokens last)
    (htokens : tokens = earlier ++ token :: others) :
    ∃ middle after, whole = front ++ middle ++ token.literal ++ after ∧
      byteLength (front ++ middle) = token.offset ∧
      ReadsOn whole (front ++ middle ++ token.literal) others last ∧
      ∀ s kinds rest, IsLayout (.symbol s :: kinds) (s.toChar :: rest) →
        ∃ (found : List Token) (last : Token),
          ReadsOn (front ++ middle ++ s.toChar :: rest) front (earlier ++ found) (.ok last) ∧
          last.kind = .endOfLine ∧ found.map Token.kind = .symbol s :: kinds := by
  induction h generalizing earlier with
  | last => simp at htokens
  | @token front gap literal after first tokens item hparts hgap hfound hkind hrest ih =>
    obtain ⟨hoffset, hliteral⟩ := hfound.eq_of_ok
    cases earlier with
    | nil =>
      obtain ⟨rfl, rfl⟩ := List.cons.inj htokens
      rw [hliteral]
      refine ⟨gap, after, hparts, hoffset.symm, hrest, fun s kinds rest hlayout => ?_⟩
      obtain ⟨found, last, hreads, hlast, hkinds⟩ :=
        (hlayout.gap_append hgap).exists_readsOn (List.append_assoc front gap _)
      exact ⟨found, last, hreads, hlast, hkinds⟩
    | cons other earlier =>
      obtain ⟨rfl, htail⟩ := List.cons.inj htokens
      obtain ⟨middle, behind, hwhole, hplace, hothers, hnew⟩ := ih htail
      refine ⟨gap ++ literal ++ middle, behind, ?_, ?_, ?_, fun s kinds rest hlayout => ?_⟩
      · simpa using hwhole
      · simpa using hplace
      · simpa using hothers
      · -- The first token has the cut behind it, so that what follows it is known up to there.
        obtain ⟨found, last, hreads, hlast, hkinds⟩ := hnew s kinds rest hlayout
        have hafter : after = middle ++ (token.literal ++ behind) := by
          rw [hparts] at hwhole
          simpa using hwhole
        rw [hafter] at hfound
        have hparts' : front ++ gap ++ literal ++ middle ++ s.toChar :: rest =
            front ++ gap ++ literal ++ (middle ++ s.toChar :: rest) := List.append_assoc ..
        refine ⟨found, last, ?_, hlast, hkinds⟩
        have hall := ReadsOn.token hparts' hgap (hfound.append_symbol hkind s rest) hkind hreads
        simpa using hall

end Reckoner
