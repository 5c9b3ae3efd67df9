/-
# Cutting a sequence after each end mark

`pieces isEnd l` cuts `l` right after each element that is an end mark.  The end
mark stays with the piece that it ends, the last piece may lack one, and no
piece is empty, so that the pieces of an empty sequence are none.

The pieces are `l` again when joined (`flatten_pieces`), none of them is empty
(`ne_nil_of_mem_pieces`), and an end mark stands only last in a piece
(`isEnd_of_mem_dropLast`).  What is behind some of the pieces has the others as
its pieces (`pieces_flatten_of_append`), and what is in front of a piece has one
end mark for each piece there (`countP_flatten_of_append`).
-/

namespace Reckoner

variable {α : Type}

/-- The pieces of a sequence with one more element in front. -/
def addToPieces (isEnd : α → Bool) (a : α) : List (List α) → List (List α)
  | [] => [[a]]
  | piece :: others => if isEnd a then [a] :: piece :: others else (a :: piece) :: others

/-- An element on its own is a piece of its own. -/
@[simp] theorem addToPieces_nil (isEnd : α → Bool) (a : α) :
    addToPieces isEnd a [] = [[a]] := rfl

/-- An element in front of a piece joins it, unless the element is an end: then it is a piece of its
own. -/
@[simp] theorem addToPieces_cons (isEnd : α → Bool) (a : α) (piece : List α)
    (others : List (List α)) :
    addToPieces isEnd a (piece :: others) =
      if isEnd a then [a] :: piece :: others else (a :: piece) :: others := rfl

/-- The pieces of a sequence, each through its end mark. -/
def pieces (isEnd : α → Bool) (l : List α) : List (List α) :=
  l.foldr (addToPieces isEnd) []

/-- Nothing has no pieces. -/
@[simp] theorem pieces_nil (isEnd : α → Bool) : pieces isEnd [] = [] := rfl

/-- The pieces are found from the last element on. -/
theorem pieces_cons (isEnd : α → Bool) (a : α) (l : List α) :
    pieces isEnd (a :: l) = addToPieces isEnd a (pieces isEnd l) := rfl

/-- **The pieces make up the whole.** -/
theorem flatten_pieces (isEnd : α → Bool) (l : List α) : (pieces isEnd l).flatten = l := by
  induction l with
  | nil => rfl
  | cons a l ih =>
    rw [pieces_cons]
    cases h : pieces isEnd l with
    | nil => simp_all
    | cons piece others =>
      rw [h] at ih
      rw [addToPieces_cons]
      split <;> simp_all

/-- No piece is empty. -/
theorem ne_nil_of_mem_pieces (isEnd : α → Bool) {l : List α} :
    ∀ piece ∈ pieces isEnd l, piece ≠ [] := by
  induction l with
  | nil => simp
  | cons a l ih =>
    rw [pieces_cons]
    cases h : pieces isEnd l with
    | nil => simp
    | cons piece others =>
      rw [h] at ih
      rw [addToPieces_cons]
      split <;> simp_all

/-- An end mark ends its piece. -/
theorem isEnd_of_mem_dropLast {isEnd : α → Bool} {l : List α} :
    ∀ piece ∈ pieces isEnd l, ∀ a ∈ piece.dropLast, isEnd a = false := by
  induction l with
  | nil => simp
  | cons a l ih =>
    rw [pieces_cons]
    cases h : pieces isEnd l with
    | nil => simp
    | cons piece others =>
      have hmem : piece ∈ pieces isEnd l := by simp [h]
      have hne : piece ≠ [] := ne_nil_of_mem_pieces isEnd piece hmem
      obtain ⟨hpiece, hothers⟩ := List.forall_mem_cons.1 (h ▸ ih)
      rw [addToPieces_cons]
      split
      · exact List.forall_mem_cons.2 ⟨by simp, List.forall_mem_cons.2 ⟨hpiece, hothers⟩⟩
      · next ha =>
        refine List.forall_mem_cons.2 ⟨?_, hothers⟩
        rw [List.dropLast_cons_of_ne_nil hne]
        exact List.forall_mem_cons.2 ⟨by simpa using ha, hpiece⟩

/-- What is behind the first piece is cut as before. -/
theorem pieces_flatten_of_cons {isEnd : α → Bool} {l piece : List α} {others : List (List α)}
    (h : pieces isEnd l = piece :: others) : pieces isEnd others.flatten = others := by
  induction l generalizing piece others with
  | nil => cases h
  | cons a l ih =>
    have hwhole := flatten_pieces isEnd l
    rw [pieces_cons] at h
    cases hl : pieces isEnd l with
    | nil =>
      rw [hl] at h
      cases h
      rfl
    | cons first rest =>
      rw [hl, addToPieces_cons] at h
      split at h <;> cases h
      · rw [← hl, flatten_pieces]
      · exact ih hl

/-- **What is behind some of the pieces** has the others as its pieces. -/
theorem pieces_flatten_of_append {isEnd : α → Bool} {l : List α} {first rest : List (List α)}
    (h : pieces isEnd l = first ++ rest) : pieces isEnd rest.flatten = rest := by
  induction first generalizing l with
  | nil =>
    rw [List.nil_append] at h
    rw [← h, flatten_pieces]
  | cons piece first ih => exact ih (pieces_flatten_of_cons h)

/-- A piece with others behind it ends with an end mark. -/
theorem exists_isEnd_of_cons {isEnd : α → Bool} {l piece next : List α} {others : List (List α)}
    (h : pieces isEnd l = piece :: next :: others) : ∃ a, piece.getLast? = some a ∧ isEnd a := by
  induction l generalizing piece next others with
  | nil => cases h
  | cons a l ih =>
    rw [pieces_cons] at h
    cases hl : pieces isEnd l with
    | nil =>
      rw [hl] at h
      cases h
    | cons first rest =>
      rw [hl, addToPieces_cons] at h
      split at h
      · next ha =>
        cases h
        exact ⟨a, rfl, ha⟩
      · cases h
        obtain ⟨b, hb, hend⟩ := ih hl
        refine ⟨b, ?_, hend⟩
        rw [List.getLast?_cons, hb]
        rfl

/-- **There are as many end marks in front of a piece** as there are pieces in front of it. -/
theorem countP_flatten_of_append {isEnd : α → Bool} {l piece : List α}
    {before later : List (List α)} (h : pieces isEnd l = before ++ piece :: later) :
    before.flatten.countP isEnd = before.length := by
  induction before generalizing l with
  | nil => rfl
  | cons first before ih =>
    have hnext : ∃ next others, before ++ piece :: later = next :: others := by
      cases before <;> exact ⟨_, _, rfl⟩
    obtain ⟨next, others, hnext⟩ := hnext
    have hfirst : pieces isEnd l = first :: next :: others := by rw [h, ← hnext]; rfl
    obtain ⟨a, ha, hend⟩ := exists_isEnd_of_cons hfirst
    obtain ⟨front, rfl⟩ := List.getLast?_eq_some_iff.1 ha
    have hfree : front.countP isEnd = 0 := by
      refine List.countP_eq_zero.2 fun b hb => Bool.not_eq_true _ ▸ ?_
      have hmem : front ++ [a] ∈ pieces isEnd l := by simp [hfirst]
      exact isEnd_of_mem_dropLast _ hmem b (by rwa [List.dropLast_concat])
    have hone : (front ++ [a]).countP isEnd = 1 := by
      rw [List.countP_append, hfree, List.countP_singleton, if_pos hend]
    rw [List.flatten_cons, List.countP_append, hone, ih (pieces_flatten_of_cons h),
      List.length_cons, Nat.add_comm]

end Reckoner
