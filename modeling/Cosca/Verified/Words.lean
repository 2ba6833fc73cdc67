/-!
# Words between separators

What a word splitter computes, without its buffer, its flags and its states:
the text is cut into pieces, some of which separate words; the words are the
groups of pieces between separators, a group with no piece is no word, and a
word is the concatenation of its pieces.  A piece may contribute nothing, so
the word of a group of empty pieces is empty but is there.

## Main results

* `words_eq_assemble` — the words can be collected in one pass that keeps the
  pending word, `none` when no piece of one has been read.
* `words_append_separators`, `words_append_texts` — pieces added at the end
  add no word, or text to the last one.
-/

namespace Cosca.Verified.Words

variable {α : Type}

/-- A piece: `none` separates words, `some t` contributes `t` to one. -/
abbrev Piece (α : Type) := Option (List α)

/-- The words of a list of pieces. -/
def words (ps : List (Piece α)) : List (List α) :=
  ((ps.splitOnP Option.isNone).filter (!·.isEmpty)).map
    (·.flatMap (·.getD []))

/-- The words in one pass, after the pending word `pending`. -/
def assemble : Option (List α) → List (Piece α) → List (List α)
  | pending, [] => pending.toList
  | pending, none :: ps => pending.toList ++ assemble none ps
  | pending, some t :: ps => assemble (some (pending.getD [] ++ t)) ps

@[simp] theorem assemble_nil (pending : Option (List α)) :
    assemble pending [] = pending.toList := rfl

@[simp] theorem assemble_separator (pending : Option (List α))
    (ps : List (Piece α)) :
    assemble pending (none :: ps) = pending.toList ++ assemble none ps := rfl

@[simp] theorem assemble_text (pending : Option (List α)) (t : List α)
    (ps : List (Piece α)) :
    assemble pending (some t :: ps) =
      assemble (some (pending.getD [] ++ t)) ps := rfl

/-- The pending word is what a group read so far amounts to. -/
private theorem assemble_group (ps : List (Piece α)) :
    ∀ group : List (Piece α), (∀ p ∈ group, p.isNone = false) →
      assemble (if group.isEmpty then none
          else some (group.flatMap (·.getD []))) ps =
        words (group ++ ps) := by
  induction ps with
  | nil =>
      intro group hgroup
      rw [List.append_nil, words, List.splitOnP_eq_singleton hgroup]
      by_cases h : group.isEmpty = true <;> simp [h]
  | cons p ps ih =>
      intro group hgroup
      cases p with
      | none =>
          have hnil := ih [] (by simp)
          simp only [List.isEmpty_nil, if_true, List.nil_append] at hnil
          rw [assemble_separator, hnil, words, words,
            List.splitOnP_append_cons _ _ (by rfl),
            List.splitOnP_eq_singleton hgroup]
          by_cases h : group.isEmpty = true <;> simp [h]
      | some t =>
          have hnext := ih (group ++ [some t]) (by
            intro q hq
            simp only [List.mem_append, List.mem_singleton] at hq
            rcases hq with hq | rfl
            · exact hgroup q hq
            · rfl)
          rw [List.append_assoc, List.singleton_append] at hnext
          rw [assemble_text, ← hnext]
          by_cases h : group.isEmpty = true
          · obtain rfl : group = [] := by simpa using h
            simp
          · simp [h]

/-- The words, collected in one pass. -/
theorem words_eq_assemble (ps : List (Piece α)) :
    words ps = assemble none ps := by
  have h := assemble_group ps [] (by simp)
  simpa using h.symm

/-! ## More pieces at the end -/

private theorem assemble_separators (k : Nat) :
    assemble (none : Option (List α)) (List.replicate k none) = [] := by
  induction k with
  | zero => rfl
  | succ k ih => rw [List.replicate_succ, assemble_separator, ih]; rfl

private theorem assemble_texts (texts : List (List α)) :
    ∀ w : List α, assemble (some w) (texts.map some) = [w ++ texts.flatten] := by
  induction texts with
  | nil => intro w; simp
  | cons t texts ih => intro w; simp [ih]

/-- Separators at the end add no word. -/
theorem words_append_separators (ps : List (Piece α)) (k : Nat) :
    words (ps ++ List.replicate k none) = words ps := by
  have hall : ∀ pending : Option (List α),
      assemble pending (ps ++ List.replicate k none) = assemble pending ps := by
    induction ps with
    | nil =>
        intro pending
        cases k with
        | zero => rfl
        | succ k =>
            rw [List.nil_append, List.replicate_succ, assemble_separator,
              assemble_separators, List.append_nil, assemble_nil]
    | cons p ps ih =>
        intro pending
        cases p with
        | none => simp only [List.cons_append, assemble_separator, ih]
        | some t => simp only [List.cons_append, assemble_text, ih]
  rw [words_eq_assemble, words_eq_assemble, hall]

/-- Text after text is more of the last word. -/
theorem words_append_texts (ps : List (Piece α)) (t : List α) :
    ∃ ws w, ∀ texts : List (List α),
      words (ps ++ some t :: texts.map some) = ws ++ [w ++ texts.flatten] := by
  have hall : ∀ pending : Option (List α), ∃ ws w,
      ∀ texts : List (List α),
        assemble pending (ps ++ some t :: texts.map some) =
          ws ++ [w ++ texts.flatten] := by
    induction ps with
    | nil =>
        intro pending
        exact ⟨[], pending.getD [] ++ t, fun texts => by
          rw [List.nil_append, assemble_text, assemble_texts,
            List.nil_append]⟩
    | cons p ps ih =>
        intro pending
        cases p with
        | none =>
            obtain ⟨ws, w, h⟩ := ih none
            exact ⟨pending.toList ++ ws, w, fun texts => by
              rw [List.cons_append, assemble_separator, h,
                List.append_assoc]⟩
        | some t' =>
            obtain ⟨ws, w, h⟩ := ih (some (pending.getD [] ++ t'))
            exact ⟨ws, w, fun texts => by
              rw [List.cons_append, assemble_text, h]⟩
  obtain ⟨ws, w, h⟩ := hall none
  exact ⟨ws, w, fun texts => by rw [words_eq_assemble, h]⟩

end Cosca.Verified.Words
