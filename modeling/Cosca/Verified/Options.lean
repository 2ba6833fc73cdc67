/-!
# Reading a command line

A front end takes the words in front as options as long as they look like
options, up to a terminator where it knows one, and leaves the other words
alone.  `Option.none` stands for a front end without a terminator.

## Main results

* `read_terminated`, `read_operand`: where the reader stops.
* `cut_append`: a definition `name=value` is cut at its first separator.
-/

namespace Cosca.Verified.Options

section

variable {W : Type} [DecidableEq W]

/-- The options and the operands behind them. -/
def read (isOption : W → Bool) (terminator : Option W) :
    List W → List W × List W
  | [] => ([], [])
  | word :: words =>
      if terminator = some word then ([], words)
      else if isOption word then
        let (options, operands) := read isOption terminator words
        (word :: options, operands)
      else ([], word :: words)

variable {isOption : W → Bool} {terminator : Option W}

theorem read_append {options : List W}
    (h : ∀ word ∈ options, isOption word = true ∧ terminator ≠ some word)
    (rest : List W) :
    read isOption terminator (options ++ rest) =
      (options ++ (read isOption terminator rest).1,
        (read isOption terminator rest).2) := by
  induction options with
  | nil => rfl
  | cons word options ih =>
      have hword := h word List.mem_cons_self
      have hoptions := ih fun w hw => h w (List.mem_cons_of_mem _ hw)
      rw [List.cons_append, read, if_neg hword.2, if_pos hword.1, hoptions]
      rfl

/-- A reader with a terminator stops at the first one. -/
theorem read_terminated {stop : W} {options : List W}
    (h : ∀ word ∈ options, isOption word = true ∧ word ≠ stop)
    (operands : List W) :
    read isOption (some stop) (options ++ stop :: operands) =
      (options, operands) := by
  have hoptions : ∀ word ∈ options,
      isOption word = true ∧ some stop ≠ some word := by
    intro word hword
    exact ⟨(h word hword).1, fun heq => (h word hword).2
      (Option.some.inj heq).symm⟩
  rw [read_append hoptions, read, if_pos rfl, List.append_nil]

/-- A reader without one stops at the first word that is no option. -/
theorem read_operand {options : List W} {word : W}
    (h : ∀ word ∈ options, isOption word = true)
    (hword : isOption word = false) (words : List W) :
    read isOption none (options ++ word :: words) =
      (options, word :: words) := by
  have hoptions : ∀ word ∈ options,
      isOption word = true ∧ (none : Option W) ≠ some word :=
    fun w hw => ⟨h w hw, nofun⟩
  rw [read_append hoptions, read, if_neg nofun, hword,
    if_neg Bool.false_ne_true, List.append_nil]

end

section

variable {α : Type} [DecidableEq α]

/-- What stands before the first separator, and what stands behind it. -/
def cut (sep : α) (xs : List α) : List α × List α :=
  (xs.takeWhile (· ≠ sep), (xs.dropWhile (· ≠ sep)).drop 1)

theorem cut_append {sep : α} {name : List α} (h : sep ∉ name)
    (value : List α) : cut sep (name ++ sep :: value) = (name, value) := by
  have hname : ∀ x ∈ name, decide (x ≠ sep) = true := by
    intro x hx
    exact decide_eq_true fun heq => h (heq ▸ hx)
  have hvalue : (sep :: value).takeWhile (· ≠ sep) = [] ∧
      (sep :: value).dropWhile (· ≠ sep) = sep :: value := by
    simp
  rw [cut, List.takeWhile_append_of_pos hname,
    List.dropWhile_append_of_pos hname, hvalue.1, hvalue.2, List.append_nil]
  rfl

end

end Cosca.Verified.Options
