/-!
# Blocks of terminated strings

A block is a run of strings, each closed by a terminator, and one terminator
more.  A reader takes the strings up to the first one that is empty.

## Main results

* `strings_block`: what was written is read back, if no string is empty and
  none holds the terminator.
* `afterBlock_block`: the reader stops at the end of what was written.
* `cut_join`, `join_of_cut`: `name=value` is read back, and what was read is
  written as it was.
-/

namespace Cosca.Verified.Block

variable {U : Type} [DecidableEq U]

/-! ## Strings in a block -/

/-- The strings, each with its terminator. -/
def terminated (terminator : U) (strings : List (List U)) : List U :=
  strings.flatMap (· ++ [terminator])

omit [DecidableEq U] in
@[simp] theorem terminated_cons (terminator : U) (s : List U)
    (ss : List (List U)) : terminated terminator (s :: ss) =
      s ++ terminator :: terminated terminator ss := by
  simp [terminated]

/-- The reader, with the string it is in so far. -/
def stringsLoop (terminator : U) (current : List U) : List U → List (List U)
  | [] => []
  | u :: rest =>
      if u = terminator then
        if current.isEmpty then []
        else current :: stringsLoop terminator [] rest
      else stringsLoop terminator (current ++ [u]) rest

/-- The strings of a block. -/
def strings (terminator : U) (block : List U) : List (List U) :=
  stringsLoop terminator [] block

theorem stringsLoop_string (terminator : U) (s rest : List U)
    (hs : terminator ∉ s) : ∀ current, current ++ s ≠ [] →
      stringsLoop terminator current (s ++ terminator :: rest) =
        (current ++ s) :: stringsLoop terminator [] rest := by
  induction s with
  | nil =>
      intro current hne
      rw [List.append_nil] at hne ⊢
      have hempty : current.isEmpty = false := by simpa using hne
      simp [stringsLoop, hempty]
  | cons u s ih =>
      intro current hne
      have hu : u ≠ terminator := fun h => hs (h ▸ List.mem_cons_self)
      have hrest : terminator ∉ s := fun h => hs (List.mem_cons_of_mem u h)
      rw [List.cons_append, stringsLoop, if_neg hu, ih hrest _ (by simp)]
      simp

theorem strings_terminated (terminator : U) (ss : List (List U))
    (hne : ∀ s ∈ ss, s ≠ []) (hterm : ∀ s ∈ ss, terminator ∉ s)
    (rest : List U) :
    strings terminator (terminated terminator ss ++ rest) =
      ss ++ strings terminator rest := by
  induction ss with
  | nil => rfl
  | cons s ss ih =>
      have hs : s ≠ [] := hne s List.mem_cons_self
      have hloop := stringsLoop_string terminator s
        (terminated terminator ss ++ rest) (hterm s List.mem_cons_self) []
        (by simpa using hs)
      have hrest := ih (fun s' h => hne s' (List.mem_cons_of_mem s h))
        fun s' h => hterm s' (List.mem_cons_of_mem s h)
      rw [strings, terminated_cons, List.append_assoc, List.cons_append]
      refine hloop.trans ?_
      rw [List.nil_append, List.cons_append, ← hrest]
      rfl

/-- What was written is read back. -/
theorem strings_block (terminator : U) (ss : List (List U))
    (hne : ∀ s ∈ ss, s ≠ []) (hterm : ∀ s ∈ ss, terminator ∉ s)
    (rest : List U) :
    strings terminator (terminated terminator ss ++ terminator :: rest) =
      ss := by
  rw [strings_terminated terminator ss hne hterm]
  simp [strings, stringsLoop]

/-- What follows the empty string that ends a block, for a reader that is
inside a string or at the start of one. -/
def afterBlockLoop (terminator : U) (inside : Bool) :
    List U → Option (List U)
  | [] => none
  | u :: rest =>
      if u = terminator then
        if inside then afterBlockLoop terminator false rest else some rest
      else afterBlockLoop terminator true rest

/-- What follows a block; `none` if no empty string ends it. -/
def afterBlock (terminator : U) (block : List U) : Option (List U) :=
  afterBlockLoop terminator false block

theorem afterBlockLoop_string (terminator : U) (s rest : List U)
    (hs : terminator ∉ s) : ∀ inside, inside = true ∨ s ≠ [] →
      afterBlockLoop terminator inside (s ++ terminator :: rest) =
        afterBlockLoop terminator false rest := by
  induction s with
  | nil =>
      intro inside hinside
      have htrue : inside = true := by simpa using hinside
      simp [afterBlockLoop, htrue]
  | cons u s ih =>
      intro inside _
      have hu : u ≠ terminator := fun h => hs (h ▸ List.mem_cons_self)
      have hrest : terminator ∉ s := fun h => hs (List.mem_cons_of_mem u h)
      rw [List.cons_append, afterBlockLoop, if_neg hu]
      exact ih hrest true (Or.inl rfl)

/-- The empty string that ends a block is the first one in it. -/
theorem afterBlock_block (terminator : U) (ss : List (List U))
    (hne : ∀ s ∈ ss, s ≠ []) (hterm : ∀ s ∈ ss, terminator ∉ s)
    (rest : List U) :
    afterBlock terminator (terminated terminator ss ++ terminator :: rest) =
      some rest := by
  induction ss with
  | nil => simp [terminated, afterBlock, afterBlockLoop]
  | cons s ss ih =>
      have hs : s ≠ [] := hne s List.mem_cons_self
      have hloop := afterBlockLoop_string terminator s
        (terminated terminator ss ++ terminator :: rest)
        (hterm s List.mem_cons_self) false (Or.inr hs)
      rw [afterBlock, terminated_cons, List.append_assoc, List.cons_append]
      refine hloop.trans ?_
      exact ih (fun s' h => hne s' (List.mem_cons_of_mem s h))
        fun s' h => hterm s' (List.mem_cons_of_mem s h)

/-! ## `name=value` -/

/-- The string `name=value`. -/
def join (separator : U) (name value : List U) : List U :=
  name ++ separator :: value

/-- A string cut at its first separator that is not its first unit. -/
def cut (separator : U) : List U → Option (List U × List U)
  | [] => none
  | u :: rest =>
      match rest.dropWhile (· ≠ separator) with
      | [] => none
      | _ :: value => some (u :: rest.takeWhile (· ≠ separator), value)

theorem dropWhile_join (separator : U) (name value : List U)
    (h : separator ∉ name) :
    (name ++ separator :: value).dropWhile (· ≠ separator) =
        separator :: value ∧
      (name ++ separator :: value).takeWhile (· ≠ separator) = name := by
  induction name with
  | nil => simp
  | cons u name ih =>
      have hu : u ≠ separator := fun e => h (e ▸ List.mem_cons_self)
      have hrest := ih fun e => h (List.mem_cons_of_mem u e)
      constructor
      · rw [List.cons_append, List.dropWhile_cons_of_pos (by simpa using hu)]
        exact hrest.1
      · rw [List.cons_append, List.takeWhile_cons_of_pos (by simpa using hu),
          hrest.2]

/-- What can be read back as a name. -/
def IsName (separator : U) (name : List U) : Prop :=
  name ≠ [] ∧ separator ∉ name.tail

/-- A name is read back. -/
theorem cut_join (separator : U) (name value : List U)
    (h : IsName separator name) :
    cut separator (join separator name value) = some (name, value) := by
  cases name with
  | nil => exact absurd rfl h.1
  | cons u name =>
      obtain ⟨hdrop, htake⟩ := dropWhile_join separator name value h.2
      rw [join, List.cons_append, cut, hdrop, htake]

theorem isName_of_cut (separator : U) {s name value : List U}
    (h : cut separator s = some (name, value)) : IsName separator name := by
  cases s with
  | nil => cases h
  | cons u rest =>
      rw [cut] at h
      cases hdrop : rest.dropWhile (· ≠ separator) with
      | nil =>
          rw [hdrop] at h
          cases h
      | cons v value' =>
          rw [hdrop] at h
          have hname := (Prod.mk.inj (Option.some.inj h)).1
          rw [← hname]
          refine ⟨List.cons_ne_nil _ _, fun hmem => ?_⟩
          have hall := @List.all_takeWhile _ (· ≠ separator) rest
          have hne := List.all_eq_true.mp hall separator hmem
          simp at hne

/-- What was cut is joined back. -/
theorem join_of_cut (separator : U) (s name value : List U)
    (h : cut separator s = some (name, value)) :
    join separator name value = s := by
  cases s with
  | nil => cases h
  | cons u rest =>
      have hsplit : rest.takeWhile (· ≠ separator) ++
          rest.dropWhile (· ≠ separator) = rest :=
        List.takeWhile_append_dropWhile
      rw [cut] at h
      cases hdrop : rest.dropWhile (· ≠ separator) with
      | nil =>
          rw [hdrop] at h
          cases h
      | cons v value' =>
          rw [hdrop] at h hsplit
          have hv : v = separator := by
            have hhead := List.head?_dropWhile_not (· ≠ separator) rest
            rw [hdrop] at hhead
            simpa using hhead
          have hpair := Option.some.inj h
          rw [hv] at hsplit
          rw [← (Prod.mk.inj hpair).1, ← (Prod.mk.inj hpair).2, join,
            List.cons_append, hsplit]

end Cosca.Verified.Block
