/-!
# Journals of a keyed store

A store is what a journal of writes leaves behind.  Names are told apart by a
key, so that two names of one key are the same cell: the last one to be
written gives the cell its name and its value.

## Main results

* `stored_eq_some_iff`: a cell holds what was put there last, if nothing that
  came after touches it.
-/

namespace Cosca.Verified.Journal

/-- A write to a store. -/
inductive Entry (N V : Type) where
  | put (name : N) (value : V)
  | drop (name : N)
  | wipe

variable {N V K : Type} (key : N → K)

/-- The entry writes to the cell, or empties it. -/
def Entry.Touches (k : K) : Entry N V → Prop
  | .put name _ => key name = k
  | .drop name => key name = k
  | .wipe => True

/-- The entry writes the name. -/
def Entry.Names (other : N) : Entry N V → Prop
  | .put name _ => name = other
  | .drop name => name = other
  | .wipe => False

variable {key} in
theorem Entry.Names.touches {entry : Entry N V} {other : N} {k : K}
    (h : entry.Names other) (hk : key other = k) : entry.Touches key k := by
  cases entry with
  | put name value => exact (congrArg key h).trans hk
  | drop name => exact (congrArg key h).trans hk
  | wipe => exact trivial

/-- An entry that touches a cell under one key and not under another one writes
a name of the cell. -/
theorem Entry.names_of_touches {L : Type} {key : N → K} {key' : N → L}
    {entry : Entry N V} {k : K} {l : L} (h : entry.Touches key k)
    (hnot : ¬ entry.Touches key' l) :
    ∃ other, entry.Names other ∧ key other = k := by
  cases entry with
  | put name value => exact ⟨name, rfl, h⟩
  | drop name => exact ⟨name, rfl, h⟩
  | wipe => exact absurd trivial hnot

variable [DecidableEq K]

/-- What an entry does to a store. -/
def Entry.apply (store : K → Option (N × V)) : Entry N V → K → Option (N × V)
  | .put name value, k => if key name = k then some (name, value) else store k
  | .drop name, k => if key name = k then none else store k
  | .wipe, _ => none

/-- What a journal leaves in a store. -/
def replay (journal : List (Entry N V)) (store : K → Option (N × V)) :
    K → Option (N × V) :=
  journal.foldl (Entry.apply key) store

/-- What a journal leaves in an empty store. -/
def stored (journal : List (Entry N V)) : K → Option (N × V) :=
  replay key journal fun _ => none

variable {key}

theorem Entry.apply_of_not_touches {store : K → Option (N × V)}
    {entry : Entry N V} {k : K} (h : ¬ entry.Touches key k) :
    entry.apply key store k = store k := by
  cases entry with
  | put name value => exact if_neg h
  | drop name => exact if_neg h
  | wipe => exact absurd trivial h

/-- What an entry leaves in a cell that it touches. -/
theorem Entry.apply_of_touches (store : K → Option (N × V))
    {entry : Entry N V} {k : K} (h : entry.Touches key k) (var : N × V) :
    entry.apply key store k = some var ↔ entry = .put var.1 var.2 := by
  cases entry with
  | put name value =>
      have happly : (Entry.put name value).apply key store k =
          some (name, value) := if_pos h
      rw [happly]
      constructor
      · intro hvar
        rw [← Option.some.inj hvar]
      · intro hput
        injection hput with hname hvalue
        rw [hname, hvalue]
  | drop name =>
      have happly : (Entry.drop name).apply key store k = none := if_pos h
      rw [happly]
      exact ⟨nofun, nofun⟩
  | wipe => exact ⟨nofun, nofun⟩

theorem replay_eq_some_iff {journal : List (Entry N V)} {k : K}
    {var : N × V} : ∀ {store : K → Option (N × V)},
      replay key journal store k = some var ↔
        (∃ before after, journal = before ++ .put var.1 var.2 :: after ∧
          key var.1 = k ∧ ∀ entry ∈ after, ¬ entry.Touches key k) ∨
        (store k = some var ∧ ∀ entry ∈ journal, ¬ entry.Touches key k) := by
  induction journal with
  | nil => simp [replay]
  | cons entry journal ih =>
      intro store
      have hstep : replay key (entry :: journal) store k =
          replay key journal (entry.apply key store) k := rfl
      rw [hstep, ih]
      constructor
      · rintro (⟨before, after, rfl, hk, hafter⟩ | ⟨happly, hall⟩)
        · exact Or.inl ⟨entry :: before, after, rfl, hk, hafter⟩
        · by_cases htouch : entry.Touches key k
          · have hput := (Entry.apply_of_touches store htouch var).mp happly
            rw [hput] at htouch
            exact Or.inl ⟨[], journal, by rw [hput]; rfl, htouch, hall⟩
          · rw [Entry.apply_of_not_touches htouch] at happly
            exact Or.inr ⟨happly, List.forall_mem_cons.mpr ⟨htouch, hall⟩⟩
      · rintro (⟨before, after, hjournal, hk, hafter⟩ | ⟨hstore, hall⟩)
        · cases before with
          | nil =>
              obtain ⟨rfl, rfl⟩ := List.cons.inj hjournal
              have htouch : (Entry.put var.1 var.2).Touches key k := hk
              have happly := (Entry.apply_of_touches store htouch var).mpr rfl
              exact Or.inr ⟨happly, hafter⟩
          | cons first before =>
              obtain ⟨-, rfl⟩ := List.cons.inj hjournal
              exact Or.inl ⟨before, after, rfl, hk, hafter⟩
        · obtain ⟨htouch, hrest⟩ := List.forall_mem_cons.mp hall
          rw [Entry.apply_of_not_touches htouch]
          exact Or.inr ⟨hstore, hrest⟩

/-- A cell holds what was put there last. -/
theorem stored_eq_some_iff {journal : List (Entry N V)} {k : K}
    {var : N × V} : stored key journal k = some var ↔
      ∃ before after, journal = before ++ .put var.1 var.2 :: after ∧
        key var.1 = k ∧ ∀ entry ∈ after, ¬ entry.Touches key k := by
  rw [stored, replay_eq_some_iff]
  simp

/-- What is stored in a cell has its key. -/
theorem key_of_stored {journal : List (Entry N V)} {k : K} {var : N × V}
    (h : stored key journal k = some var) : key var.1 = k := by
  obtain ⟨before, after, -, hk, -⟩ := stored_eq_some_iff.mp h
  exact hk

/-- What is stored was put there. -/
theorem put_of_stored {journal : List (Entry N V)} {k : K} {var : N × V}
    (h : stored key journal k = some var) :
    Entry.put var.1 var.2 ∈ journal := by
  obtain ⟨before, after, rfl, -, -⟩ := stored_eq_some_iff.mp h
  exact List.mem_append_right before List.mem_cons_self

omit [DecidableEq K] in
/-- A journal is split in one way at the last place of an entry. -/
theorem eq_of_last {entry : Entry N V}
    {before after before' after' : List (Entry N V)}
    (h : before ++ entry :: after = before' ++ entry :: after')
    (hafter : entry ∉ after) (hafter' : entry ∉ after') : after = after' := by
  rcases List.append_eq_append_iff.mp h with ⟨mid, -, hmid⟩ | ⟨mid, -, hmid⟩
  · cases mid with
    | nil => exact (List.cons.inj hmid).2
    | cons first mid =>
        refine absurd ?_ hafter
        rw [(List.cons.inj hmid).2]
        exact List.mem_append_right mid List.mem_cons_self
  · cases mid with
    | nil => exact (List.cons.inj hmid).2.symm
    | cons first mid =>
        refine absurd ?_ hafter'
        rw [(List.cons.inj hmid).2]
        exact List.mem_append_right mid List.mem_cons_self

end Cosca.Verified.Journal
