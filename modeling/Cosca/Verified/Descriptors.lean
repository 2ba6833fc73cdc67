/-!
# Descriptor tables

The table of a process: a number for each descriptor, with the file behind it
and whether it closes at the next `exec`.  Files are of any type; a table is a
total function, so that two tables are the same where they agree at every
number.

## Main results

* `put_self`, `put_ne` — one descriptor is set and the others stay.
* `exec_eq_some` — what is left after an `exec`.
-/

namespace Cosca.Verified.Descriptors

variable {ρ : Type}

/-- An open descriptor. -/
structure Entry (ρ : Type) where
  file : ρ
  cloexec : Bool

/-- The descriptors of a process. -/
abbrev Table (ρ : Type) := Nat → Option (Entry ρ)

/-! ## Setting one descriptor -/

/-- The table with another entry at one number. -/
def Table.put (t : Table ρ) (fd : Nat) (e : Option (Entry ρ)) : Table ρ :=
  fun n => if n = fd then e else t n

@[simp]
theorem Table.put_self (t : Table ρ) (fd : Nat) (e : Option (Entry ρ)) :
    t.put fd e fd = e :=
  if_pos rfl

theorem Table.put_ne (t : Table ρ) {fd n : Nat} (e : Option (Entry ρ))
    (h : n ≠ fd) : t.put fd e n = t n :=
  if_neg h

/-- `open`, at a number the system chose. -/
def Table.open (t : Table ρ) (fd : Nat) (file : ρ) (cloexec : Bool) : Table ρ :=
  t.put fd (some ⟨file, cloexec⟩)

/-- `close`. -/
def Table.close (t : Table ρ) (fd : Nat) : Table ρ :=
  t.put fd none

/-- `fcntl(F_SETFD)`. -/
def Table.setCloexec (t : Table ρ) (fd : Nat) (cloexec : Bool) : Table ρ :=
  t.put fd ((t fd).map fun e => { e with cloexec := cloexec })

/-- `dup2` of two numbers that differ: the copy does not close at `exec`. -/
def Table.dup2 (t : Table ρ) (src dst : Nat) : Table ρ :=
  t.put dst ((t src).map fun e => { e with cloexec := false })

/-- `fcntl(F_DUPFD_CLOEXEC)`, at a number the system chose. -/
def Table.dupCloexec (t : Table ρ) (src dst : Nat) : Table ρ :=
  t.put dst ((t src).map fun e => { e with cloexec := true })

/-- `exec`. -/
def Table.exec (t : Table ρ) : Table ρ :=
  fun n => (t n).filter fun e => !e.cloexec

theorem Table.exec_eq_some {t : Table ρ} {n : Nat} {e : Entry ρ} :
    t.exec n = some e ↔ t n = some e ∧ e.cloexec = false := by
  simp [Table.exec, Option.filter_eq_some_iff]

/-! ## What a table holds -/

/-- A descriptor of the file is open. -/
def Table.Holds (t : Table ρ) (file : ρ) : Prop :=
  ∃ fd e, t fd = some e ∧ e.file = file

end Cosca.Verified.Descriptors
