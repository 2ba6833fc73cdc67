/-!
# Code that may panic

A piece of code leaves events behind and returns, unwinds from a panic, or has
aborted the process: a destructor that panics while its frame is already
unwinding aborts.  What is aborted stays aborted; `catchUnwind` stops an unwind
only.

## Main results

* `dropGlue_ending`: dropping values one after the other returns, unwinds or
  aborts as none, one or more of their destructors panic.
* `dropGlue_events`: unless it aborts, every destructor runs once, in order.
-/

namespace Cosca.Verified.Unwind

variable {ε α β ρ : Type}

/-- How a piece of code ends. -/
inductive Ending (α : Type) where
  | returned (a : α)
  | unwinding
  | aborted
  deriving DecidableEq, Repr

/-- Code with the events `ε`. -/
structure Code (ε α : Type) where
  events : List ε
  ending : Ending α
  deriving DecidableEq, Repr

/-- Sequencing: what comes after an unwind or an abort does not run. -/
def Code.bind (c : Code ε α) (f : α → Code ε β) : Code ε β :=
  match c.ending with
  | .returned a => ⟨c.events ++ (f a).events, (f a).ending⟩
  | .unwinding => ⟨c.events, .unwinding⟩
  | .aborted => ⟨c.events, .aborted⟩

instance : Monad (Code ε) where
  pure := fun a => ⟨[], .returned a⟩
  bind := Code.bind

/-- `panic!`. -/
def raise : Code ε α :=
  ⟨[], .unwinding⟩

/-- A call of code that is not trusted: it may panic. -/
def call (panics : ε → Bool) (e : ε) : Code ε Unit :=
  ⟨[e], if panics e then .unwinding else .returned ()⟩

/-- `std::panic::catch_unwind`. -/
def Code.catchUnwind (c : Code ε α) : Code ε (Except Unit α) :=
  match c.ending with
  | .returned a => ⟨c.events, .returned (.ok a)⟩
  | .unwinding => ⟨c.events, .returned (.error ())⟩
  | .aborted => ⟨c.events, .aborted⟩

/-- Code in a frame that owns a value: if the code unwinds, the value's
destructors run while it does. -/
def Code.owning (c : Code ε α) (glue : Code ε Unit) : Code ε α :=
  match c.ending, glue.ending with
  | .unwinding, .returned () => ⟨c.events ++ glue.events, .unwinding⟩
  | .unwinding, _ => ⟨c.events ++ glue.events, .aborted⟩
  | _, _ => c

/-- The drop of values one after the other; after a panic the others are
dropped while unwinding. -/
def dropGlue (drop : ρ → Code ε Unit) : List ρ → Code ε Unit
  | [] => pure ()
  | r :: rest => do
      (drop r).owning (dropGlue drop rest)
      dropGlue drop rest

/-! ## How code ends -/

theorem bind_of_returned {c : Code ε α} {f : α → Code ε β} {a : α}
    (h : c.ending = .returned a) :
    c >>= f = ⟨c.events ++ (f a).events, (f a).ending⟩ := by
  show Code.bind c f = _
  unfold Code.bind
  rw [h]

theorem bind_of_unwinding {c : Code ε α} {f : α → Code ε β}
    (h : c.ending = .unwinding) : c >>= f = ⟨c.events, .unwinding⟩ := by
  show Code.bind c f = _
  unfold Code.bind
  rw [h]

theorem bind_of_aborted {c : Code ε α} {f : α → Code ε β}
    (h : c.ending = .aborted) : c >>= f = ⟨c.events, .aborted⟩ := by
  show Code.bind c f = _
  unfold Code.bind
  rw [h]

theorem catchUnwind_of_returned {c : Code ε α} {a : α}
    (h : c.ending = .returned a) :
    c.catchUnwind = ⟨c.events, .returned (.ok a)⟩ := by
  unfold Code.catchUnwind
  rw [h]

theorem catchUnwind_of_unwinding {c : Code ε α} (h : c.ending = .unwinding) :
    c.catchUnwind = ⟨c.events, .returned (.error ())⟩ := by
  unfold Code.catchUnwind
  rw [h]

theorem catchUnwind_of_aborted {c : Code ε α} (h : c.ending = .aborted) :
    c.catchUnwind = ⟨c.events, .aborted⟩ := by
  unfold Code.catchUnwind
  rw [h]

theorem owning_of_not_unwinding {c : Code ε α} {glue : Code ε Unit}
    (h : c.ending ≠ .unwinding) : c.owning glue = c := by
  unfold Code.owning
  cases hend : c.ending with
  | returned a => rfl
  | unwinding => exact absurd hend h
  | aborted => rfl

theorem owning_of_returned {c : Code ε α} {glue : Code ε Unit}
    (h : c.ending = .unwinding) (hglue : glue.ending = .returned ()) :
    c.owning glue = ⟨c.events ++ glue.events, .unwinding⟩ := by
  unfold Code.owning
  rw [h, hglue]

theorem owning_of_panic {c : Code ε α} {glue : Code ε Unit}
    (h : c.ending = .unwinding) (hglue : glue.ending ≠ .returned ()) :
    c.owning glue = ⟨c.events ++ glue.events, .aborted⟩ := by
  unfold Code.owning
  rw [h]
  cases hend : glue.ending with
  | returned a => exact absurd hend hglue
  | unwinding => rfl
  | aborted => rfl

/-! ## Drop glue -/

/-- How code with so many panics ends that drops what it owns. -/
def Ending.ofPanics : Nat → Ending Unit
  | 0 => .returned ()
  | 1 => .unwinding
  | _ => .aborted

theorem ofPanics_returned_iff {n : Nat} :
    Ending.ofPanics n = .returned () ↔ n = 0 := by
  cases n with
  | zero => exact ⟨fun _ => rfl, fun _ => rfl⟩
  | succ n => cases n <;> exact ⟨nofun, nofun⟩

theorem ofPanics_aborted_iff {n : Nat} :
    Ending.ofPanics n = .aborted ↔ 2 ≤ n := by
  match n with
  | 0 => exact ⟨nofun, by omega⟩
  | 1 => exact ⟨nofun, by omega⟩
  | n + 2 => exact ⟨fun _ => by omega, fun _ => rfl⟩

theorem dropGlue_cons (drop : ρ → Code ε Unit) (r : ρ) (rest : List ρ) :
    dropGlue drop (r :: rest) =
      (drop r).owning (dropGlue drop rest) >>= fun _ => dropGlue drop rest :=
  rfl

theorem dropGlue_map (drop : α → Code ε Unit) (f : ρ → α) (rs : List ρ) :
    dropGlue (fun r => drop (f r)) rs = dropGlue drop (rs.map f) := by
  induction rs with
  | nil => rfl
  | cons r rest ih =>
      rw [List.map_cons, dropGlue_cons, dropGlue_cons, ih]

section

variable {panics : ε → Bool} {e : ε} {rest : List ε}

theorem dropGlue_of_quiet (h : panics e = false) :
    dropGlue (call panics) (e :: rest) =
      ⟨e :: (dropGlue (call panics) rest).events,
        (dropGlue (call panics) rest).ending⟩ := by
  have hcall : (call panics e).ending = .returned () := by
    simp [call, h]
  rw [dropGlue_cons, owning_of_not_unwinding, bind_of_returned hcall]
  · rfl
  · rw [hcall]
    exact nofun

theorem dropGlue_of_panic (h : panics e = true)
    (hrest : (dropGlue (call panics) rest).ending = .returned ()) :
    dropGlue (call panics) (e :: rest) =
      ⟨e :: (dropGlue (call panics) rest).events, .unwinding⟩ := by
  have hcall : (call panics e).ending = .unwinding := by
    simp [call, h]
  rw [dropGlue_cons, owning_of_returned hcall hrest, bind_of_unwinding rfl]
  rfl

theorem dropGlue_of_panics (h : panics e = true)
    (hrest : (dropGlue (call panics) rest).ending ≠ .returned ()) :
    (dropGlue (call panics) (e :: rest)).ending = .aborted := by
  have hcall : (call panics e).ending = .unwinding := by
    simp [call, h]
  rw [dropGlue_cons, owning_of_panic hcall hrest, bind_of_aborted rfl]

end

theorem dropGlue_ending (panics : ε → Bool) (es : List ε) :
    (dropGlue (call panics) es).ending = .ofPanics (es.countP panics) := by
  induction es with
  | nil => rfl
  | cons e rest ih =>
      rw [List.countP_cons]
      by_cases he : panics e = true
      · rw [if_pos he]
        by_cases hrest : rest.countP panics = 0
        · rw [hrest] at ih ⊢
          rw [dropGlue_of_panic he ih]
          rfl
        · have hpanics : (dropGlue (call panics) rest).ending ≠
              .returned () := by
            rw [ih]
            exact fun h => hrest (ofPanics_returned_iff.mp h)
          rw [dropGlue_of_panics he hpanics]
          exact (ofPanics_aborted_iff.mpr (by omega)).symm
      · rw [if_neg he, dropGlue_of_quiet (Bool.eq_false_iff.mpr he)]
        exact ih

theorem dropGlue_events (panics : ε → Bool) (es : List ε)
    (h : es.countP panics ≤ 1) :
    (dropGlue (call panics) es).events = es := by
  induction es with
  | nil => rfl
  | cons e rest ih =>
      rw [List.countP_cons] at h
      by_cases he : panics e = true
      · rw [if_pos he] at h
        have hrest : rest.countP panics = 0 := by omega
        have hdropped := dropGlue_ending panics rest
        rw [hrest] at hdropped
        rw [dropGlue_of_panic he hdropped, ih (by omega)]
      · rw [if_neg he] at h
        rw [dropGlue_of_quiet (Bool.eq_false_iff.mpr he), ih h]

end Cosca.Verified.Unwind
