import Mathlib.Algebra.Group.Nat.Defs
import Mathlib.Data.List.Basic

/-!
# Tables of fixed-width cells

Numbers as bytes, sections of cells of one width, and tables with a cell for
every index, of which only some are in use.

## Main results

* `ofBytes_toBytes`: a number is read back from its bytes.
* `chunks_flatMap`: a section is read back cell by cell.
* `filterMap_entryAt`: what is listed by ascending index is found again
  index by index.
-/

namespace Cosca.Verified.Table

/-! ## Numbers -/

/-- The low bytes of a number, least significant first. -/
def toLe : Nat → Nat → List UInt8
  | 0, _ => []
  | width + 1, n => (n % 256).toUInt8 :: toLe width (n / 256)

def ofLe : List UInt8 → Nat
  | [] => 0
  | b :: bytes => b.toNat + 256 * ofLe bytes

@[simp] theorem length_toLe (width : Nat) :
    ∀ n, (toLe width n).length = width := by
  induction width with
  | zero => exact fun n => rfl
  | succ width ih =>
      intro n
      rw [toLe, List.length_cons, ih]

theorem ofLe_toLe (width : Nat) :
    ∀ n, n < 256 ^ width → ofLe (toLe width n) = n := by
  induction width with
  | zero =>
      intro n hn
      have hzero : n = 0 := by simpa using hn
      simp [toLe, ofLe, hzero]
  | succ width ih =>
      intro n hn
      have hpow : (256 : Nat) ^ (width + 1) = 256 ^ width * 256 := rfl
      have hdiv : n / 256 < 256 ^ width := by
        rw [hpow] at hn
        exact Nat.div_lt_of_lt_mul (by omega)
      have hbyte : (n % 256).toUInt8.toNat = n % 256 := by
        show n % 256 % 256 = n % 256
        omega
      rw [toLe, ofLe, ih (n / 256) hdiv, hbyte]
      omega

/-- The bytes of a number in the order of the machine. -/
def toBytes (littleEndian : Bool) (width n : Nat) : List UInt8 :=
  if littleEndian then toLe width n else (toLe width n).reverse

def ofBytes (littleEndian : Bool) (bytes : List UInt8) : Nat :=
  if littleEndian then ofLe bytes else ofLe bytes.reverse

@[simp] theorem length_toBytes (littleEndian : Bool) (width n : Nat) :
    (toBytes littleEndian width n).length = width := by
  cases littleEndian with
  | false => simp [toBytes]
  | true => simp [toBytes]

theorem ofBytes_toBytes (littleEndian : Bool) {width n : Nat}
    (hn : n < 256 ^ width) :
    ofBytes littleEndian (toBytes littleEndian width n) = n := by
  cases littleEndian with
  | false => simp [ofBytes, toBytes, ofLe_toLe width n hn]
  | true => simp [ofBytes, toBytes, ofLe_toLe width n hn]

/-! ## Sections -/

/-- The first cells of a section. -/
def chunks (width : Nat) : Nat → List UInt8 → List (List UInt8)
  | 0, _ => []
  | count + 1, bytes =>
      bytes.take width :: chunks width count (bytes.drop width)

theorem chunks_flatMap {α : Type} {width : Nat} (cell : α → List UInt8)
    (hcell : ∀ a, (cell a).length = width) (cells : List α) :
    chunks width cells.length (cells.flatMap cell) = cells.map cell := by
  induction cells with
  | nil => rfl
  | cons a cells ih =>
      rw [List.length_cons, List.flatMap_cons, chunks, List.map_cons,
        List.take_left' (hcell a), List.drop_left' (hcell a), ih]

theorem length_flatMap_cells {α : Type} {width : Nat} (cell : α → List UInt8)
    (hcell : ∀ a, (cell a).length = width) (cells : List α) :
    (cells.flatMap cell).length = cells.length * width := by
  induction cells with
  | nil => simp
  | cons a cells ih =>
      rw [List.flatMap_cons, List.length_append, List.length_cons, hcell, ih,
        Nat.succ_mul]
      omega

/-! ## Indices -/

section

variable {α : Type} (index : α → Nat)

/-- The entry of an index. -/
def entryAt (entries : List α) (i : Nat) : Option α :=
  entries.find? fun e => index e == i

variable {index}

theorem entryAt_cons_self (e : α) (entries : List α) :
    entryAt index (e :: entries) (index e) = some e :=
  List.find?_cons_of_pos (beq_self_eq_true (index e))

theorem entryAt_cons_of_ne {e : α} {i : Nat} (h : index e ≠ i)
    (entries : List α) :
    entryAt index (e :: entries) i = entryAt index entries i :=
  List.find?_cons_of_neg (by simpa using h)

theorem entryAt_eq_none {entries : List α} {i : Nat}
    (h : ∀ e ∈ entries, index e ≠ i) : entryAt index entries i = none :=
  List.find?_eq_none.mpr fun e he => by simpa using h e he

/-- What is listed by ascending index is found again index by index. -/
theorem filterMap_entryAt (count : Nat) :
    ∀ (first : Nat) (entries : List α),
      entries.Pairwise (fun a b => index a < index b) →
      (∀ e ∈ entries, first ≤ index e ∧ index e < first + count) →
      (List.range' first count).filterMap (entryAt index entries) =
        entries := by
  induction count with
  | zero =>
      intro first entries _ hbounds
      cases entries with
      | nil => rfl
      | cons e entries =>
          have hbound := hbounds e List.mem_cons_self
          omega
  | succ count ih =>
      intro first entries hsorted hbounds
      rw [List.range'_succ]
      cases entries with
      | nil => simp [entryAt]
      | cons e entries =>
          obtain ⟨hfirst, hrest⟩ := List.pairwise_cons.mp hsorted
          have hbound := hbounds e List.mem_cons_self
          by_cases hindex : index e = first
          · have hfound := @entryAt_cons_self α index e entries
            rw [hindex] at hfound
            rw [List.filterMap_cons_some hfound]
            have htail := ih (first + 1) entries hrest fun e' he' => by
              have hlt := hfirst e' he'
              have hbound' := hbounds e' (List.mem_cons_of_mem e he')
              omega
            have hskip : (List.range' (first + 1) count).filterMap
                (entryAt index (e :: entries)) =
                (List.range' (first + 1) count).filterMap
                  (entryAt index entries) := by
              refine List.filterMap_congr fun i hi => ?_
              have hle := (List.mem_range'_1.mp hi).1
              have hne : index e ≠ i := by omega
              exact entryAt_cons_of_ne hne entries
            rw [hskip, htail]
          · have hnone : entryAt index (e :: entries) first = none := by
              refine entryAt_eq_none fun e' he' => ?_
              rcases List.mem_cons.mp he' with rfl | he'
              · exact hindex
              · have hlt := hfirst e' he'
                omega
            rw [List.filterMap_cons_none hnone]
            refine ih (first + 1) (e :: entries) hsorted fun e' he' => ?_
            have hbound' := hbounds e' he'
            rcases List.mem_cons.mp he' with rfl | he''
            · omega
            · have hlt := hfirst e' he''
              omega

end

end Cosca.Verified.Table
