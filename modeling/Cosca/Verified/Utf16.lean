/-!
# UTF-16 code units and ASCII

A system string on Windows is a sequence of 16-bit code units that need not be
well formed.  Its lossy decoding turns every unpaired surrogate into the
replacement character.  Everything a program asks about the ASCII part of such
a string can be answered on the units themselves: `lossy_map_eq_iff`.
-/

namespace Cosca.Verified.Utf16

/-- The units that open a surrogate pair. -/
def isHigh (u : UInt16) : Bool :=
  0xD800 ≤ u && u ≤ 0xDBFF

/-- The units that close one. -/
def isLow (u : UInt16) : Bool :=
  0xDC00 ≤ u && u ≤ 0xDFFF

/-- The character of a surrogate pair. -/
def pairChar (hi lo : UInt16) : Char :=
  Char.ofNat (0x10000 + (hi.toNat - 0xD800) * 0x400 + (lo.toNat - 0xDC00))

/-- What stands for an unpaired surrogate. -/
def replacement : Char :=
  Char.ofNat 0xFFFD

/-- Lossy decoding. -/
def lossy : List UInt16 → List Char
  | [] => []
  | [u] => [if isHigh u || isLow u then replacement else Char.ofNat u.toNat]
  | u :: v :: rest =>
      if isHigh u then
        if isLow v then pairChar u v :: lossy rest
        else replacement :: lossy (v :: rest)
      else if isLow u then replacement :: lossy (v :: rest)
      else Char.ofNat u.toNat :: lossy (v :: rest)

/-- Lower case for the ASCII letters, on units. -/
def lowerUnit (u : UInt16) : UInt16 :=
  if 65 ≤ u && u ≤ 90 then u + 32 else u

/-- Lower case for the ASCII letters, on characters. -/
def lowerChar (c : Char) : Char :=
  if 65 ≤ c.toNat && c.toNat ≤ 90 then Char.ofNat (c.toNat + 32) else c

/-! ## One unit -/

theorem toNat_pairChar (hi lo : UInt16) (hhi : isHigh hi = true)
    (hlo : isLow lo = true) : 0x10000 ≤ (pairChar hi lo).toNat := by
  simp only [isHigh, isLow, Bool.and_eq_true, decide_eq_true_eq,
    UInt16.le_iff_toNat_le] at hhi hlo
  have h1 : (0xDBFF : UInt16).toNat = 0xDBFF := rfl
  have h2 : (0xDFFF : UInt16).toNat = 0xDFFF := rfl
  rw [h1] at hhi
  rw [h2] at hlo
  have hvalid : (0x10000 + (hi.toNat - 0xD800) * 0x400 +
      (lo.toNat - 0xDC00)).isValidChar := by
    right
    omega
  rw [pairChar, Char.ofNat, dif_pos hvalid]
  show _ ≤ 0x10000 + (hi.toNat - 0xD800) * 0x400 + (lo.toNat - 0xDC00)
  omega

/-- The character of a unit that is not part of a pair. -/
def unitChar (u : UInt16) : Char :=
  Char.ofNat u.toNat

theorem toNat_unitChar (u : UInt16) (h : u.toNat < 0x80) :
    (unitChar u).toNat = u.toNat := by
  rw [unitChar, Char.ofNat, dif_pos (.inl (by omega))]
  rfl

theorem unitChar_inj {u v : UInt16} (hu : u.toNat < 0x80)
    (hv : v.toNat < 0x80) (h : unitChar u = unitChar v) : u = v := by
  have hnat := congrArg Char.toNat h
  rw [toNat_unitChar u hu, toNat_unitChar v hv] at hnat
  exact UInt16.toNat_inj.mp hnat

/-- The ASCII units are not surrogates. -/
theorem not_surrogate (u : UInt16) (h : u.toNat < 0x80) :
    isHigh u = false ∧ isLow u = false := by
  have h1 : (0xD800 : UInt16).toNat = 0xD800 := rfl
  have h2 : (0xDC00 : UInt16).toNat = 0xDC00 := rfl
  constructor
  · simp only [isHigh, Bool.and_eq_false_iff, decide_eq_false_iff_not,
      UInt16.le_iff_toNat_le, h1]
    left
    omega
  · simp only [isLow, Bool.and_eq_false_iff, decide_eq_false_iff_not,
      UInt16.le_iff_toNat_le, h2]
    left
    omega

theorem lossy_cons_ascii (u : UInt16) (rest : List UInt16)
    (h : u.toNat < 0x80) : lossy (u :: rest) = unitChar u :: lossy rest := by
  obtain ⟨hhi, hlo⟩ := not_surrogate u h
  cases rest with
  | nil => simp only [lossy, hhi, hlo, Bool.or_false, Bool.false_eq_true,
      if_false, unitChar]
  | cons v rest => simp only [lossy, hhi, hlo, Bool.false_eq_true, if_false,
      unitChar]

/-- An ASCII character comes from an ASCII unit only. -/
theorem lossy_cons_head (u : UInt16) (rest : List UInt16) :
    ∃ c cs, lossy (u :: rest) = c :: cs ∧
      (c.toNat < 0x80 → u.toNat < 0x80) := by
  have hrepl : ¬ replacement.toNat < 0x80 := by decide
  have hplain : (isHigh u || isLow u) = false →
      (Char.ofNat u.toNat).toNat < 0x80 → u.toNat < 0x80 := by
    intro hsur hlt
    have hvalid : u.toNat.isValidChar := by
      have hsize := u.toNat_lt
      have h1 : (0xD800 : UInt16).toNat = 0xD800 := rfl
      have h2 : (0xDBFF : UInt16).toNat = 0xDBFF := rfl
      have h3 : (0xDC00 : UInt16).toNat = 0xDC00 := rfl
      have h4 : (0xDFFF : UInt16).toNat = 0xDFFF := rfl
      simp only [isHigh, isLow, Bool.or_eq_false_iff, Bool.and_eq_false_iff,
        decide_eq_false_iff_not, UInt16.le_iff_toNat_le, h1, h2, h3, h4]
        at hsur
      show _ ∨ _
      omega
    rw [Char.ofNat, dif_pos hvalid] at hlt
    exact hlt
  cases rest with
  | nil =>
      refine ⟨_, [], rfl, ?_⟩
      cases hsur : isHigh u || isLow u with
      | true => exact fun h => absurd h hrepl
      | false => exact hplain hsur
  | cons v rest =>
      simp only [lossy]
      by_cases hhi : isHigh u = true
      · by_cases hlo : isLow v = true
        · have hpair := toNat_pairChar u v hhi hlo
          simp only [hhi, hlo, if_true]
          exact ⟨_, _, rfl, fun h => by omega⟩
        · simp only [hhi, hlo, if_true, if_false, Bool.false_eq_true]
          exact ⟨_, _, rfl, fun h => absurd h hrepl⟩
      · by_cases hlo : isLow u = true
        · simp only [hhi, hlo, if_true, if_false, Bool.false_eq_true]
          exact ⟨_, _, rfl, fun h => absurd h hrepl⟩
        · simp only [hhi, hlo, if_false, Bool.false_eq_true]
          refine ⟨_, _, rfl, hplain ?_⟩
          simp only [hhi, hlo, Bool.or_false]

/-! ## Case-insensitive comparison with an ASCII word -/

theorem lowerChar_ascii (c : Char) (h : (lowerChar c).toNat < 0x80) :
    c.toNat < 0x80 := by
  unfold lowerChar at h
  split at h
  · next hup =>
      simp only [Bool.and_eq_true, decide_eq_true_eq] at hup
      omega
  · exact h

theorem lowerUnit_ascii (u : UInt16) (h : (lowerUnit u).toNat < 0x80) :
    u.toNat < 0x80 := by
  unfold lowerUnit at h
  split at h
  · next hup =>
      have h1 : (90 : UInt16).toNat = 90 := rfl
      simp only [Bool.and_eq_true, decide_eq_true_eq, UInt16.le_iff_toNat_le,
        h1] at hup
      omega
  · exact h

/-- Below 128 the two lower cases agree. -/
theorem lowerChar_unitChar (u : UInt16) (h : u.toNat < 0x80) :
    lowerChar (unitChar u) = unitChar (lowerUnit u) ∧
      (lowerUnit u).toNat < 0x80 := by
  have hnat := toNat_unitChar u h
  have h1 : (65 : UInt16).toNat = 65 := rfl
  have h2 : (90 : UInt16).toNat = 90 := rfl
  have h3 : (32 : UInt16).toNat = 32 := rfl
  by_cases hup : 65 ≤ u.toNat ∧ u.toNat ≤ 90
  · have hadd : (u + 32).toNat = u.toNat + 32 := by
      rw [UInt16.toNat_add, h3]
      omega
    have hunit : lowerUnit u = u + 32 := by
      simp only [lowerUnit, UInt16.le_iff_toNat_le, h1, h2, hup, decide_true,
        Bool.and_self, if_true]
    have hchar : lowerChar (unitChar u) = Char.ofNat (u.toNat + 32) := by
      simp only [lowerChar, hnat, hup, decide_true, Bool.and_self, if_true]
    rw [hunit, hchar, unitChar, hadd]
    exact ⟨rfl, by omega⟩
  · have hc : (decide (65 ≤ u.toNat) && decide (u.toNat ≤ 90)) = false := by
      simpa using hup
    simp only [lowerChar, hnat, lowerUnit, UInt16.le_iff_toNat_le, h1, h2,
      hc, Bool.false_eq_true, if_false, true_and]
    exact h

/-- Comparing the lossy text with an ASCII word, case apart, is comparing the
units with it. -/
theorem lossy_map_eq_iff (w : List UInt16) (hw : ∀ u ∈ w, u.toNat < 0x80) :
    ∀ l : List UInt16, (lossy l).map lowerChar = w.map unitChar ↔
      l.map lowerUnit = w := by
  induction w with
  | nil =>
      intro l
      cases l with
      | nil => simp [lossy]
      | cons u rest =>
          obtain ⟨c, cs, hcs, _⟩ := lossy_cons_head u rest
          simp [hcs]
  | cons t ts ih =>
      intro l
      have ht := hw t (by simp)
      have hts := ih fun u hu => hw u (by simp [hu])
      cases l with
      | nil => simp [lossy]
      | cons u rest =>
          have hascii : u.toNat < 0x80 →
              ((lossy (u :: rest)).map lowerChar = (t :: ts).map unitChar ↔
                (u :: rest).map lowerUnit = t :: ts) := by
            intro hu
            obtain ⟨hlow, hlt⟩ := lowerChar_unitChar u hu
            rw [lossy_cons_ascii u rest hu]
            simp only [List.map_cons, List.cons.injEq, hlow, hts rest]
            constructor
            · rintro ⟨hhead, htail⟩
              exact ⟨unitChar_inj hlt ht hhead, htail⟩
            · rintro ⟨rfl, htail⟩
              exact ⟨rfl, htail⟩
          constructor
          · intro h
            obtain ⟨c, cs, hcs, hc⟩ := lossy_cons_head u rest
            have hhead : lowerChar c = unitChar t := by
              rw [hcs] at h
              exact (List.cons.inj h).1
            have hlt : (lowerChar c).toNat < 0x80 := by
              rw [hhead, toNat_unitChar t ht]
              exact ht
            exact (hascii (hc (lowerChar_ascii c hlt))).mp h
          · intro h
            have hhead : lowerUnit u = t := (List.cons.inj h).1
            exact (hascii (lowerUnit_ascii u (hhead ▸ ht))).mpr h

end Cosca.Verified.Utf16
