/-!
# UTF-8 on lists of bytes

Decoding as a program sees it: `fromUtf8` either gives the characters or the
offset up to which the input was valid.  The encoding of a text is `encode`,
and the two are inverse (`fromUtf8_encode`, `encode_of_fromUtf8`).

ASCII bytes never occur inside the encoding of another character.  An encoded
text can therefore be cut at any ASCII byte (`encode_eq_append_cons`), and a
byte string with ASCII bytes spliced in is valid exactly when its pieces are
(`valid_append_cons`).

Lossy decoding takes every byte string, and what it makes of the ill-formed
sequences is not ASCII.  Comparing the lossy text with an ASCII one is therefore
comparing the bytes (`prefix_lossy_iff`, `lossy_eq_iff`).
-/

namespace Cosca.Verified.Utf8

/-! ## Encoding and decoding -/

/-- The encoding of a text. -/
def encode (cs : List Char) : List UInt8 :=
  cs.flatMap String.utf8EncodeChar

/-- The character at the front of the input. -/
def decodeChar? (bs : List UInt8) : Option Char :=
  bs.toByteArray.utf8DecodeChar? 0

/-- Decoding with a budget of characters, from the offset `pos` on. -/
def fromUtf8Fuel : Nat → Nat → List UInt8 → Except Nat (List Char)
  | _, _, [] => .ok []
  | 0, pos, _ :: _ => .error pos
  | fuel + 1, pos, b :: bs =>
      match decodeChar? (b :: bs) with
      | none => .error pos
      | some c =>
          match fromUtf8Fuel fuel (pos + c.utf8Size)
              ((b :: bs).drop c.utf8Size) with
          | .error e => .error e
          | .ok cs => .ok (c :: cs)

/-- Decoding.  The error is the offset of the first byte that is not part of a
well-formed character. -/
def fromUtf8 (bs : List UInt8) : Except Nat (List Char) :=
  fromUtf8Fuel bs.length 0 bs

/-- The characters of a text with the offsets of their encodings. -/
def charIndices : Nat → List Char → List (Nat × Char)
  | _, [] => []
  | pos, c :: cs => (pos, c) :: charIndices (pos + c.utf8Size) cs

/-- The byte string is the encoding of some text. -/
def Valid (bs : List UInt8) : Prop :=
  ∃ cs, encode cs = bs

@[simp] theorem encode_nil : encode [] = [] := rfl

theorem encode_cons (c : Char) (cs : List Char) :
    encode (c :: cs) = String.utf8EncodeChar c ++ encode cs := rfl

theorem encode_append (cs ds : List Char) :
    encode (cs ++ ds) = encode cs ++ encode ds := by
  simp [encode, List.flatMap_append]

theorem decodeChar?_encode (c : Char) (rest : List UInt8) :
    decodeChar? (String.utf8EncodeChar c ++ rest) = some c := by
  unfold decodeChar?
  rw [List.toByteArray_append]
  exact ByteArray.utf8DecodeChar?_utf8EncodeChar_append

theorem eq_of_decodeChar? {bs : List UInt8} {c : Char}
    (h : decodeChar? bs = some c) :
    ∃ rest, bs = String.utf8EncodeChar c ++ rest := by
  obtain ⟨l, hl⟩ := ByteArray.exists_of_utf8DecodeChar?_eq_some h
  refine ⟨l.data.toList, ?_⟩
  have hlist := congrArg (fun b => b.data.toList) hl
  simpa using hlist

theorem utf8EncodeChar_ne_nil (c : Char) : String.utf8EncodeChar c ≠ [] := by
  intro h
  have hlen := congrArg List.length h
  rw [String.length_utf8EncodeChar] at hlen
  have hpos := c.utf8Size_pos
  simp only [List.length_nil] at hlen
  omega

/-! ## Decoding inverts encoding -/

/-- One character is decoded, and the rest behind it. -/
theorem fromUtf8Fuel_cons (fuel pos : Nat) (c : Char) (rest : List UInt8) :
    fromUtf8Fuel (fuel + 1) pos (String.utf8EncodeChar c ++ rest) =
      match fromUtf8Fuel fuel (pos + c.utf8Size) rest with
      | .error e => .error e
      | .ok cs => .ok (c :: cs) := by
  obtain ⟨b, bs, hbs⟩ := List.exists_cons_of_ne_nil (utf8EncodeChar_ne_nil c)
  have hdecode := decodeChar?_encode c rest
  have hdrop : (String.utf8EncodeChar c ++ rest).drop c.utf8Size = rest := by
    rw [← String.length_utf8EncodeChar c, List.drop_left]
  rw [hbs, List.cons_append] at hdecode hdrop ⊢
  simp only [fromUtf8Fuel, hdecode, hdrop]

theorem fromUtf8Fuel_encode (cs : List Char) : ∀ (fuel pos : Nat),
    (encode cs).length ≤ fuel → fromUtf8Fuel fuel pos (encode cs) = .ok cs := by
  induction cs with
  | nil =>
      intro fuel pos _
      cases fuel <;> rfl
  | cons c cs ih =>
      intro fuel pos hlen
      rw [encode_cons, List.length_append, String.length_utf8EncodeChar] at hlen
      have hpos := c.utf8Size_pos
      obtain ⟨n, rfl⟩ : ∃ n, fuel = n + 1 := ⟨fuel - 1, by omega⟩
      rw [encode_cons, fromUtf8Fuel_cons, ih n _ (by omega)]

/-- Decoding the encoding of a text gives the text. -/
theorem fromUtf8_encode (cs : List Char) : fromUtf8 (encode cs) = .ok cs :=
  fromUtf8Fuel_encode cs _ 0 (Nat.le_refl _)

theorem encode_of_fromUtf8Fuel (fuel : Nat) : ∀ (pos : Nat) (bs : List UInt8)
    (cs : List Char), fromUtf8Fuel fuel pos bs = .ok cs → encode cs = bs := by
  induction fuel with
  | zero =>
      intro pos bs cs h
      cases bs with
      | nil =>
          obtain rfl := Except.ok.inj h
          rfl
      | cons b bs => exact absurd h (by simp [fromUtf8Fuel])
  | succ fuel ih =>
      intro pos bs cs h
      cases hbs : bs with
      | nil =>
          rw [hbs] at h
          obtain rfl := Except.ok.inj h
          rfl
      | cons b bs' =>
          rw [← hbs]
          cases hc : decodeChar? bs with
          | none =>
              rw [hbs] at h hc
              simp [fromUtf8Fuel, hc] at h
          | some c =>
              obtain ⟨rest, hrest⟩ := eq_of_decodeChar? hc
              rw [hrest, fromUtf8Fuel_cons] at h
              split at h
              · exact absurd h (by simp)
              · next ds hds =>
                  obtain rfl := Except.ok.inj h
                  rw [encode_cons, ih _ _ _ hds, hrest]

/-- Decoded text encodes to the input. -/
theorem encode_of_fromUtf8 {bs : List UInt8} {cs : List Char}
    (h : fromUtf8 bs = .ok cs) : encode cs = bs :=
  encode_of_fromUtf8Fuel _ _ _ _ h

/-! ## ASCII bytes -/

/-- An ASCII byte is the encoding of a character by itself. -/
theorem utf8EncodeChar_of_mem {c : Char} {x : UInt8} (hx : x < 0x80)
    (h : x ∈ String.utf8EncodeChar c) : String.utf8EncodeChar c = [x] := by
  have hnat : x.toNat < 128 := hx
  have hbyte : ∀ n : Nat, 128 ≤ n → n < 256 → x ≠ UInt8.ofNat n := by
    rintro n hlow hhigh rfl
    rw [UInt8.toNat_ofNat', Nat.mod_eq_of_lt hhigh] at hnat
    omega
  unfold String.utf8EncodeChar at h ⊢
  simp only at h ⊢
  split at h
  · next hle =>
      rw [if_pos hle, List.mem_singleton.mp h]
  · exfalso
    split at h
    · simp only [List.mem_cons, List.not_mem_nil, or_false] at h
      rcases h with h | h
      · exact hbyte _ (by omega) (by omega) h
      · exact hbyte _ (by omega) (by omega) h
    · split at h
      · simp only [List.mem_cons, List.not_mem_nil, or_false] at h
        rcases h with h | h | h
        · exact hbyte _ (by omega) (by omega) h
        · exact hbyte _ (by omega) (by omega) h
        · exact hbyte _ (by omega) (by omega) h
      · simp only [List.mem_cons, List.not_mem_nil, or_false] at h
        rcases h with h | h | h | h
        · exact hbyte _ (by omega) (by omega) h
        · exact hbyte _ (by omega) (by omega) h
        · exact hbyte _ (by omega) (by omega) h
        · exact hbyte _ (by omega) (by omega) h

/-- An encoded text can be cut at any ASCII byte. -/
theorem encode_eq_append_cons {x : UInt8} (hx : x < 0x80) (cs : List Char) :
    ∀ (a b : List UInt8), encode cs = a ++ x :: b →
      ∃ (ca cb : List Char), encode ca = a ∧ encode cb = b := by
  induction cs with
  | nil =>
      intro a b h
      exact absurd (congrArg List.length h) (by simp)
  | cons c cs ih =>
      intro a b h
      rw [encode_cons] at h
      rcases List.append_eq_append_iff.mp h with ⟨t, ha, htail⟩ | ⟨t, henc, htail⟩
      · obtain ⟨ca, cb, hca, hcb⟩ := ih t b htail
        exact ⟨c :: ca, cb, by rw [encode_cons, hca, ha], hcb⟩
      · cases t with
        | nil =>
            -- the cut is right behind `c`
            rw [List.append_nil] at henc
            have htail' : encode cs = [] ++ x :: b := htail.symm
            obtain ⟨ca, cb, hca, hcb⟩ := ih [] b htail'
            exact ⟨c :: ca, cb, by rw [encode_cons, hca, henc, List.append_nil],
              hcb⟩
        | cons y t =>
            obtain ⟨rfl, hb⟩ := List.cons.inj htail
            have hmem : x ∈ String.utf8EncodeChar c := by
              rw [henc]
              simp
            rw [utf8EncodeChar_of_mem hx hmem] at henc
            have hlen := congrArg List.length henc
            simp only [List.length_append, List.length_cons, List.length_nil]
              at hlen
            obtain rfl : a = [] := List.eq_nil_of_length_eq_zero (by omega)
            obtain rfl : t = [] := List.eq_nil_of_length_eq_zero (by omega)
            exact ⟨[], cs, rfl, hb.symm⟩

theorem utf8EncodeChar_ascii {x : UInt8} (hx : x < 0x80) :
    ∃ c, String.utf8EncodeChar c = [x] := by
  have hnat : x.toNat < 128 := hx
  have hval : (Char.ofNat x.toNat).val.toNat = x.toNat := by
    rw [Char.ofNat, dif_pos (.inl (by omega))]
    rfl
  refine ⟨Char.ofNat x.toNat, ?_⟩
  unfold String.utf8EncodeChar
  simp only [hval]
  rw [if_pos (by omega), UInt8.ofNat_toNat]

/-- An ASCII text has a byte for every character. -/
theorem encode_ascii {cs : List Char} (h : ∀ c ∈ cs, c.toNat < 128) :
    encode cs = cs.map fun c => UInt8.ofNat c.toNat := by
  induction cs with
  | nil => rfl
  | cons c cs ih =>
      have hc : c.val.toNat < 128 := h c List.mem_cons_self
      have hbyte : String.utf8EncodeChar c = [UInt8.ofNat c.toNat] := by
        unfold String.utf8EncodeChar
        simp only
        rw [if_pos (by omega)]
        rfl
      rw [encode_cons, hbyte, ih fun d hd => h d (List.mem_cons_of_mem c hd)]
      rfl

/-- The bytes of an ASCII text are those of its characters. -/
theorem mem_encode_ascii {cs : List Char} (h : ∀ c ∈ cs, c.toNat < 128)
    {x : UInt8} (hx : x ∈ encode cs) : ∃ c ∈ cs, c.toNat = x.toNat := by
  rw [encode_ascii h] at hx
  obtain ⟨c, hc, rfl⟩ := List.mem_map.mp hx
  have hlt := h c hc
  have hbyte : (UInt8.ofNat c.toNat).toNat = c.toNat :=
    UInt8.toNat_ofNat_of_lt' (by
      have hsize : UInt8.size = 256 := rfl
      omega)
  exact ⟨c, hc, hbyte.symm⟩

theorem encode_take_ascii {cs : List Char} (h : ∀ c ∈ cs, c.toNat < 128)
    (n : Nat) : (encode cs).take n = encode (cs.take n) := by
  rw [encode_ascii h, encode_ascii fun c hc => h c (List.mem_of_mem_take hc),
    List.map_take]

/-- Validity around an ASCII byte. -/
theorem valid_append_cons {x : UInt8} (hx : x < 0x80) (a b : List UInt8) :
    Valid (a ++ x :: b) ↔ Valid a ∧ Valid b := by
  constructor
  · rintro ⟨cs, h⟩
    obtain ⟨ca, cb, ha, hb⟩ := encode_eq_append_cons hx cs a b h
    exact ⟨⟨ca, ha⟩, ⟨cb, hb⟩⟩
  · rintro ⟨⟨ca, rfl⟩, ⟨cb, rfl⟩⟩
    obtain ⟨c, hc⟩ := utf8EncodeChar_ascii hx
    refine ⟨ca ++ c :: cb, ?_⟩
    rw [encode_append, encode_cons, hc, List.singleton_append]

theorem valid_nil : Valid [] := ⟨[], rfl⟩

/-! ## Lossy decoding -/

/-- What stands for an ill-formed sequence. -/
def replacement : Char :=
  Char.ofNat 0xFFFD

/-- A byte that continues a character. -/
def isContinuation (b : UInt8) : Bool :=
  0x80 ≤ b && b ≤ 0xBF

/-- A byte that may stand second behind a lead byte. -/
def isSecond (lead second : UInt8) : Bool :=
  if lead == 0xE0 then 0xA0 ≤ second && second ≤ 0xBF
  else if lead == 0xED then 0x80 ≤ second && second ≤ 0x9F
  else if lead == 0xF0 then 0x90 ≤ second && second ≤ 0xBF
  else if lead == 0xF4 then 0x80 ≤ second && second ≤ 0x8F
  else isContinuation second

/-- The length of the ill-formed sequence at the front: as many bytes as some
character begins with, and one at least. -/
def illFormedLen : List UInt8 → Nat
  | lead :: second :: rest =>
      if 0xE0 ≤ lead && lead ≤ 0xF4 && isSecond lead second then
        match rest with
        | third :: _ => if 0xF0 ≤ lead && isContinuation third then 3 else 2
        | [] => 2
      else 1
  | _ => 1

/-- Lossy decoding with a budget of characters. -/
def lossyFuel : Nat → List UInt8 → List Char
  | _, [] => []
  | 0, _ :: _ => []
  | fuel + 1, b :: bs =>
      match decodeChar? (b :: bs) with
      | some c => c :: lossyFuel fuel ((b :: bs).drop c.utf8Size)
      | none =>
          replacement ::
            lossyFuel fuel ((b :: bs).drop (illFormedLen (b :: bs)))

/-- Lossy decoding, as `String::from_utf8_lossy`. -/
def lossy (bs : List UInt8) : List Char :=
  lossyFuel bs.length bs

/-- A truncated character is one ill-formed sequence, and a byte that continues
nothing is another one. -/
example : lossy [0x41, 0xF0, 0x90, 0x80, 0x42, 0x80] =
    ['A', replacement, 'B', replacement] := by
  decide +kernel

theorem encode_lossy_cons_ascii {x : UInt8} (hx : x < 0x80)
    (bs : List UInt8) :
    encode (lossy (x :: bs)) = x :: encode (lossy bs) := by
  obtain ⟨c, hc⟩ := utf8EncodeChar_ascii hx
  have hdecode := decodeChar?_encode c bs
  have hsize := String.length_utf8EncodeChar c
  rw [hc] at hdecode hsize
  rw [List.singleton_append] at hdecode
  have hone : c.utf8Size = 1 := hsize.symm
  have hstep : lossy (x :: bs) = c :: lossy bs := by
    rw [lossy, List.length_cons, lossyFuel, hdecode]
    dsimp only
    rw [hone]
    rfl
  rw [hstep, encode_cons, hc]
  rfl

/-- A byte that is not ASCII leaves none at the front. -/
theorem encode_lossy_cons_other {x : UInt8} (hx : ¬ x < 0x80)
    (bs : List UInt8) :
    ∃ y rest, encode (lossy (x :: bs)) = y :: rest ∧ ¬ y < 0x80 := by
  rw [lossy, List.length_cons, lossyFuel]
  cases hdecode : decodeChar? (x :: bs) with
  | none => exact ⟨0xEF, _, rfl, by decide⟩
  | some c =>
      obtain ⟨tail, htail⟩ := eq_of_decodeChar? hdecode
      obtain ⟨y, ys, hc⟩ :=
        List.exists_cons_of_ne_nil (utf8EncodeChar_ne_nil c)
      rw [hc, List.cons_append] at htail
      have hy : x = y := (List.cons.inj htail).1
      rw [hy] at hx
      dsimp only
      rw [encode_cons, hc]
      exact ⟨y, _, rfl, hx⟩

section

variable {w : List UInt8} (hw : ∀ x ∈ w, x < 0x80)

include hw

theorem encode_lossy_append (bs : List UInt8) :
    encode (lossy (w ++ bs)) = w ++ encode (lossy bs) := by
  induction w with
  | nil => rfl
  | cons x w ih =>
      have hx := hw x List.mem_cons_self
      have hrest := ih fun y hy => hw y (List.mem_cons_of_mem x hy)
      rw [List.cons_append, encode_lossy_cons_ascii hx, hrest]
      rfl

/-- The lossy text starts with an ASCII word exactly when the bytes do. -/
theorem prefix_lossy_iff (bs : List UInt8) :
    w <+: encode (lossy bs) ↔ w <+: bs := by
  constructor
  · intro h
    induction w generalizing bs with
    | nil => exact List.nil_prefix
    | cons x w ih =>
        have hrest : ∀ y ∈ w, y < 0x80 := fun y hy =>
          hw y (List.mem_cons_of_mem x hy)
        cases bs with
        | nil => exact nomatch List.prefix_nil.mp h
        | cons b bs =>
            by_cases hb : b < 0x80
            · rw [encode_lossy_cons_ascii hb] at h
              obtain ⟨rfl, hstarts⟩ := List.cons_prefix_cons.mp h
              exact List.cons_prefix_cons.mpr ⟨rfl, ih hrest bs hstarts⟩
            · obtain ⟨y, rest, heq, hy⟩ := encode_lossy_cons_other hb bs
              rw [heq] at h
              obtain ⟨rfl, -⟩ := List.cons_prefix_cons.mp h
              exact absurd (hw x List.mem_cons_self) hy
  · rintro ⟨rest, rfl⟩
    exact ⟨encode (lossy rest), (encode_lossy_append hw rest).symm⟩

/-- The lossy text is an ASCII word exactly when the bytes are. -/
theorem lossy_eq_iff (bs : List UInt8) : encode (lossy bs) = w ↔ bs = w := by
  constructor
  · intro h
    obtain ⟨rest, rfl⟩ := (prefix_lossy_iff hw bs).mp (h ▸ List.prefix_rfl)
    rw [encode_lossy_append hw] at h
    have hnil : encode (lossy rest) = [] := List.append_right_eq_self.mp h
    cases rest with
    | nil => exact List.append_nil w
    | cons b bs =>
        by_cases hb : b < 0x80
        · rw [encode_lossy_cons_ascii hb] at hnil
          exact nomatch hnil
        · obtain ⟨y, ys, heq, -⟩ := encode_lossy_cons_other hb bs
          rw [heq] at hnil
          exact nomatch hnil
  · rintro rfl
    have happend := encode_lossy_append hw []
    rw [List.append_nil] at happend
    rw [happend]
    exact List.append_nil bs

end

end Cosca.Verified.Utf8
