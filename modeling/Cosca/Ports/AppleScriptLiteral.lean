import Mathlib.Data.List.Basic
import Cosca.Ports.PosixSplit
import Cosca.Verified.Utf8

/-!
# AppleScript string literals

`quote/applescript.rs`.  `escapeLiteral` writes text as the body of an
AppleScript double-quoted literal; the characters `\`, `"` and the three that
have escapes are escaped, NUL is refused.

The reader is the literal grammar on its own: escapes for those five
characters and nothing else, no raw line ends, and the first unescaped quote
ends the literal.

## Main results

* `escapeLiteral_ok_iff`: what can be escaped is the valid UTF-8 without NUL.
* `readLiteral_escaped`: the reader gives the escaped bytes back.
-/

namespace Cosca.Ports.AppleScriptLiteral

open Cosca.Ports.Errors
open Cosca.Ports.PosixSplit (Bytes tab lf cr doubleQuote backslash)
open Cosca.Verified.Scan
open Cosca.Verified.Utf8

/-- A `String`, by its characters. -/
abbrev Text := List Char

/-! ## The encoder -/

/-- One character of `escape_literal`, at the byte offset `pos`. -/
def escapeChar (pos : Nat) (c : Char) : Except QuoteError Text :=
  if c == '\\' then .ok ['\\', '\\']
  else if c == '"' then .ok ['\\', '"']
  else if c == '\n' then .ok ['\\', 'n']
  else if c == '\r' then .ok ['\\', 'r']
  else if c == '\t' then .ok ['\\', 't']
  else if c == '\x00' then .error ⟨pos, .unrepresentableChar⟩
  else .ok [c]

/-- The loop of `escape_literal`. -/
def escapeLoop : List (Nat × Char) → Text → Except QuoteError Text
  | [], out => .ok out
  | (pos, c) :: rest, out =>
      match escapeChar pos c with
      | .error e => .error e
      | .ok piece => escapeLoop rest (out ++ piece)

/-- `escape_literal`. -/
def escapeLiteral (bytes : Bytes) : Except QuoteError Text :=
  match fromUtf8 bytes with
  | .error validUpTo => .error ⟨validUpTo, .nonUtf8⟩
  | .ok s => escapeLoop (charIndices 0 s) []

/-! ## The reader -/

/-- The byte an escape stands for. -/
def unescape (b : UInt8) : Option UInt8 :=
  if b == backslash || b == doubleQuote then some b
  else if b == 110 then some lf
  else if b == 114 then some cr
  else if b == 116 then some tab
  else none

/-- One turn of the reader, which has decoded `out` so far. -/
def readTurn (out : Bytes) (i : Nat) (c : UInt8) (rest : List UInt8) :
    Turn Bytes (Option (Bytes × Nat)) :=
  if c == doubleQuote then .exit (some (out, i))
  else if c == backslash then
    match rest with
    | [] => .exit none
    | b :: _ =>
        match unescape b with
        | none => .exit none
        | some u => .advance (out ++ [u]) 1
  else if c == lf || c == cr then .exit none
  else .advance (out ++ [c]) 0

/-- The reader of a literal: the decoded bytes and the index of the closing
quote, or nothing if the text is no literal. -/
def reader : Scanner UInt8 Bytes (Option (Bytes × Nat)) where
  turn := readTurn
  finish := fun _ => none

/-- Reading the literal whose body starts at index `start`. -/
def readLiteral (script : Bytes) (start : Nat) : Option (Bytes × Nat) :=
  reader.scan [] start (script.drop start)

/-! ## The encoder on bytes -/

/-- What the encoder makes of a byte. -/
def escapeByte (b : UInt8) : Bytes :=
  if b == backslash || b == doubleQuote then [backslash, b]
  else if b == lf then [backslash, 110]
  else if b == cr then [backslash, 114]
  else if b == tab then [backslash, 116]
  else [b]

/-- The text can be written into a literal: valid UTF-8 without NUL. -/
structure Clean (bytes : Bytes) : Prop where
  valid : Valid bytes
  noNul : (0 : UInt8) ∉ bytes

/-- A character is known by its encoding. -/
theorem utf8EncodeChar_inj {c d : Char}
    (h : String.utf8EncodeChar c = String.utf8EncodeChar d) : c = d := by
  have hc := decodeChar?_encode c []
  rw [h, decodeChar?_encode d []] at hc
  exact (Option.some.inj hc).symm

/-- An ASCII byte occurs in the encoding of its own character only. -/
theorem eq_of_mem_utf8EncodeChar {c d : Char} {x : UInt8} (hx : x < 0x80)
    (hd : String.utf8EncodeChar d = [x]) (h : x ∈ String.utf8EncodeChar c) :
    c = d :=
  utf8EncodeChar_inj ((utf8EncodeChar_of_mem hx h).trans hd.symm)

/-- Every character but NUL is written, as its bytes are. -/
theorem escapeChar_ok (pos : Nat) (c : Char) (h : c ≠ '\x00') :
    ∃ piece, escapeChar pos c = .ok piece ∧
      encode piece = (String.utf8EncodeChar c).flatMap escapeByte := by
  by_cases hbs : c = '\\'
  · subst hbs
    exact ⟨_, rfl, rfl⟩
  by_cases hdq : c = '"'
  · subst hdq
    exact ⟨_, rfl, rfl⟩
  by_cases hlf : c = '\n'
  · subst hlf
    exact ⟨_, rfl, rfl⟩
  by_cases hcr : c = '\r'
  · subst hcr
    exact ⟨_, rfl, rfl⟩
  by_cases htab : c = '\t'
  · subst htab
    exact ⟨_, rfl, rfl⟩
  refine ⟨[c], by simp [escapeChar, hbs, hdq, hlf, hcr, htab, h], ?_⟩
  have hplain : ∀ b ∈ String.utf8EncodeChar c, escapeByte b = [b] := by
    intro b hb
    have h1 : b ≠ backslash := by
      rintro rfl
      exact hbs (eq_of_mem_utf8EncodeChar (by decide) rfl hb)
    have h2 : b ≠ doubleQuote := by
      rintro rfl
      exact hdq (eq_of_mem_utf8EncodeChar (by decide) rfl hb)
    have h3 : b ≠ lf := by
      rintro rfl
      exact hlf (eq_of_mem_utf8EncodeChar (by decide) rfl hb)
    have h4 : b ≠ cr := by
      rintro rfl
      exact hcr (eq_of_mem_utf8EncodeChar (by decide) rfl hb)
    have h5 : b ≠ tab := by
      rintro rfl
      exact htab (eq_of_mem_utf8EncodeChar (by decide) rfl hb)
    simp [escapeByte, h1, h2, h3, h4, h5]
  rw [encode_cons, encode_nil, List.append_nil, List.flatMap_congr hplain,
    List.flatMap_singleton']

/-- The loop over a text without NUL. -/
theorem escapeLoop_ok (cs : List Char) : ∀ (pos : Nat) (out : Text),
    '\x00' ∉ cs → ∃ body, escapeLoop (charIndices pos cs) out =
      .ok (out ++ body) ∧ encode body = (encode cs).flatMap escapeByte := by
  induction cs with
  | nil =>
      intro pos out _
      exact ⟨[], by simp [charIndices, escapeLoop], rfl⟩
  | cons c cs ih =>
      intro pos out hnul
      obtain ⟨piece, hpiece, hbytes⟩ := escapeChar_ok pos c
        fun h => hnul (by simp [h])
      obtain ⟨body, hbody, hrest⟩ := ih (pos + c.utf8Size) (out ++ piece)
        fun h => hnul (by simp [h])
      refine ⟨piece ++ body, ?_, ?_⟩
      · simp only [charIndices, escapeLoop, hpiece, hbody, List.append_assoc]
      · rw [encode_append, encode_cons, List.flatMap_append, hbytes, hrest]

/-- The loop stops at a NUL. -/
theorem escapeLoop_error (cs : List Char) : ∀ (pos : Nat) (out : Text),
    '\x00' ∈ cs → ∃ e, escapeLoop (charIndices pos cs) out = .error e := by
  induction cs with
  | nil =>
      intro pos out h
      exact absurd h List.not_mem_nil
  | cons c cs ih =>
      intro pos out hmem
      by_cases hc : c = '\x00'
      · subst hc
        exact ⟨⟨pos, .unrepresentableChar⟩, rfl⟩
      · obtain ⟨piece, hpiece, _⟩ := escapeChar_ok pos c hc
        have hcs : '\x00' ∈ cs := by
          rcases List.mem_cons.mp hmem with h | h
          · exact absurd h.symm hc
          · exact h
        simp only [charIndices, escapeLoop, hpiece]
        exact ih _ _ hcs

/-- NUL is in a text exactly when it is in its bytes. -/
theorem nul_mem_encode (cs : List Char) :
    (0 : UInt8) ∈ encode cs ↔ '\x00' ∈ cs := by
  unfold encode
  rw [List.mem_flatMap]
  constructor
  · rintro ⟨c, hc, h⟩
    rw [← eq_of_mem_utf8EncodeChar (d := '\x00') (by decide) rfl h]
    exact hc
  · intro h
    exact ⟨'\x00', h, by decide⟩

/-- Clean text is escaped byte by byte. -/
theorem escapeLiteral_clean {bytes : Bytes} (h : Clean bytes) :
    ∃ body, escapeLiteral bytes = .ok body ∧
      encode body = bytes.flatMap escapeByte := by
  obtain ⟨cs, rfl⟩ := h.valid
  have hnul : '\x00' ∉ cs := fun hmem => h.noNul ((nul_mem_encode cs).mpr hmem)
  obtain ⟨body, hbody, hbytes⟩ := escapeLoop_ok cs 0 [] hnul
  refine ⟨body, ?_, hbytes⟩
  simp only [escapeLiteral, fromUtf8_encode, hbody, List.nil_append]

/-- Everything else is a quoting error. -/
theorem escapeLiteral_notClean {bytes : Bytes} (h : ¬ Clean bytes) :
    ∃ e, escapeLiteral bytes = .error e := by
  unfold escapeLiteral
  cases hs : fromUtf8 bytes with
  | error validUpTo => exact ⟨_, rfl⟩
  | ok cs =>
      have hbytes := encode_of_fromUtf8 hs
      by_cases hmem : '\x00' ∈ cs
      · exact escapeLoop_error cs 0 [] hmem
      · refine absurd ⟨⟨cs, hbytes⟩, fun h0 => hmem ?_⟩ h
        rw [← hbytes] at h0
        exact (nul_mem_encode cs).mp h0

/-- What can be escaped. -/
theorem escapeLiteral_ok_iff (bytes : Bytes) :
    (∃ body, escapeLiteral bytes = .ok body) ↔ Clean bytes := by
  constructor
  · rintro ⟨body, hbody⟩
    by_cases h : Clean bytes
    · exact h
    · obtain ⟨e, he⟩ := escapeLiteral_notClean h
      rw [hbody] at he
      exact absurd he (by simp)
  · intro h
    obtain ⟨body, hbody, _⟩ := escapeLiteral_clean h
    exact ⟨body, hbody⟩

/-! ## Reading the literal back -/

/-- An escaped byte is read as that byte, whatever follows. -/
theorem escapeByte_reads (done : Bytes) (b : UInt8) :
    reader.Reads anything (fun out => out = done) (escapeByte b)
      (fun out => out = done ++ [b]) := by
  -- the five escapes share one turn
  have hescape : ∀ e u : UInt8, unescape e = some u →
      reader.Reads anything (fun out => out = done) [backslash, e]
        (fun out => out = done ++ [u]) := by
    intro e u hu
    refine Scanner.Reads.turn (w := [e]) fun out i hout => ?_
    subst hout
    refine ⟨out ++ [u], rfl, fun rest _ => ?_⟩
    simp only [reader, readTurn, List.singleton_append, hu]
    rfl
  unfold escapeByte
  split
  · next h => exact hescape b b (by simp only [unescape, h, if_true])
  · next hq =>
      split
      · next h =>
          obtain rfl : b = lf := by simpa using h
          exact hescape 110 lf rfl
      · next hlf =>
          split
          · next h =>
              obtain rfl : b = cr := by simpa using h
              exact hescape 114 cr rfl
          · next hcr =>
              split
              · next h =>
                  obtain rfl : b = tab := by simpa using h
                  exact hescape 116 tab rfl
              · refine Scanner.Reads.turn (w := []) fun out i hout => ?_
                subst hout
                refine ⟨out ++ [b], rfl, fun rest _ => ?_⟩
                simp only [Bool.or_eq_true, not_or, Bool.not_eq_true] at hq
                simp only [reader, readTurn, hq.1, hq.2, hlf, hcr,
                  Bool.or_false, Bool.false_eq_true, if_false,
                  List.length_nil]

/-- Reading a literal from its first byte: the escaped bytes come back, and
the reader stops at the quote behind the body. -/
theorem readLiteral_escaped (opening bytes closing : Bytes) :
    readLiteral (opening ++ bytes.flatMap escapeByte ++
        doubleQuote :: closing) opening.length =
      some (bytes, opening.length + (bytes.flatMap escapeByte).length) := by
  have hbody := Scanner.Reads.each (fun done out => out = done) escapeByte
    escapeByte_reads bytes []
  obtain ⟨out, hout, hscan⟩ := hbody [] opening.length rfl
  subst hout
  unfold readLiteral
  rw [List.append_assoc, List.drop_left, hscan _ trivial, Scanner.scan_cons]
  rfl

/-- No line end is left raw. -/
theorem escapeByte_noLineEnd (bytes : Bytes) :
    lf ∉ bytes.flatMap escapeByte ∧ cr ∉ bytes.flatMap escapeByte := by
  have hone : ∀ b : UInt8, lf ∉ escapeByte b ∧ cr ∉ escapeByte b := by
    intro b
    by_cases hlf : b = lf
    · subst hlf
      decide
    by_cases hcr : b = cr
    · subst hcr
      decide
    unfold escapeByte
    split
    · simp only [List.mem_cons, List.not_mem_nil, or_false, not_or]
      exact ⟨⟨by decide, Ne.symm hlf⟩, ⟨by decide, Ne.symm hcr⟩⟩
    · split
      · decide
      · split
        · decide
        · split
          · decide
          · simp [Ne.symm hlf, Ne.symm hcr]
  constructor
  · intro h
    obtain ⟨b, _, hb⟩ := List.mem_flatMap.mp h
    exact (hone b).1 hb
  · intro h
    obtain ⟨b, _, hb⟩ := List.mem_flatMap.mp h
    exact (hone b).2 hb

end Cosca.Ports.AppleScriptLiteral
