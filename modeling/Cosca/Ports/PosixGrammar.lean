import Cosca.Ports.PosixRoundTrip
import Cosca.Verified.Words

/-!
# The grammar of POSIX words

`split` is a state machine with one buffer and a flag.  The grammar it
implements is written here on its own, by recursion on the text: a text is a
sequence of pieces (`pieces`), a blank between words or a stretch of word text;
a quoted string is one piece however long it is, and a line continuation is no
piece at all.  The words are those of `Words.words`.

## Main results

* `split_eq_grammar` — the state machine computes the grammar.
-/

namespace Cosca.Ports.PosixSplit

open Cosca.Ports.Errors
open Cosca.Verified.Scan
open Cosca.Verified.Words

/-! ## The grammar -/

/-- The bytes a backslash escapes between double quotes. -/
def escapable : List UInt8 := [dollar, backtick, doubleQuote, backslash]

/-- The text after an opening single quote: what is quoted and what follows
the closing quote.  Every other byte is literal. -/
def singleQuoted : Bytes → Option (Bytes × Bytes)
  | [] => none
  | c :: rest =>
      if c = singleQuote then some ([], rest)
      else (singleQuoted rest).map fun (text, after) => (c :: text, after)

theorem singleQuoted_length {s text after : Bytes}
    (h : singleQuoted s = some (text, after)) : after.length < s.length := by
  induction s generalizing text with
  | nil => exact nomatch h
  | cons c rest ih =>
      simp only [singleQuoted] at h
      split at h
      · obtain ⟨rfl, rfl⟩ : [] = text ∧ rest = after := by simpa using h
        simp
      · obtain ⟨text', hrest, -⟩ : ∃ text',
            singleQuoted rest = some (text', after) ∧ c :: text' = text := by
          simpa using h
        have := ih hrest
        simp only [List.length_cons]
        omega

/-- The length of the line ending at the front of the text, 0 when there is
none; a lone CR is none. -/
def lineEnd : Bytes → Nat
  | [] => 0
  | c :: rest =>
      if c = lf then 1
      else if c = cr ∧ rest.head? = some lf then 2
      else 0

/-- The text after an opening double quote: what is quoted and what follows
the closing quote, or why there is no closing quote.  A backslash before a
byte it does not escape is literal, and so is that byte. -/
def doubleQuoted (s : Bytes) : Except QuoteErrorKind (Bytes × Bytes) :=
  match s with
  | [] => .error .unterminatedDoubleQuote
  | c :: rest =>
      if c = doubleQuote then .ok ([], rest)
      else if c = backslash then
        match rest with
        | [] => .error .trailingBackslash
        | d :: after =>
            if 0 < lineEnd (d :: after) then
              doubleQuoted ((d :: after).drop (lineEnd (d :: after)))
            else if d ∈ escapable then
              (doubleQuoted after).map fun (text, end_) => (d :: text, end_)
            else
              (doubleQuoted (d :: after)).map fun (text, end_) =>
                (c :: text, end_)
      else (doubleQuoted rest).map fun (text, end_) => (c :: text, end_)
  termination_by s.length
  decreasing_by
    all_goals simp only [List.length_cons, List.length_drop]; omega

/-- A result with a byte put in front of its text. -/
private theorem prepended {r : Except QuoteErrorKind (Bytes × Bytes)} {c : UInt8}
    {text after : Bytes}
    (h : (r.map fun (text, end_) => (c :: text, end_)) = .ok (text, after)) :
    ∃ text', r = .ok (text', after) ∧ c :: text' = text := by
  cases r with
  | error e => exact nomatch h
  | ok pair =>
      obtain ⟨htext, rfl⟩ : c :: pair.1 = text ∧ pair.2 = after := by
        simpa [Except.map] using h
      exact ⟨pair.1, rfl, htext⟩

theorem doubleQuoted_length {s text after : Bytes}
    (h : doubleQuoted s = .ok (text, after)) : after.length < s.length := by
  fun_induction doubleQuoted s generalizing text with
  | case1 => exact nomatch h
  | case2 rest =>
      obtain ⟨-, rfl⟩ : [] = text ∧ rest = after := by simpa using h
      simp
  | case3 => exact nomatch h
  | case4 d rest _ _ ih =>
      have := ih h
      simp only [List.length_cons, List.length_drop] at *
      omega
  | case5 d rest _ _ _ ih =>
      obtain ⟨text', hrest, -⟩ := prepended h
      have := ih hrest
      simp only [List.length_cons]
      omega
  | case6 d rest _ _ _ ih =>
      obtain ⟨text', hrest, -⟩ := prepended h
      have := ih hrest
      simp only [List.length_cons] at *
      omega
  | case7 c rest _ _ ih =>
      obtain ⟨text', hrest, -⟩ := prepended h
      have := ih hrest
      simp only [List.length_cons]
      omega

/-- The pieces of a text that starts outside quotes and is the end of one
with `total` bytes. -/
def pieces (total : Nat) (s : Bytes) :
    Except QuoteError (List (Piece UInt8)) :=
  match s with
  | [] => .ok []
  | c :: rest =>
      if isWs c then (pieces total rest).map (none :: ·)
      else if c = backslash then
        match rest with
        | [] => .error ⟨total - 1, .trailingBackslash⟩
        | d :: after =>
            if 0 < lineEnd (d :: after) then
              pieces total ((d :: after).drop (lineEnd (d :: after)))
            else (pieces total after).map (some [d] :: ·)
      else if c = singleQuote then
        match h : singleQuoted rest with
        | none =>
            .error ⟨total - (rest.length + 1), .unterminatedSingleQuote⟩
        | some (text, after) => (pieces total after).map (some text :: ·)
      else if c = doubleQuote then
        match h : doubleQuoted rest with
        | .error .trailingBackslash =>
            .error ⟨total - 1, .trailingBackslash⟩
        | .error kind => .error ⟨total - (rest.length + 1), kind⟩
        | .ok (text, after) => (pieces total after).map (some text :: ·)
      else (pieces total rest).map (some [c] :: ·)
  termination_by s.length
  decreasing_by
    all_goals simp only [List.length_cons, List.length_drop]
    any_goals omega
    · have := singleQuoted_length h; omega
    · have := doubleQuoted_length h; omega

/-- The words of a command line, or the first thing wrong with it. -/
def grammar (s : Bytes) : Except QuoteError (List Bytes) :=
  (pieces s.length s).map words

/-! ### The items of a double-quoted string -/

theorem doubleQuoted_close (rest : Bytes) :
    doubleQuoted (doubleQuote :: rest) = .ok ([], rest) := by
  rw [doubleQuoted.eq_def]
  simp

theorem doubleQuoted_trailing :
    doubleQuoted [backslash] = .error .trailingBackslash := by
  rw [doubleQuoted.eq_def]
  simp +decide

theorem doubleQuoted_continuation {d : UInt8} {after : Bytes}
    (h : 0 < lineEnd (d :: after)) :
    doubleQuoted (backslash :: d :: after) =
      doubleQuoted ((d :: after).drop (lineEnd (d :: after))) := by
  rw [doubleQuoted.eq_def]
  simp +decide only [h, if_true, if_false]

theorem doubleQuoted_escape {d : UInt8} {after : Bytes}
    (h : ¬0 < lineEnd (d :: after)) (hd : d ∈ escapable) :
    doubleQuoted (backslash :: d :: after) =
      (doubleQuoted after).map fun (text, end_) => ([d] ++ text, end_) := by
  rw [doubleQuoted.eq_def]
  simp +decide only [h, hd, if_true, if_false]
  rfl

theorem doubleQuoted_backslash {d : UInt8} {after : Bytes}
    (h : ¬0 < lineEnd (d :: after)) (hd : d ∉ escapable) :
    doubleQuoted (backslash :: d :: after) =
      (doubleQuoted (d :: after)).map fun (text, end_) =>
        ([backslash] ++ text, end_) := by
  rw [doubleQuoted.eq_def]
  simp +decide only [h, hd, if_true, if_false]
  rfl

theorem doubleQuoted_literal {c : UInt8} {rest : Bytes}
    (hdq : c ≠ doubleQuote) (hbs : c ≠ backslash) :
    doubleQuoted (c :: rest) =
      (doubleQuoted rest).map fun (text, end_) => ([c] ++ text, end_) := by
  rw [doubleQuoted.eq_def]
  simp only [hdq, hbs, if_false]
  rfl

theorem lineEnd_le (s : Bytes) : lineEnd s ≤ s.length := by
  match s with
  | [] => simp [lineEnd]
  | [c] => simp only [lineEnd]; split <;> simp
  | c :: d :: rest => simp only [lineEnd]; split <;> [skip; split] <;> simp

/-! ## Where the state machine stands -/

/-- Outside quotes, after the words `out` and the pending word, if any. -/
def Outside (out : List Bytes) : Option Bytes → Lexer → Prop
  | none => Fresh out
  | some w => Pending .word out w

/-- The two kinds of quotes. -/
inductive Quote where
  | single
  | double
  deriving DecidableEq, Repr

/-- The byte that opens and closes them. -/
def Quote.byte : Quote → UInt8
  | .single => singleQuote
  | .double => doubleQuote

/-- The state inside them. -/
def Quote.state : Quote → State
  | .single => .singleQuote
  | .double => .doubleQuote

/-- The error when they are not closed. -/
def Quote.error : Quote → QuoteErrorKind
  | .single => .unterminatedSingleQuote
  | .double => .unterminatedDoubleQuote

/-- Inside the quotes that were opened at `q`, in a word that is `w` so
far. -/
structure Quoted (k : Quote) (q : Nat) (out : List Bytes) (w : Bytes)
    (lx : Lexer) : Prop extends Pending k.state out w lx where
  opened : lx.quoteOpen = q

/-- The lexer finds the line endings of the grammar. -/
theorem lineContinuation_eq (rest : Bytes) :
    lineContinuation rest =
      if 0 < lineEnd rest then some (lineEnd rest + 1) else none := by
  unfold lineContinuation
  split
  · rfl
  · rfl
  · next hlf hcrlf =>
      cases rest with
      | nil => rfl
      | cons c rest =>
          have hc : c ≠ lf := fun h => hlf rest (by rw [h])
          have hcr : ¬(c = cr ∧ rest.head? = some lf) := by
            rintro ⟨rfl, hhead⟩
            cases rest with
            | nil => exact nomatch hhead
            | cons d rest =>
                obtain rfl : d = lf := by simpa using hhead
                exact hcrlf rest rfl
          simp [lineEnd, hc, hcr]

section Turns

variable {out : List Bytes} {pending : Option Bytes} {w : Bytes} {q : Nat}
  {lx : Lexer} {c : UInt8} (i : Nat) (rest : Bytes)

/-- A blank outside quotes ends the pending word. -/
theorem turn_blank (h : Outside out pending lx) (hc : isWs c = true) :
    ∃ lx', Outside (out ++ pending.toList) none lx' ∧
      splitTurn lx i c rest = .advance lx' 0 := by
  cases pending with
  | none =>
      refine ⟨lx, ?_, ?_⟩
      · simpa [Outside] using h
      · simp [splitTurn, h.state, hc]
  | some w =>
      refine ⟨{ emit lx with state := .whitespace }, ?_, ?_⟩
      · simp only [emit, h.token, if_true]
        exact ⟨rfl, by simp [h.out_eq, h.buf], rfl, rfl⟩
      · simp [splitTurn, h.state, hc]

/-- An ordinary byte outside quotes belongs to a word. -/
theorem turn_ordinary (h : Outside out pending lx) (hws : isWs c = false)
    (hbs : c ≠ backslash) (hsq : c ≠ singleQuote) (hdq : c ≠ doubleQuote) :
    ∃ lx', Outside out (some (pending.getD [] ++ [c])) lx' ∧
      splitTurn lx i c rest = .advance lx' 0 := by
  cases pending with
  | none =>
      refine ⟨{ lx with buf := lx.buf ++ [c], hasToken := true,
                        state := .word },
        ⟨rfl, h.out_eq, by simp [h.buf], rfl⟩, ?_⟩
      simp [splitTurn, h.state, hws, hbs, hsq, hdq]
  | some w =>
      refine ⟨{ lx with buf := lx.buf ++ [c] },
        ⟨h.state, h.out_eq, by simp [h.buf], h.token⟩, ?_⟩
      simp [splitTurn, h.state, hws, hbs, hsq, hdq]

/-- A quote outside quotes opens its kind. -/
theorem turn_open (k : Quote) (h : Outside out pending lx) :
    ∃ lx', Quoted k i out (pending.getD []) lx' ∧
      splitTurn lx i k.byte rest = .advance lx' 0 := by
  cases pending with
  | none =>
      refine ⟨{ lx with state := k.state, hasToken := true, quoteOpen := i },
        ⟨⟨rfl, h.out_eq, h.buf, rfl⟩, rfl⟩, ?_⟩
      cases k <;> simp +decide [splitTurn, h.state, Quote.state]
  | some w =>
      refine ⟨{ lx with state := k.state, quoteOpen := i },
        ⟨⟨rfl, h.out_eq, h.buf, h.token⟩, rfl⟩, ?_⟩
      cases k <;> simp +decide [splitTurn, h.state, Quote.state]

/-- A backslash outside quotes at the end of the input. -/
theorem turn_trailing (h : Outside out pending lx) :
    splitTurn lx i backslash [] = .exit (.error ⟨i, .trailingBackslash⟩) := by
  cases pending with
  | none => simp +decide [splitTurn, h.state]
  | some w => simp +decide [splitTurn, h.state, backslashUnquoted]

/-- A line continuation outside quotes changes nothing. -/
theorem turn_continuation {n : Nat} (h : Outside out pending lx)
    (hn : lineContinuation rest = some n) :
    ∃ lx', Outside out pending lx' ∧
      splitTurn lx i backslash rest = .advance lx' (n - 1) := by
  refine ⟨lx, h, ?_⟩
  cases rest with
  | nil => exact nomatch hn
  | cons d after =>
      cases pending with
      | none => simp +decide [splitTurn, h.state, hn]
      | some w =>
          simp +decide only [splitTurn, h.state, backslashUnquoted, hn,
            Nat.add_sub_add_left, if_false, if_true]
          rw [← h.state]

/-- Any other byte after a backslash outside quotes is literal. -/
theorem turn_escape {d : UInt8} {after : Bytes} (h : Outside out pending lx)
    (hn : lineContinuation (d :: after) = none) :
    ∃ lx', Outside out (some (pending.getD [] ++ [d])) lx' ∧
      splitTurn lx i backslash (d :: after) = .advance lx' 1 := by
  cases pending with
  | none =>
      refine ⟨{ lx with buf := lx.buf ++ [d], hasToken := true,
                        state := .word },
        ⟨rfl, h.out_eq, by simp [h.buf], rfl⟩, ?_⟩
      simp +decide [splitTurn, h.state, hn]
  | some w =>
      refine ⟨{ lx with buf := lx.buf ++ [d] },
        ⟨h.state, h.out_eq, by simp [h.buf], h.token⟩, ?_⟩
      simp +decide [splitTurn, h.state, backslashUnquoted, hn,
        Nat.add_sub_add_left]

/-- The closing quote. -/
theorem turn_close {k : Quote} (h : Quoted k q out w lx) :
    ∃ lx', Outside out (some w) lx' ∧
      splitTurn lx i k.byte rest = .advance lx' 0 := by
  refine ⟨{ lx with state := .word }, ⟨rfl, h.out_eq, h.buf, h.token⟩, ?_⟩
  cases k <;> simp [splitTurn, h.state, Quote.byte, Quote.state]

/-- A literal byte inside quotes. -/
theorem turn_literal {k : Quote} (h : Quoted k q out w lx)
    (hc : c ≠ k.byte) (hbs : k = .double → c ≠ backslash) :
    ∃ lx', Quoted k q out (w ++ [c]) lx' ∧
      splitTurn lx i c rest = .advance lx' 0 := by
  refine ⟨{ lx with buf := lx.buf ++ [c] },
    ⟨⟨h.state, h.out_eq, by simp [h.buf], h.token⟩, h.opened⟩, ?_⟩
  cases k with
  | single =>
      have hc : c ≠ singleQuote := hc
      simp [splitTurn, h.state, Quote.state, hc]
  | double =>
      have hc : c ≠ doubleQuote := hc
      simp [splitTurn, h.state, Quote.state, hc, hbs rfl]

/-- A backslash between double quotes at the end of the input. -/
theorem turn_doubleQuote_trailing (h : Quoted .double q out w lx) :
    splitTurn lx i backslash [] = .exit (.error ⟨i, .trailingBackslash⟩) := by
  simp +decide [splitTurn, h.state, Quote.state, backslashInDquote]

/-- A line continuation between double quotes. -/
theorem turn_doubleQuote_continuation {n : Nat}
    (h : Quoted .double q out w lx) (hn : lineContinuation rest = some n) :
    ∃ lx', Quoted .double q out w lx' ∧
      splitTurn lx i backslash rest = .advance lx' (n - 1) := by
  refine ⟨lx, h, ?_⟩
  cases rest with
  | nil => exact nomatch hn
  | cons d after =>
      simp +decide only [splitTurn, h.state, Quote.state, backslashInDquote, hn,
        Nat.add_sub_add_left, if_false, if_true]
      rw [show State.doubleQuote = lx.state from h.state.symm]

/-- An escape between double quotes. -/
theorem turn_doubleQuote_escape {d : UInt8} {after : Bytes}
    (h : Quoted .double q out w lx)
    (hn : lineContinuation (d :: after) = none) (hd : d ∈ escapable) :
    ∃ lx', Quoted .double q out (w ++ [d]) lx' ∧
      splitTurn lx i backslash (d :: after) = .advance lx' 1 := by
  refine ⟨{ lx with buf := lx.buf ++ [d] },
    ⟨⟨h.state, h.out_eq, by simp [h.buf], h.token⟩, h.opened⟩, ?_⟩
  have htest : (d == dollar || d == backtick || d == doubleQuote ||
      d == backslash) = true := by
    simpa [escapable, or_assoc] using hd
  simp only [splitTurn, h.state, Quote.state, backslashInDquote, hn, htest, if_true]
  simp +decide [Nat.add_sub_add_left]

/-- A backslash that escapes nothing between double quotes is literal, and
the byte after it is read again. -/
theorem turn_doubleQuote_backslash {d : UInt8} {after : Bytes}
    (h : Quoted .double q out w lx)
    (hn : lineContinuation (d :: after) = none) (hd : d ∉ escapable) :
    ∃ lx', Quoted .double q out (w ++ [backslash]) lx' ∧
      splitTurn lx i backslash (d :: after) = .advance lx' 0 := by
  refine ⟨{ lx with buf := lx.buf ++ [backslash] },
    ⟨⟨h.state, h.out_eq, by simp [h.buf], h.token⟩, h.opened⟩, ?_⟩
  have htest : (d == dollar || d == backtick || d == doubleQuote ||
      d == backslash) = false := by
    simpa [escapable, and_assoc] using hd
  simp only [splitTurn, h.state, Quote.state, backslashInDquote, hn, htest,
    Bool.false_eq_true, if_false]
  simp +decide

end Turns

/-! ## The state machine computes the grammar -/

section Scans

variable {out : List Bytes} {w : Bytes} {q : Nat}

theorem scan_advance {lx lx' : Lexer} {i extra : Nat} {c : UInt8}
    {rest : Bytes} (h : splitTurn lx i c rest = .advance lx' extra) :
    splitter.scan lx i (c :: rest) =
      splitter.scan lx' (i + 1 + extra) (rest.drop extra) :=
  splitter.scan_advance h

theorem scan_exit {lx : Lexer} {i : Nat} {c : UInt8} {rest : Bytes}
    {r : Except QuoteError (List Bytes)} (h : splitTurn lx i c rest = .exit r) :
    splitter.scan lx i (c :: rest) = r :=
  splitter.scan_exit h

/-- A single-quoted string that is not closed. -/
theorem scan_singleQuoted_none {s : Bytes} (h : singleQuoted s = none) :
    ∀ {w : Bytes} {lx : Lexer} {i : Nat}, Quoted .single q out w lx →
      splitter.scan lx i s = .error ⟨q, .unterminatedSingleQuote⟩ := by
  induction s with
  | nil =>
      intro w lx i hlx
      simp only [Scanner.scan_nil, splitter, splitFinish, hlx.state,
        hlx.opened]
      rfl
  | cons c rest ih =>
      intro w lx i hlx
      simp only [singleQuoted] at h
      split at h
      · cases h
      · next hc =>
          obtain ⟨lx', hlx', hturn⟩ :=
            turn_literal i rest hlx hc (by intro hdouble; cases hdouble)
          rw [scan_advance hturn]
          exact ih (by simpa using h) hlx'

/-- A single-quoted string is read up to its closing quote. -/
theorem scan_singleQuoted_some {s text after : Bytes}
    (h : singleQuoted s = some (text, after)) :
    ∀ {w : Bytes} {lx : Lexer} {i : Nat}, Quoted .single q out w lx →
      ∃ lx', Outside out (some (w ++ text)) lx' ∧
        splitter.scan lx i s =
          splitter.scan lx' (i + (s.length - after.length)) after := by
  induction s generalizing text with
  | nil => exact nomatch h
  | cons c rest ih =>
      intro w lx i hlx
      simp only [singleQuoted] at h
      split at h
      · next hc =>
          obtain ⟨rfl, rfl⟩ : [] = text ∧ rest = after := by simpa using h
          obtain ⟨lx', hlx', hturn⟩ :=
            turn_close i rest hlx
          refine ⟨lx', by rwa [List.append_nil], ?_⟩
          rw [hc]
          refine (scan_advance hturn).trans ?_
          rw [List.drop_zero, List.length_cons, Nat.add_sub_cancel_left]
      · next hc =>
          obtain ⟨text', hrest, rfl⟩ : ∃ text',
              singleQuoted rest = some (text', after) ∧
                c :: text' = text := by
            simpa using h
          obtain ⟨lx', hlx', hturn⟩ :=
            turn_literal i rest hlx hc nofun
          obtain ⟨lx'', hlx'', hscan⟩ := ih hrest (i := i + 1) hlx'
          have hlen := singleQuoted_length hrest
          refine ⟨lx'', by simpa using hlx'', ?_⟩
          rw [scan_advance hturn, List.drop_zero, hscan, List.length_cons]
          congr 1
          omega

/-- One item between double quotes that neither closes them nor is cut off:
the grammar and the state machine read the same bytes and keep the same
text. -/
theorem doubleQuoted_item (out : List Bytes) (q : Nat) {c : UInt8}
    {rest : Bytes} (hc : c ≠ doubleQuote)
    (hcut : ¬(c = backslash ∧ rest = [])) :
    ∃ text s', s'.length < (c :: rest).length ∧
      doubleQuoted (c :: rest) = (doubleQuoted s').map
        (fun (t, after) => (text ++ t, after)) ∧
      ∀ {w : Bytes} {lx : Lexer} (i : Nat), Quoted .double q out w lx →
        ∃ lx', Quoted .double q out (w ++ text) lx' ∧
          splitter.scan lx i (c :: rest) = splitter.scan lx'
            (i + ((c :: rest).length - s'.length)) s' := by
  by_cases hbs : c = backslash
  · subst hbs
    obtain ⟨d, after, rfl⟩ : ∃ d after, rest = d :: after :=
      List.exists_cons_of_ne_nil fun h => hcut ⟨rfl, h⟩
    have hline := lineContinuation_eq (d :: after)
    by_cases hend : 0 < lineEnd (d :: after)
    · -- a line continuation
      rw [if_pos hend] at hline
      refine ⟨[], (d :: after).drop (lineEnd (d :: after)), ?_, ?_, ?_⟩
      · simp only [List.length_drop, List.length_cons]
        omega
      · rw [doubleQuoted_continuation hend]
        cases doubleQuoted ((d :: after).drop (lineEnd (d :: after))) <;> rfl
      · intro w lx i hlx
        obtain ⟨lx', hlx', hturn⟩ :=
          turn_doubleQuote_continuation i _ hlx hline
        refine ⟨lx', by rwa [List.append_nil], ?_⟩
        rw [scan_advance hturn, Nat.add_sub_cancel]
        have := lineEnd_le (d :: after)
        congr 1
        simp only [List.length_drop, List.length_cons] at this ⊢
        omega
    · rw [if_neg hend] at hline
      by_cases hd : d ∈ escapable
      · have hshorter : after.length < (backslash :: d :: after).length := by
          simp only [List.length_cons]
          omega
        refine ⟨[d], after, hshorter, doubleQuoted_escape hend hd, ?_⟩
        intro w lx i hlx
        obtain ⟨lx', hlx', hturn⟩ :=
          turn_doubleQuote_escape i hlx hline hd
        refine ⟨lx', hlx', ?_⟩
        rw [scan_advance hturn, List.drop_one, List.tail_cons]
        congr 1
        simp only [List.length_cons]
        omega
      · refine ⟨[backslash], d :: after, by simp,
          doubleQuoted_backslash hend hd, ?_⟩
        intro w lx i hlx
        obtain ⟨lx', hlx', hturn⟩ :=
          turn_doubleQuote_backslash i hlx hline hd
        refine ⟨lx', hlx', ?_⟩
        rw [scan_advance hturn, List.drop_zero]
        congr 1
        simp only [List.length_cons]
        omega
  · refine ⟨[c], rest, by simp, doubleQuoted_literal hc hbs, ?_⟩
    intro w lx i hlx
    obtain ⟨lx', hlx', hturn⟩ :=
      turn_literal i rest hlx hc fun _ => hbs
    refine ⟨lx', hlx', ?_⟩
    rw [scan_advance hturn, List.drop_zero, List.length_cons,
      Nat.add_sub_cancel_left]

/-- A double-quoted string that is not closed, read by the state machine. -/
theorem scan_doubleQuoted_error (n : Nat) :
    ∀ {s w : Bytes} {lx : Lexer} {i : Nat} {kind : QuoteErrorKind},
      s.length ≤ n → doubleQuoted s = .error kind →
      Quoted .double q out w lx →
      splitter.scan lx i s =
        .error ⟨if kind = .trailingBackslash then i + s.length - 1 else q,
          kind⟩ := by
  induction n using Nat.strongRecOn with
  | ind n ih =>
      intro s w lx i kind hn h hlx
      cases s with
      | nil =>
          obtain rfl : .unterminatedDoubleQuote = kind := by
            simpa [doubleQuoted] using h
          simp only [Scanner.scan_nil, splitter, splitFinish, hlx.state,
            hlx.opened]
          rfl
      | cons c rest =>
          by_cases hclose : c = doubleQuote
          · rw [hclose, doubleQuoted_close] at h
            cases h
          by_cases hcut : c = backslash ∧ rest = []
          · obtain ⟨rfl, rfl⟩ := hcut
            obtain rfl : .trailingBackslash = kind := by
              simpa [doubleQuoted_trailing] using h
            rw [scan_exit (turn_doubleQuote_trailing i hlx)]
            simp
          obtain ⟨text, s', hlen, hspec, hread⟩ :=
            doubleQuoted_item out q hclose hcut
          obtain ⟨lx', hlx', hscan⟩ := hread i hlx
          have hs' : doubleQuoted s' = .error kind := by
            rw [hspec] at h
            cases hd : doubleQuoted s' with
            | ok pair =>
                rw [hd] at h
                cases h
            | error e =>
                rw [hd] at h
                exact h
          have hscan' := ih s'.length (by omega) (Nat.le_refl _) hs' hlx'
            (i := i + ((c :: rest).length - s'.length))
          rw [hscan, hscan']
          congr 4
          omega

/-- A double-quoted string is read up to its closing quote. -/
theorem scan_doubleQuoted_ok (n : Nat) :
    ∀ {s w text after : Bytes} {lx : Lexer} {i : Nat},
      s.length ≤ n → doubleQuoted s = .ok (text, after) →
      Quoted .double q out w lx →
      ∃ lx', Outside out (some (w ++ text)) lx' ∧
        splitter.scan lx i s =
          splitter.scan lx' (i + (s.length - after.length)) after := by
  induction n using Nat.strongRecOn with
  | ind n ih =>
      intro s w text after lx i hn h hlx
      cases s with
      | nil => simp [doubleQuoted] at h
      | cons c rest =>
          by_cases hclose : c = doubleQuote
          · obtain ⟨rfl, rfl⟩ : [] = text ∧ rest = after := by
              simpa [hclose, doubleQuoted_close] using h
            obtain ⟨lx', hlx', hturn⟩ :=
              turn_close i rest hlx
            refine ⟨lx', by rwa [List.append_nil], ?_⟩
            rw [hclose]
            refine (scan_advance hturn).trans ?_
            rw [List.drop_zero, List.length_cons, Nat.add_sub_cancel_left]
          by_cases hcut : c = backslash ∧ rest = []
          · obtain ⟨rfl, rfl⟩ := hcut
            rw [doubleQuoted_trailing] at h
            exact nomatch h
          obtain ⟨text', s', hlen, hspec, hread⟩ :=
            doubleQuoted_item out q hclose hcut
          obtain ⟨lx', hlx', hscan⟩ := hread i hlx
          obtain ⟨t, hs', rfl⟩ : ∃ t, doubleQuoted s' = .ok (t, after) ∧
              text' ++ t = text := by
            rw [hspec] at h
            cases hd : doubleQuoted s' with
            | error e => rw [hd] at h; exact nomatch h
            | ok pair =>
                obtain ⟨htext, rfl⟩ :
                    text' ++ pair.1 = text ∧ pair.2 = after := by
                  simpa [hd, Except.map] using h
                exact ⟨pair.1, rfl, htext⟩
          obtain ⟨lx'', hlx'', hscan'⟩ :=
            ih s'.length (by omega) (Nat.le_refl _) hs' hlx'
              (i := i + ((c :: rest).length - s'.length))
          have hafter := doubleQuoted_length hs'
          refine ⟨lx'', by rwa [← List.append_assoc], ?_⟩
          rw [hscan, hscan']
          congr 1
          omega

/-- The words after a stretch of text. -/
private theorem map_text (r : Except QuoteError (List (Piece UInt8)))
    (out : List Bytes) (pending : Option Bytes) (t : Bytes) :
    (r.map (some t :: ·)).map (fun ps => out ++ assemble pending ps) =
      r.map fun ps => out ++ assemble (some (pending.getD [] ++ t)) ps := by
  cases r <;> rfl

/-- The words after a blank. -/
private theorem map_separator (r : Except QuoteError (List (Piece UInt8)))
    (out : List Bytes) (pending : Option Bytes) :
    (r.map (none :: ·)).map (fun ps => out ++ assemble pending ps) =
      r.map fun ps => (out ++ pending.toList) ++ assemble none ps := by
  cases r <;> simp [Except.map]

/-- What the state machine returns on a text that stands outside quotes. -/
theorem scan_pieces (total : Nat) (s : Bytes) :
    ∀ {out : List Bytes} {pending : Option Bytes} {lx : Lexer} {i : Nat},
      i + s.length = total → Outside out pending lx →
      splitter.scan lx i s =
        (pieces total s).map fun ps => out ++ assemble pending ps := by
  fun_induction pieces total s with
  | case1 =>
      intro out pending lx i hi hlx
      cases pending with
      | none =>
          simp [Except.map, splitter, splitFinish, emit, hlx.state,
            hlx.noToken, hlx.out_eq]
      | some w =>
          simp [Except.map, splitter, splitFinish, emit, hlx.state,
            hlx.token, hlx.out_eq, hlx.buf]
  | case2 c rest hws ih =>
      intro out pending lx i hi hlx
      obtain ⟨lx', hlx', hturn⟩ :=
        turn_blank i rest hlx hws
      have hi' : i + 1 + 0 + rest.length = total := by
        simp only [List.length_cons] at hi
        omega
      rw [scan_advance hturn, List.drop_zero, ih hi' hlx', map_separator]
  | case3 =>
      -- a backslash is the last byte
      intro out pending lx i hi hlx
      obtain rfl : i = total - 1 := by
        simp only [List.length_cons, List.length_nil] at hi
        omega
      rw [scan_exit (turn_trailing _ hlx)]
      rfl
  | case4 d after hend hws ih =>
      intro out pending lx i hi hlx
      have hline := lineContinuation_eq (d :: after)
      rw [if_pos hend] at hline
      obtain ⟨lx', hlx', hturn⟩ := turn_continuation i _ hlx hline
      rw [Nat.add_sub_cancel] at hturn
      have hle := lineEnd_le (d :: after)
      have hi' : i + 1 + lineEnd (d :: after) +
          ((d :: after).drop (lineEnd (d :: after))).length = total := by
        simp only [List.length_cons, List.length_drop] at hi hle ⊢
        omega
      rw [scan_advance hturn, ih hi' hlx']
  | case5 d after hend hws ih =>
      intro out pending lx i hi hlx
      have hline := lineContinuation_eq (d :: after)
      rw [if_neg hend] at hline
      obtain ⟨lx', hlx', hturn⟩ := turn_escape i hlx hline
      have hi' : i + 1 + 1 + after.length = total := by
        simp only [List.length_cons] at hi
        omega
      rw [scan_advance hturn, List.drop_one, List.tail_cons, ih hi' hlx',
        map_text]
  | case6 rest hnone hws hbs =>
      -- a single quote that is not closed
      intro out pending lx i hi hlx
      obtain ⟨lx', hlx', hturn⟩ :=
        turn_open i rest .single hlx
      refine (scan_advance hturn).trans ?_
      rw [List.drop_zero,
        scan_singleQuoted_none hnone hlx']
      have hq : total - (rest.length + 1) = i := by
        simp only [List.length_cons] at hi
        omega
      rw [hq]
      rfl
  | case7 rest text after hquoted hws hbs ih =>
      intro out pending lx i hi hlx
      obtain ⟨lx', hlx', hturn⟩ :=
        turn_open i rest .single hlx
      obtain ⟨lx'', hlx'', hscan⟩ :=
        scan_singleQuoted_some hquoted (i := i + 1) hlx'
      have hlen := singleQuoted_length hquoted
      have hi' : i + 1 + (rest.length - after.length) + after.length =
          total := by
        simp only [List.length_cons] at hi
        omega
      refine (scan_advance hturn).trans ?_
      rw [List.drop_zero, hscan, ih hi' hlx'', map_text]
  | case8 rest herror hws hbs hsq =>
      -- a double quote that ends in a trailing backslash
      intro out pending lx i hi hlx
      obtain ⟨lx', hlx', hturn⟩ :=
        turn_open i rest .double hlx
      have hpos : i + 1 + 0 + rest.length - 1 = total - 1 := by
        simp only [List.length_cons] at hi
        omega
      refine (scan_advance hturn).trans ?_
      rw [List.drop_zero,
        scan_doubleQuoted_error _ (Nat.le_refl _) herror hlx', if_pos rfl,
        hpos]
      rfl
  | case9 rest kind hkind herror hws hbs hsq =>
      -- a double quote that is not closed
      intro out pending lx i hi hlx
      obtain ⟨lx', hlx', hturn⟩ :=
        turn_open i rest .double hlx
      have hpos : total - (rest.length + 1) = i := by
        simp only [List.length_cons] at hi
        omega
      refine (scan_advance hturn).trans ?_
      rw [List.drop_zero,
        scan_doubleQuoted_error _ (Nat.le_refl _) herror hlx', if_neg hkind,
        hpos]
      rfl
  | case10 rest text after hquoted hws hbs hsq ih =>
      intro out pending lx i hi hlx
      obtain ⟨lx', hlx', hturn⟩ :=
        turn_open i rest .double hlx
      obtain ⟨lx'', hlx'', hscan⟩ :=
        scan_doubleQuoted_ok _ (Nat.le_refl _) hquoted (i := i + 1) hlx'
      have hlen := doubleQuoted_length hquoted
      have hi' : i + 1 + (rest.length - after.length) + after.length =
          total := by
        simp only [List.length_cons] at hi
        omega
      refine (scan_advance hturn).trans ?_
      rw [List.drop_zero, hscan, ih hi' hlx'', map_text]
  | case11 c rest hws hbs hsq hdq ih =>
      intro out pending lx i hi hlx
      obtain ⟨lx', hlx', hturn⟩ := turn_ordinary i rest hlx
        (by simpa using hws) hbs hsq hdq
      have hi' : i + 1 + 0 + rest.length = total := by
        simp only [List.length_cons] at hi
        omega
      rw [scan_advance hturn, List.drop_zero, ih hi' hlx', map_text]

end Scans

/-- The state machine computes the grammar. -/
theorem split_eq_grammar (s : Bytes) : split s = grammar s := by
  have hstart : Outside [] none Lexer.start := Fresh.start
  have hscan := scan_pieces s.length s (Nat.zero_add _) hstart
  rw [split, hscan, grammar]
  congr 1
  funext ps
  rw [List.nil_append, words_eq_assemble]

end Cosca.Ports.PosixSplit
