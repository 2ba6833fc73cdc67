import Mathlib.Data.List.DropRight
import Cosca.Ports.WindowsCommandLine

/-!
# Windows quoting round trip

The encoder's backslash counter and the parser's agree unit by unit
(`units_reads`): inside an argument the parser's buffer is what has been
encoded so far, its quote count is the quoting mode of the argument, and its
backslash count is the encoder's.  Every quote the encoder writes is therefore
met with the parity the encoder meant, the count of bare quotes goes
`0 → 1 → 2 → 0` over a quoted argument and never reaches three, and after each
argument the parser stands where it began (`encoded_reads`).
-/

namespace Cosca.Ports.WindowsCommandLine

open Cosca.Ports.Errors
open Cosca.Verified.Scan

/-! ## The units apart -/

theorem quote_beq_backslash : (quote == backslash) = false := by
  decide

theorem isBlank_quote : isBlank quote = false := by
  decide

/-! ## The encoder, without its accumulator -/

/-- The encoder's counter after the unit `x`. -/
def nextRun (b : Nat) (x : UInt16) : Nat :=
  if x == backslash then b + 1 else 0

/-- What the encoder writes for the unit `x`. -/
def unit (b : Nat) (x : UInt16) : Wide :=
  if x == quote then List.replicate (b + 1) backslash ++ [x] else [x]

/-- What it writes for the units `xs`. -/
def units : Nat → Wide → Wide
  | _, [] => []
  | b, x :: xs => unit b x ++ units (nextRun b x) xs

/-- The encoder's counter after the units `xs`. -/
def runAfter : Nat → Wide → Nat
  | b, [] => b
  | b, x :: xs => runAfter (nextRun b x) xs

/-- The encoded argument. -/
def encoded (arg : Wide) : Wide :=
  if needsQuotes arg then
    [quote] ++ units 0 arg ++
      List.replicate (runAfter 0 arg) backslash ++ [quote]
  else units 0 arg

theorem foldl_appendUnit (xs : Wide) : ∀ (cmd : Wide) (b : Nat),
    xs.foldl appendUnit (cmd, b) = (cmd ++ units b xs, runAfter b xs) := by
  induction xs with
  | nil =>
      intro cmd b
      simp only [List.foldl_nil, units, runAfter, List.append_nil]
  | cons x xs ih =>
      intro cmd b
      have hunit : appendUnit (cmd, b) x = (cmd ++ unit b x, nextRun b x) := by
        by_cases hb : x = backslash
        · subst hb
          rfl
        · by_cases hq : x = quote
          · subst hq
            simp only [appendUnit, unit, nextRun, quote_beq_backslash,
              beq_self_eq_true, Bool.false_eq_true, if_false, if_true,
              List.append_assoc]
          · simp [appendUnit, unit, nextRun, hb, hq]
      rw [List.foldl_cons, hunit, ih]
      simp only [units, runAfter, List.append_assoc]

theorem appendArg_eq (cmd arg : Wide) :
    appendArg cmd arg = cmd ++ encoded arg := by
  unfold appendArg encoded
  split <;> simp only [foldl_appendUnit, List.append_assoc]

theorem joinWideLoop_succ (args : List Wide) : ∀ (idx : Nat) (cmd : Wide),
    joinWideLoop (idx + 1) args cmd =
      cmd ++ args.flatMap fun arg => space :: encoded arg := by
  induction args with
  | nil =>
      intro idx cmd
      simp only [joinWideLoop, List.flatMap_nil, List.append_nil]
  | cons arg args ih =>
      intro idx cmd
      simp only [joinWideLoop, Nat.succ_pos, if_true, appendArg_eq, ih,
        List.flatMap_cons, List.append_assoc, List.cons_append,
        List.nil_append]

theorem joinWide_cons (arg : Wide) (args : List Wide) :
    joinWide (arg :: args) =
      encoded arg ++ args.flatMap fun arg => space :: encoded arg := by
  simp only [joinWide, joinWideLoop, Nat.lt_irrefl, if_false, appendArg_eq,
    List.nil_append, joinWideLoop_succ]

/-! ## The parser inside an argument -/

/-- The parser has read the units `w` of an argument: `q` bare quotes and `b`
backslashes are counted. -/
structure Inside (q : Nat) (out : List Wide) (w : Wide) (b : Nat)
    (lx : RestLexer) : Prop where
  qcount : lx.qcount = q
  out_eq : lx.out = out
  buf : lx.buf = w
  bcount : lx.bcount = b

theorem Inside.start : Inside 0 [] [] 0 RestLexer.start :=
  ⟨rfl, rfl, rfl, rfl⟩

/-- The next unit is not a quote. -/
def NotQuote (rest : Wide) : Prop :=
  rest.head? ≠ some quote

/-- The next unit exists and is not a blank. -/
def NotBlank (rest : Wide) : Prop :=
  ∃ c, rest.head? = some c ∧ isBlank c = false

/-- The argument is over: the line ends or a space follows. -/
def AtSeparator (rest : Wide) : Prop :=
  rest = [] ∨ rest.head? = some space

theorem AtSeparator.notQuote {rest : Wide} (h : AtSeparator rest) :
    NotQuote rest := by
  rcases h with rfl | h
  · exact fun h => nomatch h
  · unfold NotQuote
    rw [h]
    decide

/-- The inner loop stops at once when no quote follows. -/
theorem quoteRun_of_notQuote (q : Nat) (buf : Wide) {rest : Wide}
    (h : NotQuote rest) : quoteRun q buf rest = (q, buf, 0) := by
  cases rest with
  | nil => rfl
  | cons c rest =>
      have hc : (c == quote) = false := by
        simpa [NotQuote] using h
      simp only [quoteRun, hc, Bool.false_eq_true, if_false]

/-- One further quote closes the argument. -/
theorem quoteRun_one (buf : Wide) {rest : Wide} (h : NotQuote rest) :
    quoteRun 1 buf (quote :: rest) = (2, buf, 1) := by
  simp [quoteRun, quoteRun_of_notQuote 2 buf h]

/-- Taking a run of `n` backslashes back from the end of the buffer. -/
theorem take_back (w : Wide) (n : Nat) :
    (w ++ List.replicate n backslash).take
      ((w ++ List.replicate n backslash).length - n) = w := by
  rw [List.length_append, List.length_replicate, Nat.add_sub_cancel,
    List.take_left]

/-! ## Single turns -/

/-- The turn at a quote. -/
theorem restTurn_quote (lx : RestLexer) (i : Nat) (rest : List UInt16) :
    restTurn lx i quote rest =
      (let (buf, qcount) :=
        if lx.bcount % 2 == 0 then
          (lx.buf.take (lx.buf.length - lx.bcount / 2), lx.qcount + 1)
        else
          (lx.buf.take (lx.buf.length - (lx.bcount / 2 + 1)) ++ [quote],
            lx.qcount)
      let (qcount, buf, consumed) := quoteRun qcount buf rest
      .advance { lx with buf := buf, bcount := 0,
                         qcount := if qcount == 2 then 0 else qcount }
        consumed) := by
  simp only [restTurn, isBlank_quote, quote_beq_backslash, Bool.false_and,
    beq_self_eq_true, Bool.false_eq_true, if_false, if_true]

/-- A unit that is neither a quote nor a backslash, and not a blank outside
quotes, is literal. -/
theorem literal_reads (q : Nat) (out : List Wide) (w : Wide) (b : Nat)
    (x : UInt16) (hbs : x ≠ backslash) (hq : x ≠ quote)
    (hblank : isBlank x = true → q ≠ 0) :
    restSplitter.Reads anything (Inside q out w b) [x]
      (Inside q out (w ++ [x]) 0) := by
  refine Scanner.Reads.turn (w := []) fun lx i hlx => ?_
  refine ⟨{ lx with buf := lx.buf ++ [x], bcount := 0 },
    ⟨hlx.qcount, hlx.out_eq, by rw [hlx.buf], rfl⟩, fun rest _ => ?_⟩
  have hsep : (isBlank x && lx.qcount == 0) = false := by
    rw [hlx.qcount]
    by_cases hx : isBlank x = true
    · simp [hx, hblank hx]
    · simp [hx]
  simp [restSplitter, restTurn, hsep, hbs, hq]

/-- A run of backslashes is written eagerly and counted. -/
theorem backslashes_reads (q : Nat) (out : List Wide) (w : Wide) (b n : Nat) :
    restSplitter.Reads anything (Inside q out w b)
      (List.replicate n backslash)
      (Inside q out (w ++ List.replicate n backslash) (b + n)) := by
  induction n with
  | zero =>
      rw [List.replicate_zero, List.append_nil]
      exact Scanner.Reads.nil
  | succ n ih =>
      have hone : restSplitter.Reads anything
          (Inside q out (w ++ List.replicate n backslash) (b + n)) [backslash]
          (Inside q out (w ++ List.replicate (n + 1) backslash)
            (b + (n + 1))) := by
        refine Scanner.Reads.turn (w := []) fun lx i hlx => ?_
        refine ⟨{ lx with buf := lx.buf ++ [backslash],
                          bcount := lx.bcount + 1 },
          ⟨hlx.qcount, hlx.out_eq, ?_, ?_⟩, fun rest _ => rfl⟩
        · simp only [hlx.buf, List.replicate_succ', List.append_assoc]
        · simp only [hlx.bcount, Nat.add_assoc]
      have hboth := ih.append hone
      rwa [← List.replicate_succ'] at hboth

/-- A quote after an odd backslash run: half of the run is taken back and the
quote is literal.  With a bare quote behind it, that one closes the argument
in the same turn. -/
theorem escapedQuote_reads (q : Nat) (hq : q < 2) (out : List Wide) (w : Wide)
    (n : Nat) :
    restSplitter.Reads NotQuote
      (Inside q out (w ++ List.replicate (n + 1) backslash) (2 * n + 1))
      [quote] (Inside q out (w ++ [quote]) 0) := by
  refine Scanner.Reads.turn (w := []) fun lx i hlx => ?_
  refine ⟨{ lx with buf := w ++ [quote], bcount := 0 },
    ⟨hlx.qcount, hlx.out_eq, rfl, rfl⟩, fun rest hrest => ?_⟩
  have hodd : ((2 * n + 1) % 2 == 0) = false := by
    simp [Nat.add_mod]
  have hhalf : (2 * n + 1) / 2 + 1 = n + 1 := by omega
  have hkeep : (if q == 2 then 0 else q) = q := by
    rw [if_neg]
    simp only [beq_iff_eq]
    omega
  simp only [restSplitter, restTurn_quote, List.nil_append, hlx.bcount,
    hlx.buf, hlx.qcount, hodd, hhalf, take_back,
    quoteRun_of_notQuote _ _ hrest, Bool.false_eq_true, if_false, hkeep,
    List.length_nil]

/-- The same with the closing quote right behind the escaped one. -/
theorem escapedQuote_close_reads (out : List Wide) (w : Wide) (n : Nat) :
    restSplitter.Reads NotQuote
      (Inside 1 out (w ++ List.replicate (n + 1) backslash) (2 * n + 1))
      [quote, quote] (Inside 0 out (w ++ [quote]) 0) := by
  refine Scanner.Reads.turn (w := [quote]) fun lx i hlx => ?_
  refine ⟨{ lx with buf := w ++ [quote], bcount := 0, qcount := 0 },
    ⟨rfl, hlx.out_eq, rfl, rfl⟩, fun rest hrest => ?_⟩
  have hodd : ((2 * n + 1) % 2 == 0) = false := by
    simp [Nat.add_mod]
  have hhalf : (2 * n + 1) / 2 + 1 = n + 1 := by omega
  simp only [restSplitter, restTurn_quote, List.singleton_append,
    hlx.bcount, hlx.buf, hlx.qcount, hodd, hhalf, take_back,
    quoteRun_one _ hrest, Bool.false_eq_true, if_false]
  rfl

/-- The closing quote after a doubled backslash run. -/
theorem close_reads (out : List Wide) (w : Wide) (n : Nat) :
    restSplitter.Reads NotQuote
      (Inside 1 out (w ++ List.replicate n backslash) (2 * n)) [quote]
      (Inside 0 out w 0) := by
  refine Scanner.Reads.turn (w := []) fun lx i hlx => ?_
  refine ⟨{ lx with buf := w, bcount := 0, qcount := 0 },
    ⟨rfl, hlx.out_eq, rfl, rfl⟩, fun rest hrest => ?_⟩
  have heven : (2 * n % 2 == 0) = true := by simp
  have hhalf : 2 * n / 2 = n := by omega
  simp only [restSplitter, restTurn_quote, List.nil_append, hlx.bcount,
    hlx.buf, hlx.qcount, heven, hhalf, take_back, if_true,
    quoteRun_of_notQuote _ _ hrest]
  rfl

/-- The opening quote. -/
theorem open_reads (out : List Wide) :
    restSplitter.Reads NotQuote (Inside 0 out [] 0) [quote]
      (Inside 1 out [] 0) := by
  refine Scanner.Reads.turn (w := []) fun lx i hlx => ?_
  refine ⟨{ lx with buf := [], bcount := 0, qcount := 1 },
    ⟨rfl, hlx.out_eq, rfl, rfl⟩, fun rest hrest => ?_⟩
  simp [restSplitter, restTurn_quote, hlx.bcount, hlx.buf, hlx.qcount,
    quoteRun_of_notQuote _ _ hrest]

/-- The empty argument: the opening and the closing quote in one turn. -/
theorem empty_reads (out : List Wide) :
    restSplitter.Reads NotQuote (Inside 0 out [] 0) [quote, quote]
      (Inside 0 out [] 0) := by
  refine Scanner.Reads.turn (w := [quote]) fun lx i hlx => ?_
  refine ⟨{ lx with buf := [], bcount := 0, qcount := 0 },
    ⟨rfl, hlx.out_eq, rfl, rfl⟩, fun rest hrest => ?_⟩
  simp [restSplitter, restTurn_quote, hlx.bcount, hlx.buf, hlx.qcount,
    quoteRun_one [] hrest]

/-- A space outside quotes ends the argument. -/
theorem separator_reads (out : List Wide) (w : Wide) (b : Nat) :
    restSplitter.Reads NotBlank (Inside 0 out w b) [space]
      (Inside 0 (out ++ [w]) [] 0) := by
  refine Scanner.Reads.turn (w := []) fun lx i hlx => ?_
  refine ⟨{ lx with out := out ++ [w], buf := [], bcount := 0 },
    ⟨hlx.qcount, rfl, rfl, rfl⟩, fun rest hrest => ?_⟩
  obtain ⟨c, hhead, hblank⟩ := hrest
  cases rest with
  | nil => exact absurd hhead (by simp)
  | cons c' rest =>
      obtain rfl : c' = c := by simpa using hhead
      simp only [restSplitter, restTurn, List.nil_append, hlx.qcount,
        hlx.out_eq, hlx.buf, List.dropWhile_cons, List.takeWhile_cons, hblank]
      simp [isBlank]

/-! ## Arguments -/

/-- The encoding of a unit starts with a unit that is not a quote. -/
theorem notQuote_unit (b : Nat) (x : UInt16) (rest : Wide) :
    NotQuote (unit b x ++ rest) := by
  unfold unit NotQuote
  split
  · exact fun h => nomatch h
  · next h => simpa using h

theorem notQuote_units (b : Nat) (xs : Wide) {rest : Wide}
    (h : NotQuote rest) : NotQuote (units b xs ++ rest) := by
  cases xs with
  | nil => exact h
  | cons x xs =>
      simp only [units, List.append_assoc]
      exact notQuote_unit b x _

/-- One unit: the parser's counter follows the encoder's. -/
theorem unit_reads (q : Nat) (hq : q < 2) (out : List Wide) (w : Wide)
    (b : Nat) (x : UInt16) (hblank : isBlank x = true → q ≠ 0) :
    restSplitter.Reads NotQuote (Inside q out w b) (unit b x)
      (Inside q out (w ++ [x]) (nextRun b x)) := by
  by_cases hx : x = quote
  · subst hx
    have hrun := backslashes_reads q out w b (b + 1)
    rw [show b + (b + 1) = 2 * b + 1 by omega] at hrun
    exact hrun.append (escapedQuote_reads q hq out w b)
  · have hanything : ∀ rest : Wide, NotQuote rest → anything rest :=
      fun _ _ => trivial
    simp only [unit, beq_iff_eq, hx, if_false]
    by_cases hbs : x = backslash
    · subst hbs
      exact (backslashes_reads q out w b 1).weaken hanything
        (fun _ => id) (fun _ => id)
    · simp only [nextRun, beq_iff_eq, hbs, if_false]
      exact (literal_reads q out w b x hbs hx hblank).weaken hanything
        (fun _ => id) (fun _ => id)

/-- The units of an argument, in one quoting mode. -/
theorem units_reads (q : Nat) (hq : q < 2) (out : List Wide) (xs : Wide) :
    ∀ (w : Wide) (b : Nat), (∀ x ∈ xs, isBlank x = true → q ≠ 0) →
      restSplitter.Reads NotQuote (Inside q out w b) (units b xs)
        (Inside q out (w ++ xs) (runAfter b xs)) := by
  induction xs with
  | nil =>
      intro w b _
      rw [List.append_nil]
      exact Scanner.Reads.nil
  | cons x xs ih =>
      intro w b hblank
      have hx := unit_reads q hq out w b x (hblank x (by simp))
      have hxs := ih (w ++ [x]) (nextRun b x)
        fun y hy => hblank y (by simp [hy])
      rw [List.append_assoc, List.singleton_append] at hxs
      exact hx.seq hxs fun rest hrest => notQuote_units _ xs hrest

theorem units_append (xs ys : Wide) : ∀ b : Nat,
    units b (xs ++ ys) = units b xs ++ units (runAfter b xs) ys := by
  induction xs with
  | nil =>
      intro b
      rfl
  | cons x xs ih =>
      intro b
      simp only [List.cons_append, units, runAfter, ih, List.append_assoc]

theorem runAfter_append (xs ys : Wide) : ∀ b : Nat,
    runAfter b (xs ++ ys) = runAfter (runAfter b xs) ys := by
  induction xs with
  | nil =>
      intro b
      rfl
  | cons x xs ih =>
      intro b
      simp only [List.cons_append, runAfter, ih]

/-- The last unit of a quoted argument and its closing quote. -/
theorem last_reads (out : List Wide) (w : Wide) (b : Nat) (x : UInt16) :
    restSplitter.Reads NotQuote (Inside 1 out w b)
      (unit b x ++ List.replicate (nextRun b x) backslash ++ [quote])
      (Inside 0 out (w ++ [x]) 0) := by
  by_cases hx : x = quote
  · -- the escaped quote and the closing one are consecutive
    subst hx
    have hrun := backslashes_reads 1 out w b (b + 1)
    rw [show b + (b + 1) = 2 * b + 1 by omega] at hrun
    have hclose := hrun.append (escapedQuote_close_reads out w b)
    simp only [unit, nextRun, quote_beq_backslash, beq_self_eq_true,
      Bool.false_eq_true, if_false, if_true, List.replicate_zero,
      List.append_nil, List.append_assoc]
    exact hclose
  · simp only [unit, beq_iff_eq, hx, if_false]
    by_cases hbs : x = backslash
    · subst hbs
      have hone := backslashes_reads 1 out w b 1
      have hrun := backslashes_reads 1 out (w ++ [backslash]) (b + 1) (b + 1)
      rw [show b + 1 + (b + 1) = 2 * (b + 1) by omega] at hrun
      exact (hone.append hrun).append (close_reads out (w ++ [backslash]) (b + 1))
    · have hlit := literal_reads 1 out w b x hbs hx (fun _ => by decide)
      have hclose := close_reads out (w ++ [x]) 0
      rw [List.replicate_zero, List.append_nil] at hclose
      simpa [nextRun, hbs] using hlit.append hclose

/-- A whole encoded argument, from the state between arguments. -/
theorem encoded_reads (out : List Wide) (arg : Wide) :
    ∃ b, restSplitter.Reads NotQuote (Inside 0 out [] 0) (encoded arg)
      (Inside 0 out arg b) := by
  unfold encoded
  split
  · refine ⟨0, ?_⟩
    rcases List.eq_nil_or_concat arg with rfl | ⟨init, x, rfl⟩
    · exact empty_reads out
    · rw [List.concat_eq_append, units_append, runAfter_append]
      have hinit := units_reads 1 (by decide) out init [] 0
        fun _ _ _ => by decide
      have hlast := last_reads out init (runAfter 0 init) x
      have hbody := hinit.seq hlast fun rest _ => by
        rw [List.append_assoc, List.append_assoc]
        exact notQuote_unit _ _ _
      have hall := (open_reads out).seq hbody fun rest _ => by
        rw [List.append_assoc]
        exact notQuote_units 0 init (by
          rw [List.append_assoc, List.append_assoc]
          exact notQuote_unit _ _ _)
      simpa [units, runAfter] using hall
  · next hnq =>
      refine ⟨runAfter 0 arg, ?_⟩
      have hplain : ∀ x ∈ arg, isBlank x = true → 0 ≠ 0 := by
        intro x hx hblank
        refine absurd ?_ hnq
        simp only [needsQuotes, Bool.or_eq_true, List.any_eq_true]
        exact .inr ⟨x, hx, hblank⟩
      exact units_reads 0 (by decide) out arg [] 0 hplain

/-- An encoded argument starts with a unit that is not a blank. -/
theorem encoded_notBlank (arg rest : Wide) :
    NotBlank (encoded arg ++ rest) := by
  unfold encoded
  split
  · exact ⟨quote, rfl, by decide⟩
  · next hnq =>
      cases arg with
      | nil => exact absurd rfl hnq
      | cons x xs =>
          by_cases hx : x = quote
          · subst hx
            exact ⟨backslash, rfl, by decide⟩
          · refine ⟨x, ?_, ?_⟩
            · simp [units, unit, hx]
            · cases hblank : isBlank x with
              | false => rfl
              | true => exact absurd (by simp [needsQuotes, hblank]) hnq

/-! ## Lines -/

/-- After the arguments `args` of a line, the last of them still pending. -/
def Line (args : List Wide) (lx : RestLexer) : Prop :=
  ∃ out arg b, args = out ++ [arg] ∧ Inside 0 out arg b lx

/-- The arguments after the first one, each preceded by a space. -/
theorem spaced_reads (args : List Wide) : ∀ done : List Wide,
    restSplitter.Reads AtSeparator (Line done)
      (args.flatMap fun arg => space :: encoded arg)
      (Line (done ++ args)) := by
  induction args with
  | nil =>
      intro done
      rw [List.append_nil]
      exact Scanner.Reads.nil
  | cons arg args ih =>
      intro done
      have hword : restSplitter.Reads NotQuote (Line done)
          (space :: encoded arg) (Line (done ++ [arg])) := by
        intro lx i hlx
        obtain ⟨out, last, b, rfl, hin⟩ := hlx
        obtain ⟨b', hread⟩ := encoded_reads (out ++ [last]) arg
        have hboth := (separator_reads out last b).seq hread
          fun rest _ => encoded_notBlank arg rest
        obtain ⟨lx', hlx', hscan⟩ := hboth lx i hin
        exact ⟨lx', ⟨out ++ [last], arg, b', rfl, hlx'⟩, hscan⟩
      have hrest := ih (done ++ [arg])
      rw [List.append_assoc, List.singleton_append] at hrest
      rw [List.flatMap_cons]
      refine hword.seq hrest fun rest hsep => ?_
      cases args with
      | nil => exact hsep.notQuote
      | cons arg' args => exact fun h => nomatch h

/-- The arguments of `join_wide` come back one by one. -/
theorem splitRestWide_joinWide (args : List Wide) :
    splitRestWide (joinWide args) = args := by
  cases args with
  | nil => rfl
  | cons arg args =>
      rw [joinWide_cons]
      obtain ⟨c, hhead, hblank⟩ := encoded_notBlank arg
        (args.flatMap fun arg => space :: encoded arg)
      obtain ⟨b, hread⟩ := encoded_reads [] arg
      have hfirst : restSplitter.Reads NotQuote (Inside 0 [] [] 0)
          (encoded arg) (Line [arg]) :=
        hread.post fun _ hin => ⟨[], arg, b, rfl, hin⟩
      have hline := hfirst.seq (spaced_reads args [arg])
        fun rest hsep => by
          cases args with
          | nil => exact hsep.notQuote
          | cons arg' args => exact fun h => nomatch h
      obtain ⟨lx, ⟨out, last, b', hargs, hin⟩, hscan⟩ :=
        hline.scan_eq (.inl rfl) Inside.start 0
      have hdrop : ∀ l : Wide, l.head? = some c →
          splitRestWide l = restSplitter.scan RestLexer.start 0 l := by
        intro l hl
        cases l with
        | nil => exact absurd hl (by simp)
        | cons x xs =>
            obtain rfl : x = c := by simpa using hl
            simp [splitRestWide, hblank]
      rw [hdrop _ hhead, hscan]
      simp only [restSplitter, hin.out_eq, hin.buf]
      rw [← hargs, List.singleton_append]

/-! ## The program token -/

/-- The arguments are read behind any run of blanks. -/
theorem splitRestWide_dropWhile (rest : Wide) :
    splitRestWide (rest.dropWhile isBlank) = splitRestWide rest := by
  unfold splitRestWide
  rw [List.dropWhile_idempotent]

theorem splitRestWide_space (rest : Wide) :
    splitRestWide (space :: rest) = splitRestWide rest := by
  rfl

/-- A token without blanks, not opened by a quote, ends at the first blank. -/
theorem firstTokenAndRestWide_plain (p rest : Wide) (c : UInt16)
    (hhead : p.head? = some c) (hc : c ≠ quote)
    (hplain : ∀ x ∈ p, isBlank x = false) (hsep : AtSeparator rest) :
    firstTokenAndRestWide (p ++ rest) = some (p, rest.dropWhile isBlank) := by
  cases p with
  | nil => exact absurd hhead (by simp)
  | cons x xs =>
      obtain rfl : x = c := by simpa using hhead
      have hall : ∀ y ∈ x :: xs, (!isBlank y) = true := by
        intro y hy
        rw [hplain y hy]
        rfl
      have hstart : ((x :: xs) ++ rest).dropWhile isBlank =
          x :: (xs ++ rest) := by
        rw [List.cons_append, List.dropWhile_cons, hplain x (by simp)]
        rfl
      have hrest : rest.takeWhile (!isBlank ·) = [] ∧
          rest.dropWhile (!isBlank ·) = rest := by
        rcases hsep with rfl | hsep
        · exact ⟨rfl, rfl⟩
        · obtain ⟨r, rfl⟩ := List.head?_eq_some_iff.mp hsep
          exact ⟨rfl, rfl⟩
      have htake : ((x :: xs) ++ rest).takeWhile (!isBlank ·) = x :: xs := by
        rw [List.takeWhile_append_of_pos hall, hrest.1, List.append_nil]
      have hdrop : ((x :: xs) ++ rest).dropWhile (!isBlank ·) = rest := by
        rw [List.dropWhile_append_of_pos hall, hrest.2]
      rw [List.cons_append] at htake hdrop
      simp only [firstTokenAndRestWide, hstart, beq_iff_eq, hc, if_false,
        htake, hdrop]

/-- Windows quoting round trip: behind any plain program token `p` the line
of `join_wide` splits into exactly the arguments. -/
theorem splitWide_joinWide (p : Wide) (args : List Wide) (hne : p ≠ [])
    (hplain : ∀ c ∈ p, isBlank c = false ∧ c ≠ quote) :
    splitWide (p ++ [space] ++ joinWide args) = .ok ([p] ++ args) := by
  obtain ⟨c, cs, rfl⟩ := List.exists_cons_of_ne_nil hne
  have hfirst := firstTokenAndRestWide_plain (c :: cs) (space :: joinWide args)
    c rfl (hplain c (by simp)).2 (fun x hx => (hplain x hx).1) (.inr rfl)
  rw [List.append_assoc, List.singleton_append]
  simp only [splitWide, hfirst, splitRestWide_dropWhile,
    splitRestWide_space, splitRestWide_joinWide]

/-- Program `p`, then an argument with a blank that ends in an escaped quote,
the empty one and a lone surrogate. -/
theorem splitWide_joinWide_p :
    splitWide ([112] ++ [space] ++
        joinWide [[space, backslash, quote], [], [0xD800]]) =
      .ok ([[112]] ++ [[space, backslash, quote], [], [0xD800]]) := by
  have hplain : ∀ c ∈ ([112] : Wide), isBlank c = false ∧ c ≠ quote := by
    intro c hc
    obtain rfl := List.mem_singleton.mp hc
    decide
  exact splitWide_joinWide [112] [[space, backslash, quote], [], [0xD800]]
    (List.cons_ne_nil _ _) hplain

end Cosca.Ports.WindowsCommandLine
