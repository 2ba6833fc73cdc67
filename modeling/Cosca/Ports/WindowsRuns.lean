import Cosca.Ports.WindowsRoundTrip
import Cosca.Verified.Words

/-!
# The tail of a Windows command line, by maximal runs

`split_rest_wide` writes every backslash as it comes, takes some back when a
quote follows, and counts bare quotes as it goes.  What it implements is a
rule about maximal runs: a run of backslashes and the run of quotes after it
stand for a text that depends on their lengths and on the number of bare
quotes counted so far (`runText`).  The rule is written here by recursion on
the runs (`argPieces`), and the loop is shown to compute it.
-/

namespace Cosca.Ports.WindowsCommandLine

open Cosca.Verified.Scan
open Cosca.Verified.Words

/-! ## The rule -/

/-- The bare quotes in a run of `m` quotes after `n` backslashes: an odd run
of backslashes escapes the first quote. -/
def bareQuotes (n m : Nat) : Nat := m - n % 2

/-- What a run of `n` backslashes and the run of `m` quotes after it stand
for, when `total` bare quotes have been counted.  Every third bare quote is
literal. -/
def runText (total n m : Nat) : Wide :=
  if m = 0 then List.replicate n backslash
  else
    List.replicate (n / 2) backslash ++ List.replicate (n % 2) quote ++
      List.replicate ((total + bareQuotes n m) / 3) quote

/-- The count after the run: it starts again at every third bare quote, and
where a run of quotes ends at two. -/
def runTotal (total n m : Nat) : Nat :=
  if m = 0 then total
  else if (total + bareQuotes n m) % 3 = 2 then 0
  else (total + bareQuotes n m) % 3

/-- The length of the run of `c` at the front. -/
def run (c : UInt16) (s : Wide) : Nat := (s.takeWhile (· == c)).length

/-- The pieces of the arguments: a blank separates them while no quote is
counted, everything else is text. -/
def argPieces (total : Nat) (s : Wide) : List (Piece UInt16) :=
  match s with
  | [] => []
  | c :: rest =>
      if c = backslash ∨ c = quote then
        let n := run backslash (c :: rest)
        let m := run quote ((c :: rest).drop n)
        some (runText total n m) ::
          argPieces (runTotal total n m) (rest.drop (n + m - 1))
      else if isBlank c ∧ total = 0 then none :: argPieces total rest
      else some [c] :: argPieces total rest
  termination_by s.length
  decreasing_by all_goals simp only [List.length_cons, List.length_drop]; omega

/-- The arguments. -/
def arguments (s : Wide) : List Wide := words (argPieces 0 s)

/-! ## Runs -/

theorem run_cons (c d : UInt16) (s : Wide) :
    run c (d :: s) = if d = c then run c s + 1 else 0 := by
  by_cases h : d = c <;> simp [run, h]

/-- A text is its first run and what comes after it. -/
theorem eq_run_append (c : UInt16) (s : Wide) :
    s = List.replicate (run c s) c ++ s.drop (run c s) := by
  induction s with
  | nil => rfl
  | cons d s ih =>
      rw [run_cons]
      by_cases h : d = c
      · rw [if_pos h, List.replicate_succ, List.cons_append,
          List.drop_succ_cons, ← ih, h]
      · simp [h]

/-- What comes after a run does not go on with it. -/
theorem head?_drop_run (c : UInt16) (s : Wide) :
    (s.drop (run c s)).head? ≠ some c := by
  induction s with
  | nil => nofun
  | cons d s ih =>
      rw [run_cons]
      by_cases h : d = c
      · rwa [if_pos h, List.drop_succ_cons]
      · simp [h]

theorem drop_takeWhile (p : UInt16 → Bool) (s : Wide) :
    s.drop (s.takeWhile p).length = s.dropWhile p := by
  calc s.drop (s.takeWhile p).length
      = (s.takeWhile p ++ s.dropWhile p).drop (s.takeWhile p).length := by
        rw [List.takeWhile_append_dropWhile]
    _ = s.dropWhile p := List.drop_left

theorem run_replicate_append (c : UInt16) (n : Nat) {s : Wide}
    (h : s.head? ≠ some c) : run c (List.replicate n c ++ s) = n := by
  induction n with
  | zero =>
      cases s with
      | nil => rfl
      | cons d s =>
          have hd : d ≠ c := by simpa using h
          simp [run_cons, hd]
  | succ n ih => rw [List.replicate_succ, List.cons_append, run_cons,
      if_pos rfl, ih]

/-- A run of backslashes and quotes, then something else. -/
theorem argPieces_run (total : Nat) {n m : Nat} {s : Wide} (hpos : 0 < n + m)
    (hq : s.head? ≠ some quote) (hbs : m = 0 → s.head? ≠ some backslash) :
    argPieces total
        (List.replicate n backslash ++ (List.replicate m quote ++ s)) =
      some (runText total n m) :: argPieces (runTotal total n m) s := by
  have hafter : (List.replicate m quote ++ s).head? ≠ some backslash := by
    cases m with
    | zero => simpa using hbs rfl
    | succ m => simp +decide [List.replicate_succ]
  have hn := run_replicate_append backslash n hafter
  have hm : run quote ((List.replicate n backslash ++
      (List.replicate m quote ++ s)).drop n) = m := by
    rw [List.drop_left' List.length_replicate, run_replicate_append quote m hq]
  obtain ⟨c, rest, hcons, hc⟩ : ∃ c rest,
      List.replicate n backslash ++ (List.replicate m quote ++ s) = c :: rest ∧
        (c = backslash ∨ c = quote) := by
    cases n with
    | succ n => exact ⟨_, _, rfl, .inl rfl⟩
    | zero =>
        obtain ⟨m, rfl⟩ : ∃ k, m = k + 1 := ⟨m - 1, by omega⟩
        exact ⟨_, _, rfl, .inr rfl⟩
  have hdrop : rest.drop (n + m - 1) = s := by
    have hall : (c :: rest).drop (n + m) = s := by
      rw [← hcons, ← List.append_assoc, List.drop_left' (by simp)]
    rwa [show n + m = n + m - 1 + 1 by omega, List.drop_succ_cons] at hall
  rw [hcons] at hn hm ⊢
  rw [argPieces.eq_def]
  simp only [hc, if_true, hn, hm, hdrop]

/-- A text that starts with a backslash or a quote is a run of both and what
comes after it. -/
theorem exists_runs {c : UInt16} (hc : c = backslash ∨ c = quote)
    (rest : Wide) : ∃ n m s, 0 < n + m ∧
      c :: rest =
        List.replicate n backslash ++ (List.replicate m quote ++ s) ∧
      s.head? ≠ some quote ∧ (m = 0 → s.head? ≠ some backslash) := by
  obtain ⟨t, ht⟩ : ∃ t, (c :: rest).drop (run backslash (c :: rest)) = t :=
    ⟨_, rfl⟩
  have hbs := eq_run_append backslash (c :: rest)
  rw [ht] at hbs
  refine ⟨run backslash (c :: rest), run quote t, t.drop (run quote t), ?_,
    ?_, head?_drop_run quote t, ?_⟩
  · rcases hc with rfl | rfl
    · rw [run_cons, if_pos rfl]
      omega
    · rw [run_cons, if_neg (by decide), List.drop_zero] at ht
      rw [← ht, run_cons quote, if_pos rfl]
      omega
  · rw [← eq_run_append quote t]
    exact hbs
  · intro hm
    rw [hm, List.drop_zero, ← ht]
    exact head?_drop_run backslash (c :: rest)

theorem argPieces_blank {c : UInt16} (s : Wide) (hc : isBlank c = true) :
    argPieces 0 (c :: s) = none :: argPieces 0 s := by
  have hne : ¬(c = backslash ∨ c = quote) := by
    rintro (rfl | rfl) <;> exact Bool.false_ne_true hc
  rw [argPieces.eq_def]
  simp only [hne, if_false, hc, and_self, if_true]

theorem argPieces_char {total : Nat} {c : UInt16} (s : Wide)
    (hbs : c ≠ backslash) (hq : c ≠ quote)
    (hc : ¬(isBlank c = true ∧ total = 0)) :
    argPieces total (c :: s) = some [c] :: argPieces total s := by
  rw [argPieces.eq_def]
  simp only [hbs, hq, or_self, if_false, hc]

/-- The inner loop over the quotes after a quote, in closed form. -/
theorem quoteRun_eq (s : Wide) :
    ∀ {q : Nat} (buf : Wide), q ≤ 2 → quoteRun q buf s =
      ((q + run quote s) % 3,
        buf ++ List.replicate ((q + run quote s) / 3) quote, run quote s) := by
  induction s with
  | nil =>
      intro q buf hq
      have hmod : q % 3 = q := by omega
      have hdiv : q / 3 = 0 := by omega
      simp [quoteRun, run, hmod, hdiv]
  | cons c s ih =>
      intro q buf hq
      rw [run_cons]
      by_cases hc : c = quote
      · rw [if_pos hc]
        by_cases hthird : q = 2
        · subst hthird
          have hdiv : (2 + (run quote s + 1)) / 3 = run quote s / 3 + 1 := by
            omega
          have hmod : (2 + (run quote s + 1)) % 3 = run quote s % 3 := by
            omega
          have hrest := ih (buf ++ [quote]) (Nat.zero_le 2)
          rw [Nat.zero_add] at hrest
          simp [quoteRun, hc, hrest, hdiv, hmod, List.replicate_succ]
        · have hsum : q + (run quote s + 1) = q + 1 + run quote s := by omega
          have hrest := ih buf (show q + 1 ≤ 2 by omega)
          simp [quoteRun, hc, hthird, hrest, hsum]
      · have hmod : q % 3 = q := by omega
        have hdiv : q / 3 = 0 := by omega
        simp [quoteRun, hc, hmod, hdiv]

theorem runTotal_le {total : Nat} (n m : Nat) (ht : total ≤ 1) :
    runTotal total n m ≤ 1 := by
  unfold runTotal
  split
  · exact ht
  · split <;> omega

/-! ## Single turns -/

/-- In an argument that is `w` so far and a run of `b` backslashes, after
`total` bare quotes. -/
structure Reading (out : List Wide) (w : Wide) (b total : Nat)
    (lx : RestLexer) : Prop where
  out_eq : lx.out = out
  buf : lx.buf = w ++ List.replicate b backslash
  bcount : lx.bcount = b
  qcount : lx.qcount = total

section Turns

variable {out : List Wide} {w : Wide} {b total : Nat} {lx : RestLexer}
  (i : Nat) (rest : Wide)

theorem turn_backslash (h : Reading out w b total lx) :
    ∃ lx', Reading out w (b + 1) total lx' ∧
      restTurn lx i backslash rest = .advance lx' 0 := by
  refine ⟨{ lx with buf := lx.buf ++ [backslash], bcount := lx.bcount + 1 },
    ⟨h.out_eq, ?_, by simp [h.bcount], h.qcount⟩, ?_⟩
  · simp [h.buf, List.replicate_succ']
  · simp +decide [restTurn]

/-- Quotes after a run of backslashes: half of the run is taken back, a
literal quote follows if it is odd, and the bare quotes are counted. -/
theorem turn_quotes (h : Reading out w b total lx) (ht : total ≤ 1) :
    ∃ lx', Reading out (w ++ runText total b (run quote rest + 1)) 0
        (runTotal total b (run quote rest + 1)) lx' ∧
      restTurn lx i quote rest = .advance lx' (run quote rest) := by
  refine ⟨{ lx with
      buf := w ++ runText total b (run quote rest + 1), bcount := 0,
      qcount := runTotal total b (run quote rest + 1) },
    ⟨h.out_eq, by simp, rfl, rfl⟩, ?_⟩
  have hlen : lx.buf.length = w.length + b := by simp [h.buf]
  have htake : ∀ k, k ≤ b → lx.buf.take (lx.buf.length - k) =
      w ++ List.replicate (b - k) backslash := by
    intro k hk
    have htail : w.length + b - k - w.length = b - k := by omega
    rw [hlen, h.buf, List.take_append, List.take_replicate,
      List.take_of_length_le (by omega), htail, Nat.min_eq_left (by omega)]
  by_cases heven : b % 2 = 0
  · have hrun := quoteRun_eq rest (w ++ List.replicate (b / 2) backslash)
      (show total + 1 ≤ 2 by omega)
    have hbare : total + (run quote rest + 1) = total + 1 + run quote rest := by
      omega
    have hbuf := htake (b / 2) (by omega)
    rw [show b - b / 2 = b / 2 by omega] at hbuf
    simp +decide [restTurn, h.bcount, h.qcount, heven, hbuf, hrun, runText,
      runTotal, bareQuotes, hbare]
  · have hodd : b % 2 = 1 := by omega
    have hrun := quoteRun_eq rest
      (w ++ (List.replicate (b / 2) backslash ++ [quote]))
      (show total ≤ 2 by omega)
    have hbuf := htake (b / 2 + 1) (by omega)
    rw [show b - (b / 2 + 1) = b / 2 by omega] at hbuf
    simp +decide [restTurn, h.bcount, h.qcount, hodd, hbuf, hrun, runText,
      runTotal, bareQuotes]

/-- Any other symbol that separates no arguments. -/
theorem turn_char {c : UInt16} (h : Reading out w b total lx)
    (hbs : c ≠ backslash) (hq : c ≠ quote)
    (hc : ¬(isBlank c = true ∧ total = 0)) :
    ∃ lx', Reading out (w ++ List.replicate b backslash ++ [c]) 0 total lx' ∧
      restTurn lx i c rest = .advance lx' 0 := by
  refine ⟨{ lx with buf := lx.buf ++ [c], bcount := 0 },
    ⟨h.out_eq, by simp [h.buf], rfl, h.qcount⟩, ?_⟩
  have hc' : (isBlank c && lx.qcount == 0) = false := by
    simpa [h.qcount] using hc
  simp [restTurn, hc', hbs, hq]

/-- A blank that separates arguments, and nothing but blanks after it. -/
theorem turn_last {c : UInt16} (h : Reading out w b 0 lx)
    (hc : isBlank c = true) (hrest : rest.dropWhile isBlank = []) :
    restTurn lx i c rest =
      .exit (out ++ [w ++ List.replicate b backslash]) := by
  simp [restTurn, hc, h.qcount, hrest, h.out_eq, h.buf]

/-- A blank that separates two arguments. -/
theorem turn_separator {c : UInt16} (h : Reading out w b 0 lx)
    (hc : isBlank c = true) (hrest : rest.dropWhile isBlank ≠ []) :
    ∃ lx', Reading (out ++ [w ++ List.replicate b backslash]) [] 0 0 lx' ∧
      restTurn lx i c rest =
        .advance lx' (rest.takeWhile isBlank).length := by
  refine ⟨{ lx with out := lx.out ++ [lx.buf], buf := [], bcount := 0 },
    ⟨by simp [h.out_eq, h.buf], rfl, rfl, h.qcount⟩, ?_⟩
  simp [restTurn, hc, h.qcount, hrest]

end Turns

/-! ## The loop computes the rule -/

theorem rest_advance {lx lx' : RestLexer} {i extra : Nat} {c : UInt16}
    {rest : Wide} (h : restTurn lx i c rest = .advance lx' extra) :
    restSplitter.scan lx i (c :: rest) =
      restSplitter.scan lx' (i + 1 + extra) (rest.drop extra) :=
  restSplitter.scan_advance h

theorem rest_exit {lx : RestLexer} {i : Nat} {c : UInt16} {rest : Wide}
    {r : List Wide} (h : restTurn lx i c rest = .exit r) :
    restSplitter.scan lx i (c :: rest) = r :=
  restSplitter.scan_exit h

/-- The pending argument with the run of backslashes after it. -/
def withRun (pending : Option Wide) (b : Nat) : Option Wide :=
  if b = 0 then pending
  else some (pending.getD [] ++ List.replicate b backslash)

theorem withRun_getD (pending : Option Wide) (b : Nat) :
    (withRun pending b).getD [] =
      pending.getD [] ++ List.replicate b backslash := by
  unfold withRun
  split
  · next h => simp [h]
  · rfl

/-- A run of backslashes with no quote after it is text. -/
theorem assemble_run {total b : Nat} {s : Wide} (pending : Option Wide)
    (hbs : s.head? ≠ some backslash) (hq : s.head? ≠ some quote) :
    assemble pending (argPieces total (List.replicate b backslash ++ s)) =
      assemble (withRun pending b) (argPieces total s) := by
  cases b with
  | zero => rfl
  | succ b =>
      have hrun := argPieces_run total (n := b + 1) (m := 0)
        (by omega) hq fun _ => hbs
      rw [List.replicate_zero, List.nil_append] at hrun
      rw [hrun]
      simp [withRun, runText, runTotal]

/-- Blanks in front of the arguments are skipped. -/
theorem assemble_blanks (s : Wide) :
    assemble none (argPieces 0 s) =
      assemble none (argPieces 0 (s.dropWhile isBlank)) := by
  induction s with
  | nil => rfl
  | cons c s ih =>
      by_cases hc : isBlank c = true
      · rw [argPieces_blank s hc, List.dropWhile_cons_of_pos hc, ← ih]
        simp
      · rw [List.dropWhile_cons_of_neg hc]

/-- An argument has been started, or starts here. -/
def Started (pending : Option Wide) (b : Nat) (s : Wide) : Prop :=
  pending.isSome ∨ 0 < b ∨ ∃ c rest, s = c :: rest ∧ isBlank c = false

/-- What the loop returns from any of its heads. -/
theorem scan_argPieces (n : Nat) :
    ∀ {s : Wide} {out : List Wide} (pending : Option Wide) {b total i : Nat}
      {lx : RestLexer}, s.length ≤ n → total ≤ 1 →
      Reading out (pending.getD []) b total lx → Started pending b s →
      restSplitter.scan lx i s = out ++ assemble pending
        (argPieces total (List.replicate b backslash ++ s)) := by
  induction n using Nat.strongRecOn with
  | ind n ih =>
      intro s out pending b total i lx hn ht hlx hstart
      -- at a separator or at the end there is an argument to emit
      have hemit : (s = [] ∨ ∃ c rest, s = c :: rest ∧ isBlank c = true) →
          (withRun pending b).toList =
            [pending.getD [] ++ List.replicate b backslash] := by
        intro hs
        rw [← withRun_getD]
        cases hrun : withRun pending b with
        | some w => rfl
        | none =>
            exfalso
            unfold withRun at hrun
            split at hrun
            · rcases hstart with hsome | hb | ⟨c, rest, rfl, hc⟩
              · simp [hrun] at hsome
              · omega
              · simp [hc] at hs
            · cases hrun
      match s with
      | [] =>
          rw [Scanner.scan_nil, assemble_run pending (by simp) (by simp)]
          have hargs : argPieces total [] = [] := by rw [argPieces.eq_def]
          rw [hargs, assemble_nil, hemit (.inl rfl)]
          simp only [restSplitter, hlx.out_eq, hlx.buf]
      | c :: rest =>
          rw [List.length_cons] at hn
          by_cases hbs : c = backslash
          · subst hbs
            obtain ⟨lx', hlx', hturn⟩ := turn_backslash i rest hlx
            rw [rest_advance hturn, List.drop_zero,
              ih rest.length (by omega) _ (Nat.le_refl _) ht hlx'
                (.inr (.inl (by omega))),
              List.replicate_succ', List.append_assoc, List.singleton_append]
          by_cases hq : c = quote
          · subst hq
            obtain ⟨lx', hlx', hturn⟩ := turn_quotes i rest hlx ht
            have hargs := argPieces_run total (n := b)
              (m := run quote rest + 1) (by omega)
              (head?_drop_run quote rest)
              (fun hzero => absurd hzero (Nat.succ_ne_zero _))
            rw [List.replicate_succ, List.cons_append,
              ← eq_run_append quote rest] at hargs
            rw [rest_advance hturn, hargs, assemble_text]
            exact ih _ (by rw [List.length_drop]; omega) (some _)
              (Nat.le_refl _) (runTotal_le _ _ ht) hlx' (.inl rfl)
          by_cases hc : isBlank c = true ∧ total = 0
          · obtain ⟨hc, rfl⟩ := hc
            rw [assemble_run pending (by simpa using hbs) (by simpa using hq),
              argPieces_blank rest hc, assemble_separator,
              hemit (.inr ⟨c, rest, rfl, hc⟩), assemble_blanks]
            cases hblanks : rest.dropWhile isBlank with
            | nil =>
                have hexit := turn_last i rest hlx hc hblanks
                rw [rest_exit hexit, argPieces.eq_def]
                simp
            | cons d after =>
                obtain ⟨lx', hlx', hturn⟩ := turn_separator i rest hlx hc
                  (by rw [hblanks]; exact List.cons_ne_nil d after)
                have hlen := (List.dropWhile_sublist (l := rest)
                  isBlank).length_le
                have hd := List.head?_dropWhile_not isBlank rest
                simp only [hblanks, List.head?_cons] at hlen hd
                rw [rest_advance hturn, drop_takeWhile, hblanks,
                  ih (d :: after).length (by omega) none (Nat.le_refl _)
                    (Nat.zero_le 1) hlx' (.inr (.inr ⟨d, after, rfl, hd⟩))]
                simp
          · obtain ⟨lx', hlx', hturn⟩ := turn_char i rest hlx hbs hq hc
            rw [rest_advance hturn, List.drop_zero,
              assemble_run pending (by simpa using hbs) (by simpa using hq),
              argPieces_char rest hbs hq hc, assemble_text, withRun_getD]
            exact ih rest.length (by omega) (some _) (Nat.le_refl _) ht hlx'
              (.inl rfl)

/-- The loop computes the rule. -/
theorem splitRestWide_eq_arguments (s : Wide) :
    splitRestWide s = arguments s := by
  rw [arguments, words_eq_assemble, assemble_blanks, splitRestWide]
  have hd := List.head?_dropWhile_not isBlank s
  cases hs : s.dropWhile isBlank with
  | nil => simp [argPieces.eq_def]
  | cons c rest =>
      rw [hs] at hd
      have hstart : Reading [] [] 0 0 RestLexer.start := ⟨rfl, rfl, rfl, rfl⟩
      exact scan_argPieces _ none (Nat.le_refl _) (Nat.zero_le 1) hstart
        (.inr (.inr ⟨c, rest, rfl, hd⟩))

/-! ## Every loop head -/

/-- What is true at a loop head: the buffer ends in the run of backslashes
that was counted, and at most one bare quote is counted. -/
def AtHead (lx : RestLexer) : Prop :=
  ∃ out w b total, total ≤ 1 ∧ Reading out w b total lx

/-- One turn goes from loop head to loop head. -/
theorem atHead_turn {lx lx' : RestLexer} {i extra : Nat} {c : UInt16}
    {rest : Wide} (h : AtHead lx)
    (hturn : restTurn lx i c rest = .advance lx' extra) : AtHead lx' := by
  obtain ⟨out, w, b, total, ht, hlx⟩ := h
  have hsame : ∀ {lx'' : RestLexer} {extra' : Nat},
      restTurn lx i c rest = .advance lx'' extra' → lx'' = lx' := by
    intro lx'' extra' heq
    rw [hturn] at heq
    simp_all
  by_cases hbs : c = backslash
  · subst hbs
    obtain ⟨lx'', hlx'', hadv⟩ := turn_backslash i rest hlx
    exact hsame hadv ▸ ⟨_, _, _, _, ht, hlx''⟩
  by_cases hq : c = quote
  · subst hq
    obtain ⟨lx'', hlx'', hadv⟩ := turn_quotes i rest hlx ht
    exact hsame hadv ▸ ⟨_, _, _, _, runTotal_le _ _ ht, hlx''⟩
  by_cases hc : isBlank c = true ∧ total = 0
  · obtain ⟨hc, rfl⟩ := hc
    by_cases hrest : rest.dropWhile isBlank = []
    · rw [turn_last i rest hlx hc hrest] at hturn
      exact nomatch hturn
    · obtain ⟨lx'', hlx'', hadv⟩ := turn_separator i rest hlx hc hrest
      exact hsame hadv ▸ ⟨_, _, _, _, Nat.zero_le 1, hlx''⟩
  · obtain ⟨lx'', hlx'', hadv⟩ := turn_char i rest hlx hbs hq hc
    exact hsame hadv ▸ ⟨_, _, _, _, ht, hlx''⟩

/-- At a loop head both truncations are in bounds. -/
theorem AtHead.bounds {lx : RestLexer} (h : AtHead lx) :
    lx.qcount ≤ 1 ∧ lx.bcount / 2 ≤ lx.buf.length ∧
      (lx.bcount % 2 = 1 → lx.bcount / 2 + 1 ≤ lx.buf.length) := by
  obtain ⟨out, w, b, total, ht, hlx⟩ := h
  have hlen : lx.buf.length = w.length + b := by simp [hlx.buf]
  rw [hlx.qcount, hlx.bcount, hlen]
  refine ⟨ht, ?_, ?_⟩
  · omega
  · omega

/-! ## Blanks at the end -/

/-- The pieces of blanks, while no quote is counted and otherwise. -/
theorem argPieces_blanks {total : Nat} {bs : Wide}
    (h : ∀ c ∈ bs, isBlank c = true) :
    argPieces total bs =
      if total = 0 then List.replicate bs.length none
      else (bs.map fun c => [c]).map some := by
  induction bs with
  | nil => rw [argPieces.eq_def]; simp
  | cons c bs ih =>
      have hc := h c (by simp)
      have hbs := ih fun d hd => h d (by simp [hd])
      have hne : c ≠ backslash ∧ c ≠ quote := by
        constructor <;> (rintro rfl; exact Bool.false_ne_true hc)
      by_cases ht : total = 0
      · subst ht
        rw [argPieces_blank bs hc, hbs]
        simp [List.replicate_succ]
      · rw [argPieces_char bs hne.1 hne.2 (by simp [ht]), hbs]
        simp [ht]

/-- Blanks after a text start no run. -/
private theorem head?_append_blanks {c : UInt16} {s bs : Wide}
    (hs : s.head? ≠ some c) (hc : isBlank c = false)
    (h : ∀ d ∈ bs, isBlank d = true) : (s ++ bs).head? ≠ some c := by
  cases s with
  | cons d s => simpa using hs
  | nil =>
      cases bs with
      | nil => nofun
      | cons d bs =>
          have hd := h d (by simp)
          rintro heq
          obtain rfl : d = c := by simpa using heq
          rw [hd] at hc
          exact nomatch hc

/-- Blanks at the end are read with the count the text before them leaves;
if a quote is counted there, that text ends in an argument. -/
theorem argPieces_append (n : Nat) :
    ∀ {s : Wide} (total : Nat), s.length ≤ n → ∀ {bs : Wide},
      (∀ c ∈ bs, isBlank c = true) → ∃ total',
        argPieces total (s ++ bs) =
          argPieces total s ++ argPieces total' bs ∧
        (total' ≠ 0 → s = [] ∧ total' = total ∨
          ∃ ps t, argPieces total s = ps ++ [some t]) := by
  induction n using Nat.strongRecOn with
  | ind n ih =>
      intro s total hn bs hbs
      -- what comes before the rest of the text does not end the pieces
      have hlater : ∀ {s' : Wide} {total' : Nat} {p : Piece UInt16},
          s'.length < s.length →
          argPieces total (s ++ bs) = p :: argPieces total' (s' ++ bs) →
          argPieces total s = p :: argPieces total' s' →
          (total' ≠ 0 → p.isSome) → ∃ total'',
            argPieces total (s ++ bs) =
              argPieces total s ++ argPieces total'' bs ∧
            (total'' ≠ 0 → s = [] ∧ total'' = total ∨
              ∃ ps t, argPieces total s = ps ++ [some t]) := by
        intro s' total' p hlen happ hself hp
        obtain ⟨total'', hrest, hend⟩ :=
          ih s'.length (by omega) total' (Nat.le_refl _) hbs
        refine ⟨total'', by rw [happ, hself, hrest, List.cons_append], ?_⟩
        intro hne
        refine .inr ?_
        rcases hend hne with ⟨rfl, rfl⟩ | ⟨ps, t, hps⟩
        · obtain ⟨t, rfl⟩ := Option.isSome_iff_exists.mp (hp hne)
          exact ⟨[], t, by rw [hself, argPieces.eq_def]; rfl⟩
        · exact ⟨p :: ps, t, by rw [hself, hps, List.cons_append]⟩
      match s with
      | [] =>
          refine ⟨total, ?_, fun _ => .inl ⟨rfl, rfl⟩⟩
          rw [List.nil_append, argPieces.eq_def total []]
          rfl
      | c :: rest =>
          by_cases hrun : c = backslash ∨ c = quote
          · obtain ⟨n', m, tail, hpos, hsplit, hq, hbackslash⟩ :=
              exists_runs hrun rest
            have htail : (tail ++ bs).head? ≠ some quote :=
              head?_append_blanks hq rfl hbs
            have htail' : m = 0 → (tail ++ bs).head? ≠ some backslash :=
              fun hm => head?_append_blanks (hbackslash hm) rfl hbs
            have happ : argPieces total (c :: rest ++ bs) =
                some (runText total n' m) ::
                  argPieces (runTotal total n' m) (tail ++ bs) := by
              rw [hsplit, List.append_assoc, List.append_assoc]
              exact argPieces_run total hpos htail htail'
            have hself : argPieces total (c :: rest) =
                some (runText total n' m) ::
                  argPieces (runTotal total n' m) tail := by
              rw [hsplit]
              exact argPieces_run total hpos hq hbackslash
            have hlen : tail.length < (c :: rest).length := by
              rw [hsplit]
              simp only [List.length_append, List.length_replicate]
              omega
            exact hlater hlen happ hself fun _ => rfl
          by_cases hc : isBlank c = true ∧ total = 0
          · obtain ⟨hc, rfl⟩ := hc
            exact hlater (by simp) (argPieces_blank (rest ++ bs) hc)
              (argPieces_blank rest hc) (absurd rfl)
          · have hbs : c ≠ backslash := fun h => hrun (.inl h)
            have hq : c ≠ quote := fun h => hrun (.inr h)
            exact hlater (by simp) (argPieces_char (rest ++ bs) hbs hq hc)
              (argPieces_char rest hbs hq hc) fun _ => rfl

/-- Blanks at the end add no argument: they change nothing, or they are inside
open quotes and belong to the last one. -/
theorem arguments_append_blanks (s : Wide) {bs : Wide}
    (h : ∀ c ∈ bs, isBlank c = true) :
    arguments (s ++ bs) = arguments s ∨
      ∃ args last, arguments s = args ++ [last] ∧
        arguments (s ++ bs) = args ++ [last ++ bs] := by
  obtain ⟨total, happ, hend⟩ :=
    argPieces_append _ 0 (Nat.le_refl s.length) h
  unfold arguments
  rw [happ, argPieces_blanks h]
  by_cases ht : total = 0
  · rw [if_pos ht, words_append_separators]
    exact .inl rfl
  · rw [if_neg ht]
    rcases hend ht with ⟨-, h0⟩ | ⟨ps, t, hps⟩
    · exact absurd h0 ht
    · obtain ⟨ws, w, hwords⟩ := words_append_texts ps t
      refine .inr ⟨ws, w, ?_, ?_⟩
      · have hnil := hwords []
        rwa [List.map_nil, List.flatten_nil, List.append_nil, ← hps] at hnil
      · rw [hps, List.append_assoc, List.singleton_append, hwords]
        rw [← List.flatMap_def, List.flatMap_singleton']

/-- `split_rest_wide` computes the rule about runs.  At every head of its loop
at most one bare quote is counted and both truncations are in bounds, every
turn of the loop uses up input, and blanks at the end of the command line add
no argument. -/
theorem splitRestWide_rule (s : Wide) :
    splitRestWide s = arguments s ∧
    (∀ n lx i rest, restSplitter.Visits RestLexer.start 0
        (s.dropWhile isBlank) n lx i rest →
      n + rest.length ≤ s.length ∧ lx.qcount ≤ 1 ∧
      lx.bcount / 2 ≤ lx.buf.length ∧
      (lx.bcount % 2 = 1 → lx.bcount / 2 + 1 ≤ lx.buf.length)) ∧
    (∀ bs : Wide, (∀ c ∈ bs, isBlank c = true) →
      splitRestWide (s ++ bs) = splitRestWide s ∨
        ∃ args last, splitRestWide s = args ++ [last] ∧
          splitRestWide (s ++ bs) = args ++ [last ++ bs]) := by
  refine ⟨splitRestWide_eq_arguments s, ?_, ?_⟩
  · intro n lx i rest hvisit
    have hturns := hvisit.turns_le
    have hlen := (List.dropWhile_sublist (l := s) isBlank).length_le
    have hstart : AtHead RestLexer.start :=
      ⟨[], [], 0, 0, Nat.zero_le 1, rfl, rfl, rfl, rfl⟩
    have hhead : AtHead lx := hvisit.invariant hstart
      fun _ _ _ _ _ _ hlx hturn => atHead_turn (i := 0) hlx hturn
    exact ⟨by omega, hhead.bounds⟩
  · intro bs hbs
    rw [splitRestWide_eq_arguments, splitRestWide_eq_arguments]
    exact arguments_append_blanks s hbs

/-- The quotes of `"a""b"` are counted 1, then 1 + 2 = 3. -/
example : splitRestWide [34, 97, 34, 34, 98, 34] = [[97, 34, 98]] := by
  decide

end Cosca.Ports.WindowsCommandLine
