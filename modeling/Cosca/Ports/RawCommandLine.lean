import Cosca.Ports.CommandRecord
import Cosca.Ports.WindowsRoundTrip

/-!
# The command line of the raw `CreateProcessW` backend

`child/spawn/windows_raw.rs`: the raw backend hands the child a command line
of its own making, `argv[0]` included.  `rawProgramAndLine` writes `argv[0]` by
the rules for the arguments after it, while a child reads its program token
with backslashes literal up to the first quote.

## Main results

* `rawProgramAndLine_argv`: what the raw backend accepts and writes.
* `splitWide_rawProgramAndLine_iff`: the child sees exactly the caller's argv
  if and only if `argv[0]` has no quote and does not both contain a blank and
  end in a backslash.
-/

namespace Cosca.Ports.RawCommandLine

open Cosca.Ports.Errors
open Cosca.Ports.CommandRecord
open Cosca.Ports.WindowsCommandLine

/-- `ensure_no_nul_wide`. -/
def ensureNoNulWide (s : Wide) : Except Error Unit :=
  if s.any (· == 0) then
    .error (.io (.custom .invalidInput
      "environment key or value contains an embedded NUL"))
  else .ok ()

/-- `raw_program_and_line`. -/
def rawProgramAndLine (cmd : Command Wide) : Except Error Wide :=
  match cmd.input with
  | .empty =>
      if cmd.executable.isSome then .ok []
      else .error (.io (.other "no program specified"))
  | .argv argv =>
      if argv.isEmpty && cmd.executable.isNone then
        .error (.io (.other "empty argv"))
      else do
        argv.forM ensureNoNulWide
        return joinWide argv
  | .commandLine line => do
      ensureNoNulWide line
      return line

/-! ## What is accepted -/

/-- The arguments are checked one by one, and the first NUL ends the check. -/
theorem forM_ensureNoNulWide (argv : List Wide)
    (hnul : ∀ a ∈ argv, (0 : UInt16) ∉ a) :
    argv.forM ensureNoNulWide = .ok () := by
  induction argv with
  | nil => rfl
  | cons a argv ih =>
      have ha : ensureNoNulWide a = .ok () := by
        have hany : a.any (· == 0) = false := by
          rw [List.any_eq_false]
          intro u hu h0
          obtain rfl : u = 0 := by simpa using h0
          exact hnul a (by simp) hu
        simp only [ensureNoNulWide, hany, Bool.false_eq_true, if_false]
      have hargv := ih fun b hb => hnul b (by simp [hb])
      show (do ensureNoNulWide a; argv.forM ensureNoNulWide) = .ok ()
      rw [ha, hargv]
      rfl

/-- A NUL-free argv behind an `executable()` is accepted, and its line is that
of `join_wide`. -/
theorem rawProgramAndLine_argv (cmd : Command Wide) (argv : List Wide)
    (hinput : cmd.input = .argv argv) (hexe : cmd.executable.isSome = true)
    (hnul : ∀ a ∈ argv, (0 : UInt16) ∉ a) :
    rawProgramAndLine cmd = .ok (joinWide argv) := by
  have hcheck := forM_ensureNoNulWide argv hnul
  have hset : cmd.executable.isNone = false := by
    cases h : cmd.executable with
    | none => rw [h] at hexe; exact absurd hexe Bool.false_ne_true
    | some exe => rfl
  simp only [rawProgramAndLine, hinput, hset, Bool.and_false,
    Bool.false_eq_true, if_false, hcheck]
  rfl

/-! ## The program token of the encoded line -/

/-- What follows `argv[0]` on the line. -/
def restOfLine (args : List Wide) : Wide :=
  args.flatMap fun arg => space :: encoded arg

theorem restOfLine_atSeparator (args : List Wide) :
    AtSeparator (restOfLine args) := by
  cases args with
  | nil => exact .inl rfl
  | cons arg args => exact .inr rfl

theorem splitRestWide_restOfLine (args : List Wide) :
    splitRestWide ((restOfLine args).dropWhile isBlank) = args := by
  rw [splitRestWide_dropWhile]
  cases args with
  | nil => rfl
  | cons arg args =>
      have hjoin := splitRestWide_joinWide (arg :: args)
      rw [joinWide_cons] at hjoin
      exact hjoin

/-- A quoted program token ends at the next quote, whatever stands before
it. -/
theorem firstTokenAndRestWide_quoted (w rest : Wide) :
    firstTokenAndRestWide (quote :: w ++ quote :: rest) =
      some ((w ++ quote :: rest).takeWhile (· != quote),
        (((w ++ quote :: rest).dropWhile (· != quote)).drop 1).dropWhile
          isBlank) := rfl

/-- Units without a quote are written as they are. -/
theorem units_of_noQuote (xs : Wide) : ∀ b : Nat, quote ∉ xs →
    units b xs = xs := by
  induction xs with
  | nil =>
      intro b _
      rfl
  | cons x xs ih =>
      intro b hq
      have hx : (x == quote) = false := by
        simp only [beq_eq_false_iff_ne]
        exact fun h => hq (by simp [h])
      simp only [units, unit, hx, Bool.false_eq_true, if_false,
        List.singleton_append, ih _ fun h => hq (by simp [h])]

/-- Every quote makes the encoding longer. -/
theorem length_units (xs : Wide) : ∀ b : Nat,
    xs.length + xs.count quote ≤ (units b xs).length := by
  induction xs with
  | nil =>
      intro b
      exact Nat.le_refl _
  | cons x xs ih =>
      intro b
      have htail := ih (nextRun b x)
      by_cases hx : x = quote
      · subst hx
        simp only [units, unit, beq_self_eq_true, if_true,
          List.length_append, List.length_replicate, List.length_cons,
          List.length_nil, List.count_cons_self]
        omega
      · simp only [units, unit, beq_iff_eq, hx, if_false,
          List.length_append, List.length_cons, List.length_nil,
          List.count_cons, Nat.add_zero]
        omega

/-- The encoding equals the argument only when there is no quote in it. -/
theorem noQuote_of_units_eq (xs : Wide) (h : units 0 xs = xs) :
    quote ∉ xs := by
  intro hq
  have hlen := length_units xs 0
  have hpos : 0 < xs.count quote := List.count_pos_iff.mpr hq
  rw [h] at hlen
  omega

/-- The encoder's counter ends above zero exactly on a trailing
backslash. -/
theorem runAfter_pos_iff (xs : Wide) :
    0 < runAfter 0 xs ↔ xs.getLast? = some backslash := by
  rcases List.eq_nil_or_concat xs with rfl | ⟨init, x, rfl⟩
  · simp [runAfter]
  · rw [List.concat_eq_append, runAfter_append, List.getLast?_concat]
    by_cases hx : x = backslash
    · subst hx
      simp [runAfter, nextRun]
    · simp [runAfter, nextRun, hx]

/-- The units before the first quote hold none. -/
theorem noQuote_takeWhile (w : Wide) :
    quote ∉ w.takeWhile (· != quote) := by
  intro h
  have hne := List.mem_takeWhile_imp (p := fun x => x != quote) h
  rw [bne_self_eq_false] at hne
  exact Bool.false_ne_true hne

/-! ## The condition on `argv[0]` -/

/-- `argv[0]` survives: no quote in it, and not both a blank, which makes the
encoder quote it, and a trailing backslash, which it then doubles. -/
def SurvivesAsProgram (arg : Wide) : Prop :=
  quote ∉ arg ∧
    ¬ ((∃ c ∈ arg, isBlank c = true) ∧ arg.getLast? = some backslash)

theorem encoded_of_needsQuotes {arg : Wide} (h : needsQuotes arg = true)
    (rest : Wide) : encoded arg ++ rest =
      quote :: (units 0 arg ++ List.replicate (runAfter 0 arg) backslash) ++
        quote :: rest := by
  simp only [encoded, h, if_true, List.append_assoc, List.cons_append,
    List.nil_append]

theorem encoded_of_plain {arg : Wide} (h : ¬ needsQuotes arg = true) :
    encoded arg = units 0 arg := by
  simp only [encoded, h, Bool.false_eq_true, if_false]

/-- An argument that is not quoted is not empty and has no blank. -/
theorem noBlank_of_plain {arg : Wide} (h : ¬ needsQuotes arg = true) :
    arg ≠ [] ∧ ∀ c ∈ arg, isBlank c = false := by
  simpa [needsQuotes] using h

/-- The units of an argument without blanks have none either. -/
theorem noBlank_units (xs : Wide) : ∀ b : Nat,
    (∀ c ∈ xs, isBlank c = false) → ∀ c ∈ units b xs, isBlank c = false := by
  induction xs with
  | nil =>
      intro b _ c hc
      exact absurd hc List.not_mem_nil
  | cons x xs ih =>
      intro b hplain c hc
      rcases List.mem_append.mp hc with hc | hc
      · unfold unit at hc
        split at hc
        · rcases List.mem_append.mp hc with hc | hc
          · obtain rfl := (List.mem_replicate.mp hc).2
            rfl
          · obtain rfl := List.mem_singleton.mp hc
            exact hplain c (by simp)
        · obtain rfl := List.mem_singleton.mp hc
          exact hplain c (by simp)
      · exact ih _ (fun y hy => hplain y (by simp [hy])) c hc

/-- The token of an argument that is not quoted is its encoding. -/
theorem firstToken_of_plain {arg : Wide} (h : ¬ needsQuotes arg = true)
    (rest : Wide) (hsep : AtSeparator rest) :
    firstTokenAndRestWide (encoded arg ++ rest) =
      some (units 0 arg, rest.dropWhile isBlank) := by
  obtain ⟨hne, hplain⟩ := noBlank_of_plain h
  have hunits := noBlank_units arg 0 hplain
  have hhead : NotQuote (units 0 arg ++ []) :=
    notQuote_units 0 arg fun h => nomatch h
  rw [List.append_nil] at hhead
  rw [encoded_of_plain h]
  cases hcs : units 0 arg with
  | nil =>
      obtain ⟨c, cs, rfl⟩ := List.exists_cons_of_ne_nil hne
      have hlen := length_units (c :: cs) 0
      rw [hcs] at hlen
      simp only [List.length_cons, List.length_nil] at hlen
      omega
  | cons c cs =>
      rw [hcs] at hhead hunits
      have hc : c ≠ quote := by
        simpa [NotQuote] using hhead
      exact firstTokenAndRestWide_plain (c :: cs) rest c rfl hc hunits hsep

/-- A surviving `argv[0]` is read back, with the rest of the line behind
it. -/
theorem firstToken_of_survives {arg : Wide} (h : SurvivesAsProgram arg)
    (rest : Wide) (hsep : AtSeparator rest) :
    firstTokenAndRestWide (encoded arg ++ rest) =
      some (arg, rest.dropWhile isBlank) := by
  have hunits := units_of_noQuote arg 0 h.1
  by_cases hq : needsQuotes arg = true
  · have hrun : runAfter 0 arg = 0 := by
      by_contra hpos
      have hlast := (runAfter_pos_iff arg).mp (Nat.pos_of_ne_zero hpos)
      refine h.2 ⟨?_, hlast⟩
      simp only [needsQuotes, Bool.or_eq_true, List.any_eq_true] at hq
      rcases hq with hempty | hblank
      · obtain rfl : arg = [] := by simpa using hempty
        exact absurd hlast (by simp)
      · exact hblank
    have hall : ∀ c ∈ arg, (c != quote) = true := by
      intro c hc
      simp only [bne_iff_ne]
      exact fun heq => h.1 (heq ▸ hc)
    rw [encoded_of_needsQuotes hq, firstTokenAndRestWide_quoted, hunits, hrun,
      List.replicate_zero, List.append_nil,
      List.takeWhile_append_of_pos hall, List.dropWhile_append_of_pos hall]
    simp
  · rw [firstToken_of_plain hq rest hsep, hunits]

/-- An `argv[0]` that is read back survives. -/
theorem survives_of_firstToken {arg rest after : Wide}
    (hsep : AtSeparator rest)
    (h : firstTokenAndRestWide (encoded arg ++ rest) = some (arg, after)) :
    SurvivesAsProgram arg := by
  by_cases hq : needsQuotes arg = true
  · rw [encoded_of_needsQuotes hq, firstTokenAndRestWide_quoted] at h
    have htoken := congrArg Prod.fst (Option.some.inj h)
    simp only at htoken
    have hnoquote : quote ∉ arg := by
      rw [← htoken]
      exact noQuote_takeWhile _
    refine ⟨hnoquote, fun ⟨_, hlast⟩ => ?_⟩
    -- the doubled run would make the token longer than `argv[0]`
    have hpos := (runAfter_pos_iff arg).mpr hlast
    have hall : ∀ c ∈ arg ++ List.replicate (runAfter 0 arg) backslash,
        (c != quote) = true := by
      intro c hc
      simp only [bne_iff_ne]
      rintro rfl
      rcases List.mem_append.mp hc with hc | hc
      · exact hnoquote hc
      · exact absurd (List.mem_replicate.mp hc).2 (by decide)
    rw [units_of_noQuote arg 0 hnoquote,
      List.takeWhile_append_of_pos hall] at htoken
    have hlen := congrArg List.length htoken
    simp only [List.length_append, List.length_replicate] at hlen
    omega
  · rw [firstToken_of_plain hq rest hsep] at h
    have htoken := congrArg Prod.fst (Option.some.inj h)
    refine ⟨noQuote_of_units_eq arg htoken, fun ⟨⟨c, hc, hblank⟩, _⟩ => ?_⟩
    rw [(noBlank_of_plain hq).2 c hc] at hblank
    exact Bool.false_ne_true hblank

/-! ## The whole line -/

/-- The child that parses its line by the rules of `split_wide` sees exactly
the caller's argv if and only if `argv[0]` survives. -/
theorem splitWide_rawProgramAndLine_iff (cmd : Command Wide) (arg : Wide)
    (args : List Wide) (hinput : cmd.input = .argv (arg :: args))
    (hexe : cmd.executable.isSome = true)
    (hnul : ∀ a ∈ arg :: args, (0 : UInt16) ∉ a) :
    ∃ line, rawProgramAndLine cmd = .ok line ∧
      (splitWide line = .ok (arg :: args) ↔ SurvivesAsProgram arg) := by
  refine ⟨_, rawProgramAndLine_argv cmd _ hinput hexe hnul, ?_⟩
  have hline : joinWide (arg :: args) = encoded arg ++ restOfLine args :=
    joinWide_cons arg args
  have hsep := restOfLine_atSeparator args
  rw [hline]
  constructor
  · intro h
    unfold splitWide at h
    cases hfirst : firstTokenAndRestWide (encoded arg ++ restOfLine args) with
    | none =>
        rw [hfirst] at h
        exact absurd (Except.ok.inj h) (by simp)
    | some found =>
        obtain ⟨first, after⟩ := found
        rw [hfirst] at h
        obtain rfl : first = arg := (List.cons.inj (Except.ok.inj h)).1
        exact survives_of_firstToken hsep hfirst
  · intro h
    unfold splitWide
    rw [firstToken_of_survives h _ hsep]
    simp only [splitRestWide_restOfLine, List.singleton_append]

/-- `argv = ["a b", "c"]` behind an `executable()`. -/
theorem splitWide_rawProgramAndLine_blank :
    ∃ line, rawProgramAndLine { Command.default with
        input := .argv [[97, space, 98], [99]], executable := some [101] } =
          .ok line ∧
      (splitWide line = .ok [[97, space, 98], [99]] ↔
        SurvivesAsProgram [97, space, 98]) := by
  refine splitWide_rawProgramAndLine_iff _ [97, space, 98] [[99]] rfl rfl ?_
  intro a ha
  rcases List.mem_cons.mp ha with rfl | ha
  · decide
  · obtain rfl := List.mem_singleton.mp ha
    decide

/-- `argv = ["a\"b"]`: the escaping backslash becomes part of the name the
child sees. -/
theorem splitWide_rawProgramAndLine_quote :
    ∃ line, rawProgramAndLine { Command.default with
        input := .argv [[97, quote, 98]], executable := some [101] } =
          .ok line ∧
      splitWide line = .ok [[97, backslash, quote, 98]] ∧
      splitWide line ≠ .ok [[97, quote, 98]] := by
  refine ⟨[97, backslash, quote, 98], rfl, rfl, fun h => ?_⟩
  have hargv : [[97, backslash, quote, 98]] = [[97, quote, 98]] :=
    Except.ok.inj h
  exact absurd hargv (by decide)

end Cosca.Ports.RawCommandLine
