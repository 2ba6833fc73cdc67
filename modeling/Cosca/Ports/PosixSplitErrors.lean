import Cosca.Ports.PosixGrammar

/-!
# When a POSIX command line is refused

A text is read item by item, and every item starts outside quotes or inside
some that were opened at a known offset (`Boundary`).  The two things `split`
refuses are stated with that: a last byte that is a backslash and starts an
item outside single quotes, and a quote whose kind starts no later item of the
text it opens.  The loop passes every boundary (`Boundary.passed`), from one
boundary there is always a next one (`Boundary.next`), and so the end of the
text tells what `split` returns.
-/

namespace Cosca.Ports.PosixSplit

open Cosca.Ports.Errors
open Cosca.Verified.Scan
open Cosca.Verified.Words

/-! ## Items and where they start -/

/-- Where an item starts: outside quotes, or inside those opened at an
offset. -/
inductive Context where
  | bare
  | quoted (k : Quote) (opened : Nat)
  deriving DecidableEq, Repr

/-- Inside single quotes, where a backslash is a byte like any other. -/
def Context.literal : Context → Prop
  | .quoted .single _ => True
  | _ => False

/-- `Boundary s ctx i`: an item of `s` starts at `i`, or `s` ends there. -/
inductive Boundary (s : Bytes) : Context → Nat → Prop
  | start : Boundary s .bare 0
  | plain {i : Nat} {c : UInt8} (h : Boundary s .bare i)
      (hc : s[i]? = some c) (hbs : c ≠ backslash) (hsq : c ≠ singleQuote)
      (hdq : c ≠ doubleQuote) : Boundary s .bare (i + 1)
  | escape {i : Nat} {d : UInt8} (h : Boundary s .bare i)
      (hc : s[i]? = some backslash) (hd : s[i + 1]? = some d)
      (hend : lineEnd (s.drop (i + 1)) = 0) : Boundary s .bare (i + 2)
  | continuation {ctx : Context} {i : Nat} (h : Boundary s ctx i)
      (hctx : ¬ctx.literal) (hc : s[i]? = some backslash)
      (hend : 0 < lineEnd (s.drop (i + 1))) :
      Boundary s ctx (i + 1 + lineEnd (s.drop (i + 1)))
  | opening {i : Nat} (k : Quote) (h : Boundary s .bare i)
      (hc : s[i]? = some k.byte) : Boundary s (.quoted k i) (i + 1)
  | closing {k : Quote} {q i : Nat} (h : Boundary s (.quoted k q) i)
      (hc : s[i]? = some k.byte) : Boundary s .bare (i + 1)
  | verbatim {k : Quote} {q i : Nat} {c : UInt8}
      (h : Boundary s (.quoted k q) i) (hc : s[i]? = some c)
      (hq : c ≠ k.byte) (hbs : k = .double → c ≠ backslash) :
      Boundary s (.quoted k q) (i + 1)
  | quotedEscape {q i : Nat} {d : UInt8}
      (h : Boundary s (.quoted .double q) i) (hc : s[i]? = some backslash)
      (hd : s[i + 1]? = some d) (hend : lineEnd (s.drop (i + 1)) = 0)
      (hesc : d ∈ escapable) : Boundary s (.quoted .double q) (i + 2)
  | quotedBackslash {q i : Nat} {d : UInt8}
      (h : Boundary s (.quoted .double q) i) (hc : s[i]? = some backslash)
      (hd : s[i + 1]? = some d) (hend : lineEnd (s.drop (i + 1)) = 0)
      (hesc : d ∉ escapable) : Boundary s (.quoted .double q) (i + 1)

/-- The last byte is a backslash outside single quotes that no earlier escape
consumes. -/
def TrailingBackslash (s : Bytes) : Prop :=
  s.getLast? = some backslash ∧
    ∃ ctx, ¬ctx.literal ∧ Boundary s ctx (s.length - 1)

/-- A quote of kind `k` is opened at `pos`, and no item inside it closes
it. -/
structure NeverClosed (s : Bytes) (k : Quote) (pos : Nat) : Prop where
  outside : Boundary s .bare pos
  byte : s[pos]? = some k.byte
  open_ : ∀ i, Boundary s (.quoted k pos) i → s[i]? ≠ some k.byte

/-! ## The loop passes every boundary -/

/-- The state machine stands in a context. -/
def Context.Stands : Context → Lexer → Prop
  | .bare => fun lx => ∃ out pending, Outside out pending lx
  | .quoted k q => fun lx => ∃ out w, Quoted k q out w lx

variable {s : Bytes}

private theorem drop_of_getElem? {i : Nat} {c : UInt8}
    (h : s[i]? = some c) : i < s.length ∧ s.drop i = c :: s.drop (i + 1) := by
  obtain ⟨hi, rfl⟩ := List.getElem?_eq_some_iff.mp h
  exact ⟨hi, List.drop_eq_getElem_cons hi⟩

/-- A byte that starts no line ending starts none for the lexer. -/
private theorem noContinuation {i : Nat} {d : UInt8} (hd : s[i + 1]? = some d)
    (hend : lineEnd (s.drop (i + 1)) = 0) :
    lineContinuation (d :: s.drop (i + 1 + 1)) = none := by
  rw [← (drop_of_getElem? hd).2, lineContinuation_eq, hend]
  rfl

/-- `split s` is what the loop still computes when it is at `i`, in the
context `ctx`. -/
def Passed (s : Bytes) (ctx : Context) (i : Nat) : Prop :=
  i ≤ s.length ∧
    ∃ lx, ctx.Stands lx ∧ split s = splitter.scan lx i (s.drop i)

/-- From a boundary the loop has passed it goes on to the next one. -/
private theorem Passed.advance {ctx ctx' : Context} {i : Nat} {c : UInt8}
    (extra : Nat) (h : Passed s ctx i) (hc : s[i]? = some c)
    (hlen : i + 1 + extra ≤ s.length)
    (hturn : ∀ lx, ctx.Stands lx → ∃ lx', ctx'.Stands lx' ∧
      splitTurn lx i c (s.drop (i + 1)) = .advance lx' extra) :
    Passed s ctx' (i + 1 + extra) := by
  obtain ⟨-, lx, hlx, hsplit⟩ := h
  obtain ⟨lx', hlx', hadv⟩ := hturn lx hlx
  refine ⟨hlen, lx', hlx', ?_⟩
  rw [hsplit, (drop_of_getElem? hc).2, scan_advance hadv, List.drop_drop]

/-- The loop passes every boundary. -/
theorem Boundary.passed {ctx : Context} {i : Nat} (h : Boundary s ctx i) :
    Passed s ctx i := by
  induction h with
  | start => exact ⟨Nat.zero_le _, Lexer.start, ⟨[], none, Fresh.start⟩, rfl⟩
  | @plain i c _ hc hbs hsq hdq ih =>
      refine ih.advance 0 hc (drop_of_getElem? hc).1 fun lx hlx => ?_
      obtain ⟨out, pending, hlx⟩ := hlx
      by_cases hws : isWs c = true
      · obtain ⟨lx', hlx', hturn⟩ := turn_blank _ _ hlx hws
        exact ⟨lx', ⟨_, none, hlx'⟩, hturn⟩
      · obtain ⟨lx', hlx', hturn⟩ :=
          turn_ordinary _ _ hlx (by simpa using hws) hbs hsq hdq
        exact ⟨lx', ⟨_, _, hlx'⟩, hturn⟩
  | @escape i d _ hc hd hend ih =>
      obtain ⟨hlen, hdrop⟩ := drop_of_getElem? hd
      refine ih.advance 1 hc (by omega) fun lx hlx => ?_
      obtain ⟨out, pending, hlx⟩ := hlx
      have hline := noContinuation hd hend
      obtain ⟨lx', hlx', hturn⟩ := turn_escape i hlx hline
      exact ⟨lx', ⟨_, _, hlx'⟩, by rw [hdrop, hturn]⟩
  | @continuation ctx i _ hctx hc hend ih =>
      have hle := lineEnd_le (s.drop (i + 1))
      have hlen := (drop_of_getElem? hc).1
      rw [List.length_drop] at hle
      refine ih.advance _ hc (by omega) fun lx hlx => ?_
      have hline := lineContinuation_eq (s.drop (i + 1))
      rw [if_pos hend] at hline
      match ctx, hctx, hlx with
      | .bare, _, ⟨out, pending, hlx⟩ =>
          obtain ⟨lx', hlx', hturn⟩ := turn_continuation i _ hlx hline
          exact ⟨lx', ⟨_, _, hlx'⟩, hturn⟩
      | .quoted .double q, _, ⟨out, w, hlx⟩ =>
          obtain ⟨lx', hlx', hturn⟩ :=
            turn_doubleQuote_continuation i _ hlx hline
          exact ⟨lx', ⟨_, _, hlx'⟩, hturn⟩
      | .quoted .single q, hctx, _ => exact absurd trivial hctx
  | opening k _ hc ih =>
      refine ih.advance 0 hc (drop_of_getElem? hc).1 fun lx hlx => ?_
      obtain ⟨out, pending, hlx⟩ := hlx
      obtain ⟨lx', hlx', hturn⟩ := turn_open _ _ k hlx
      exact ⟨lx', ⟨_, _, hlx'⟩, hturn⟩
  | closing _ hc ih =>
      refine ih.advance 0 hc (drop_of_getElem? hc).1 fun lx hlx => ?_
      obtain ⟨out, w, hlx⟩ := hlx
      obtain ⟨lx', hlx', hturn⟩ := turn_close _ _ hlx
      exact ⟨lx', ⟨_, some w, hlx'⟩, hturn⟩
  | verbatim _ hc hq hbs ih =>
      refine ih.advance 0 hc (drop_of_getElem? hc).1 fun lx hlx => ?_
      obtain ⟨out, w, hlx⟩ := hlx
      obtain ⟨lx', hlx', hturn⟩ := turn_literal _ _ hlx hq hbs
      exact ⟨lx', ⟨_, _, hlx'⟩, hturn⟩
  | @quotedEscape q i d _ hc hd hend hesc ih =>
      obtain ⟨hlen, hdrop⟩ := drop_of_getElem? hd
      refine ih.advance 1 hc (by omega) fun lx hlx => ?_
      obtain ⟨out, w, hlx⟩ := hlx
      have hline := noContinuation hd hend
      obtain ⟨lx', hlx', hturn⟩ :=
        turn_doubleQuote_escape i hlx hline hesc
      exact ⟨lx', ⟨_, _, hlx'⟩, by rw [hdrop, hturn]⟩
  | @quotedBackslash q i d _ hc hd hend hesc ih =>
      obtain ⟨hlen, hdrop⟩ := drop_of_getElem? hd
      refine ih.advance 0 hc (by omega) fun lx hlx => ?_
      obtain ⟨out, w, hlx⟩ := hlx
      have hline := noContinuation hd hend
      obtain ⟨lx', hlx', hturn⟩ :=
        turn_doubleQuote_backslash i hlx hline hesc
      exact ⟨lx', ⟨_, _, hlx'⟩, by rw [hdrop, hturn]⟩

/-! ## There is always a next boundary -/

/-- How the context changes over an item at `i`: quotes are left where they
are closed only, and those that are entered were opened at `i`. -/
structure Follows (s : Bytes) (ctx : Context) (i : Nat) (ctx' : Context) :
    Prop where
  kept : ∀ k q, ctx = .quoted k q → s[i]? ≠ some k.byte → ctx' = ctx
  opened : ∀ k q, ctx' = .quoted k q → ctx' = ctx ∨ q = i

theorem Follows.refl (ctx : Context) (i : Nat) : Follows s ctx i ctx :=
  ⟨fun _ _ _ _ => rfl, fun _ _ _ => .inl rfl⟩

theorem Follows.open (k : Quote) (i : Nat) :
    Follows s .bare i (.quoted k i) :=
  ⟨nofun, by rintro k' q heq; exact .inr (by simp_all)⟩

theorem Follows.close {k : Quote} {q i : Nat} (h : s[i]? = some k.byte) :
    Follows s (.quoted k q) i .bare := by
  refine ⟨?_, nofun⟩
  rintro k' q' heq hne
  obtain ⟨rfl, -⟩ : k = k' ∧ q = q' := by simpa using heq
  exact absurd h hne

/-- From a boundary inside the text there is a later one, or a trailing
backslash is next. -/
theorem Boundary.next {ctx : Context} {i : Nat} (h : Boundary s ctx i)
    (hi : i < s.length) :
    (∃ ctx' j, i < j ∧ Boundary s ctx' j ∧ Follows s ctx i ctx') ∨
    TrailingBackslash s := by
  obtain ⟨c, hc⟩ : ∃ c, s[i]? = some c := ⟨s[i], List.getElem?_eq_getElem hi⟩
  -- outside single quotes a backslash needs what comes after it
  have hbackslash : c = backslash → ¬ctx.literal →
      (∃ d, s[i + 1]? = some d) ∨ TrailingBackslash s := by
    rintro rfl hctx
    by_cases hlast : i + 1 < s.length
    · exact .inl ⟨s[i + 1], List.getElem?_eq_getElem hlast⟩
    · obtain rfl : i = s.length - 1 := by omega
      refine .inr ⟨?_, ctx, hctx, h⟩
      rw [List.getLast?_eq_getElem?, hc]
  match ctx, h, hbackslash with
  | .bare, h, hbackslash =>
      by_cases hbs : c = backslash
      · rcases hbackslash hbs id with ⟨d, hd⟩ | htrail
        · rw [hbs] at hc
          refine .inl ?_
          by_cases hend : 0 < lineEnd (s.drop (i + 1))
          · exact ⟨_, _, by omega, h.continuation id hc hend, .refl _ _⟩
          · exact ⟨_, i + 2, by omega, h.escape hc hd (by omega), .refl _ _⟩
        · exact .inr htrail
      · refine .inl ?_
        by_cases hsq : c = singleQuote
        · exact ⟨_, i + 1, by omega, h.opening .single (by rw [hc, hsq]; rfl),
            .open _ _⟩
        · by_cases hdq : c = doubleQuote
          · exact ⟨_, i + 1, by omega,
              h.opening .double (by rw [hc, hdq]; rfl), .open _ _⟩
          · exact ⟨_, i + 1, by omega, h.plain hc hbs hsq hdq, .refl _ _⟩
  | .quoted k q, h, hbackslash =>
      by_cases hclose : c = k.byte
      · rw [hclose] at hc
        exact .inl ⟨_, i + 1, by omega, h.closing hc, .close hc⟩
      · by_cases hbs : k = .double ∧ c = backslash
        · obtain ⟨rfl, hbs⟩ := hbs
          rcases hbackslash hbs id with ⟨d, hd⟩ | htrail
          · rw [hbs] at hc
            refine .inl ?_
            by_cases hend : 0 < lineEnd (s.drop (i + 1))
            · exact ⟨_, _, by omega, h.continuation id hc hend, .refl _ _⟩
            · by_cases hesc : d ∈ escapable
              · exact ⟨_, i + 2, by omega,
                  h.quotedEscape hc hd (by omega) hesc, .refl _ _⟩
              · exact ⟨_, i + 1, by omega,
                  h.quotedBackslash hc hd (by omega) hesc, .refl _ _⟩
          · exact .inr htrail
        · exact .inl ⟨_, i + 1, by omega,
            h.verbatim hc hclose fun hk hb => hbs ⟨hk, hb⟩, .refl _ _⟩

/-- What holds at a boundary and is kept from one to the next holds at the end
of a text without a trailing backslash. -/
theorem Boundary.run {P : Context → Nat → Prop}
    (hstep : ∀ ctx i ctx' j, Boundary s ctx i → P ctx i → i < j →
      Follows s ctx i ctx' → P ctx' j)
    (hno : ¬TrailingBackslash s) (n : Nat) :
    ∀ {ctx : Context} {i : Nat}, s.length - i ≤ n → Boundary s ctx i →
      P ctx i → ∃ ctx', Boundary s ctx' s.length ∧ P ctx' s.length := by
  induction n with
  | zero =>
      intro ctx i hn h hP
      have hle := h.passed.1
      obtain rfl : i = s.length := by omega
      exact ⟨ctx, h, hP⟩
  | succ n ih =>
      intro ctx i hn h hP
      by_cases hi : i < s.length
      · rcases h.next hi with ⟨ctx', j, hij, hj, hfollows⟩ | htrail
        · exact ih (by omega) hj (hstep ctx i ctx' j h hP hij hfollows)
        · exact absurd htrail hno
      · have hle := h.passed.1
        obtain rfl : i = s.length := by omega
        exact ⟨ctx, h, hP⟩

/-! ## What the end of the text tells -/

theorem Boundary.split_bare (h : Boundary s .bare s.length) :
    ∃ ws, split s = .ok ws := by
  obtain ⟨-, lx, ⟨out, pending, hlx⟩, hsplit⟩ := h.passed
  rw [hsplit, List.drop_length, Scanner.scan_nil]
  refine ⟨(emit lx).out, ?_⟩
  cases pending with
  | none => simp only [splitter, splitFinish, hlx.state]
  | some w => simp only [splitter, splitFinish, hlx.state]

theorem Boundary.split_quoted {k : Quote} {q : Nat}
    (h : Boundary s (.quoted k q) s.length) :
    split s = .error ⟨q, k.error⟩ := by
  obtain ⟨-, lx, ⟨out, w, hlx⟩, hsplit⟩ := h.passed
  rw [hsplit, List.drop_length, Scanner.scan_nil]
  simp only [splitter, splitFinish, hlx.state, hlx.opened]
  cases k <;> rfl

theorem TrailingBackslash.split (h : TrailingBackslash s) :
    0 < s.length ∧
      split s = .error ⟨s.length - 1, .trailingBackslash⟩ := by
  obtain ⟨hlast, ctx, hctx, hb⟩ := h
  obtain ⟨-, lx, hlx, hsplit⟩ := hb.passed
  rw [List.getLast?_eq_getElem?] at hlast
  obtain ⟨hlen, hdrop⟩ := drop_of_getElem? hlast
  refine ⟨by omega, ?_⟩
  have hend : s.drop (s.length - 1 + 1) = [] :=
    List.drop_eq_nil_of_le (by omega)
  rw [hsplit, hdrop, hend]
  match ctx, hctx, hlx with
  | .bare, _, ⟨out, pending, hlx⟩ => exact scan_exit (turn_trailing _ hlx)
  | .quoted .double q, _, ⟨out, w, hlx⟩ =>
      exact scan_exit (turn_doubleQuote_trailing _ hlx)
  | .quoted .single q, hctx, _ => exact absurd trivial hctx

/-- Quotes are opened outside quotes, by their byte. -/
theorem Boundary.opened {ctx : Context} {i : Nat} (h : Boundary s ctx i) :
    ∀ k q, ctx = .quoted k q →
      q < i ∧ Boundary s .bare q ∧ s[q]? = some k.byte := by
  induction h with
  | start | plain | escape | closing => exact nofun
  | continuation _ _ _ _ ih =>
      intro k q hctx
      obtain ⟨hq, hb⟩ := ih k q hctx
      exact ⟨by omega, hb⟩
  | opening k h hc _ =>
      rintro k' q heq
      obtain ⟨rfl, rfl⟩ : k = k' ∧ _ = q := by simpa using heq
      exact ⟨by omega, h, hc⟩
  | verbatim _ _ _ _ ih
  | quotedEscape _ _ _ _ _ ih
  | quotedBackslash _ _ _ _ _ ih =>
      intro k q hctx
      obtain ⟨hq, hb⟩ := ih k q hctx
      exact ⟨by omega, hb⟩

/-- A quote is never closed exactly if the text ends inside it. -/
theorem neverClosed_iff (k : Quote) (pos : Nat) :
    ¬TrailingBackslash s ∧ NeverClosed s k pos ↔
      Boundary s (.quoted k pos) s.length := by
  constructor
  · rintro ⟨hno, hopen⟩
    have hfirst := hopen.outside.opening k hopen.byte
    obtain ⟨ctx, hctx, rfl⟩ := Boundary.run
      (P := fun ctx _ => ctx = .quoted k pos)
      (fun ctx i ctx' j hb hP _ hfollows => by
        subst hP
        exact hfollows.kept k pos rfl (hopen.open_ i hb))
      hno s.length (by omega) hfirst rfl
    exact hctx
  · intro h
    have hsplit := h.split_quoted
    have hno : ¬TrailingBackslash s := by
      intro htrail
      have := htrail.split.2
      rw [hsplit] at this
      cases k <;> simp [Quote.error] at this
    obtain ⟨-, hb, hbyte⟩ := h.opened k pos rfl
    refine ⟨hno, hb, hbyte, ?_⟩
    intro i hi hclose
    -- a closed quote leaves later quotes only, and those start later
    obtain ⟨hlt, -, -⟩ := hi.opened k pos rfl
    obtain ⟨ctx, hctx, -, hlater⟩ := Boundary.run
      (P := fun ctx j => i < j ∧ ∀ k q, ctx = .quoted k q → i < q)
      (fun ctx i' ctx' j hb hP hij hfollows => by
        refine ⟨by omega, ?_⟩
        intro k' q' hq'
        rcases hfollows.opened k' q' hq' with rfl | rfl
        · exact hP.2 k' q' hq'
        · exact hP.1)
      hno s.length (by omega) (hi.closing hclose) ⟨by omega, nofun⟩
    match ctx, hctx, hlater with
    | .bare, hctx, _ =>
        obtain ⟨ws, hok⟩ := hctx.split_bare
        rw [hsplit] at hok
        exact nomatch hok
    | .quoted k' q', hctx, hlater =>
        have hq' := hlater k' q' rfl
        have herr := hctx.split_quoted
        rw [hsplit] at herr
        have : pos = q' := by simp_all
        omega

/-! ## The text before an opening quote -/

theorem lineEnd_take {t : Bytes} {m : Nat} (h : lineEnd t ≤ m) :
    lineEnd (t.take m) = lineEnd t := by
  match t, m with
  | [], m => simp
  | c :: t, 0 =>
      have hzero : lineEnd (c :: t) = 0 := by omega
      rw [hzero]
      rfl
  | [c], m + 1 => simp
  | c :: d :: t, 1 =>
      by_cases hlf : c = lf
      · simp [lineEnd, hlf]
      · by_cases hcr : c = cr ∧ d = lf
        · simp +decide [lineEnd, hcr] at h
        · simp_all [lineEnd]
  | c :: d :: t, m + 2 => simp [lineEnd]

/-- What comes before a boundary outside quotes is read the same way without
what comes after it. -/
theorem Boundary.take {ctx : Context} {i : Nat} (h : Boundary s ctx i) :
    ∀ n, (i < n ∨ i = n ∧ ctx = .bare) → Boundary (s.take n) ctx i := by
  have hget : ∀ {n i : Nat} {c : UInt8}, i < n → s[i]? = some c →
      (s.take n)[i]? = some c := by
    intro n i c hin hc
    rw [List.getElem?_take_of_lt hin, hc]
  have hline : ∀ {n i : Nat}, i + 1 + lineEnd (s.drop (i + 1)) ≤ n →
      lineEnd ((s.take n).drop (i + 1)) = lineEnd (s.drop (i + 1)) := by
    intro n i hin
    rw [List.drop_take, lineEnd_take (by omega)]
  induction h with
  | start => exact fun n _ => .start
  | plain _ hc hbs hsq hdq ih =>
      intro n hn
      exact (ih n (by omega)).plain (hget (by omega) hc) hbs hsq hdq
  | escape _ hc hd hend ih =>
      intro n hn
      exact (ih n (by omega)).escape (hget (by omega) hc)
        (hget (by omega) hd) (by rw [hline (by omega), hend])
  | continuation _ hctx hc hend ih =>
      intro n hn
      have h' := (ih n (by omega)).continuation hctx (hget (by omega) hc)
        (by rw [hline (by omega)]; exact hend)
      rwa [hline (by omega)] at h'
  | opening k _ hc ih =>
      intro n hn
      have hin : _ < n := hn.resolve_right nofun
      exact (ih n (by omega)).opening k (hget (by omega) hc)
  | closing _ hc ih =>
      intro n hn
      exact (ih n (by omega)).closing (hget (by omega) hc)
  | verbatim _ hc hq hbs ih =>
      intro n hn
      exact (ih n (by omega)).verbatim (hget (by omega) hc) hq hbs
  | quotedEscape _ hc hd hend hesc ih =>
      intro n hn
      exact (ih n (by omega)).quotedEscape (hget (by omega) hc)
        (hget (by omega) hd) (by rw [hline (by omega), hend]) hesc
  | quotedBackslash _ hc hd hend hesc ih =>
      intro n hn
      have hin : _ < n := hn.resolve_right nofun
      exact (ih n (by omega)).quotedBackslash (hget (by omega) hc)
        (hget (by omega) hd) (by rw [hline (by omega), hend]) hesc

/-- Before a boundary outside quotes nothing is wrong. -/
theorem Boundary.split_take {pos : Nat} (h : Boundary s .bare pos) :
    ∃ ws, split (s.take pos) = .ok ws := by
  have hpos := h.take pos (.inr ⟨rfl, rfl⟩)
  have hlen : (s.take pos).length = pos :=
    List.length_take_of_le h.passed.1
  exact Boundary.split_bare (by rwa [hlen])

/-! ## The conditions -/

/-- The three ways a text can end. -/
theorem end_cases (s : Bytes) :
    TrailingBackslash s ∨ ¬TrailingBackslash s ∧
      (Boundary s .bare s.length ∨
        ∃ k pos, Boundary s (.quoted k pos) s.length) := by
  by_cases hno : TrailingBackslash s
  · exact .inl hno
  · refine .inr ⟨hno, ?_⟩
    obtain ⟨ctx, hctx, -⟩ := Boundary.run (P := fun _ _ => True)
      (fun _ _ _ _ _ _ _ _ => trivial) hno s.length (by omega) .start trivial
    match ctx, hctx with
    | .bare, hctx => exact .inl hctx
    | .quoted k pos, hctx => exact .inr ⟨k, pos, hctx⟩

/-- The trailing backslash is reported, and nothing else as one. -/
theorem split_trailing_iff (pos : Nat) :
    split s = .error ⟨pos, .trailingBackslash⟩ ↔
      pos + 1 = s.length ∧ TrailingBackslash s := by
  constructor
  · intro hsplit
    rcases end_cases s with htrail | ⟨-, hbare | ⟨k, q, hquoted⟩⟩
    · obtain ⟨hlen, herr⟩ := htrail.split
      rw [hsplit] at herr
      have : pos = s.length - 1 := by simpa using herr
      exact ⟨by omega, htrail⟩
    · obtain ⟨ws, hok⟩ := hbare.split_bare
      rw [hsplit] at hok
      exact nomatch hok
    · have herr := hquoted.split_quoted
      rw [hsplit] at herr
      cases k <;> simp [Quote.error] at herr
  · rintro ⟨hpos, htrail⟩
    obtain rfl : pos = s.length - 1 := by omega
    exact htrail.split.2

/-- The quote that is never closed is reported, and nothing else as one. -/
theorem split_unterminated_iff (k : Quote) (pos : Nat) :
    split s = .error ⟨pos, k.error⟩ ↔
      ¬TrailingBackslash s ∧ NeverClosed s k pos := by
  rw [neverClosed_iff]
  constructor
  · intro hsplit
    rcases end_cases s with htrail | ⟨-, hbare | ⟨k', q, hquoted⟩⟩
    · have herr := htrail.split.2
      rw [hsplit] at herr
      cases k <;> simp [Quote.error] at herr
    · obtain ⟨ws, hok⟩ := hbare.split_bare
      rw [hsplit] at hok
      exact nomatch hok
    · have herr := hquoted.split_quoted
      rw [hsplit] at herr
      obtain ⟨rfl, hk⟩ : pos = q ∧ k.error = k'.error := by simpa using herr
      obtain rfl : k = k' := by cases k <;> cases k' <;> simp_all [Quote.error]
      exact hquoted
  · exact Boundary.split_quoted

/-- Everything else splits. -/
theorem split_ok_iff :
    (∃ ws, split s = .ok ws) ↔
      ¬TrailingBackslash s ∧ ∀ k pos, ¬NeverClosed s k pos := by
  constructor
  · rintro ⟨ws, hok⟩
    have hno : ¬TrailingBackslash s := by
      intro htrail
      rw [htrail.split.2] at hok
      exact nomatch hok
    refine ⟨hno, ?_⟩
    intro k pos hopen
    rw [(split_unterminated_iff k pos).mpr ⟨hno, hopen⟩] at hok
    exact nomatch hok
  · rintro ⟨hno, hclosed⟩
    rcases end_cases s with htrail | ⟨-, hbare | ⟨k, q, hquoted⟩⟩
    · exact absurd htrail hno
    · exact hbare.split_bare
    · exact absurd ((neverClosed_iff k q).mpr hquoted).2 (hclosed k q)

/-- What `split` returns: the words of the grammar, an error at the trailing
backslash if there is one, else an error at the quote that is never closed,
before which the text splits. -/
theorem split_outcome (s : Bytes) :
    split s = grammar s ∧
    (∀ pos, split s = .error ⟨pos, .trailingBackslash⟩ ↔
      pos + 1 = s.length ∧ TrailingBackslash s) ∧
    (∀ (k : Quote) (pos : Nat), split s = .error ⟨pos, k.error⟩ ↔
      ¬TrailingBackslash s ∧ NeverClosed s k pos) ∧
    (∀ (k : Quote) (pos : Nat), ¬TrailingBackslash s →
      NeverClosed s k pos →
        s[pos]? = some k.byte ∧ ∃ ws, split (s.take pos) = .ok ws) ∧
    ((∃ ws, split s = .ok ws) ↔
      ¬TrailingBackslash s ∧ ∀ k pos, ¬NeverClosed s k pos) :=
  ⟨split_eq_grammar s, split_trailing_iff, split_unterminated_iff,
    fun _ _ _ h => ⟨h.byte, h.outside.split_take⟩, split_ok_iff⟩

end Cosca.Ports.PosixSplit
