import Mathlib.Data.List.Forall2
import Cosca.Ports.PosixSplit

/-!
# POSIX quoting round trip

`quote` writes a word so that the lexer, started between two words, consumes
exactly what was written and stands in the `word` state with that word in its
buffer (`quote_encodes`).  Words separated by single spaces therefore come back
one by one (`split_spaced`), and `join` is such a list.
-/

namespace Cosca.Ports.PosixSplit

open Cosca.Ports.Errors
open Cosca.Verified.Scan

/-! ## The lexer between words, in a word and inside quotes -/

/-- Between words: nothing is pending. -/
structure Fresh (out : List Bytes) (lx : Lexer) : Prop where
  state : lx.state = .whitespace
  out_eq : lx.out = out
  buf : lx.buf = []
  noToken : lx.hasToken = false

/-- A word is pending, its text so far is `w`, and the lexer is in state `q`. -/
structure Pending (q : State) (out : List Bytes) (w : Bytes) (lx : Lexer) :
    Prop where
  state : lx.state = q
  out_eq : lx.out = out
  buf : lx.buf = w
  token : lx.hasToken = true

theorem Fresh.start : Fresh [] Lexer.start := ⟨rfl, rfl, rfl, rfl⟩

/-- A byte that stands for itself outside quotes. -/
def ordinary (b : UInt8) : Bool :=
  !isWs b && b != singleQuote && b != doubleQuote && b != backslash

/-- The safe bytes are ordinary. -/
theorem ordinary_of_safe (b : UInt8) (h : safe b = true) :
    ordinary b = true := by
  have hne : ∀ c ∈ [space, tab, lf, cr, singleQuote, doubleQuote,
      backslash], b ≠ c := by
    rintro c hc rfl
    simp only [List.mem_cons, List.not_mem_nil, or_false] at hc
    rcases hc with rfl | rfl | rfl | rfl | rfl | rfl | rfl <;>
      exact Bool.false_ne_true h
  simp only [List.forall_mem_cons] at hne
  simp [ordinary, isWs, hne]

/-- The tests the lexer makes on an ordinary byte. -/
private theorem ordinary_iff (b : UInt8) : ordinary b = true ↔
    isWs b = false ∧ (b == singleQuote) = false ∧ (b == doubleQuote) = false ∧
      (b == backslash) = false := by
  simp [ordinary, and_assoc]

/-! ## Single turns -/

/-- An ordinary byte between words starts a word. -/
theorem ordinary_fresh (out : List Bytes) (b : UInt8)
    (h : ordinary b = true) :
    splitter.Reads anything (Fresh out) [b] (Pending .word out [b]) := by
  obtain ⟨hws, hsq, hdq, hbs⟩ := (ordinary_iff b).mp h
  refine Scanner.Reads.turn (w := []) fun lx i hlx => ?_
  refine ⟨{ lx with buf := lx.buf ++ [b], hasToken := true, state := .word },
    ⟨rfl, hlx.out_eq, ?_, rfl⟩, fun rest _ => ?_⟩
  · simp only [hlx.buf, List.nil_append]
  · simp only [splitter, splitTurn, hlx.state, hws, hsq, hdq, hbs,
      Bool.false_eq_true, if_false, List.length_nil]

/-- An ordinary byte inside a word is appended to it. -/
theorem ordinary_word (out : List Bytes) (w : Bytes) (b : UInt8)
    (h : ordinary b = true) :
    splitter.Reads anything (Pending .word out w) [b]
      (Pending .word out (w ++ [b])) := by
  obtain ⟨hws, hsq, hdq, hbs⟩ := (ordinary_iff b).mp h
  refine Scanner.Reads.turn (w := []) fun lx i hlx => ?_
  refine ⟨{ lx with buf := lx.buf ++ [b] },
    ⟨hlx.state, hlx.out_eq, ?_, hlx.token⟩, fun rest _ => ?_⟩
  · simp only [hlx.buf]
  · simp only [splitter, splitTurn, hlx.state, hws, hsq, hdq, hbs,
      Bool.false_eq_true, if_false, List.length_nil]

/-- A single quote between words opens a quoted word. -/
theorem singleQuote_fresh (out : List Bytes) :
    splitter.Reads anything (Fresh out) [singleQuote]
      (Pending .singleQuote out []) := by
  refine Scanner.Reads.turn (w := []) fun lx i hlx => ?_
  refine ⟨{ lx with state := .singleQuote, hasToken := true, quoteOpen := i },
    ⟨rfl, hlx.out_eq, hlx.buf, rfl⟩, fun rest _ => ?_⟩
  simp only [splitter, splitTurn, hlx.state]
  rfl

/-- A quote character inside a word enters the quotes of its kind. -/
theorem quote_word (out : List Bytes) (w : Bytes) (q : UInt8) (s : State)
    (hq : (q = singleQuote ∧ s = .singleQuote) ∨
      (q = doubleQuote ∧ s = .doubleQuote)) :
    splitter.Reads anything (Pending .word out w) [q] (Pending s out w) := by
  refine Scanner.Reads.turn (w := []) fun lx i hlx => ?_
  refine ⟨{ lx with state := s, quoteOpen := i },
    ⟨rfl, hlx.out_eq, hlx.buf, hlx.token⟩, fun rest _ => ?_⟩
  simp only [splitter, splitTurn, hlx.state]
  rcases hq with ⟨rfl, rfl⟩ | ⟨rfl, rfl⟩ <;> rfl

/-- The same character leaves them. -/
theorem quote_close (out : List Bytes) (w : Bytes) (q : UInt8) (s : State)
    (hq : (q = singleQuote ∧ s = .singleQuote) ∨
      (q = doubleQuote ∧ s = .doubleQuote)) :
    splitter.Reads anything (Pending s out w) [q] (Pending .word out w) := by
  refine Scanner.Reads.turn (w := []) fun lx i hlx => ?_
  refine ⟨{ lx with state := .word },
    ⟨rfl, hlx.out_eq, hlx.buf, hlx.token⟩, fun rest _ => ?_⟩
  simp only [splitter, splitTurn, hlx.state]
  rcases hq with ⟨rfl, rfl⟩ | ⟨rfl, rfl⟩ <;> rfl

/-- Between single quotes every other byte is literal. -/
theorem literal_singleQuote (out : List Bytes) (w : Bytes) (b : UInt8)
    (h : (b == singleQuote) = false) :
    splitter.Reads anything (Pending .singleQuote out w) [b]
      (Pending .singleQuote out (w ++ [b])) := by
  refine Scanner.Reads.turn (w := []) fun lx i hlx => ?_
  refine ⟨{ lx with buf := lx.buf ++ [b] },
    ⟨hlx.state, hlx.out_eq, ?_, hlx.token⟩, fun rest _ => ?_⟩
  · simp only [hlx.buf]
  · simp only [splitter, splitTurn, hlx.state, h, Bool.false_eq_true,
      if_false, List.length_nil]

/-- Between double quotes a single quote is literal. -/
theorem singleQuote_doubleQuote (out : List Bytes) (w : Bytes) :
    splitter.Reads anything (Pending .doubleQuote out w) [singleQuote]
      (Pending .doubleQuote out (w ++ [singleQuote])) := by
  refine Scanner.Reads.turn (w := []) fun lx i hlx => ?_
  refine ⟨{ lx with buf := lx.buf ++ [singleQuote] },
    ⟨hlx.state, hlx.out_eq, ?_, hlx.token⟩, fun rest _ => ?_⟩
  · simp only [hlx.buf]
  · simp only [splitter, splitTurn, hlx.state]
    rfl

/-- A space after a word emits it. -/
theorem space_word (out : List Bytes) (w : Bytes) :
    splitter.Reads anything (Pending .word out w) [space]
      (Fresh (out ++ [w])) := by
  refine Scanner.Reads.turn (w := []) fun lx i hlx => ?_
  refine ⟨{ emit lx with state := .whitespace }, ?_, fun rest _ => ?_⟩
  · simp only [emit, hlx.token, if_true, hlx.out_eq, hlx.buf]
    exact ⟨rfl, rfl, rfl, rfl⟩
  · simp only [splitter, splitTurn, hlx.state]
    rfl

/-! ## Words -/

/-- `e` is a spelling of the word `w`: read between two words, it leaves the
lexer in that word. -/
def Encodes (e w : Bytes) : Prop :=
  ∀ out, splitter.Reads anything (Fresh out) e (Pending .word out w)

/-- A non-empty word of ordinary bytes spells itself. -/
theorem plain_encodes (w : Bytes) (hne : w ≠ [])
    (h : ∀ b ∈ w, ordinary b = true) : Encodes w w := by
  intro out
  obtain ⟨b, bs, rfl⟩ := List.exists_cons_of_ne_nil hne
  have hbs : ∀ (bs done : Bytes), (∀ c ∈ bs, ordinary c = true) →
      splitter.Reads anything (Pending .word out done) bs
        (Pending .word out (done ++ bs)) := by
    intro bs
    induction bs with
    | nil =>
        intro done _
        rw [List.append_nil]
        exact Scanner.Reads.nil
    | cons c cs ih =>
        intro done hcs
        have hrest := ih (done ++ [c]) fun x hx => hcs x (by simp [hx])
        rw [List.append_assoc, List.singleton_append] at hrest
        exact (ordinary_word out done c (hcs c (by simp))).append hrest
  have hfirst := ordinary_fresh out b (h b (by simp))
  exact hfirst.append (hbs bs [b] fun c hc => h c (by simp [hc]))

/-- One byte of the single-quoted form. -/
theorem quoteByte_reads (out : List Bytes) (w : Bytes) (b : UInt8) :
    splitter.Reads anything (Pending .singleQuote out w) (quoteByte b)
      (Pending .singleQuote out (w ++ [b])) := by
  unfold quoteByte
  split
  · next h =>
      obtain rfl : b = singleQuote := by simpa using h
      -- out of the quotes, through `"'"`, and in again
      have hclose := quote_close out w singleQuote .singleQuote (.inl ⟨rfl, rfl⟩)
      have hopen := quote_word out w doubleQuote .doubleQuote (.inr ⟨rfl, rfl⟩)
      have hlit := singleQuote_doubleQuote out w
      have hshut := quote_close out (w ++ [singleQuote]) doubleQuote
        .doubleQuote (.inr ⟨rfl, rfl⟩)
      have hback := quote_word out (w ++ [singleQuote]) singleQuote
        .singleQuote (.inl ⟨rfl, rfl⟩)
      exact hclose.append (hopen.append (hlit.append (hshut.append hback)))
  · next h => exact literal_singleQuote out w b (by simpa using h)

/-- Every quoted word is a spelling of that word. -/
theorem quote_encodes (w : Bytes) : Encodes (quote w) w := by
  intro out
  have hopen := singleQuote_fresh out
  unfold quote
  split
  · next h =>
      obtain rfl : w = [] := by simpa using h
      exact hopen.append (quote_close out [] singleQuote .singleQuote
        (.inl ⟨rfl, rfl⟩))
  · next hne =>
      split
      · next h =>
          refine plain_encodes w (by simpa using hne) (fun b hb => ?_) out
          exact ordinary_of_safe b (List.all_eq_true.mp h b hb)
      · have hbody := Scanner.Reads.each
          (fun done => Pending .singleQuote out done) quoteByte
          (quoteByte_reads out) w []
        rw [List.nil_append] at hbody
        exact (hopen.append hbody).append
          (quote_close out w singleQuote .singleQuote (.inl ⟨rfl, rfl⟩))

/-! ## Lines -/

/-- After the words `ws` of a line, the last of them still pending. -/
def Line (ws : List Bytes) (lx : Lexer) : Prop :=
  ∃ out w, ws = out ++ [w] ∧ Pending .word out w lx

/-- The spellings after the first word, each preceded by a space. -/
theorem spaced_reads (es ws : List Bytes) (h : List.Forall₂ Encodes es ws) :
    ∀ done, splitter.Reads anything (Line done)
      (es.flatMap fun e => space :: e) (Line (done ++ ws)) := by
  induction h with
  | nil =>
      intro done
      rw [List.append_nil]
      exact Scanner.Reads.nil
  | @cons e w es ws he _ ih =>
      intro done
      have hword : splitter.Reads anything (Line done) (space :: e)
          (Line (done ++ [w])) := by
        intro lx i hlx
        obtain ⟨out, v, rfl, hpend⟩ := hlx
        have hread := (space_word out v).append (he (out ++ [v]))
        obtain ⟨lx', hlx', hscan⟩ := hread lx i hpend
        exact ⟨lx', ⟨out ++ [v], w, rfl, hlx'⟩, hscan⟩
      have hrest := ih (done ++ [w])
      rw [List.append_assoc, List.singleton_append] at hrest
      rw [List.flatMap_cons]
      exact hword.append hrest

/-- Spellings separated by single spaces split into the words they spell. -/
theorem split_spaced (e w : Bytes) (es ws : List Bytes)
    (he : Encodes e w) (hes : List.Forall₂ Encodes es ws) :
    split (e ++ es.flatMap fun e => space :: e) = .ok (w :: ws) := by
  have hfirst : splitter.Reads anything (Fresh []) e (Line [w]) :=
    (he []).post fun _ hp => ⟨[], w, rfl, hp⟩
  have hline := hfirst.append (spaced_reads es ws hes [w])
  obtain ⟨lx, ⟨out, v, hws, hpend⟩, hscan⟩ :=
    hline.scan_eq trivial Fresh.start 0
  rw [split, hscan]
  simp only [splitter, splitFinish, hpend.state, emit, hpend.token, if_true,
    hpend.out_eq, hpend.buf]
  rw [← hws, List.singleton_append]

/-- After the first word `join` writes a space before each one. -/
theorem joinLoop_succ (args : List Bytes) :
    ∀ (idx : Nat) (out : Bytes), joinLoop (idx + 1) args out =
      out ++ (args.map quote).flatMap fun e => space :: e := by
  induction args with
  | nil =>
      intro idx out
      simp only [joinLoop, List.map_nil, List.flatMap_nil, List.append_nil]
  | cons a args ih =>
      intro idx out
      simp only [joinLoop, Nat.succ_pos, if_true, ih, List.map_cons,
        List.flatMap_cons, List.append_assoc, List.cons_append,
        List.nil_append]

theorem join_cons (a : Bytes) (args : List Bytes) :
    join (a :: args) =
      quote a ++ (args.map quote).flatMap fun e => space :: e := by
  simp only [join, joinLoop, Nat.lt_irrefl, if_false, List.nil_append,
    joinLoop_succ]

/-- The arguments are spelled by their quoted forms. -/
theorem forall₂_quote (args : List Bytes) :
    List.Forall₂ Encodes (args.map quote) args := by
  induction args with
  | nil => exact .nil
  | cons a args ih => exact .cons (quote_encodes a) ih

/-- POSIX quoting round trip: `split` recovers exactly the words `join`
wrote. -/
theorem split_join (args : List Bytes) : split (join args) = .ok args := by
  cases args with
  | nil => rfl
  | cons a args =>
      rw [join_cons]
      exact split_spaced (quote a) a (args.map quote) args (quote_encodes a)
        (forall₂_quote args)

end Cosca.Ports.PosixSplit
