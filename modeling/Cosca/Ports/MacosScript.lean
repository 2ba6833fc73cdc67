import Cosca.Ports.AppleScriptLiteral
import Cosca.Ports.PosixRoundTrip

/-!
# The macOS elevation script and its two quoting layers

`build_shell_command` and `wrap_do_shell_script` of `elevation/macos.rs`: the
argv becomes a `/bin/sh` command line, and that text the body of an AppleScript
literal.

## Main results

* `wrap_buildShellCommand`: the composition fails exactly on words that are
  not valid UTF-8 or contain NUL, always with a quoting error; when it
  succeeds the literal the script contains is closed by the wrapper's own
  quote, decodes to the shell command, and that command splits into the
  caller's words.
-/

namespace Cosca.Ports.MacosScript

open Cosca.Ports.Errors
open Cosca.Ports.PosixSplit
open Cosca.Ports.AppleScriptLiteral
open Cosca.Verified.Scan
open Cosca.Verified.Utf8

/-! ## The two layers -/

/-- `exec`. -/
def execWord : Bytes := encode "exec".toList

/-- `cd -- `. -/
def cdPrelude : Bytes := encode "cd -- ".toList

/-- ` && `. -/
def andThen : Bytes := encode " && ".toList

/-- `build_shell_command`. -/
def buildShellCommand (program : Bytes) (args : List Bytes)
    (cwd : Option Bytes) : Bytes :=
  let words := [execWord, program] ++ args
  let out := match cwd with
    | some dir => cdPrelude ++ quote dir ++ andThen
    | none => []
  out ++ join words

/-- What the wrapper writes before the body, its opening quote included. -/
def opening : Text := "do shell script \"".toList

/-- What it writes behind the closing quote. -/
def closing : Text :=
  " with administrator privileges without altering line endings".toList

/-- `wrap_do_shell_script`. -/
def wrapDoShellScript (shellCommand : Bytes) (argMax : Option Nat) :
    Except Error Text :=
  match escapeLiteral shellCommand with
  | .error e => .error (.quote e)
  | .ok body =>
      let script := opening ++ body ++ ['"'] ++ closing
      match argMax with
      | none => .ok script
      | some max =>
          if max < (encode script).length then
            .error (.elevation .commandTooLong
              ("the composed AppleScript is " ++
                toString (encode script).length ++
                " bytes; this system's kern.argmax is " ++ toString max ++
                ". Shorten the command, or write the arguments to a file the elevated program reads"))
          else .ok script

/-! ## Clean words make a clean command -/

/-- An ASCII byte other than NUL, spliced in, changes nothing. -/
theorem clean_append_cons {x : UInt8} (hx : x < 0x80) (h0 : x ≠ 0)
    (a b : Bytes) : Clean (a ++ x :: b) ↔ Clean a ∧ Clean b := by
  have hvalid := valid_append_cons hx a b
  constructor
  · rintro ⟨hv, hn⟩
    obtain ⟨ha, hb⟩ := hvalid.mp hv
    exact ⟨⟨ha, fun h => hn (by simp [h])⟩, ⟨hb, fun h => hn (by simp [h])⟩⟩
  · rintro ⟨ha, hb⟩
    refine ⟨hvalid.mpr ⟨ha.valid, hb.valid⟩, fun h => ?_⟩
    rcases List.mem_append.mp h with h | h
    · exact ha.noNul h
    · rcases List.mem_cons.mp h with h | h
      · exact h0 h.symm
      · exact hb.noNul h

theorem clean_nil : Clean [] := ⟨valid_nil, List.not_mem_nil⟩

theorem clean_cons {x : UInt8} (hx : x < 0x80) (h0 : x ≠ 0) (b : Bytes) :
    Clean (x :: b) ↔ Clean b := by
  have h := clean_append_cons hx h0 [] b
  rw [List.nil_append] at h
  rw [h]
  exact ⟨fun h => h.2, fun h => ⟨clean_nil, h⟩⟩

/-- Splicing single quotes keeps a word clean, and no other word becomes
clean by it. -/
theorem clean_quoteBytes (w : Bytes) :
    Clean (w.flatMap quoteByte) ↔ Clean w := by
  induction hn : w.length using Nat.strongRecOn generalizing w with
  | ind n ih =>
      by_cases hmem : singleQuote ∈ w
      · obtain ⟨a, b, rfl, ha⟩ := List.eq_append_cons_of_mem hmem
        have hplain : ∀ x ∈ a, quoteByte x = [x] := by
          intro x hx
          have hne : x ≠ singleQuote := by
            rintro rfl
            exact ha hx
          simp [quoteByte, hne]
        have hbytes : (a ++ singleQuote :: b).flatMap quoteByte =
            a ++ singleQuote :: doubleQuote :: singleQuote :: doubleQuote ::
              singleQuote :: b.flatMap quoteByte := by
          rw [List.flatMap_append, List.flatMap_cons,
            List.flatMap_congr hplain, List.flatMap_singleton']
          rfl
        rw [List.length_append, List.length_cons] at hn
        rw [hbytes, clean_append_cons (by decide) (by decide),
          clean_append_cons (by decide) (by decide),
          clean_cons (by decide) (by decide),
          clean_cons (by decide) (by decide),
          clean_cons (by decide) (by decide),
          clean_cons (by decide) (by decide),
          ih b.length (by omega) b rfl]
      · have hplain : ∀ x ∈ w, quoteByte x = [x] := by
          intro x hx
          have hne : x ≠ singleQuote := by
            rintro rfl
            exact hmem hx
          simp [quoteByte, hne]
        rw [List.flatMap_congr hplain, List.flatMap_singleton']

/-- A quoted word is clean exactly when the word is. -/
theorem clean_quote (w : Bytes) : Clean (quote w) ↔ Clean w := by
  unfold quote
  split
  · next h =>
      obtain rfl : w = [] := by simpa using h
      rw [clean_cons (by decide) (by decide), clean_cons (by decide) (by decide)]
  · split
    · exact Iff.rfl
    · rw [List.append_assoc, List.singleton_append,
        clean_cons (by decide) (by decide),
        clean_append_cons (by decide) (by decide), clean_quoteBytes]
      exact ⟨fun h => h.1, fun h => ⟨h, clean_nil⟩⟩

theorem clean_spaced (a : Bytes) (ws : List Bytes) :
    Clean (a ++ ws.flatMap fun e => space :: e) ↔
      Clean a ∧ ∀ w ∈ ws, Clean w := by
  induction ws generalizing a with
  | nil => simp
  | cons w ws ih =>
      rw [List.flatMap_cons, List.cons_append,
        clean_append_cons (by decide) (by decide), ih w]
      simp

/-- A joined line is clean exactly when its words are. -/
theorem clean_join (w : Bytes) (ws : List Bytes) :
    Clean (join (w :: ws)) ↔ ∀ v ∈ w :: ws, Clean v := by
  rw [join_cons, clean_spaced, clean_quote]
  simp [clean_quote]

/-- The words the caller supplies. -/
def callerWords (program : Bytes) (args : List Bytes) (cwd : Option Bytes) :
    List Bytes :=
  program :: args ++ cwd.toList

/-- The shell command is clean exactly when the caller's words are. -/
theorem clean_buildShellCommand (program : Bytes) (args : List Bytes)
    (cwd : Option Bytes) : Clean (buildShellCommand program args cwd) ↔
      ∀ w ∈ callerWords program args cwd, Clean w := by
  have hexec : Clean execWord := ⟨⟨_, rfl⟩, by decide⟩
  have hjoin : Clean (join ([execWord, program] ++ args)) ↔
      ∀ w ∈ program :: args, Clean w := by
    rw [List.cons_append, List.singleton_append, clean_join,
      List.forall_mem_cons]
    exact ⟨fun h => h.2, fun h => ⟨hexec, h⟩⟩
  cases cwd with
  | none => simpa [buildShellCommand, callerWords] using hjoin
  | some dir =>
      have hcd : ∀ b : Bytes, Clean (cdPrelude ++ b) ↔ Clean b := by
        intro b
        show Clean (99 :: 100 :: 32 :: 45 :: 45 :: 32 :: b) ↔ Clean b
        simp only [clean_cons (x := 99) (by decide) (by decide),
          clean_cons (x := 100) (by decide) (by decide),
          clean_cons (x := 32) (by decide) (by decide),
          clean_cons (x := 45) (by decide) (by decide)]
      have hand : ∀ a b : Bytes, Clean (a ++ (andThen ++ b)) ↔
          Clean a ∧ Clean b := by
        intro a b
        show Clean (a ++ 32 :: 38 :: 38 :: 32 :: b) ↔ Clean a ∧ Clean b
        rw [clean_append_cons (by decide) (by decide),
          clean_cons (by decide) (by decide),
          clean_cons (by decide) (by decide),
          clean_cons (by decide) (by decide)]
      simp only [buildShellCommand, List.append_assoc, hcd, hand,
        clean_quote]
      rw [hjoin]
      simp only [callerWords, Option.toList_some, List.cons_append,
        List.forall_mem_cons, List.forall_mem_append]
      constructor
      · rintro ⟨hdir, hprog, hargs⟩
        exact ⟨hprog, hargs, hdir, fun w hw => absurd hw List.not_mem_nil⟩
      · rintro ⟨hprog, hargs, hdir, _⟩
        exact ⟨hdir, hprog, hargs⟩

/-! ## The shell reads the caller's words -/

/-- The words the shell is meant to see. -/
def shellWords (program : Bytes) (args : List Bytes) (cwd : Option Bytes) :
    List Bytes :=
  (match cwd with
    | some dir =>
        [encode "cd".toList, encode "--".toList, dir, encode "&&".toList]
    | none => []) ++ [execWord, program] ++ args

/-- The bare words of the prelude stand for themselves. -/
theorem plain_ascii (w : Bytes) (hne : w ≠ [])
    (h : w.all ordinary = true) : Encodes w w :=
  plain_encodes w hne fun b hb => List.all_eq_true.mp h b hb

theorem split_buildShellCommand (program : Bytes) (args : List Bytes)
    (cwd : Option Bytes) : split (buildShellCommand program args cwd) =
      .ok (shellWords program args cwd) := by
  have hargs := forall₂_quote (program :: args)
  cases cwd with
  | none =>
      have hline := split_spaced (quote execWord) execWord _ _
        (quote_encodes execWord) hargs
      rw [← join_cons] at hline
      simpa [buildShellCommand, shellWords] using hline
  | some dir =>
      have hcd := plain_ascii (encode "cd".toList) (by decide) (by decide)
      have hdash := plain_ascii (encode "--".toList) (by decide) (by decide)
      have hand := plain_ascii (encode "&&".toList) (by decide) (by decide)
      have hwords : List.Forall₂ Encodes
          (encode "--".toList :: quote dir :: encode "&&".toList ::
            (execWord :: program :: args).map quote)
          (encode "--".toList :: dir :: encode "&&".toList ::
            execWord :: program :: args) :=
        .cons hdash (.cons (quote_encodes dir) (.cons hand
          (forall₂_quote (execWord :: program :: args))))
      have hline := split_spaced _ _ _ _ hcd hwords
      have hbytes : buildShellCommand program args (some dir) =
          encode "cd".toList ++ (encode "--".toList :: quote dir ::
            encode "&&".toList :: (execWord :: program :: args).map quote).flatMap
              fun e => space :: e := by
        simp only [buildShellCommand, List.cons_append, List.nil_append,
          join_cons, List.map_cons, List.flatMap_cons, List.append_assoc]
        rfl
      rw [hbytes, hline]
      rfl

/-! ## The script -/

/-- The elevation script cannot be escaped through its two quoting layers. -/
theorem wrap_buildShellCommand (program : Bytes) (args : List Bytes)
    (cwd : Option Bytes) :
    ((∃ script, wrapDoShellScript (buildShellCommand program args cwd) none =
        .ok script) ↔
      ∀ w ∈ callerWords program args cwd, Valid w ∧ (0 : UInt8) ∉ w) ∧
    (∀ e, wrapDoShellScript (buildShellCommand program args cwd) none =
        .error e → ∃ q, e = .quote q) ∧
    ∀ script, wrapDoShellScript (buildShellCommand program args cwd) none =
        .ok script →
      ∃ body : Bytes,
        encode script = encode opening ++ body ++
          doubleQuote :: encode closing ∧
        readLiteral (encode script) (encode opening).length =
          some (buildShellCommand program args cwd,
            (encode opening).length + body.length) ∧
        lf ∉ body ∧ cr ∉ body ∧
        split (buildShellCommand program args cwd) =
          .ok (shellWords program args cwd) := by
  have hclean : (∀ w ∈ callerWords program args cwd,
      Valid w ∧ (0 : UInt8) ∉ w) ↔
      Clean (buildShellCommand program args cwd) := by
    rw [clean_buildShellCommand]
    exact forall₂_congr fun w _ =>
      ⟨fun h => ⟨h.1, h.2⟩, fun h => ⟨h.valid, h.noNul⟩⟩
  have hwrap : ∀ s : Bytes, wrapDoShellScript s none =
      match escapeLiteral s with
      | .error e => .error (.quote e)
      | .ok body => .ok (opening ++ body ++ ['"'] ++ closing) := fun _ => rfl
  rw [hclean, ← escapeLiteral_ok_iff]
  simp only [hwrap]
  by_cases h : Clean (buildShellCommand program args cwd)
  · obtain ⟨body, hbody, hbytes⟩ := escapeLiteral_clean h
    rw [hbody]
    refine ⟨⟨fun _ => ⟨body, rfl⟩, fun _ => ⟨_, rfl⟩⟩,
      fun e he => absurd he (by simp), ?_⟩
    intro script hscript
    obtain rfl := Except.ok.inj hscript
    have hquote : encode ('"' :: closing) = doubleQuote :: encode closing := rfl
    have hscript : encode (opening ++ body ++ ['"'] ++ closing) =
        encode opening ++ (buildShellCommand program args cwd).flatMap
          escapeByte ++ doubleQuote :: encode closing := by
      simp only [encode_append, hbytes, List.append_assoc,
        List.singleton_append, hquote]
    obtain ⟨hlf, hcr⟩ := escapeByte_noLineEnd
      (buildShellCommand program args cwd)
    refine ⟨_, hscript, ?_, hlf, hcr, split_buildShellCommand program args cwd⟩
    rw [hscript]
    exact readLiteral_escaped _ _ _
  · obtain ⟨e, he⟩ := escapeLiteral_notClean h
    rw [he]
    refine ⟨⟨fun ⟨_, h⟩ => ?_, fun ⟨_, h⟩ => ?_⟩,
      fun e' he' => ⟨e, (Except.error.inj he').symm⟩, fun script h => ?_⟩
    · exact absurd h (by simp)
    · exact absurd h (by simp)
    · exact absurd h (by simp)

end Cosca.Ports.MacosScript
