import Cosca.Ports.Errors
import Cosca.Verified.Scan

/-!
# Windows command lines

`quote/windows.rs`, over UTF-16 code units.  `joinWide` writes an argument
vector by the rules `CommandLineToArgvW` reverses; `splitWide` is the parser:
the program token has its own grammar (`firstTokenAndRestWide`, backslashes
are literal and the first quote ends the token), the arguments after it are
read by `splitRestWide`, which writes backslashes eagerly, takes half of a run
back when a quote follows it, and keeps a running count of bare quotes.
-/

namespace Cosca.Ports.WindowsCommandLine

open Cosca.Ports.Errors
open Cosca.Verified.Scan

/-- A string of UTF-16 code units. -/
abbrev Wide := List UInt16

/-! ## The units the grammar names -/

abbrev tab : UInt16 := 9
abbrev space : UInt16 := 32
abbrev quote : UInt16 := 34
abbrev backslash : UInt16 := 92

/-- `is_blank`. -/
def isBlank (c : UInt16) : Bool :=
  c == space || c == tab

/-- `needs_quotes`. -/
def needsQuotes (arg : Wide) : Bool :=
  arg.isEmpty || arg.any isBlank

/-! ## The encoder -/

/-- One unit of `append_arg`: the command line and the length of the current
backslash run.  A run of `n` before a quote becomes `2 n + 1`. -/
def appendUnit (acc : Wide × Nat) (x : UInt16) : Wide × Nat :=
  if x == backslash then (acc.1 ++ [x], acc.2 + 1)
  else if x == quote then
    (acc.1 ++ List.replicate (acc.2 + 1) backslash ++ [x], 0)
  else (acc.1 ++ [x], 0)

/-- `append_arg`. -/
def appendArg (cmd arg : Wide) : Wide :=
  if needsQuotes arg then
    let (cmd, backslashes) := arg.foldl appendUnit (cmd ++ [quote], 0)
    cmd ++ List.replicate backslashes backslash ++ [quote]
  else (arg.foldl appendUnit (cmd, 0)).1

/-- The loop of `join_wide`, from the argument with number `idx` on. -/
def joinWideLoop : Nat → List Wide → Wide → Wide
  | _, [], cmd => cmd
  | idx, arg :: args, cmd =>
      joinWideLoop (idx + 1) args
        (appendArg (if 0 < idx then cmd ++ [space] else cmd) arg)

/-- `join_wide`. -/
def joinWide (args : List Wide) : Wide :=
  joinWideLoop 0 args []

/-! ## The program token -/

/-- `first_token_and_rest_wide`: nothing on a blank line, else the token and
what is left after the blanks that follow it. -/
def firstTokenAndRestWide (cmd : Wide) : Option (Wide × Wide) :=
  match cmd.dropWhile isBlank with
  | [] => none
  | c :: tail =>
      if c == quote then
        some (tail.takeWhile (· != quote),
          ((tail.dropWhile (· != quote)).drop 1).dropWhile isBlank)
      else
        some ((c :: tail).takeWhile (!isBlank ·),
          ((c :: tail).dropWhile (!isBlank ·)).dropWhile isBlank)

/-- `first_token_wide`. -/
def firstTokenWide (cmd : Wide) : Option Wide :=
  (firstTokenAndRestWide cmd).map fun (first, _) => first

/-! ## The arguments -/

/-- The local variables of `split_rest_wide`, the index apart. -/
structure RestLexer where
  out : List Wide
  buf : Wide
  qcount : Nat
  bcount : Nat
  deriving DecidableEq, Repr

/-- The state at the first argument. -/
def RestLexer.start : RestLexer where
  out := []
  buf := []
  qcount := 0
  bcount := 0

/-- The inner loop over the quotes that follow a quote: the running count,
the buffer and how many of them there are.  The third one is literal. -/
def quoteRun : Nat → Wide → List UInt16 → Nat × Wide × Nat
  | qcount, buf, [] => (qcount, buf, 0)
  | qcount, buf, c :: rest =>
      if c == quote then
        let (qcount, buf) :=
          if qcount + 1 == 3 then (0, buf ++ [quote]) else (qcount + 1, buf)
        let (qcount, buf, consumed) := quoteRun qcount buf rest
        (qcount, buf, consumed + 1)
      else (qcount, buf, 0)

/-- One turn of the loop of `split_rest_wide`. -/
def restTurn (lx : RestLexer) (_ : Nat) (c : UInt16) (rest : List UInt16) :
    Turn RestLexer (List Wide) :=
  if isBlank c && lx.qcount == 0 then
    let out := lx.out ++ [lx.buf]
    if (rest.dropWhile isBlank).isEmpty then .exit out
    else
      .advance { lx with out := out, buf := [], bcount := 0 }
        (rest.takeWhile isBlank).length
  else if c == backslash then
    .advance { lx with buf := lx.buf ++ [c], bcount := lx.bcount + 1 } 0
  else if c == quote then
    let (buf, qcount) :=
      if lx.bcount % 2 == 0 then
        (lx.buf.take (lx.buf.length - lx.bcount / 2), lx.qcount + 1)
      else
        (lx.buf.take (lx.buf.length - (lx.bcount / 2 + 1)) ++ [quote],
          lx.qcount)
    let (qcount, buf, consumed) := quoteRun qcount buf rest
    .advance { lx with buf := buf, bcount := 0,
                       qcount := if qcount == 2 then 0 else qcount } consumed
  else .advance { lx with buf := lx.buf ++ [c], bcount := 0 } 0

/-- The loop of `split_rest_wide`. -/
def restSplitter : Scanner UInt16 RestLexer (List Wide) where
  turn := restTurn
  finish := fun lx => lx.out ++ [lx.buf]

/-- `split_rest_wide`. -/
def splitRestWide (rest : Wide) : List Wide :=
  match rest.dropWhile isBlank with
  | [] => []
  | rest => restSplitter.scan RestLexer.start 0 rest

/-- `split_wide`. -/
def splitWide (cmd : Wide) : Except QuoteError (List Wide) :=
  match firstTokenAndRestWide cmd with
  | none => .ok []
  | some (first, rest) => .ok ([first] ++ splitRestWide rest)

end Cosca.Ports.WindowsCommandLine
