import Cosca.Ports.Errors
import Cosca.Verified.Scan

/-!
# POSIX word splitting and quoting

`quote/posix.rs`.  `split` is a four-state machine over bytes with line
continuations and the double-quote escape rule; `quote` and `join` are its
encoder, with three forms per word: the empty word, a word of safe bytes, and
a single-quoted word whose single quotes are spliced in through double quotes.
-/

namespace Cosca.Ports.PosixSplit

open Cosca.Ports.Errors
open Cosca.Verified.Scan

/-- A byte string: a word, a command line. -/
abbrev Bytes := List UInt8

/-! ## The bytes the grammar names -/

abbrev tab : UInt8 := 9
abbrev lf : UInt8 := 10
abbrev cr : UInt8 := 13
abbrev space : UInt8 := 32
abbrev doubleQuote : UInt8 := 34
abbrev dollar : UInt8 := 36
abbrev singleQuote : UInt8 := 39
abbrev backslash : UInt8 := 92
abbrev backtick : UInt8 := 96

/-- `is_ws`. -/
def isWs (c : UInt8) : Bool :=
  c == space || c == tab || c == lf || c == cr

/-! ## The lexer -/

/-- `State`. -/
inductive State where
  | whitespace
  | word
  | singleQuote
  | doubleQuote
  deriving DecidableEq, Repr

/-- The local variables of `split`, the index apart. -/
structure Lexer where
  out : List Bytes
  buf : Bytes
  state : State
  hasToken : Bool
  quoteOpen : Nat
  deriving DecidableEq, Repr

/-- The state before the first byte. -/
def Lexer.start : Lexer where
  out := []
  buf := []
  state := .whitespace
  hasToken := false
  quoteOpen := 0

/-- `emit`. -/
def emit (lx : Lexer) : Lexer :=
  if lx.hasToken then
    { lx with out := lx.out ++ [lx.buf], buf := [], hasToken := false }
  else lx

/-- `line_continuation`, on the bytes after the backslash: the total length of
the continuation. -/
def lineContinuation : List UInt8 → Option Nat
  | 10 :: _ => some 2
  | 13 :: 10 :: _ => some 3
  | _ => none

/-- `backslash_unquoted`: the buffer and the next index. -/
def backslashUnquoted (i : Nat) (rest : List UInt8) (buf : Bytes) :
    Except QuoteError (Bytes × Nat) :=
  match rest with
  | [] => .error ⟨i, .trailingBackslash⟩
  | next :: _ =>
      match lineContinuation rest with
      | some consumed => .ok (buf, i + consumed)
      | none => .ok (buf ++ [next], i + 2)

/-- `backslash_in_dquote`: the buffer and the next index.  Before a byte that
is not escapable the backslash is literal and that byte is read again. -/
def backslashInDquote (i : Nat) (rest : List UInt8) (buf : Bytes) :
    Except QuoteError (Bytes × Nat) :=
  match rest with
  | [] => .error ⟨i, .trailingBackslash⟩
  | next :: _ =>
      match lineContinuation rest with
      | some consumed => .ok (buf, i + consumed)
      | none =>
          if next == dollar || next == backtick || next == doubleQuote ||
              next == backslash then
            .ok (buf ++ [next], i + 2)
          else .ok (buf ++ [backslash], i + 1)

/-- One turn of the loop of `split`. -/
def splitTurn (lx : Lexer) (i : Nat) (c : UInt8) (rest : List UInt8) :
    Turn Lexer (Except QuoteError (List Bytes)) :=
  match lx.state with
  | .whitespace =>
      if isWs c then .advance lx 0
      else if c == singleQuote then
        .advance { lx with state := .singleQuote, hasToken := true,
                           quoteOpen := i } 0
      else if c == doubleQuote then
        .advance { lx with state := .doubleQuote, hasToken := true,
                           quoteOpen := i } 0
      else if c == backslash then
        match rest with
        | [] => .exit (.error ⟨i, .trailingBackslash⟩)
        | next :: _ =>
            match lineContinuation rest with
            | some consumed => .advance lx (consumed - 1)
            | none =>
                .advance { lx with buf := lx.buf ++ [next], hasToken := true,
                                   state := .word } 1
      else
        .advance { lx with buf := lx.buf ++ [c], hasToken := true,
                           state := .word } 0
  | .word =>
      if isWs c then .advance { emit lx with state := .whitespace } 0
      else if c == singleQuote then
        .advance { lx with state := .singleQuote, quoteOpen := i } 0
      else if c == doubleQuote then
        .advance { lx with state := .doubleQuote, quoteOpen := i } 0
      else if c == backslash then
        match backslashUnquoted i rest lx.buf with
        | .error e => .exit (.error e)
        | .ok (buf, next) => .advance { lx with buf := buf } (next - (i + 1))
      else .advance { lx with buf := lx.buf ++ [c] } 0
  | .singleQuote =>
      if c == singleQuote then .advance { lx with state := .word } 0
      else .advance { lx with buf := lx.buf ++ [c] } 0
  | .doubleQuote =>
      if c == doubleQuote then .advance { lx with state := .word } 0
      else if c == backslash then
        match backslashInDquote i rest lx.buf with
        | .error e => .exit (.error e)
        | .ok (buf, next) => .advance { lx with buf := buf } (next - (i + 1))
      else .advance { lx with buf := lx.buf ++ [c] } 0

/-- What `split` returns at the end of the input. -/
def splitFinish (lx : Lexer) : Except QuoteError (List Bytes) :=
  match lx.state with
  | .whitespace | .word => .ok (emit lx).out
  | .singleQuote => .error ⟨lx.quoteOpen, .unterminatedSingleQuote⟩
  | .doubleQuote => .error ⟨lx.quoteOpen, .unterminatedDoubleQuote⟩

/-- The loop of `split`. -/
def splitter : Scanner UInt8 Lexer (Except QuoteError (List Bytes)) where
  turn := splitTurn
  finish := splitFinish

/-- `split`. -/
def split (s : Bytes) : Except QuoteError (List Bytes) :=
  splitter.scan Lexer.start 0 s

/-! ## The encoder -/

/-- The `SAFE` table: letters, digits and `_ @ % + = : , . / -`. -/
def safe (b : UInt8) : Bool :=
  (97 ≤ b && b ≤ 122) || (65 ≤ b && b ≤ 90) || (48 ≤ b && b ≤ 57) ||
    [95, 64, 37, 43, 61, 58, 44, 46, 47, 45].contains b

/-- One byte inside the single-quoted form: a single quote leaves the quotes,
is written between double quotes and enters them again. -/
def quoteByte (b : UInt8) : Bytes :=
  if b == singleQuote then
    [singleQuote, doubleQuote, singleQuote, doubleQuote, singleQuote]
  else [b]

/-- `quote`. -/
def quote (s : Bytes) : Bytes :=
  if s.isEmpty then [singleQuote, singleQuote]
  else if s.all safe then s
  else [singleQuote] ++ s.flatMap quoteByte ++ [singleQuote]

/-- The loop of `join`, from the argument with number `idx` on. -/
def joinLoop : Nat → List Bytes → Bytes → Bytes
  | _, [], out => out
  | idx, a :: args, out =>
      joinLoop (idx + 1) args
        ((if 0 < idx then out ++ [space] else out) ++ quote a)

/-- `join`. -/
def join (args : List Bytes) : Bytes :=
  joinLoop 0 args []

end Cosca.Ports.PosixSplit
