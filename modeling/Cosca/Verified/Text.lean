import Mathlib.Algebra.Group.Int.Defs
import Mathlib.Algebra.Group.Nat.Defs

/-!
# Texts by the line

The standard library's `lines`, `trim`, decimal parsing and quoting for debug
output, on lists of characters, with what they do to a list of numbers written
one to a line.
-/

namespace Cosca.Verified.Text

/-! ## Lines -/

/-- A line without the carriage return before its line feed. -/
def stripCr (line : List Char) : List Char :=
  if line.getLast? == some '\r' then line.dropLast else line

/-- `lines`, with the characters of the current line so far. -/
def linesLoop (current : List Char) : List Char → List (List Char)
  | [] => if current.isEmpty then [] else [current]
  | c :: rest =>
      if c == '\n' then stripCr current :: linesLoop [] rest
      else linesLoop (current ++ [c]) rest

/-- `str::lines`. -/
def lines (text : List Char) : List (List Char) :=
  linesLoop [] text

theorem linesLoop_line (line rest : List Char) (hline : '\n' ∉ line) :
    ∀ current, linesLoop current (line ++ '\n' :: rest) =
      stripCr (current ++ line) :: linesLoop [] rest := by
  induction line with
  | nil =>
      intro current
      simp [linesLoop]
  | cons c line ih =>
      intro current
      have hc : c ≠ '\n' := fun h => hline (h ▸ List.mem_cons_self)
      have htail : '\n' ∉ line := fun h => hline (List.mem_cons_of_mem _ h)
      rw [List.cons_append, linesLoop, if_neg (by simpa using hc), ih htail]
      simp only [List.append_assoc, List.cons_append, List.nil_append]

/-- The first line, and the lines after it. -/
theorem lines_line (line rest : List Char) (hline : '\n' ∉ line)
    (hcr : line.getLast? ≠ some '\r') :
    lines (line ++ '\n' :: rest) = line :: lines rest := by
  have hstrip : stripCr line = line := by
    rw [stripCr, if_neg (by simpa using hcr)]
  rw [lines, linesLoop_line line rest hline, List.nil_append, hstrip, lines]

/-! ## Blanks -/

/-- `char::is_whitespace`: the Unicode property `White_Space`. -/
def isWhitespace (c : Char) : Bool :=
  let n := c.toNat
  (0x09 ≤ n && n ≤ 0x0d) || n == 0x20 || n == 0x85 || n == 0xa0 ||
    n == 0x1680 || (0x2000 ≤ n && n ≤ 0x200a) || n == 0x2028 ||
    n == 0x2029 || n == 0x202f || n == 0x205f || n == 0x3000

/-- `str::trim`. -/
def trim (text : List Char) : List Char :=
  ((text.dropWhile isWhitespace).reverse.dropWhile isWhitespace).reverse

/-- `split_whitespace`, with the characters of the current word so far. -/
def splitWhitespaceLoop (word : List Char) : List Char → List (List Char)
  | [] => if word.isEmpty then [] else [word]
  | c :: rest =>
      if !isWhitespace c then splitWhitespaceLoop (word ++ [c]) rest
      else if word.isEmpty then splitWhitespaceLoop [] rest
      else word :: splitWhitespaceLoop [] rest

/-- `str::split_whitespace`. -/
def splitWhitespace (text : List Char) : List (List Char) :=
  splitWhitespaceLoop [] text

theorem dropWhile_of_none {α : Type} {p : α → Bool} {xs : List α}
    (h : ∀ x ∈ xs, p x = false) : xs.dropWhile p = xs := by
  cases xs with
  | nil => rfl
  | cons x xs => simp [h x List.mem_cons_self]

theorem trim_of_noWhitespace {text : List Char}
    (h : ∀ c ∈ text, isWhitespace c = false) : trim text = text := by
  have hreverse : ∀ c ∈ text.reverse, isWhitespace c = false := by
    intro c hc
    exact h c (List.mem_reverse.mp hc)
  rw [trim, dropWhile_of_none h, dropWhile_of_none hreverse,
    List.reverse_reverse]

/-! ## Words -/

/-- A word is not empty and holds no blank. -/
def IsWord (word : List Char) : Prop :=
  word ≠ [] ∧ ∀ c ∈ word, isWhitespace c = false

/-- The text is empty or begins with a blank. -/
def AtBlank (text : List Char) : Prop :=
  ∀ c ∈ text.head?, isWhitespace c = true

theorem splitWhitespaceLoop_word {word : List Char}
    (hword : ∀ c ∈ word, isWhitespace c = false) (rest : List Char) :
    ∀ current, splitWhitespaceLoop current (word ++ rest) =
      splitWhitespaceLoop (current ++ word) rest := by
  induction word with
  | nil =>
      intro current
      rw [List.nil_append, List.append_nil]
  | cons c word ih =>
      intro current
      have hc := hword c List.mem_cons_self
      have htail := ih fun c' h => hword c' (List.mem_cons_of_mem c h)
      rw [List.cons_append, splitWhitespaceLoop, if_pos (by simpa using hc),
        htail, List.append_assoc, List.singleton_append]

/-- A blank, or the end, closes a word. -/
theorem splitWhitespaceLoop_close {word rest : List Char} (hne : word ≠ [])
    (hrest : AtBlank rest) :
    splitWhitespaceLoop word rest = word :: splitWhitespace rest := by
  have hempty : word.isEmpty = false := by simpa using hne
  cases rest with
  | nil => simp [splitWhitespaceLoop, splitWhitespace, hempty]
  | cons c rest =>
      have hc : isWhitespace c = true := hrest c rfl
      simp [splitWhitespaceLoop, splitWhitespace, hempty, hc]

/-- Words that stand behind a space each. -/
theorem splitWhitespace_spaced {words : List (List Char)}
    (hwords : ∀ word ∈ words, IsWord word) {rest : List Char}
    (hrest : AtBlank rest) :
    splitWhitespace (words.flatMap (fun word => ' ' :: word) ++ rest) =
      words ++ splitWhitespace rest := by
  induction words with
  | nil => rfl
  | cons word words ih =>
      obtain ⟨hne, hword⟩ := hwords word List.mem_cons_self
      have htail := ih fun w h => hwords w (List.mem_cons_of_mem word h)
      have hblank : AtBlank
          (words.flatMap (fun word => ' ' :: word) ++ rest) := by
        cases words with
        | nil => exact hrest
        | cons w words =>
            intro c hc
            have hspace : c = ' ' := (Option.some.inj hc).symm
            rw [hspace]
            decide
      have hspace : splitWhitespaceLoop []
          (' ' :: (word ++ (words.flatMap (fun word => ' ' :: word) ++ rest))) =
          splitWhitespaceLoop []
            (word ++ (words.flatMap (fun word => ' ' :: word) ++ rest)) := rfl
      rw [List.flatMap_cons, List.cons_append, List.cons_append,
        List.append_assoc, splitWhitespace, hspace,
        splitWhitespaceLoop_word hword, List.nil_append,
        splitWhitespaceLoop_close hne hblank, htail, List.cons_append]

theorem splitWhitespaceLoop_pos {text : List Char} :
    ∀ {word : List Char}, word ≠ [] →
      0 < (splitWhitespaceLoop word text).length := by
  induction text with
  | nil =>
      intro word hne
      simp [splitWhitespaceLoop, hne]
  | cons c text ih =>
      intro word hne
      have hempty : word.isEmpty = false := by simpa using hne
      rw [splitWhitespaceLoop, hempty]
      by_cases hc : isWhitespace c = true
      · simp [hc]
      · rw [if_pos (by simpa using hc)]
        exact ih (by simp)

theorem splitWhitespaceLoop_le (text more : List Char) :
    ∀ word, (splitWhitespaceLoop word text).length ≤
      (splitWhitespaceLoop word (text ++ more)).length := by
  induction text with
  | nil =>
      intro word
      by_cases hne : word = []
      · simp [splitWhitespaceLoop, hne]
      · have hpos := @splitWhitespaceLoop_pos more word hne
        simp only [splitWhitespaceLoop, List.nil_append]
        split
        · exact Nat.zero_le _
        · exact hpos
  | cons c text ih =>
      intro word
      rw [List.cons_append, splitWhitespaceLoop, splitWhitespaceLoop]
      by_cases hc : isWhitespace c = true
      · have hnot : ¬ (!isWhitespace c) = true := by simpa using hc
        rw [if_neg hnot, if_neg hnot]
        split
        · exact ih []
        · exact Nat.succ_le_succ (ih [])
      · rw [if_pos (by simpa using hc), if_pos (by simpa using hc)]
        exact ih (word ++ [c])

/-- A text has as many words as its beginnings, at least. -/
theorem length_splitWhitespace_take (text : List Char) (n : Nat) :
    (splitWhitespace (text.take n)).length ≤
      (splitWhitespace text).length := by
  have hle := splitWhitespaceLoop_le (text.take n) (text.drop n) []
  rw [List.take_append_drop] at hle
  exact hle

/-! ## Numbers -/

/-- The value of a digit sequence, `none` where it is empty or holds anything
but the ten digits. -/
def parseDigits (digits : List Char) : Option Nat :=
  if !digits.isEmpty && digits.all Char.isDigit then
    some (Nat.ofDigitChars 10 digits 0)
  else none

/-- A value that fits a signed 32-bit integer. -/
def inRange (value : Int) : Option Int32 :=
  if -2 ^ 31 ≤ value ∧ value < 2 ^ 31 then some (Int32.ofInt value) else none

/-- `str::parse::<i32>`, of whose errors nothing but the failure is kept. -/
def parseI32 : List Char → Option Int32
  | '-' :: digits => (parseDigits digits).bind fun n => inRange (-n)
  | '+' :: digits => (parseDigits digits).bind fun n => inRange n
  | digits => (parseDigits digits).bind fun n => inRange n

/-- `str::parse::<u64>`, of whose errors nothing but the failure is kept. -/
def parseU64 (text : List Char) : Option UInt64 :=
  let digits := if text.head? == some '+' then text.tail else text
  (parseDigits digits).bind fun n =>
    if n < 2 ^ 64 then some (UInt64.ofNat n) else none

/-- `str::parse::<u32>`, of whose errors nothing but the failure is kept. -/
def parseU32 (text : List Char) : Option UInt32 :=
  let digits := if text.head? == some '+' then text.tail else text
  (parseDigits digits).bind fun n =>
    if n < 2 ^ 32 then some (UInt32.ofNat n) else none

/-- A number in decimal. -/
def decimal (n : Nat) : List Char :=
  Nat.toDigits 10 n

theorem isDigit_of_mem_decimal {n : Nat} {c : Char} (h : c ∈ decimal n) :
    c.isDigit = true :=
  Nat.isDigit_of_mem_toDigits (by decide) (by decide) h

/-- A digit is neither a blank nor a sign. -/
theorem isWhitespace_of_isDigit {c : Char} (h : c.isDigit = true) :
    isWhitespace c = false := by
  simp only [Char.isDigit, Bool.and_eq_true, decide_eq_true_eq,
    UInt32.le_iff_toNat_le] at h
  obtain ⟨hlow, hhigh⟩ := h
  have hlow' : 48 ≤ c.toNat := hlow
  have hhigh' : c.toNat ≤ 57 := hhigh
  simp only [isWhitespace, Bool.or_eq_false_iff, Bool.and_eq_false_imp,
    decide_eq_true_eq, decide_eq_false_iff_not, beq_eq_false_iff_ne]
  omega

theorem parseDigits_decimal (n : Nat) : parseDigits (decimal n) = some n := by
  have hdigits : (decimal n).all Char.isDigit = true :=
    List.all_eq_true.mpr fun _ hc => isDigit_of_mem_decimal hc
  have hempty : (decimal n).isEmpty = false := by
    simp [decimal]
  rw [parseDigits, hdigits, hempty]
  simp [decimal, Nat.ofDigitChars_ten_toDigits]

theorem parseI32_unsigned (digits : List Char)
    (h : ∀ c ∈ digits, c ≠ '-' ∧ c ≠ '+') :
    parseI32 digits = (parseDigits digits).bind fun n => inRange n := by
  unfold parseI32
  split
  · exact absurd rfl (h '-' List.mem_cons_self).1
  · exact absurd rfl (h '+' List.mem_cons_self).2
  · rfl

theorem parseI32_decimal (n : Nat) (h : n < 2 ^ 31) :
    parseI32 (decimal n) = some (Int32.ofInt n) := by
  have hrange : inRange (n : Int) = some (Int32.ofInt n) := by
    rw [inRange, if_pos (by omega)]
  have hsigns : ∀ c ∈ decimal n, c ≠ '-' ∧ c ≠ '+' := by
    intro c hc
    have hdigit := isDigit_of_mem_decimal hc
    constructor
    · rintro rfl
      exact absurd hdigit (by decide)
    · rintro rfl
      exact absurd hdigit (by decide)
  rw [parseI32_unsigned _ hsigns, parseDigits_decimal, Option.bind_some,
    hrange]

/-- Digits have no sign. -/
theorem head?_ne_plus {digits : List Char}
    (h : ∀ c ∈ digits, c.isDigit = true) : digits.head? ≠ some '+' := by
  intro hhead
  exact absurd (h '+' (List.mem_of_head? hhead)) (by decide)

theorem parseU64_decimal (n : Nat) (h : n < 2 ^ 64) :
    parseU64 (decimal n) = some (UInt64.ofNat n) := by
  have hplus : (decimal n).head? ≠ some '+' :=
    head?_ne_plus fun _ hc => isDigit_of_mem_decimal hc
  rw [parseU64, if_neg (by simpa using hplus), parseDigits_decimal,
    Option.bind_some, if_pos h]

theorem parseU32_decimal (n : Nat) (h : n < 2 ^ 32) :
    parseU32 (decimal n) = some (UInt32.ofNat n) := by
  have hplus : (decimal n).head? ≠ some '+' :=
    head?_ne_plus fun _ hc => isDigit_of_mem_decimal hc
  rw [parseU32, if_neg (by simpa using hplus), parseDigits_decimal,
    Option.bind_some, if_pos h]

theorem ofDigitChars_lt {digits : List Char}
    (h : ∀ c ∈ digits, c.isDigit = true) :
    ∀ value, Nat.ofDigitChars 10 digits value <
      (value + 1) * 10 ^ digits.length := by
  induction digits with
  | nil =>
      intro value
      simp [Nat.ofDigitChars_nil]
  | cons c digits ih =>
      intro value
      have hc : c.toNat ≤ 57 := by
        have hdigit := h c List.mem_cons_self
        simp only [Char.isDigit, Bool.and_eq_true, decide_eq_true_eq,
          UInt32.le_iff_toNat_le] at hdigit
        exact hdigit.2
      have hstep := ih (fun c' h' => h c' (List.mem_cons_of_mem c h'))
        (10 * value + (c.toNat - '0'.toNat))
      have hzero : '0'.toNat = 48 := rfl
      have hpow : (10 * value + (c.toNat - '0'.toNat) + 1) *
          10 ^ digits.length ≤ (value + 1) * 10 * 10 ^ digits.length :=
        Nat.mul_le_mul_right _ (by omega)
      rw [Nat.ofDigitChars_cons, List.length_cons, Nat.pow_succ,
        Nat.mul_comm (10 ^ digits.length), ← Nat.mul_assoc]
      omega

/-- The first digits of a number are a smaller one. -/
theorem parseU64_take {n k : Nat} (hn : n < 2 ^ 64) (hk : 0 < k)
    (hlt : k < (decimal n).length) :
    ∃ value, parseU64 ((decimal n).take k) = some value ∧
      value.toNat < n := by
  have hdigit : ∀ c ∈ (decimal n).take k, c.isDigit = true :=
    fun _ hc => isDigit_of_mem_decimal (List.mem_of_mem_take hc)
  have hlen : ((decimal n).take k).length = k := by
    rw [List.length_take]
    omega
  have hsmall := ofDigitChars_lt hdigit 0
  rw [hlen, Nat.zero_add, Nat.one_mul] at hsmall
  have hlarge : 10 ^ k ≤ n := by
    by_cases h : n < 10 ^ k
    · have hle := (Nat.length_toDigits_le_iff (by decide) hk).mpr h
      rw [decimal] at hlt
      omega
    · omega
  have hempty : ((decimal n).take k).isEmpty = false := by
    rw [List.isEmpty_eq_false_iff, ← List.length_pos_iff, hlen]
    exact hk
  have hparse : parseDigits ((decimal n).take k) =
      some (Nat.ofDigitChars 10 ((decimal n).take k) 0) := by
    rw [parseDigits, hempty, List.all_eq_true.mpr hdigit]
    rfl
  refine ⟨UInt64.ofNat (Nat.ofDigitChars 10 ((decimal n).take k) 0), ?_, ?_⟩
  · rw [parseU64, if_neg (by simpa using head?_ne_plus hdigit), hparse,
      Option.bind_some, if_pos (by omega)]
  · have hsize : UInt64.size = 2 ^ 64 := rfl
    rw [UInt64.toNat_ofNat_of_lt' (by omega)]
    omega

/-- Numbers written one to a line come back. -/
theorem parse_lines_decimal (ns : List Nat) (h : ∀ n ∈ ns, n < 2 ^ 31) :
    (lines (ns.flatMap fun n => decimal n ++ ['\n'])).filterMap
      (fun line => parseI32 (trim line)) =
      ns.map fun (n : Nat) => Int32.ofInt n := by
  induction ns with
  | nil => rfl
  | cons n ns ih =>
      have hdigit : ∀ c ∈ decimal n, c.isDigit = true :=
        fun c hc => isDigit_of_mem_decimal hc
      have hnewline : '\n' ∉ decimal n := by
        intro hc
        exact absurd (hdigit _ hc) (by decide)
      have hcr : (decimal n).getLast? ≠ some '\r' := by
        intro hlast
        exact absurd (hdigit _ (List.mem_of_getLast? hlast)) (by decide)
      have htrim : trim (decimal n) = decimal n :=
        trim_of_noWhitespace fun c hc => isWhitespace_of_isDigit (hdigit c hc)
      have htail := ih fun m hm => h m (List.mem_cons_of_mem _ hm)
      rw [List.flatMap_cons, List.append_assoc, List.cons_append,
        List.nil_append, lines_line _ _ hnewline hcr, List.filterMap_cons,
        htrim, parseI32_decimal n (h n List.mem_cons_self), htail]
      rfl

/-! ## Debug output -/

/-- `char::escape_debug` inside a string; `printable` are the characters that
stand for themselves. -/
def escapeDebug (printable : Char → Bool) (c : Char) : List Char :=
  if c == '\x00' then ['\\', '0']
  else if c == '\t' then ['\\', 't']
  else if c == '\r' then ['\\', 'r']
  else if c == '\n' then ['\\', 'n']
  else if c == '\\' || c == '"' then ['\\', c]
  else if printable c then [c]
  else ['\\', 'u', '\x7b'] ++ Nat.toDigits 16 c.toNat ++ ['\x7d']

/-- `{:?}` of a string. -/
def debugStr (printable : Char → Bool) (text : String) : String :=
  "\"" ++ String.ofList (text.toList.flatMap (escapeDebug printable)) ++ "\""

/-- `{:?}` of an option, from that of its value. -/
def debugOption {α : Type} (debug : α → String) : Option α → String
  | some a => "Some(" ++ debug a ++ ")"
  | none => "None"

end Cosca.Verified.Text
