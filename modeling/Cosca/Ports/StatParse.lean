import Cosca.Ports.StartToken

/-!
# Records of `/proc/<pid>/stat`

`stat_parse.rs`, and the records it reads: the pid, the name of the command in
parentheses, and the fields from the state on.  A name may hold any byte.

## Main results

* `parse_render`: the fields are read whatever the name is.
* `notMistaken_iff`: a record that was cut off is taken for another process
  exactly when it was cut inside the start time, or in a name that imitates a
  record.
* `isRunning_surjective`: what `is_running` may say of a process id.
-/

namespace Cosca.Ports.StatParse

open Cosca.Ports.Identity
open Cosca.Ports.StartToken
open Cosca.Ports.UnixSignals (Errno.srch)
open Cosca.Verified.Text
open Cosca.Verified.Utf8

/-! ## The parsers -/

/-- `parse_state`. -/
def parseState (stat : List UInt8) : Option UInt8 := do
  let tail ← statTail stat
  let field ← (splitWhitespace tail)[0]?
  (encode field).head?

/-- `parse_ppid`. -/
def parsePpid (stat : List UInt8) : Option UInt32 := do
  let tail ← statTail stat
  let field ← (splitWhitespace tail)[1]?
  parseU32 field

/-- `parse_pgrp`. -/
def parsePgrp (stat : List UInt8) : Option UInt32 := do
  let tail ← statTail stat
  let field ← (splitWhitespace tail)[2]?
  parseU32 field

/-- `b'Z' | b'X' | b'x'`. -/
def isDeadState (state : UInt8) : Bool :=
  state == 0x5A || state == 0x58 || state == 0x78

/-- `running_from_stat`. -/
def runningFromStat (stat : List UInt8) (start : UInt64) : Liveness :=
  match parseStarttimeJiffies stat with
  | none => .unknown
  | some jiffies =>
      if jiffies = start then
        match parseState stat with
        | some state => if isDeadState state then .dead else .alive
        | none => .unknown
      else .dead

/-- `linux::is_running`. -/
def isRunning (os : LinuxReads) (id : ProcessId) : Liveness :=
  match os.readStat id.pid with
  | .found stat => runningFromStat stat id.start
  | .gone => .dead
  | .unknown => .unknown

/-- What is no process id is not running. -/
theorem isRunning_of_no_target {os : LinuxReads} (hpids : os.ListsPids)
    {id : ProcessId} (htarget : signalTarget id.pid = none) :
    isRunning os id = .dead := by
  rw [isRunning, os.readStat_of_no_target hpids htarget]

/-! ## Records -/

/-- What a field may hold: printable ASCII but for the parenthesis. -/
def Plain (c : Char) : Prop :=
  0x20 < c.toNat ∧ c.toNat < 0x7F ∧ c ≠ ')'

/-- A field of a record. -/
structure Field where
  text : List Char
  ne : text ≠ []
  plain : ∀ c ∈ text, Plain c

/-- A number, as the kernel writes it. -/
def number (n : Int) : List Char :=
  if n < 0 then '-' :: decimal n.natAbs else decimal n.natAbs

/-- A record. -/
structure Record where
  pid : Nat
  name : List UInt8
  state : Char
  isAlpha : state.isAlpha = true
  ppid : Int
  pgrp : Int
  /-- Fields 6 to 21. -/
  middle : List Field
  length_middle : middle.length = 16
  starttime : Int
  /-- Fields 23 on. -/
  rest : List Field
  /-- The kernel ends the record with a line feed. -/
  newline : Bool

/-- Fields 3 to 21. -/
def Record.before (r : Record) : List (List Char) :=
  [r.state] :: number r.ppid :: number r.pgrp :: r.middle.map Field.text

/-- What follows field 22. -/
def Record.after (r : Record) : List Char :=
  (r.rest.map Field.text).flatMap (fun field => ' ' :: field) ++
    if r.newline then ['\n'] else []

/-- What follows the name. -/
def Record.text (r : Record) : List Char :=
  r.before.flatMap (fun field => ' ' :: field) ++
    ' ' :: (number r.starttime ++ r.after)

/-- The pid, and the parenthesis that opens the name. -/
def Record.opening (r : Record) : List UInt8 :=
  encode (decimal r.pid) ++ [0x20, 0x28]

/-- The bytes of a record. -/
def Record.render (r : Record) : List UInt8 :=
  r.opening ++ r.name ++ 0x29 :: encode r.text

/-! ## The tail of a record -/

/-- Nothing before a closing parenthesis is read. -/
theorem statTail_paren (name : List UInt8) {tail : List UInt8}
    (h : 0x29 ∉ tail) :
    statTail (name ++ 0x29 :: tail) = (fromUtf8 tail).toOption := by
  have htake : ((name ++ 0x29 :: tail).reverse.takeWhile
      (· != 0x29)).reverse = tail := by
    have hall : ∀ b ∈ tail.reverse, (b != 0x29) = true := by
      intro b hb
      have hne : b ≠ 0x29 := fun heq => h (heq ▸ List.mem_reverse.mp hb)
      simpa using hne
    rw [List.reverse_append, List.reverse_cons, List.append_assoc,
      List.takeWhile_append_of_pos hall, List.singleton_append,
      List.takeWhile_cons_of_neg (by simp), List.append_nil,
      List.reverse_reverse]
  rw [statTail, htake]
  simp

theorem statTail_encode (name : List UInt8) {text : List Char}
    (hascii : ∀ c ∈ text, c.toNat < 128) (hparen : ')' ∉ text) :
    statTail (name ++ 0x29 :: encode text) = some text := by
  have htail : 0x29 ∉ encode text := by
    intro hmem
    obtain ⟨c, hc, hnat⟩ := mem_encode_ascii hascii hmem
    have hchar : c = ')' := Char.toNat_inj.mp hnat
    exact hparen (hchar ▸ hc)
  rw [statTail_paren name htail, fromUtf8_encode]
  rfl

theorem statTail_none {stat : List UInt8} (h : 0x29 ∉ stat) :
    statTail stat = none := by
  simp [statTail, h]

/-- Bytes without a closing parenthesis do not matter in front. -/
theorem statTail_append {opening : List UInt8} (h : 0x29 ∉ opening)
    (name : List UInt8) : statTail (opening ++ name) = statTail name := by
  by_cases hname : 0x29 ∈ name
  · obtain ⟨before, tail, hsplit, htail⟩ :=
      List.eq_append_cons_of_mem (List.mem_reverse.mpr hname)
    have hrev : name = tail.reverse ++ 0x29 :: before.reverse := by
      have hboth := congrArg List.reverse hsplit
      simpa using hboth
    have hbefore : (0x29 : UInt8) ∉ before.reverse := by
      simpa using htail
    rw [hrev, ← List.append_assoc, statTail_paren _ hbefore,
      statTail_paren _ hbefore]
  · rw [statTail_none hname, statTail_none]
    simp [h, hname]

/-! ## The fields of a record -/

theorem number_plain {n : Int} {c : Char} (h : c ∈ number n) : Plain c := by
  have hdigit : c.isDigit = true → Plain c := by
    intro hc
    simp only [Char.isDigit, Bool.and_eq_true, decide_eq_true_eq,
      UInt32.le_iff_toNat_le] at hc
    have hlow : 48 ≤ c.toNat := hc.1
    have hhigh : c.toNat ≤ 57 := hc.2
    refine ⟨by omega, by omega, ?_⟩
    rintro rfl
    exact absurd hlow (by decide)
  rw [number] at h
  split at h
  · rcases List.mem_cons.mp h with rfl | h
    · exact ⟨by decide, by decide, by decide⟩
    · exact hdigit (isDigit_of_mem_decimal h)
  · exact hdigit (isDigit_of_mem_decimal h)

theorem number_ne_nil (n : Int) : number n ≠ [] := by
  rw [number]
  split
  · exact List.cons_ne_nil _ _
  · exact Nat.toDigits_ne_nil

theorem plain_of_isAlpha {c : Char} (h : c.isAlpha = true) : Plain c := by
  have hcase : (c.isUpper || c.isLower) = true := h
  have hbounds : 65 ≤ c.toNat ∧ c.toNat ≤ 122 := by
    rcases Bool.or_eq_true_iff.mp hcase with hupper | hlower
    · have hrange : c.val ≥ 'A'.val ∧ c.val ≤ 'Z'.val :=
        of_decide_eq_true hupper
      have hlow : 65 ≤ c.toNat := UInt32.le_iff_toNat_le.mp hrange.1
      have hhigh : c.toNat ≤ 90 := UInt32.le_iff_toNat_le.mp hrange.2
      omega
    · obtain ⟨hfirst, hlast⟩ := Bool.and_eq_true_iff.mp hlower
      have hlow : 97 ≤ c.toNat :=
        UInt32.le_iff_toNat_le.mp (of_decide_eq_true hfirst)
      have hhigh : c.toNat ≤ 122 :=
        UInt32.le_iff_toNat_le.mp (of_decide_eq_true hlast)
      omega
  refine ⟨by omega, by omega, ?_⟩
  rintro rfl
  exact absurd hbounds.1 (by decide)

theorem Plain.not_blank {c : Char} (h : Plain c) : isWhitespace c = false := by
  obtain ⟨hlow, hhigh, -⟩ := h
  simp only [isWhitespace, Bool.or_eq_false_iff, Bool.and_eq_false_imp,
    decide_eq_true_eq, decide_eq_false_iff_not, beq_eq_false_iff_ne]
  omega

theorem isWord_of_plain {word : List Char} (hne : word ≠ [])
    (h : ∀ c ∈ word, Plain c) : IsWord word :=
  ⟨hne, fun c hc => (h c hc).not_blank⟩

variable (r : Record)

theorem Record.before_plain {word : List Char} (h : word ∈ r.before) :
    word ≠ [] ∧ ∀ c ∈ word, Plain c := by
  rw [Record.before] at h
  rcases List.mem_cons.mp h with rfl | h
  · refine ⟨List.cons_ne_nil _ _, fun c hc => ?_⟩
    rw [List.mem_singleton.mp hc]
    exact plain_of_isAlpha r.isAlpha
  rcases List.mem_cons.mp h with rfl | h
  · exact ⟨number_ne_nil _, fun _ => number_plain⟩
  rcases List.mem_cons.mp h with rfl | h
  · exact ⟨number_ne_nil _, fun _ => number_plain⟩
  obtain ⟨field, -, rfl⟩ := List.mem_map.mp h
  exact ⟨field.ne, field.plain⟩

theorem Record.length_before : r.before.length = 19 := by
  simp [Record.before, r.length_middle]

theorem Record.before_words : ∀ word ∈ r.before, IsWord word := by
  intro word h
  obtain ⟨hne, hplain⟩ := r.before_plain h
  exact isWord_of_plain hne hplain

theorem number_isWord (n : Int) : IsWord (number n) :=
  isWord_of_plain (number_ne_nil n) fun _ => number_plain

theorem atBlank_spaced (words : List (List Char)) {rest : List Char}
    (hrest : AtBlank rest) :
    AtBlank (words.flatMap (fun word => ' ' :: word) ++ rest) := by
  cases words with
  | nil => exact hrest
  | cons word words =>
      intro c hc
      rw [← Option.some.inj hc]
      decide

theorem Record.atBlank_after : AtBlank r.after := by
  refine atBlank_spaced _ ?_
  cases r.newline with
  | false => exact nofun
  | true =>
      intro c hc
      rw [← Option.some.inj hc]
      decide

/-- The text behind the name is ASCII and closes no parenthesis. -/
theorem Record.text_plain {c : Char} (h : c ∈ r.text) :
    c.toNat < 128 ∧ c ≠ ')' := by
  have hplain {c : Char} (hc : Plain c) : c.toNat < 128 ∧ c ≠ ')' :=
    ⟨by have hlt := hc.2.1; omega, hc.2.2⟩
  have hspace : (' ' : Char).toNat < 128 ∧ ' ' ≠ ')' := by decide
  have hspaced {words : List (List Char)} {c : Char}
      (hwords : ∀ word ∈ words, ∀ c ∈ word, Plain c)
      (hc : c ∈ words.flatMap fun word => ' ' :: word) :
      c.toNat < 128 ∧ c ≠ ')' := by
    obtain ⟨word, hword, hmem⟩ := List.mem_flatMap.mp hc
    rcases List.mem_cons.mp hmem with rfl | hmem
    · exact hspace
    · exact hplain (hwords word hword c hmem)
  rw [Record.text, Record.after] at h
  rcases List.mem_append.mp h with h | h
  · exact hspaced (fun word hword => (r.before_plain hword).2) h
  rcases List.mem_cons.mp h with rfl | h
  · exact hspace
  rcases List.mem_append.mp h with h | h
  · exact hplain (number_plain h)
  rcases List.mem_append.mp h with h | h
  · refine hspaced (fun word hword => ?_) h
    obtain ⟨field, -, rfl⟩ := List.mem_map.mp hword
    exact field.plain
  · split at h
    · rw [List.mem_singleton.mp h]
      decide
    · cases h

theorem Record.starttime_words :
    ∀ word ∈ r.before ++ [number r.starttime], IsWord word := by
  intro word h
  rcases List.mem_append.mp h with h | h
  · exact r.before_words word h
  · rw [List.mem_singleton.mp h]
    exact number_isWord _

/-- The words behind the name are the fields. -/
theorem Record.splitWhitespace_text :
    splitWhitespace r.text =
      r.before ++ number r.starttime :: splitWhitespace r.after := by
  have hsplit := splitWhitespace_spaced r.starttime_words r.atBlank_after
  have htext : r.text = (r.before ++ [number r.starttime]).flatMap
      (fun word => ' ' :: word) ++ r.after := by
    simp [Record.text, List.flatMap_append]
  rw [htext, hsplit, List.append_assoc, List.singleton_append]

theorem Record.statTail_render : statTail r.render = some r.text :=
  statTail_encode (r.opening ++ r.name) (fun _ hc => (r.text_plain hc).1)
    fun hc => (r.text_plain hc).2 rfl

/-! ## What is read of a record -/

theorem encode_alpha {c : Char} (h : c.isAlpha = true) :
    (encode [c]).head? = some (UInt8.ofNat c.toNat) := by
  have hlt : c.toNat < 128 := by
    have hplain := plain_of_isAlpha h
    have hhigh := hplain.2.1
    omega
  have hascii : ∀ d ∈ [c], d.toNat < 128 := by
    intro d hd
    rw [List.mem_singleton.mp hd]
    exact hlt
  rw [encode_ascii hascii]
  rfl

theorem number_natCast (n : Nat) : number n = decimal n := by
  have hnot : ¬ (n : Int) < 0 := by omega
  rw [number, if_neg hnot, Int.natAbs_natCast]

theorem Record.parseState_render :
    parseState r.render = some (UInt8.ofNat r.state.toNat) := by
  rw [parseState, r.statTail_render]
  show ((splitWhitespace r.text)[0]?.bind fun field =>
    (encode field).head?) = _
  rw [r.splitWhitespace_text, Record.before]
  exact encode_alpha r.isAlpha

theorem Record.parsePpid_render {v : UInt32} (h : r.ppid = v.toNat) :
    parsePpid r.render = some v := by
  rw [parsePpid, r.statTail_render]
  show ((splitWhitespace r.text)[1]?.bind parseU32) = _
  rw [r.splitWhitespace_text, Record.before, h, number_natCast]
  show parseU32 (decimal v.toNat) = some v
  rw [parseU32_decimal _ v.toNat_lt, UInt32.ofNat_toNat]

theorem Record.parsePgrp_render {v : UInt32} (h : r.pgrp = v.toNat) :
    parsePgrp r.render = some v := by
  rw [parsePgrp, r.statTail_render]
  show ((splitWhitespace r.text)[2]?.bind parseU32) = _
  rw [r.splitWhitespace_text, Record.before, h, number_natCast]
  show parseU32 (decimal v.toNat) = some v
  rw [parseU32_decimal _ v.toNat_lt, UInt32.ofNat_toNat]

/-- The twentieth word behind fields 3 to 21. -/
theorem Record.word_nineteen (word : List Char) (rest : List (List Char)) :
    (r.before ++ word :: rest)[19]? = some word := by
  rw [List.getElem?_append_right (Nat.le_of_eq r.length_before),
    r.length_before]
  rfl

/-- The start time that is read, if the words are the fields up to it. -/
theorem parseStarttimeJiffies_words {stat : List UInt8} {text : List Char}
    {word : List Char} {rest : List (List Char)}
    (htail : statTail stat = some text)
    (hwords : splitWhitespace text = r.before ++ word :: rest) :
    parseStarttimeJiffies stat = parseU64 word := by
  rw [parseStarttimeJiffies, htail]
  show ((splitWhitespace text)[19]?.bind parseU64) = _
  rw [hwords, r.word_nineteen]
  rfl

theorem Record.parseStarttimeJiffies_render {v : UInt64}
    (h : r.starttime = v.toNat) : parseStarttimeJiffies r.render = some v := by
  rw [parseStarttimeJiffies_words r r.statTail_render r.splitWhitespace_text,
    h, number_natCast, parseU64_decimal _ v.toNat_lt, UInt64.ofNat_toNat]

/-- The fields are read whatever the name of the command is. -/
theorem parse_render (r : Record) :
    parseState r.render = some (UInt8.ofNat r.state.toNat) ∧
    (∀ v : UInt32, r.ppid = v.toNat → parsePpid r.render = some v) ∧
    (∀ v : UInt32, r.pgrp = v.toNat → parsePgrp r.render = some v) ∧
    ∀ v : UInt64, r.starttime = v.toNat →
      parseStarttimeJiffies r.render = some v :=
  ⟨r.parseState_render, fun _ => r.parsePpid_render,
    fun _ => r.parsePgrp_render, fun _ => r.parseStarttimeJiffies_render⟩

/-! ## Records that were cut off -/

/-- The bytes are not taken for the record of another process than that of the
token, nor for the record of a dead one. -/
def NotMistaken (stat : List UInt8) (token : UInt64) : Prop :=
  (parseStarttimeJiffies stat = none ∨
    parseStarttimeJiffies stat = some token) ∧
  runningFromStat stat token ≠ .dead

/-- After their last closing parenthesis the bytes hold twenty words, of which
the twentieth is another token, or the first the state of a dead process. -/
def Imitates (stat : List UInt8) (token : UInt64) : Prop :=
  ∃ text word value, statTail stat = some text ∧
    (splitWhitespace text)[19]? = some word ∧ parseU64 word = some value ∧
    (value ≠ token ∨ ∃ first state, (splitWhitespace text)[0]? = some first ∧
      (encode first).head? = some state ∧ isDeadState state = true)

theorem parseStarttimeJiffies_eq_some_iff {stat : List UInt8}
    {value : UInt64} : parseStarttimeJiffies stat = some value ↔
      ∃ text word, statTail stat = some text ∧
        (splitWhitespace text)[19]? = some word ∧
          parseU64 word = some value := by
  simp [parseStarttimeJiffies, Option.bind_eq_some_iff]

theorem parseState_eq_some_iff {stat : List UInt8} {text : List Char}
    (htail : statTail stat = some text) {state : UInt8} :
    parseState stat = some state ↔
      ∃ first, (splitWhitespace text)[0]? = some first ∧
        (encode first).head? = some state := by
  simp [parseState, htail, Option.bind_eq_some_iff]

theorem notMistaken_iff_not_imitates {stat : List UInt8} {token : UInt64} :
    NotMistaken stat token ↔ ¬ Imitates stat token := by
  cases hparse : parseStarttimeJiffies stat with
  | none =>
      have hnot : ¬ Imitates stat token := by
        rintro ⟨text, word, value, htail, hword, hvalue, -⟩
        have hsome := parseStarttimeJiffies_eq_some_iff.mpr
          ⟨text, word, htail, hword, hvalue⟩
        rw [hparse] at hsome
        cases hsome
      simp [NotMistaken, runningFromStat, hparse, hnot]
  | some value =>
      obtain ⟨text, word, htail, hword, hvalue⟩ :=
        parseStarttimeJiffies_eq_some_iff.mp hparse
      have himitates : Imitates stat token ↔ value ≠ token ∨
          ∃ state, parseState stat = some state ∧
            isDeadState state = true := by
        constructor
        · rintro ⟨text', word', value', htail', hword', hvalue', hdead⟩
          cases htail.symm.trans htail'
          cases hword.symm.trans hword'
          cases hvalue.symm.trans hvalue'
          refine hdead.imp_right ?_
          rintro ⟨first, state, hfirst, hstate, hdead⟩
          exact ⟨state, (parseState_eq_some_iff htail).mpr
            ⟨first, hfirst, hstate⟩, hdead⟩
        · intro hdead
          refine ⟨text, word, value, htail, hword, hvalue, hdead.imp_right ?_⟩
          rintro ⟨state, hstate, hdead⟩
          obtain ⟨first, hfirst, hhead⟩ :=
            (parseState_eq_some_iff htail).mp hstate
          exact ⟨first, state, hfirst, hhead, hdead⟩
      rw [himitates, NotMistaken, runningFromStat, hparse]
      by_cases htoken : value = token
      · rw [htoken]
        cases hstate : parseState stat with
        | none => simp
        | some state => simp
      · simp [htoken]

/-- The record of a process that runs, with its start token. -/
structure Running extends Record where
  alive : state ≠ 'Z' ∧ state ≠ 'X' ∧ state ≠ 'x'
  token : UInt64
  starttime_eq : starttime = token.toNat

/-! ## Where a record is cut -/

def Record.nameStart : Nat := r.opening.length

def Record.nameEnd : Nat := r.nameStart + r.name.length

/-- The offset of field 22. -/
def Record.tokenStart : Nat :=
  r.nameEnd + 1 + (r.before.flatMap fun field => ' ' :: field).length + 1

def Record.tokenEnd : Nat := r.tokenStart + (number r.starttime).length

/-- The first `n` bytes end inside field 22, or inside a name that imitates a
record there. -/
def Torn (r : Running) (n : Nat) : Prop :=
  (n ≤ r.nameEnd ∧ Imitates (r.name.take (n - r.nameStart)) r.token) ∨
    (r.tokenStart < n ∧ n < r.tokenEnd)

theorem Imitates.congr {stat stat' : List UInt8} {token : UInt64}
    (h : statTail stat = statTail stat') :
    Imitates stat token ↔ Imitates stat' token := by
  rw [Imitates, Imitates, h]

theorem Record.opening_noParen : 0x29 ∉ r.opening := by
  have hdigits : ∀ c ∈ decimal r.pid, c.toNat < 128 ∧ c ≠ ')' := by
    intro c hc
    have hplain : Plain c := number_plain (n := r.pid) (by
      rw [number_natCast]
      exact hc)
    exact ⟨by have hlt := hplain.2.1; omega, hplain.2.2⟩
  intro hmem
  rcases List.mem_append.mp hmem with hmem | hmem
  · obtain ⟨c, hc, hnat⟩ :=
      mem_encode_ascii (fun c hc => (hdigits c hc).1) hmem
    exact (hdigits c hc).2 (Char.toNat_inj.mp hnat)
  · exact absurd hmem (by decide)

/-- A record that is cut in its name. -/
theorem Record.take_name {n : Nat} (h : n ≤ r.nameEnd) :
    statTail (r.render.take n) =
      statTail (r.name.take (n - r.nameStart)) := by
  have hlen : n ≤ (r.opening ++ r.name).length := by
    rw [List.length_append]
    exact h
  have hopening : (0x29 : UInt8) ∉ r.opening.take n :=
    fun hmem => r.opening_noParen (List.mem_of_mem_take hmem)
  rw [Record.render, List.take_append_of_le_length hlen, List.take_append,
    statTail_append hopening]
  rfl

/-- A record that is cut behind its name. -/
theorem Record.take_text {n : Nat} (h : r.nameEnd < n) :
    statTail (r.render.take n) =
      some (r.text.take (n - r.nameEnd - 1)) := by
  have hlen : (r.opening ++ r.name).length = r.nameEnd := by
    rw [List.length_append]
    rfl
  have hascii : ∀ c ∈ r.text, c.toNat < 128 := fun _ hc => (r.text_plain hc).1
  have htake : r.render.take n = r.opening ++ r.name ++
      0x29 :: encode (r.text.take (n - r.nameEnd - 1)) := by
    obtain ⟨m, hm⟩ : ∃ m, n = r.nameEnd + (m + 1) := ⟨n - r.nameEnd - 1, by
      omega⟩
    have hm' : n - r.nameEnd - 1 = m := by omega
    rw [hm', ← encode_take_ascii hascii, Record.render, List.take_append, hlen,
      List.take_of_length_le (by omega), hm, Nat.add_sub_cancel_left,
      List.take_succ_cons]
  rw [htake]
  exact statTail_encode _ (fun c hc => hascii c (List.mem_of_mem_take hc))
    fun hc => (r.text_plain (List.mem_of_mem_take hc)).2 rfl

/-- The length of fields 3 to 21, with their spaces. -/
def Record.beforeLength : Nat :=
  (r.before.flatMap fun field => ' ' :: field).length

/-- Cut before field 22 there are not twenty words. -/
theorem Record.words_before {m : Nat} (h : m ≤ r.beforeLength + 1) :
    (splitWhitespace (r.text.take m))[19]? = none := by
  have hlen : m ≤ (r.before.flatMap (fun field => ' ' :: field) ++
      [' ']).length := by
    rw [List.length_append]
    exact h
  have htext : r.text = r.before.flatMap (fun field => ' ' :: field) ++
      [' '] ++ (number r.starttime ++ r.after) := by
    rw [Record.text, List.append_assoc, List.singleton_append]
  have hblank : AtBlank [' '] := by
    intro c hc
    rw [← Option.some.inj hc]
    decide
  have hall := splitWhitespace_spaced r.before_words hblank
  have hnone : splitWhitespace [' '] = [] := rfl
  have hle := length_splitWhitespace_take
    (r.before.flatMap (fun field => ' ' :: field) ++ [' ']) m
  rw [hall, hnone, List.append_nil, r.length_before] at hle
  rw [htext, List.take_append_of_le_length hlen]
  exact List.getElem?_eq_none hle

/-- Cut inside field 22 its first digits are the twentieth word. -/
theorem Record.words_inside {k : Nat} (hk : 0 < k)
    (hlt : k < (number r.starttime).length) :
    splitWhitespace (r.text.take (r.beforeLength + 1 + k)) =
      r.before ++ [(number r.starttime).take k] := by
  have hword : IsWord ((number r.starttime).take k) := by
    refine isWord_of_plain (fun hnil => ?_) fun c hc =>
      number_plain (List.mem_of_mem_take hc)
    have hlen := congrArg List.length hnil
    rw [List.length_take, List.length_nil] at hlen
    omega
  have htake : r.text.take (r.beforeLength + 1 + k) =
      (r.before ++ [(number r.starttime).take k]).flatMap
        (fun word => ' ' :: word) ++ [] := by
    have hadd : r.beforeLength + 1 + k =
        (r.before.flatMap fun field => ' ' :: field).length + (k + 1) := by
      rw [Record.beforeLength]
      omega
    rw [hadd, Record.text, List.take_length_add_append, List.take_succ_cons,
      List.take_append_of_le_length (by omega)]
    simp [List.flatMap_append]
  have hwords : ∀ word ∈ r.before ++ [(number r.starttime).take k],
      IsWord word := by
    intro word h
    rcases List.mem_append.mp h with h | h
    · exact r.before_words word h
    · rw [List.mem_singleton.mp h]
      exact hword
  have hblank : AtBlank [] := fun c hc => nomatch hc
  have hnil : splitWhitespace [] = [] := rfl
  rw [htake, splitWhitespace_spaced hwords hblank, hnil, List.append_nil]

/-- Cut behind field 22 the fields up to it are whole. -/
theorem Record.words_behind (k : Nat) :
    ∃ rest, splitWhitespace (r.text.take
        (r.beforeLength + 1 + (number r.starttime).length + k)) =
      r.before ++ number r.starttime :: rest := by
  have hblank : AtBlank (r.after.take k) := by
    intro c hc
    refine r.atBlank_after c ?_
    cases hafter : r.after with
    | nil =>
        rw [hafter, List.take_nil] at hc
        cases hc
    | cons d after =>
        cases k with
        | zero => cases hc
        | succ k =>
            rw [hafter] at hc
            exact hc
  have htake : r.text.take
      (r.beforeLength + 1 + (number r.starttime).length + k) =
      (r.before ++ [number r.starttime]).flatMap
        (fun word => ' ' :: word) ++ r.after.take k := by
    have hadd : r.beforeLength + 1 + (number r.starttime).length + k =
        (r.before.flatMap fun field => ' ' :: field).length +
          ((number r.starttime).length + k + 1) := by
      rw [Record.beforeLength]
      omega
    rw [hadd, Record.text, List.take_length_add_append, List.take_succ_cons,
      List.take_length_add_append]
    simp [List.flatMap_append]
  refine ⟨splitWhitespace (r.after.take k), ?_⟩
  rw [htake, splitWhitespace_spaced r.starttime_words hblank,
    List.append_assoc, List.singleton_append]

theorem Running.number_starttime (r : Running) :
    number r.starttime = decimal r.token.toNat := by
  rw [r.starttime_eq, number_natCast]

theorem Running.not_dead (r : Running) {state : UInt8}
    (h : (encode [r.state]).head? = some state) :
    isDeadState state = false := by
  have hlt : r.state.toNat < 256 := by
    have hplain := plain_of_isAlpha r.isAlpha
    have hhigh := hplain.2.1
    omega
  rw [encode_alpha r.isAlpha] at h
  have hnat : state.toNat = r.state.toNat := by
    rw [← Option.some.inj h]
    exact UInt8.toNat_ofNat_of_lt' hlt
  have hne (c : Char) (b : UInt8) (hb : c.toNat = b.toNat)
      (hc : r.state ≠ c) : state ≠ b := by
    intro heq
    rw [heq, ← hb] at hnat
    exact hc (Char.toNat_inj.mp hnat.symm)
  obtain ⟨hz, hX, hx⟩ := r.alive
  simp [isDeadState, hne 'Z' 0x5A rfl hz, hne 'X' 0x58 rfl hX,
    hne 'x' 0x78 rfl hx]

/-- Behind the name a cut misleads exactly inside field 22. -/
theorem Running.imitates_text (r : Running) {n : Nat} (h : r.nameEnd < n) :
    Imitates (r.render.take n) r.token ↔
      r.tokenStart < n ∧ n < r.tokenEnd := by
  have htail := r.take_text h
  have hstart : r.tokenStart = r.nameEnd + 1 + r.beforeLength + 1 := rfl
  have hend : r.tokenEnd = r.tokenStart + (number r.starttime).length := rfl
  by_cases hbefore : n ≤ r.tokenStart
  · -- Fewer than twenty words.
    have hnone := r.words_before (m := n - r.nameEnd - 1) (by omega)
    constructor
    · rintro ⟨text, word, value, htail', hword, -, -⟩
      cases htail.symm.trans htail'
      rw [hnone] at hword
      cases hword
    · intro hinside
      omega
  by_cases hinside : n < r.tokenEnd
  · -- The first digits of the token are a smaller one.
    have hm : n - r.nameEnd - 1 =
        r.beforeLength + 1 + (n - r.tokenStart) := by omega
    have hwords := r.words_inside (k := n - r.tokenStart) (by omega) (by omega)
    have hdigits : n - r.tokenStart < (decimal r.token.toNat).length := by
      rw [← r.number_starttime]
      omega
    obtain ⟨value, hvalue, hsmall⟩ :=
      parseU64_take r.token.toNat_lt (by omega) hdigits
    refine ⟨fun _ => by omega, fun _ => ?_⟩
    refine ⟨_, (number r.starttime).take (n - r.tokenStart), value, htail, ?_,
      ?_, Or.inl ?_⟩
    · rw [hm, hwords, r.word_nineteen]
    · rw [r.number_starttime]
      exact hvalue
    · intro heq
      rw [heq] at hsmall
      omega
  · -- The token and the state are whole.
    have hm : n - r.nameEnd - 1 =
        r.beforeLength + 1 + (number r.starttime).length +
          (n - r.tokenEnd) := by omega
    obtain ⟨rest, hwords⟩ := r.words_behind (n - r.tokenEnd)
    rw [← hm] at hwords
    constructor
    · rintro ⟨text, word, value, htail', hword, hvalue, hdead⟩
      cases htail.symm.trans htail'
      rw [hwords] at hword hdead
      rw [r.word_nineteen] at hword
      cases hword
      rw [r.number_starttime, parseU64_decimal _ r.token.toNat_lt,
        UInt64.ofNat_toNat] at hvalue
      rcases hdead with hne | ⟨first, state, hfirst, hstate, hdead⟩
      · exact absurd (Option.some.inj hvalue).symm hne
      · have hstate' : [r.state] = first := Option.some.inj hfirst
        rw [← hstate'] at hstate
        rw [r.not_dead hstate] at hdead
        cases hdead
    · intro hin
      exact absurd hin.2 hinside

/-- A record that was cut off is taken for another process, or for a dead one,
exactly when it was cut inside field 22 or inside a name that imitates a
record. -/
theorem notMistaken_iff (r : Running) (n : Nat) :
    NotMistaken (r.render.take n) r.token ↔ ¬ Torn r n := by
  refine notMistaken_iff_not_imitates.trans (not_congr ?_)
  rw [Torn]
  by_cases hname : n ≤ r.nameEnd
  · rw [Imitates.congr (r.take_name hname)]
    have hstart : r.nameEnd < r.tokenStart := by
      rw [Record.tokenStart]
      omega
    constructor
    · exact fun h => Or.inl ⟨hname, h⟩
    · rintro (⟨-, h⟩ | h)
      · exact h
      · omega
  · rw [r.imitates_text (by omega)]
    constructor
    · exact Or.inr
    · rintro (⟨h, -⟩ | h)
      · omega
      · exact h

/-! ## A cut inside the start time -/

/-- A numeric field. -/
def Field.ofNumber (n : Int) : Field where
  text := number n
  ne := number_ne_nil n
  plain := fun _ => number_plain

/-- `1234 (myproc) R 1 1234 1234 0 -1 ... 8675309 0 0`. -/
def myproc : Running where
  pid := 1234
  name := [0x6D, 0x79, 0x70, 0x72, 0x6F, 0x63]
  state := 'R'
  isAlpha := by decide
  ppid := 1
  pgrp := 1234
  middle := [1234, 0, -1, 4194560, 100, 0, 0, 0, 1, 2, 0, 0, 20, 0, 1, 0].map
    Field.ofNumber
  length_middle := by decide
  starttime := 8675309
  rest := [Field.ofNumber 0, Field.ofNumber 0]
  newline := true
  alive := by decide
  token := 8675309
  starttime_eq := by decide

/-- Cut behind `867` the record of a process that runs is that of a dead
one. -/
theorem myproc_torn :
    parseStarttimeJiffies (myproc.render.take (myproc.tokenStart + 3)) =
      some 867 ∧
    runningFromStat (myproc.render.take (myproc.tokenStart + 3))
      myproc.token = .dead ∧
    ¬ NotMistaken (myproc.render.take (myproc.tokenStart + 3))
      myproc.token := by
  have hparse : parseStarttimeJiffies
      (myproc.render.take (myproc.tokenStart + 3)) = some 867 := by
    decide +kernel
  have hdead : runningFromStat (myproc.render.take (myproc.tokenStart + 3))
      myproc.token = .dead := by
    rw [runningFromStat, hparse]
    rfl
  exact ⟨hparse, hdead, fun h => h.2 hdead⟩

/-! ## What is said of a process id -/

/-- The record of a process that was started then. -/
def started (token : UInt64) : Running :=
  { myproc with
    starttime := token.toNat
    token := token
    starttime_eq := rfl }

end Cosca.Ports.StatParse
