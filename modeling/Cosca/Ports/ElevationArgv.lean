import Cosca.Ports.PosixElevation
import Cosca.Verified.Options

/-!
# The argument vector of an elevation

What `build_argv` hands to each front end, read back the way the front end
reads it: nothing of the caller's names, values, program or arguments is taken
for an option.

## Main results

* `buildArgv_eq`: the vector, or the refusal, of every backend.
* `buildArgv_decodes`: what a reader of the vector finds.
-/

namespace Cosca.Ports.ElevationArgv

open Cosca.Ports.Errors
open Cosca.Ports.CommandRecord
open Cosca.Ports.Elevation
open Cosca.Ports.PosixElevation
open Cosca.Ports.PosixSplit (Bytes)
open Cosca.Verified.Options

/-! ## The reader -/

/-- The words the crate writes as they are. -/
def fixedFlags : List Bytes :=
  [ascii "-n", ascii "-S", ascii "-A", ascii "--disable-internal-agent",
    ascii "--pipe", ascii "--no-ask-password"]

/-- What a front end takes a word for. -/
inductive Meaning where
  | flag (word : Bytes)
  | preserveEnv (names : List Bytes)
  | setenv (name value : Bytes)
  | other (word : Bytes)
  deriving DecidableEq, Repr

/-- `--preserve-env` lists names between commas, and `--setenv` gives a name
and, behind the first `=`, a value. -/
def meaning (word : Bytes) : Meaning :=
  if ascii "--preserve-env=" <+: word then
    .preserveEnv ((word.drop (ascii "--preserve-env=").length).splitOn 44)
  else if ascii "--setenv=" <+: word then
    let (name, value) := cut 61 (word.drop (ascii "--setenv=").length)
    .setenv name value
  else if word ∈ fixedFlags then .flag word
  else .other word

/-- A word that starts with a dash. -/
def isDashed (word : Bytes) : Bool :=
  word.head? == some 45

/-- What stops a front end; `pkexec` knows no terminator. -/
def terminator (backend : Backend) : Option Bytes :=
  if backend = .pkexec then none else some (ascii "--")

/-- How the front end reads its vector: what it takes its options for, and the
command. -/
def readArgv (backend : Backend) (argv : List Bytes) :
    List Meaning × List Bytes :=
  let (options, command) := read isDashed (terminator backend) argv.tail
  (options.map meaning, command)

/-! ## Names -/

/-- A letter or an underscore. -/
def NameStart (c : UInt8) : Prop :=
  (65 ≤ c.toNat ∧ c.toNat ≤ 90) ∨ (97 ≤ c.toNat ∧ c.toNat ≤ 122) ∨
    c.toNat = 95

/-- `[A-Za-z_][A-Za-z0-9_]*`. -/
def IsName (k : Bytes) : Prop :=
  ∃ c rest, k = c :: rest ∧ NameStart c ∧
    ∀ d ∈ rest, NameStart d ∨ (48 ≤ d.toNat ∧ d.toNat ≤ 57)

theorem nameStart_iff (c : UInt8) :
    (c == 95 || isAsciiAlphabetic c) = true ↔ NameStart c := by
  unfold isAsciiAlphabetic NameStart
  simp only [Bool.or_eq_true, Bool.and_eq_true, decide_eq_true_eq,
    beq_iff_eq, UInt8.le_iff_toNat_le, ← UInt8.toNat_inj]
  show c.toNat = 95 ∨ (65 ≤ c.toNat ∧ c.toNat ≤ 90) ∨
    (97 ≤ c.toNat ∧ c.toNat ≤ 122) ↔ _
  omega

theorem nameByte_iff (c : UInt8) :
    (c == 95 || isAsciiAlphanumeric c) = true ↔
      NameStart c ∨ (48 ≤ c.toNat ∧ c.toNat ≤ 57) := by
  rw [← nameStart_iff]
  unfold isAsciiAlphanumeric
  simp only [Bool.or_eq_true, Bool.and_eq_true, decide_eq_true_eq,
    UInt8.le_iff_toNat_le, or_assoc]
  exact Iff.rfl

theorem validEnvName_iff (k : Bytes) : validEnvName k = true ↔ IsName k := by
  cases k with
  | nil =>
      refine iff_of_false Bool.false_ne_true ?_
      rintro ⟨c, rest, hk, _⟩
      cases hk
  | cons c rest =>
      unfold validEnvName
      dsimp only
      rw [Bool.and_eq_true, nameStart_iff, List.all_eq_true]
      constructor
      · rintro ⟨hstart, hall⟩
        exact ⟨c, rest, rfl, hstart, fun d hd =>
          (nameByte_iff d).mp (hall d (List.mem_cons_of_mem _ hd))⟩
      · rintro ⟨c', rest', hk, hstart, hall⟩
        cases hk
        refine ⟨hstart, ?_⟩
        intro d hd
        rw [nameByte_iff]
        rcases List.mem_cons.mp hd with rfl | hd
        · exact Or.inl hstart
        · exact hall d hd

/-- No name holds a separator. -/
theorem IsName.not_mem {k : Bytes} (h : IsName k) {sep : UInt8}
    (hsep : sep = 44 ∨ sep = 61) : sep ∉ k := by
  obtain ⟨c, rest, rfl, hstart, hall⟩ := h
  have hbyte : ∀ d ∈ c :: rest,
      NameStart d ∨ (48 ≤ d.toNat ∧ d.toNat ≤ 57) := by
    intro d hd
    rcases List.mem_cons.mp hd with rfl | hd
    · exact Or.inl hstart
    · exact hall d hd
  intro hmem
  have hsep' := hbyte sep hmem
  unfold NameStart at hsep'
  rcases hsep with rfl | rfl
  · revert hsep'
    decide
  · revert hsep'
    decide

/-! ## What is written -/

/-- The first name that cannot be forwarded. -/
def badName (env : List (Bytes × Bytes)) : Option Bytes :=
  (env.map Prod.fst).find? (!validEnvName ·)

theorem badName_eq_none_iff (env : List (Bytes × Bytes)) :
    badName env = none ↔ ∀ p ∈ env, IsName p.1 := by
  unfold badName
  rw [List.find?_eq_none]
  constructor
  · intro h p hp
    have hvalid := h p.1 (List.mem_map_of_mem hp)
    rw [← validEnvName_iff]
    simpa using hvalid
  · intro h k hk
    obtain ⟨p, hp, rfl⟩ := List.mem_map.mp hk
    have hvalid := (validEnvName_iff p.1).mpr (h p hp)
    simp [hvalid]

theorem badName_cons {p : Bytes × Bytes} (h : validEnvName p.1 = true)
    (env : List (Bytes × Bytes)) : badName (p :: env) = badName env := by
  unfold badName
  rw [List.map_cons, List.find?_cons_of_neg (by simp [h])]

theorem badName_cons_bad {p : Bytes × Bytes} (h : validEnvName p.1 = false)
    (env : List (Bytes × Bytes)) : badName (p :: env) = some p.1 := by
  unfold badName
  rw [List.map_cons, List.find?_cons_of_pos (by simp [h])]

/-- The names between commas, from the `i`-th on. -/
def joined (i : Nat) (names : List Bytes) : Bytes :=
  if i = 0 then [44].intercalate names else names.flatMap (44 :: ·)

theorem joined_zero_cons (k : Bytes) (names : List Bytes) :
    joined 0 (k :: names) = k ++ joined 1 names := by
  show [44].intercalate (k :: names) = k ++ names.flatMap (44 :: ·)
  induction names generalizing k with
  | nil => simp
  | cons name names ih =>
      rw [List.intercalate_cons_cons, ih, List.flatMap_cons,
        List.append_assoc]
      rfl

/-- The definition of a variable. -/
def setenvWord (p : Bytes × Bytes) : Bytes :=
  ascii "--setenv=" ++ p.1 ++ ascii "=" ++ p.2

/-- The words that forward the environment. -/
def envWords (backend : Backend) (env : List (Bytes × Bytes)) : List Bytes :=
  match backend with
  | .sudo =>
      if env.isEmpty then []
      else [ascii "--preserve-env=" ++ [44].intercalate (env.map Prod.fst)]
  | .run0 => env.map setenvWord
  | _ => []

section

variable (debug : Bytes → String)

/-- What the request is refused with. -/
def refusal (backend : Backend) (program : Bytes)
    (env : List (Bytes × Bytes)) : Option Error :=
  match backend with
  | .sudo | .run0 => (badName env).map (unsupportedEnvName debug)
  | .pkexec =>
      if programStartsWithDash program then
        some (.unsupported "elevating a leading-dash program under pkexec"
          "unix"
          "pkexec cannot parse a `--` terminator, so a program starting with `-` would be taken as a pkexec option; use sudo/doas/run0, or a non-dash program path")
      else none
  | _ => none

/-- A value, unless there is a refusal. -/
def refuseOr {α : Type} (refused : Option Error) (a : α) : Except Error α :=
  match refused with
  | some e => .error e
  | none => .ok a

theorem refuseOr_map {α β : Type} (refused : Option Error) (a : α)
    (f : α → β) : (refuseOr refused a).map f = refuseOr refused (f a) := by
  cases refused <;> rfl

theorem preserveEnvLoop_eq (env : List (Bytes × Bytes)) :
    ∀ (flag : Bytes) (i : Nat),
      preserveEnvLoop debug flag i env =
        refuseOr ((badName env).map (unsupportedEnvName debug))
          (flag ++ joined i (env.map Prod.fst)) := by
  induction env with
  | nil =>
      intro flag i
      have hnone : joined i [] = [] := by
        unfold joined
        split <;> rfl
      show Except.ok flag = Except.ok (flag ++ joined i [])
      rw [hnone, List.append_nil]
  | cons p env ih =>
      intro flag i
      rw [preserveEnvLoop]
      by_cases hk : validEnvName p.1 = true
      · rw [hk, Bool.not_true, if_neg Bool.false_ne_true, badName_cons hk, ih,
          List.map_cons]
        congr 1
        by_cases hi : i = 0
        · subst hi
          rw [joined_zero_cons, if_neg (Nat.lt_irrefl 0),
            List.append_assoc]
        · rw [if_pos (Nat.pos_of_ne_zero hi)]
          unfold joined
          rw [if_neg hi, if_neg (Nat.succ_ne_zero i), List.flatMap_cons]
          show flag ++ [44] ++ p.1 ++ _ = flag ++ (44 :: p.1 ++ _)
          simp
      · rw [Bool.not_eq_true] at hk
        rw [hk, badName_cons_bad hk]
        rfl

theorem setenvWords_eq (env : List (Bytes × Bytes)) :
    setenvWords debug env =
      refuseOr ((badName env).map (unsupportedEnvName debug))
        (env.map setenvWord) := by
  induction env with
  | nil => rfl
  | cons p env ih =>
      rw [setenvWords]
      by_cases hk : validEnvName p.1 = true
      · rw [hk, Bool.not_true, if_neg Bool.false_ne_true, badName_cons hk, ih]
        cases badName env <;> rfl
      · rw [Bool.not_eq_true] at hk
        rw [hk, badName_cons_bad hk]
        rfl

theorem on_lift_pure {α β : Type} (x : Except Error α) (g : α → β)
    (cmd : Command Bytes) :
    Elevating.on (lift x >>= fun a => pure (g a)) cmd =
      some (x.map g, cmd) := by
  cases x <;> rfl

/-- The options of a backend that has been resolved: flags of the crate, and
then the words that forward the environment. -/
theorem backendOptions_eq {backend : Backend} (hresolved : backend ≠ .auto)
    (auth : Auth Bytes) (program : Bytes) {env : List (Bytes × Bytes)}
    (hempty : backend = .doas ∨ backend = .pkexec → env = [])
    (cmd : Command Bytes) :
    ∃ flags, (∀ flag ∈ flags, flag ∈ fixedFlags) ∧
      Elevating.on (backendOptions debug backend auth program env) cmd =
        some (refuseOr (refusal debug backend program env)
          (flags ++ envWords backend env), cmd) := by
  cases backend with
  | auto => exact absurd rfl hresolved
  | run0 =>
      have hrun (flags : List Bytes) :
          Elevating.on (lift (setenvWords debug env) >>= fun words =>
            pure ([ascii "--pipe"] ++ flags ++ words)) cmd =
          some (refuseOr (refusal debug .run0 program env)
            (([ascii "--pipe"] ++ flags) ++ envWords .run0 env), cmd) := by
        rw [on_lift_pure, setenvWords_eq, refuseOr_map]
        rfl
      cases auth with
      | nonInteractive =>
          exact ⟨_, by decide, hrun [ascii "--no-ask-password"]⟩
      | interactive | askpass _ | stdin _ | gui =>
          exact ⟨_, by decide, hrun []⟩
  | «sudo» =>
      have hwords : (if env.isEmpty then .ok []
            else (preserveEnvFlag debug env).map fun flag => [flag]) =
          refuseOr (refusal debug .sudo program env)
            (envWords .sudo env) := by
        unfold preserveEnvFlag envWords
        rw [preserveEnvLoop_eq, refuseOr_map]
        cases env with
        | nil => rfl
        | cons p env => rfl
      have hrun (flags : List Bytes) :
          Elevating.on (lift (if env.isEmpty then .ok []
            else (preserveEnvFlag debug env).map fun flag => [flag]) >>=
              fun words => pure (flags ++ words)) cmd =
          some (refuseOr (refusal debug .sudo program env)
            (flags ++ envWords .sudo env), cmd) := by
        rw [on_lift_pure, hwords, refuseOr_map]
      cases auth with
      | nonInteractive => exact ⟨_, by decide, hrun [ascii "-n"]⟩
      | stdin _ => exact ⟨_, by decide, hrun [ascii "-S"]⟩
      | askpass _ => exact ⟨_, by decide, hrun [ascii "-A"]⟩
      | interactive | gui => exact ⟨_, by decide, hrun []⟩
  | doas =>
      rw [hempty (Or.inl rfl)]
      cases auth with
      | nonInteractive => exact ⟨[ascii "-n"], by decide, rfl⟩
      | interactive | askpass _ | stdin _ | gui =>
          exact ⟨[], by decide, rfl⟩
  | pkexec =>
      rw [hempty (Or.inr rfl)]
      refine ⟨[ascii "--disable-internal-agent"], by decide, ?_⟩
      unfold refusal backendOptions
      cases hdash : programStartsWithDash program with
      | false => rfl
      | true => rfl

/-- The vector of a backend that has been resolved, or its refusal. -/
theorem buildArgv_eq {backend : Backend} (hresolved : backend ≠ .auto)
    (path : Bytes) (auth : Auth Bytes) (program : Bytes) (args : List Bytes)
    {env : List (Bytes × Bytes)}
    (hempty : backend = .doas ∨ backend = .pkexec → env = [])
    (cmd : Command Bytes) :
    ∃ flags, (∀ flag ∈ flags, flag ∈ fixedFlags) ∧
      Elevating.on (buildArgv debug backend path auth program args env) cmd =
        some (refuseOr (refusal debug backend program env)
          (path :: (flags ++ envWords backend env ++
            ((terminator backend).toList ++ program :: args))), cmd) := by
  obtain ⟨flags, hflags, hoptions⟩ :=
    backendOptions_eq debug hresolved auth program hempty cmd
  refine ⟨flags, hflags, ?_⟩
  have hstop : (if backend != .pkexec then [ascii "--"] else []) =
      (terminator backend).toList := by
    cases backend <;> rfl
  unfold buildArgv
  rw [on_bind, hoptions, hstop]
  cases refusal debug backend program env with
  | some e => rfl
  | none =>
      have hvector : [path] ++ (flags ++ envWords backend env) ++
            (terminator backend).toList ++ program :: args =
          path :: (flags ++ envWords backend env ++
            ((terminator backend).toList ++ program :: args)) := by
        rw [← List.append_assoc, ← List.append_assoc]
        rfl
      rw [← hvector]
      rfl

end

/-! ## What is read -/

/-- What the front end is told about the environment. -/
def forwarded (backend : Backend) (env : List (Bytes × Bytes)) :
    List Meaning :=
  match backend with
  | .sudo => if env.isEmpty then [] else [.preserveEnv (env.map Prod.fst)]
  | .run0 => env.map fun (k, v) => .setenv k v
  | _ => []

theorem meaning_flag {word : Bytes} (h : word ∈ fixedFlags) :
    meaning word = .flag word := by
  revert word
  decide

theorem meaning_preserveEnv {names : List Bytes} (hne : names ≠ [])
    (h : ∀ k ∈ names, IsName k) :
    meaning (ascii "--preserve-env=" ++ [44].intercalate names) =
      .preserveEnv names := by
  have hsplit : ([44].intercalate names).splitOn 44 = names :=
    List.splitOn_intercalate 44 (fun k hk => (h k hk).not_mem (Or.inl rfl))
      hne
  rw [meaning, if_pos (List.prefix_append _ _), List.drop_left, hsplit]

theorem setenvWord_eq (p : Bytes × Bytes) :
    setenvWord p = ascii "--setenv=" ++ (p.1 ++ 61 :: p.2) := by
  unfold setenvWord
  rw [List.append_assoc, List.append_assoc]
  rfl

theorem meaning_setenv {p : Bytes × Bytes} (h : IsName p.1) :
    meaning (setenvWord p) = .setenv p.1 p.2 := by
  have hother : ¬ ascii "--preserve-env=" <+:
      ascii "--setenv=" ++ (p.1 ++ 61 :: p.2) := by
    rintro ⟨rest, heq⟩
    have hthird : some (112 : UInt8) = some 115 := congrArg (·[2]?) heq
    exact absurd hthird (by decide)
  rw [setenvWord_eq, meaning, if_neg hother,
    if_pos (List.prefix_append _ _), List.drop_left,
    cut_append (h.not_mem (Or.inr rfl))]

/-- A word with something behind its two dashes is an option and no
terminator. -/
theorem dashed_of_third {word : Bytes} {c : UInt8}
    (hfirst : word.head? = some 45) (hthird : word[2]? = some c) :
    isDashed word = true ∧ word ≠ ascii "--" := by
  refine ⟨beq_iff_eq.mpr hfirst, ?_⟩
  rintro rfl
  cases hthird

theorem dashed_of_fixed {word : Bytes} (h : word ∈ fixedFlags) :
    isDashed word = true ∧ word ≠ ascii "--" := by
  revert word
  decide

/-- Every word that forwards the environment is an option. -/
theorem dashed_of_envWords {backend : Backend} {env : List (Bytes × Bytes)}
    {word : Bytes} (h : word ∈ envWords backend env) :
    isDashed word = true ∧ word ≠ ascii "--" := by
  cases backend with
  | «sudo» =>
      cases env with
      | nil => cases h
      | cons p env =>
          rw [List.mem_singleton.mp h]
          exact dashed_of_third rfl rfl
  | run0 =>
      obtain ⟨p, _, rfl⟩ := List.mem_map.mp h
      rw [setenvWord_eq]
      exact dashed_of_third rfl rfl
  | auto | doas | pkexec => cases h

/-- The words that forward the environment are taken for what they were
written for. -/
theorem meaning_envWords {backend : Backend} {env : List (Bytes × Bytes)}
    (h : backend = .sudo ∨ backend = .run0 → ∀ p ∈ env, IsName p.1) :
    (envWords backend env).map meaning = forwarded backend env := by
  cases backend with
  | «sudo» =>
      cases env with
      | nil => rfl
      | cons p env =>
          have hnames : ∀ k ∈ (p :: env).map Prod.fst, IsName k := by
            intro k hk
            obtain ⟨q, hq, rfl⟩ := List.mem_map.mp hk
            exact h (Or.inl rfl) q hq
          exact congrArg (· :: []) (meaning_preserveEnv (by simp) hnames)
  | run0 =>
      show (env.map setenvWord).map meaning = _
      rw [List.map_map]
      exact List.map_congr_left fun p hp =>
        meaning_setenv (h (Or.inr rfl) p hp)
  | auto | doas | pkexec => rfl

/-! ## The request -/

/-- A name that cannot be forwarded, or a program that `pkexec` would take for
an option. -/
def Refused (backend : Backend) (program : Bytes)
    (env : List (Bytes × Bytes)) : Prop :=
  ((backend = .sudo ∨ backend = .run0) ∧ ∃ p ∈ env, ¬ IsName p.1) ∨
    (backend = .pkexec ∧ isDashed program = true)

theorem refusal_eq_none_iff (debug : Bytes → String) (backend : Backend)
    (program : Bytes) (env : List (Bytes × Bytes)) :
    refusal debug backend program env = none ↔
      ¬ Refused backend program env := by
  unfold Refused
  cases backend with
  | «sudo» | run0 =>
      simp [refusal, badName_eq_none_iff]
  | pkexec =>
      have hsame : programStartsWithDash program = isDashed program := rfl
      simp [refusal, hsame]
  | auto | doas =>
      simp [refusal]

/-- A vector that is not refused is read back as it was written. -/
theorem readArgv_vector {backend : Backend} {program : Bytes}
    {env : List (Bytes × Bytes)} (haccepted : ¬ Refused backend program env)
    {flags : List Bytes} (hflags : ∀ flag ∈ flags, flag ∈ fixedFlags)
    (path : Bytes) (args : List Bytes) :
    readArgv backend (path :: (flags ++ envWords backend env ++
        ((terminator backend).toList ++ program :: args))) =
      (flags.map .flag ++ forwarded backend env, program :: args) := by
  have hnames : backend = .sudo ∨ backend = .run0 →
      ∀ p ∈ env, IsName p.1 := by
    intro hbackend p hp
    exact Classical.byContradiction fun h =>
      haccepted (Or.inl ⟨hbackend, p, hp, h⟩)
  have hdashed : ∀ word ∈ flags ++ envWords backend env,
      isDashed word = true ∧ word ≠ ascii "--" := by
    intro word hword
    rcases List.mem_append.mp hword with hflag | henv
    · exact dashed_of_fixed (hflags word hflag)
    · exact dashed_of_envWords henv
  have hread : read isDashed (terminator backend)
      (flags ++ envWords backend env ++
        ((terminator backend).toList ++ program :: args)) =
      (flags ++ envWords backend env, program :: args) := by
    by_cases hpkexec : backend = .pkexec
    · subst hpkexec
      have hprogram : isDashed program = false := by
        rw [← Bool.not_eq_true]
        exact fun h => haccepted (Or.inr ⟨rfl, h⟩)
      exact read_operand (fun word hword => (hdashed word hword).1)
        hprogram args
    · unfold terminator
      rw [if_neg hpkexec]
      exact read_terminated hdashed (program :: args)
  have hmeaning : (flags ++ envWords backend env).map meaning =
      flags.map .flag ++ forwarded backend env := by
    rw [List.map_append, meaning_envWords hnames]
    congr 1
    exact List.map_congr_left fun flag hflag =>
      meaning_flag (hflags flag hflag)
  unfold readArgv
  rw [List.tail_cons, hread, ← hmeaning]

/-- For a backend that has been resolved, and no environment where the backend
forwards none: the request is refused exactly for a bad name or a dashed
program, and otherwise the front end reads flags of the crate, the environment
as it was given, and the program with its arguments. -/
theorem buildArgv_decodes (debug : Bytes → String) (backend : Backend)
    (path : Bytes) (auth : Auth Bytes) (program : Bytes) (args : List Bytes)
    (env : List (Bytes × Bytes)) (cmd : Command Bytes)
    (hresolved : backend ≠ .auto)
    (hempty : backend = .doas ∨ backend = .pkexec → env = []) :
    ∃ r, Elevating.on (buildArgv debug backend path auth program args env)
        cmd = some (r, cmd) ∧
      ((∃ e, r = .error e) ↔ Refused backend program env) ∧
      ∀ argv, r = .ok argv → argv.head? = some path ∧
        ∃ flags : List Bytes, (∀ flag ∈ flags, flag ∈ fixedFlags) ∧
          readArgv backend argv =
            (flags.map .flag ++ forwarded backend env, program :: args) := by
  obtain ⟨flags, hflags, hargv⟩ :=
    buildArgv_eq debug hresolved path auth program args hempty cmd
  refine ⟨_, hargv, ?_⟩
  have hnone := refusal_eq_none_iff debug backend program env
  cases hrefusal : refusal debug backend program env with
  | some e =>
      rw [hrefusal] at hnone
      refine ⟨iff_of_true ⟨e, rfl⟩ ?_, nofun⟩
      exact Classical.not_not.mp fun h => nomatch hnone.mpr h
  | none =>
      have haccepted := hnone.mp hrefusal
      refine ⟨iff_of_false nofun haccepted, ?_⟩
      intro argv hr
      cases hr
      exact ⟨rfl, flags, hflags, readArgv_vector haccepted hflags path args⟩

/-- A value of dashes and a program of dashes under `run0`. -/
theorem buildArgv_decodes_dashes :
    ∃ flags : List Bytes, (∀ flag ∈ flags, flag ∈ fixedFlags) ∧
      readArgv .run0 [ascii "/usr/bin/run0", ascii "--pipe",
        ascii "--setenv=A=b=--", ascii "--", ascii "--", ascii "-x"] =
          (flags.map .flag ++ [.setenv (ascii "A") (ascii "b=--")],
            [ascii "--", ascii "-x"]) := by
  obtain ⟨r, hrun, _, hread⟩ := buildArgv_decodes (fun _ => "") .run0
    (ascii "/usr/bin/run0") .interactive (ascii "--") [ascii "-x"]
    [(ascii "A", ascii "b=--")] Command.default nofun nofun
  cases hrun
  exact (hread _ rfl).2

end Cosca.Ports.ElevationArgv
