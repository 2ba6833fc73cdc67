import Mathlib.Data.List.Sort
import Cosca.Ports.CommandRecord
import Cosca.Ports.PosixSplit
import Cosca.Verified.Utf8

/-!
# The environment sanitizer

`elevation/sanitize.rs` on Unix, where a variable name is a byte string: the
policy decides about each explicitly forwarded variable, and what is kept and
what is dropped come out sorted.

A name is compared with the denylist through its lossy text, which stands here
as its UTF-8 bytes.  The denied names and prefixes are ASCII, so that this is a
comparison of the name's own bytes: `isDenied_iff`.
-/

namespace Cosca.Ports.EnvSanitizer

open Cosca.Ports.CommandRecord
open Cosca.Ports.PosixSplit (Bytes)
open Cosca.Verified.Utf8

/-- `DEFAULT_DENYLIST`. -/
def defaultDenylist : List Bytes :=
  ["IFS", "BASH_ENV", "ENV", "PS4", "TERMINFO", "TERMCAP", "HOSTALIASES",
    "RES_OPTIONS", "LIBPATH", "SHLIB_PATH", "GCONV_PATH", "PYTHONPATH",
    "PERL5LIB", "NODE_OPTIONS"].map fun name => encode name.toList

/-- `DENYLIST_PREFIXES`. -/
def denylistPrefixes : List Bytes :=
  ["LD_", "DYLD_", "_RLD", "LDR_"].map fun name => encode name.toList

/-- `OsStr::to_string_lossy`. -/
def toStringLossy (key : Bytes) : Bytes :=
  encode (lossy key)

/-- `is_denied`. -/
def isDenied (key : Bytes) : Bool :=
  let k := toStringLossy key
  denylistPrefixes.any (·.isPrefixOf k) || defaultDenylist.contains k

theorem denylistPrefixes_ascii :
    ∀ p ∈ denylistPrefixes, ∀ x ∈ p, x < 0x80 := by
  decide +kernel

theorem defaultDenylist_ascii :
    ∀ k ∈ defaultDenylist, ∀ x ∈ k, x < 0x80 := by
  decide +kernel

/-- A name is denied for its bytes, whether they are valid text or not. -/
theorem isDenied_iff (key : Bytes) : isDenied key = true ↔
    (∃ p ∈ denylistPrefixes, p <+: key) ∨ key ∈ defaultDenylist := by
  have hstarts : ∀ p ∈ denylistPrefixes,
      p <+: toStringLossy key ↔ p <+: key := fun p hp =>
    prefix_lossy_iff (denylistPrefixes_ascii p hp) key
  have hname : toStringLossy key ∈ defaultDenylist ↔
      key ∈ defaultDenylist := by
    constructor
    · intro h
      have hbytes := (lossy_eq_iff (defaultDenylist_ascii _ h) key).mp rfl
      rw [hbytes]
      exact h
    · intro h
      have htext : toStringLossy key = key :=
        (lossy_eq_iff (defaultDenylist_ascii key h) key).mpr rfl
      rw [htext]
      exact h
  unfold isDenied
  simp only [Bool.or_eq_true, List.any_eq_true, List.isPrefixOf_iff_prefix,
    List.contains_eq_mem, decide_eq_true_eq, hname]
  refine or_congr_left (exists_congr fun p => ?_)
  exact and_congr_right (hstarts p)

/-- `LD_` before a byte that is no text. -/
example : isDenied [0x4C, 0x44, 0x5F, 0xFF] = true := by
  decide +kernel

/-- Whether the policy keeps the variable. -/
def Policy.keeps (policy : Policy Bytes) (key value : Bytes) : Bool :=
  match policy with
  | .none => true
  | .allowlist allow => allow.contains key
  | .filter f => f key value
  | .denylist keep => keep.contains key || !isDenied key

/-- `EnvSanitizer::apply`: the variables that are kept and the names that are
dropped, both sorted by name. -/
def apply (s : EnvSanitizer Bytes) (env : List (Bytes × Bytes)) :
    List (Bytes × Bytes) × List Bytes :=
  let kept := env.filter fun (k, v) => Policy.keeps s.policy k v
  let stripped := env.filter fun (k, v) => !Policy.keeps s.policy k v
  (kept.insertionSort fun a b => a.1 ≤ b.1,
    (stripped.map fun (k, _) => k).insertionSort fun a b => a ≤ b)

/-! ## The two parts -/

section

variable {s : EnvSanitizer Bytes} {env : List (Bytes × Bytes)}

theorem mem_kept {p : Bytes × Bytes} : p ∈ (apply s env).1 ↔
    p ∈ env ∧ Policy.keeps s.policy p.1 p.2 = true := by
  rw [apply, List.mem_insertionSort, List.mem_filter]

theorem mem_stripped {key : Bytes} : key ∈ (apply s env).2 ↔
    ∃ value, (key, value) ∈ env ∧ Policy.keeps s.policy key value = false := by
  rw [apply, List.mem_insertionSort, List.mem_map]
  constructor
  · rintro ⟨⟨k, v⟩, hmem, rfl⟩
    obtain ⟨hin, hrejected⟩ := List.mem_filter.mp hmem
    exact ⟨v, hin, by simpa using hrejected⟩
  · rintro ⟨value, hin, hrejected⟩
    refine ⟨(key, value), List.mem_filter.mpr ⟨hin, ?_⟩, rfl⟩
    show (!Policy.keeps s.policy key value) = true
    rw [hrejected]
    rfl

theorem stripped_sorted : (apply s env).2.Pairwise (· ≤ ·) :=
  List.pairwise_insertionSort _ _

variable (h : (env.map Prod.fst).Nodup)

include h

theorem kept_nodup : ((apply s env).1.map Prod.fst).Nodup := by
  have hperm := List.perm_insertionSort (fun a b => a.1 ≤ b.1)
    (env.filter fun (k, v) => Policy.keeps s.policy k v)
  have hfilter : ((env.filter fun (k, v) =>
      Policy.keeps s.policy k v).map Prod.fst).Nodup :=
    h.sublist (List.filter_sublist.map Prod.fst)
  exact (hperm.map Prod.fst).nodup_iff.mpr hfilter

theorem stripped_nodup : (apply s env).2.Nodup := by
  have hperm := List.perm_insertionSort (fun a b => a ≤ b)
    ((env.filter fun (k, v) => !Policy.keeps s.policy k v).map Prod.fst)
  have hfilter : ((env.filter fun (k, v) =>
      !Policy.keeps s.policy k v).map Prod.fst).Nodup :=
    h.sublist (List.filter_sublist.map Prod.fst)
  exact hperm.nodup_iff.mpr hfilter

end

end Cosca.Ports.EnvSanitizer
